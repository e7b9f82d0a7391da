import Fastpx.Config.Cidr

/-!
# Which addresses are reached directly

The address tests of `routing.rs`, over the tests of the standard library for
loopback, private and link-local addresses.

The tests look at single octets and segments.  `isDirectAddress_iff` shows that
they describe the networks `defaultNetworks`: every test is brought to the form
of a quotient of the address, as is membership in a network.
-/

namespace Fastpx
namespace Routing

open StreamKit Config

/-- An octet of an IPv4 address, counted from the left. -/
def octetV4 (address : BitVec 32) (i : Nat) : BitVec 8 :=
  address.extractLsb' (8 * (3 - i)) 8

/-- `Ipv4Addr::is_loopback`: 127.0.0.0/8. -/
def isLoopbackV4 (address : BitVec 32) : Bool := octetV4 address 0 == 127

/-- `Ipv4Addr::is_private`: 10.0.0.0/8, 172.16.0.0/12, 192.168.0.0/16. -/
def isPrivateV4 (address : BitVec 32) : Bool :=
  octetV4 address 0 == 10 ||
    (octetV4 address 0 == 172 && decide (16 ≤ octetV4 address 1 ∧ octetV4 address 1 ≤ 31)) ||
    (octetV4 address 0 == 192 && octetV4 address 1 == 168)

/-- `Ipv4Addr::is_link_local`: 169.254.0.0/16. -/
def isLinkLocalV4 (address : BitVec 32) : Bool :=
  octetV4 address 0 == 169 && octetV4 address 1 == 254

/-- `Ipv6Addr::is_loopback`: the address `::1`. -/
def isLoopbackV6 (address : BitVec 128) : Bool := address == 1

/-- `Ipv6Addr::is_unicast_link_local`: the first segment is in fe80::/10. -/
def isUnicastLinkLocalV6 (address : BitVec 128) : Bool :=
  address.extractLsb' 112 16 &&& 0xffc0 == 0xfe80

def isDefaultDirectV4 (address : BitVec 32) : Bool :=
  let first := octetV4 address 0
  let second := octetV4 address 1
  isLoopbackV4 address || isPrivateV4 address || isLinkLocalV4 address ||
    (first == 100 && decide (64 ≤ second ∧ second ≤ 127))

def isDefaultDirectV6 (address : BitVec 128) : Bool :=
  let first : BitVec 8 := address.extractLsb' 120 8
  isLoopbackV6 address || isUnicastLinkLocalV6 address || first &&& 0xfe == 0xfc

def isDefaultDirectAddress : IpAddr → Bool
  | .v4 address => isDefaultDirectV4 address
  | .v6 address => isDefaultDirectV6 address

/-- Is the address internal, by default or by an additional network? -/
def isDirectAddress (address : IpAddr) (additional : List IpCidr) : Bool :=
  isDefaultDirectAddress address || additional.any fun network => network.contains address

/-! ## The default networks -/

/-- The address with these octets. -/
def ofOctets (a b c d : BitVec 8) : IpAddr := .v4 (a ++ b ++ c ++ d)

/-- The address with this first and this last segment, and zeros between. -/
def ofSegments (first last : BitVec 16) : IpAddr := .v6 (first ++ (0 : BitVec 96) ++ last)

/-- The documented networks: 127.0.0.0/8, 10.0.0.0/8, 172.16.0.0/12,
192.168.0.0/16, 169.254.0.0/16, 100.64.0.0/10, ::1/128, fe80::/10, fc00::/7. -/
def defaultNetworks : List IpCidr :=
  [.ofAddress (ofOctets 127 0 0 0) 8 (by decide), .ofAddress (ofOctets 10 0 0 0) 8 (by decide),
    .ofAddress (ofOctets 172 16 0 0) 12 (by decide),
    .ofAddress (ofOctets 192 168 0 0) 16 (by decide),
    .ofAddress (ofOctets 169 254 0 0) 16 (by decide),
    .ofAddress (ofOctets 100 64 0 0) 10 (by decide), .ofAddress (ofSegments 0 1) 128 (by decide),
    .ofAddress (ofSegments 0xfe80 0) 10 (by decide), .ofAddress (ofSegments 0xfc00 0) 7 (by decide)]

/-! ## Membership as a quotient -/

theorem contains_v4_iff {network address : BitVec 32} {prefixLen : UInt8}
    (h : prefixLen.toNat ≤ (IpAddr.v4 network).width) :
    (IpCidr.ofAddress (.v4 network) prefixLen h).contains (.v4 address) = true ↔
      address.toNat / 2 ^ (32 - prefixLen.toNat) = network.toNat / 2 ^ (32 - prefixLen.toNat) := by
  rw [IpCidr.contains_ofAddress, eq_comm]
  exact agreeOn_iff_toNat_div h

theorem contains_v6_iff {network address : BitVec 128} {prefixLen : UInt8}
    (h : prefixLen.toNat ≤ (IpAddr.v6 network).width) :
    (IpCidr.ofAddress (.v6 network) prefixLen h).contains (.v6 address) = true ↔
      address.toNat / 2 ^ (128 - prefixLen.toNat) =
        network.toNat / 2 ^ (128 - prefixLen.toNat) := by
  rw [IpCidr.contains_ofAddress, eq_comm]
  exact agreeOn_iff_toNat_div h

/-- A network of the other family has no such address. -/
theorem contains_v6_v4 {network : BitVec 128} {address : BitVec 32} {prefixLen : UInt8}
    (h : prefixLen.toNat ≤ (IpAddr.v6 network).width) :
    (IpCidr.ofAddress (.v6 network) prefixLen h).contains (.v4 address) = false := rfl

theorem contains_v4_v6 {network : BitVec 32} {address : BitVec 128} {prefixLen : UInt8}
    (h : prefixLen.toNat ≤ (IpAddr.v4 network).width) :
    (IpCidr.ofAddress (.v4 network) prefixLen h).contains (.v6 address) = false := rfl

/-- The IPv4 networks of the list, by the number before the host bits. -/
theorem exists_default_v4_iff (address : BitVec 32) :
    (∃ network ∈ defaultNetworks, network.contains (.v4 address) = true) ↔
      address.toNat / 2 ^ 24 = 127 ∨ address.toNat / 2 ^ 24 = 10 ∨
        address.toNat / 2 ^ 20 = 0xac1 ∨ address.toNat / 2 ^ 16 = 0xc0a8 ∨
        address.toNat / 2 ^ 16 = 0xa9fe ∨ address.toNat / 2 ^ 22 = 0x191 := by
  simp only [defaultNetworks, ofOctets, ofSegments, List.mem_cons, List.not_mem_nil, or_false,
    exists_eq_or_imp, exists_eq_left, contains_v4_iff, contains_v6_v4, Bool.false_eq_true]
  exact Iff.rfl

theorem exists_default_v6_iff (address : BitVec 128) :
    (∃ network ∈ defaultNetworks, network.contains (.v6 address) = true) ↔
      address.toNat / 2 ^ 0 = 1 ∨ address.toNat / 2 ^ 118 = 0x3fa ∨
        address.toNat / 2 ^ 121 = 0x7e := by
  simp only [defaultNetworks, ofOctets, ofSegments, List.mem_cons, List.not_mem_nil, or_false,
    exists_eq_or_imp, exists_eq_left, contains_v6_iff, contains_v4_v6, Bool.false_eq_true,
    false_or]
  exact Iff.rfl

/-! ## The tests as quotients -/

theorem toNat_first (address : BitVec 32) :
    (octetV4 address 0).toNat = address.toNat / 2 ^ 24 := by
  have hlt := address.isLt
  rw [octetV4, BitVec.extractLsb'_toNat, Nat.shiftRight_eq_div_pow]
  omega

theorem toNat_second (address : BitVec 32) :
    (octetV4 address 1).toNat = address.toNat / 2 ^ 16 % 2 ^ 8 := by
  rw [octetV4, BitVec.extractLsb'_toNat, Nat.shiftRight_eq_div_pow]

theorem octetV4_eq_iff (address : BitVec 32) (i : Nat) (octet : BitVec 8) :
    (octetV4 address i == octet) = true ↔ (octetV4 address i).toNat = octet.toNat := by
  rw [beq_iff_eq, BitVec.toNat_inj]

theorem isLoopbackV4_iff (address : BitVec 32) :
    isLoopbackV4 address = true ↔ address.toNat / 2 ^ 24 = 127 := by
  rw [isLoopbackV4, octetV4_eq_iff, toNat_first]
  rfl

theorem isPrivateV4_iff (address : BitVec 32) :
    isPrivateV4 address = true ↔ address.toNat / 2 ^ 24 = 10 ∨
      address.toNat / 2 ^ 20 = 0xac1 ∨ address.toNat / 2 ^ 16 = 0xc0a8 := by
  have hoctets : isPrivateV4 address = true ↔ (address.toNat / 2 ^ 24 = 10 ∨
      address.toNat / 2 ^ 24 = 172 ∧ 16 ≤ address.toNat / 2 ^ 16 % 2 ^ 8 ∧
        address.toNat / 2 ^ 16 % 2 ^ 8 ≤ 31) ∨
      address.toNat / 2 ^ 24 = 192 ∧ address.toNat / 2 ^ 16 % 2 ^ 8 = 168 := by
    simp only [isPrivateV4, Bool.or_eq_true, Bool.and_eq_true, decide_eq_true_eq, octetV4_eq_iff,
      BitVec.le_def, toNat_first, toNat_second]
    exact Iff.rfl
  rw [hoctets]
  omega

theorem isLinkLocalV4_iff (address : BitVec 32) :
    isLinkLocalV4 address = true ↔ address.toNat / 2 ^ 16 = 0xa9fe := by
  have hoctets : isLinkLocalV4 address = true ↔
      address.toNat / 2 ^ 24 = 169 ∧ address.toNat / 2 ^ 16 % 2 ^ 8 = 254 := by
    simp only [isLinkLocalV4, Bool.and_eq_true, octetV4_eq_iff, toNat_first, toNat_second]
    exact Iff.rfl
  rw [hoctets]
  omega

theorem isDefaultDirectV4_iff (address : BitVec 32) :
    isDefaultDirectV4 address = true ↔
      ∃ network ∈ defaultNetworks, network.contains (.v4 address) = true := by
  have hshared : (octetV4 address 0 == 100 &&
      decide (64 ≤ octetV4 address 1 ∧ octetV4 address 1 ≤ 127)) = true ↔
        address.toNat / 2 ^ 24 = 100 ∧ 64 ≤ address.toNat / 2 ^ 16 % 2 ^ 8 ∧
          address.toNat / 2 ^ 16 % 2 ^ 8 ≤ 127 := by
    simp only [Bool.and_eq_true, decide_eq_true_eq, octetV4_eq_iff, BitVec.le_def, toNat_first,
      toNat_second]
    exact Iff.rfl
  rw [exists_default_v4_iff, isDefaultDirectV4, Bool.or_eq_true, Bool.or_eq_true, Bool.or_eq_true,
    isLoopbackV4_iff, isPrivateV4_iff, isLinkLocalV4_iff, hshared]
  omega

theorem isUnicastLinkLocalV6_iff (address : BitVec 128) :
    isUnicastLinkLocalV6 address = true ↔ address.toNat / 2 ^ 118 = 0x3fa := by
  have hlt := address.isLt
  have hmask : (0xffc0 : BitVec 16) = leadingMask 16 10 := by decide
  rw [isUnicastLinkLocalV6, beq_iff_eq, hmask, and_mask_eq_iff_toNat_div (by decide) (by decide),
    BitVec.extractLsb'_toNat, Nat.shiftRight_eq_div_pow]
  show address.toNat / 2 ^ 112 % 2 ^ 16 / 2 ^ 6 = 0x3fa ↔ _
  omega

/-- The first octet of an address in fc00::/7. -/
theorem first_and_iff (address : BitVec 128) :
    (address.extractLsb' 120 8 &&& 0xfe == 0xfc) = true ↔ address.toNat / 2 ^ 121 = 0x7e := by
  have hlt := address.isLt
  have hmask : (0xfe : BitVec 8) = leadingMask 8 7 := by decide
  rw [beq_iff_eq, hmask, and_mask_eq_iff_toNat_div (by decide) (by decide),
    BitVec.extractLsb'_toNat, Nat.shiftRight_eq_div_pow]
  show address.toNat / 2 ^ 120 % 2 ^ 8 / 2 ^ 1 = 0x7e ↔ _
  omega

theorem isDefaultDirectV6_iff (address : BitVec 128) :
    isDefaultDirectV6 address = true ↔
      ∃ network ∈ defaultNetworks, network.contains (.v6 address) = true := by
  have hloopback : isLoopbackV6 address = true ↔ address.toNat / 2 ^ 0 = 1 := by
    rw [isLoopbackV6, beq_iff_eq, ← BitVec.toNat_inj, Nat.pow_zero, Nat.div_one]
    exact Iff.rfl
  rw [exists_default_v6_iff, isDefaultDirectV6, Bool.or_eq_true, Bool.or_eq_true, hloopback,
    isUnicastLinkLocalV6_iff, first_and_iff, or_assoc]

/-- **The built-in ranges are the documented networks.**  An address is reached
directly exactly if it is in one of the additional networks or of the default
networks. -/
theorem isDirectAddress_iff (address : IpAddr) (additional : List IpCidr) :
    isDirectAddress address additional = true ↔
      ∃ network ∈ additional ++ defaultNetworks, network.contains address = true := by
  have hdefault : isDefaultDirectAddress address = true ↔
      ∃ network ∈ defaultNetworks, network.contains address = true := by
    cases address with
    | v4 address => exact isDefaultDirectV4_iff address
    | v6 address => exact isDefaultDirectV6_iff address
  rw [isDirectAddress, Bool.or_eq_true, hdefault, List.any_eq_true]
  simp only [List.mem_append, or_and_right, exists_or]
  exact or_comm

end Routing
end Fastpx
