import Fastpx.StreamKit.BitPrefix
import Fastpx.StreamKit.Text

/-!
# Addresses and networks

IP and socket addresses, and the networks (`IpCidr` of `config.rs`) which name
sets of them.  An address is the number which the standard library reads out of
its octets, most significant octet first.

The fields of `IpCidr` are private and only its parser builds values, so the
facts which the parser establishes are part of the type: the length fits the
family and the host bits of the network are clear.

* `contains_iff`: a network is the set of the addresses of its family which
  share its leading bits;
* `fromStr_eq_ok_iff`: which texts are networks, and which network each is;
* `eq_of_contains_eq`, `fromStr_display`: a network is determined by its
  addresses, and read back from its text.
-/

namespace Fastpx
namespace Config

open StreamKit

/-- An IP address of either family. -/
inductive IpAddr where
  | v4 (address : BitVec 32)
  | v6 (address : BitVec 128)
  deriving DecidableEq, Repr

/-- A socket address; the one of IPv6 has a flow label and a scope. -/
inductive SocketAddr where
  | v4 (ip : BitVec 32) (port : UInt16)
  | v6 (ip : BitVec 128) (port : UInt16) (flowinfo scopeId : UInt32)
  deriving DecidableEq, Repr

def SocketAddr.ip : SocketAddr → IpAddr
  | .v4 ip _ => .v4 ip
  | .v6 ip _ _ _ => .v6 ip

/-- The mask for the leading `prefixLen` bits out of `width`.  The length zero
is a case of its own, because the shift by the full width would overflow. -/
def prefixMask (width : Nat) (prefixLen : UInt8) : BitVec width :=
  if prefixLen = 0 then 0 else BitVec.allOnes width <<< (width - prefixLen.toNat)

def maskV4 (address : BitVec 32) (prefixLen : UInt8) : BitVec 32 :=
  address &&& prefixMask 32 prefixLen

def maskV6 (address : BitVec 128) (prefixLen : UInt8) : BitVec 128 :=
  address &&& prefixMask 128 prefixLen

namespace IpAddr

/-- The number of bits of an address. -/
def width : IpAddr → Nat
  | v4 _ => 32
  | v6 _ => 128

/-- The address with its host bits cleared. -/
def mask (prefixLen : UInt8) : IpAddr → IpAddr
  | v4 address => v4 (maskV4 address prefixLen)
  | v6 address => v6 (maskV6 address prefixLen)

end IpAddr

/-- A network: the addresses which share the leading bits of `network`. -/
structure IpCidr where
  network : IpAddr
  prefixLen : UInt8
  fits : prefixLen.toNat ≤ network.width
  masked : network.mask prefixLen = network
  deriving DecidableEq, Repr

attribute [ext] IpCidr

/-- Is the address in the network? -/
def IpCidr.contains (c : IpCidr) (address : IpAddr) : Bool :=
  match c.network, address with
  | .v4 network, .v4 address => maskV4 address c.prefixLen == network
  | .v6 network, .v6 address => maskV6 address c.prefixLen == network
  | _, _ => false

/-! ## Networks as sets of addresses -/

/-- The addresses are of one family and have the same `n` leading bits. -/
def IpAddr.SharesPrefix (n : Nat) : IpAddr → IpAddr → Prop
  | .v4 a, .v4 b => AgreeOn n a b
  | .v6 a, .v6 b => AgreeOn n a b
  | _, _ => False

theorem prefixMask_eq {width : Nat} {prefixLen : UInt8} (h : prefixLen.toNat ≤ width) :
    prefixMask width prefixLen = leadingMask width prefixLen.toNat := by
  unfold prefixMask
  split
  · next hzero =>
      subst hzero
      apply BitVec.eq_of_getMsbD_eq
      intro i _
      rw [getMsbD_leadingMask h]
      simp
  · rfl

/-- The comparison which `contains` makes, for a masked network. -/
theorem and_prefixMask_eq_iff {width : Nat} {prefixLen : UInt8} {network address : BitVec width}
    (hfits : prefixLen.toNat ≤ width) (hmasked : network &&& prefixMask width prefixLen = network) :
    address &&& prefixMask width prefixLen = network ↔
      AgreeOn prefixLen.toNat network address := by
  rw [agreeOn_iff_and_mask hfits, ← prefixMask_eq hfits, hmasked, eq_comm]

/-- Masked networks with the same addresses are the same. -/
theorem network_unique {width : Nat} {p q : UInt8} {a b : BitVec width}
    (hp : p.toNat ≤ width) (hq : q.toNat ≤ width) (ha : a &&& prefixMask width p = a)
    (hb : b &&& prefixMask width q = b)
    (h : ∀ z, AgreeOn p.toNat a z ↔ AgreeOn q.toNat b z) : a = b ∧ p = q := by
  obtain ⟨hlength, hagree⟩ := agreeOn_determined hp hq h
  obtain rfl := UInt8.toNat_inj.mp hlength
  have hmasks := (and_prefixMask_eq_iff hp hb).mpr hagree.symm
  exact ⟨ha.symm.trans hmasks, rfl⟩

theorem agreeOn_and_prefixMask {width : Nat} {prefixLen : UInt8} (h : prefixLen.toNat ≤ width)
    (address : BitVec width) :
    AgreeOn prefixLen.toNat (address &&& prefixMask width prefixLen) address := by
  rw [prefixMask_eq h]
  exact agreeOn_and_mask h address

theorem IpAddr.sharesPrefix_mask {address : IpAddr} {prefixLen : UInt8}
    (h : prefixLen.toNat ≤ address.width) (x : IpAddr) :
    (address.mask prefixLen).SharesPrefix prefixLen.toNat x ↔
      address.SharesPrefix prefixLen.toNat x := by
  cases address with
  | v4 a =>
      cases x with
      | v4 b => exact agreeOn_congr_left (agreeOn_and_prefixMask h a)
      | v6 b => exact Iff.rfl
  | v6 a =>
      cases x with
      | v4 b => exact Iff.rfl
      | v6 b => exact agreeOn_congr_left (agreeOn_and_prefixMask h a)

theorem IpAddr.mask_mask (address : IpAddr) (prefixLen : UInt8) :
    (address.mask prefixLen).mask prefixLen = address.mask prefixLen := by
  cases address <;> simp [IpAddr.mask, maskV4, maskV6, BitVec.and_assoc]

@[simp] theorem IpAddr.width_mask (address : IpAddr) (prefixLen : UInt8) :
    (address.mask prefixLen).width = address.width := by
  cases address <;> rfl

namespace IpCidr

/-- A network has the addresses which share its leading bits. -/
theorem contains_iff (c : IpCidr) (x : IpAddr) :
    c.contains x = true ↔ c.network.SharesPrefix c.prefixLen.toNat x := by
  obtain ⟨network, prefixLen, hfits, hmasked⟩ := c
  cases network with
  | v4 a =>
      cases x with
      | v4 b =>
          have hnetwork : a &&& prefixMask 32 prefixLen = a := IpAddr.v4.inj hmasked
          simp only [contains, beq_iff_eq]
          exact and_prefixMask_eq_iff hfits hnetwork
      | v6 b => exact iff_of_false Bool.false_ne_true id
  | v6 a =>
      cases x with
      | v4 b => exact iff_of_false Bool.false_ne_true id
      | v6 b =>
          have hnetwork : a &&& prefixMask 128 prefixLen = a := IpAddr.v6.inj hmasked
          simp only [contains, beq_iff_eq]
          exact and_prefixMask_eq_iff hfits hnetwork

/-- The network of an address: the host bits are cleared. -/
def ofAddress (address : IpAddr) (prefixLen : UInt8) (h : prefixLen.toNat ≤ address.width) :
    IpCidr where
  network := address.mask prefixLen
  prefixLen := prefixLen
  fits := by rw [IpAddr.width_mask]; exact h
  masked := address.mask_mask prefixLen

theorem contains_ofAddress {address : IpAddr} {prefixLen : UInt8}
    (h : prefixLen.toNat ≤ address.width) (x : IpAddr) :
    (ofAddress address prefixLen h).contains x = true ↔
      address.SharesPrefix prefixLen.toNat x := by
  rw [contains_iff]
  exact IpAddr.sharesPrefix_mask h x

theorem ofAddress_network (c : IpCidr) : ofAddress c.network c.prefixLen c.fits = c :=
  IpCidr.ext c.masked rfl

/-- An address without host bits is in its own network. -/
theorem contains_network (c : IpCidr) : c.contains c.network = true := by
  rw [contains_iff]
  cases c.network with
  | v4 a => exact AgreeOn.refl _ a
  | v6 a => exact AgreeOn.refl _ a

/-- A network is determined by its addresses. -/
theorem eq_of_contains_eq {c d : IpCidr} (h : ∀ x, c.contains x = d.contains x) : c = d := by
  -- the network address of `c` tells that the families are the same
  have hown : d.network.SharesPrefix d.prefixLen.toNat c.network := by
    rw [← contains_iff, ← h, contains_network]
  have hsame : ∀ x, c.network.SharesPrefix c.prefixLen.toNat x ↔
      d.network.SharesPrefix d.prefixLen.toNat x := by
    intro x
    rw [← contains_iff, ← contains_iff, h]
  obtain ⟨network, p, hp, hmasked⟩ := c
  obtain ⟨network', q, hq, hmasked'⟩ := d
  cases network with
  | v4 a =>
      cases network' with
      | v4 b =>
          obtain ⟨rfl, rfl⟩ := network_unique hp hq (IpAddr.v4.inj hmasked)
            (IpAddr.v4.inj hmasked') fun z => hsame (.v4 z)
          rfl
      | v6 b => exact hown.elim
  | v6 a =>
      cases network' with
      | v4 b => exact hown.elim
      | v6 b =>
          obtain ⟨rfl, rfl⟩ := network_unique hp hq (IpAddr.v6.inj hmasked)
            (IpAddr.v6.inj hmasked') fun z => hsame (.v6 z)
          rfl

end IpCidr

/-! ## Texts of networks -/

/-- The text form of addresses in the standard library: `FromStr` and `Display`
of `IpAddr`. -/
structure AddrFormat where
  parse : Text → Option IpAddr
  display : IpAddr → Text

/-- The format of a table; every other text is refused, every other address is
displayed as the empty text. -/
def AddrFormat.ofTable (table : List (Text × IpAddr)) : AddrFormat where
  parse text := (table.find? fun entry => entry.1 == text).map Prod.snd
  display address := ((table.find? fun entry => entry.2 == address).map Prod.fst).getD []

/-- The error type of the network parser; all addresses are refused with the
same `AddrParseError`. -/
inductive IpCidrParseError where
  | missingPrefix
  | invalidAddress
  | invalidPrefix (error : IntErrorKind)
  | prefixTooLong (bits : UInt8)
  deriving DecidableEq, Repr

def IpCidrParseError.display : IpCidrParseError → Text
  | .missingPrefix => "CIDR is missing a prefix length".toList
  | .invalidAddress => "invalid IP address: invalid IP address syntax".toList
  | .invalidPrefix error => "invalid prefix length: ".toList ++ error.display
  | .prefixTooLong bits =>
      "prefix length exceeds the ".toList ++ decimal bits.toNat ++ "-bit address size".toList

/-- The largest `u8`. -/
def u8Max : Nat := 2 ^ 8 - 1

namespace IpCidr

/-- Parse a network. -/
def fromStr (format : AddrFormat) (input : Text) : Except IpCidrParseError IpCidr :=
  match splitOnce '/' input with
  | none => .error .missingPrefix
  | some (addressText, prefixText) =>
      match format.parse addressText with
      | none => .error .invalidAddress
      | some address =>
          match fromStrRadix u8Max 10 prefixText with
          | .error e => .error (.invalidPrefix e)
          | .ok number =>
              -- 32 and `mask_v4`, or 128 and `mask_v6`
              if h : (UInt8.ofNat number).toNat ≤ address.width then
                .ok (ofAddress address (UInt8.ofNat number) h)
              else .error (.prefixTooLong (UInt8.ofNat address.width))

def display (format : AddrFormat) (c : IpCidr) : Text :=
  format.display c.network ++ '/' :: decimal c.prefixLen.toNat

theorem toNat_ofNat_of_fromStrRadix {text : Text} {number : Nat}
    (h : fromStrRadix u8Max 10 text = .ok number) : (UInt8.ofNat number).toNat = number := by
  have hle : number ≤ 255 := fromStrRadix_le (by decide) h
  rw [UInt8.toNat_ofNat']
  omega

/-- The parser accepts an address and a length which fits it. -/
theorem fromStr_eq_ok_iff {format : AddrFormat} {input : Text} {c : IpCidr} :
    fromStr format input = .ok c ↔
      ∃ addressText prefixText address, ∃ h : c.prefixLen.toNat ≤ IpAddr.width address,
        input = addressText ++ '/' :: prefixText ∧ '/' ∉ addressText ∧
          format.parse addressText = some address ∧
          fromStrRadix u8Max 10 prefixText = .ok c.prefixLen.toNat ∧
          c = ofAddress address c.prefixLen h := by
  constructor
  · intro h
    unfold fromStr at h
    split at h
    · cases h
    next addressText prefixText hsplit =>
    split at h
    · cases h
    next address haddress =>
    split at h
    · cases h
    next number hnumber =>
    split at h
    · next hfits =>
        obtain rfl := Except.ok.inj h
        obtain ⟨hinput, hslash⟩ := splitOnce_eq_some_iff.mp hsplit
        refine ⟨addressText, prefixText, address, hfits, hinput, hslash, haddress, ?_, rfl⟩
        rw [hnumber]
        exact congrArg Except.ok (toNat_ofNat_of_fromStrRadix hnumber).symm
    · cases h
  · rintro ⟨addressText, prefixText, address, hfits, rfl, hslash, haddress, hnumber, hc⟩
    rw [fromStr, splitOnce_eq_some_iff.mpr ⟨rfl, hslash⟩]
    simp only [haddress, hnumber, UInt8.ofNat_toNat, dif_pos hfits]
    rw [← hc]

/-- A network is read back from its text. -/
theorem fromStr_display {format : AddrFormat} {c : IpCidr}
    (hparse : format.parse (format.display c.network) = some c.network)
    (hslash : '/' ∉ format.display c.network) : fromStr format (c.display format) = .ok c := by
  refine fromStr_eq_ok_iff.mpr ⟨format.display c.network, decimal c.prefixLen.toNat, c.network,
    c.fits, rfl, hslash, hparse, ?_, c.ofAddress_network.symm⟩
  have hle : c.prefixLen.toNat < 256 := c.prefixLen.toNat_lt
  apply fromStrRadix_decimal
  unfold u8Max
  omega

/-! ## Arithmetic of the masks -/

/-- Subtraction which does not wrap around. -/
def checkedSub (m n : Nat) : Option Nat := if n ≤ m then some (m - n) else none

/-- A shift by less than the width. -/
def checkedShl {width : Nat} (word : BitVec width) (n : Nat) : Option (BitVec width) :=
  if n < width then some (word <<< n) else none

/-- The mask of `mask_v4` and `mask_v6`, or none where its arithmetic would leave
the range. -/
def checkedPrefixMask (width : Nat) (prefixLen : UInt8) : Option (BitVec width) :=
  if prefixLen = 0 then some 0
  else (checkedSub width prefixLen.toNat).bind (checkedShl (BitVec.allOnes width))

theorem checkedPrefixMask_eq {width : Nat} {prefixLen : UInt8} (h : prefixLen.toNat ≤ width) :
    checkedPrefixMask width prefixLen = some (prefixMask width prefixLen) := by
  unfold checkedPrefixMask prefixMask
  split
  · rfl
  · next hne =>
      have hpos : prefixLen.toNat ≠ 0 := fun hzero => hne (UInt8.toNat_inj.mp hzero)
      rw [checkedSub, if_pos h, Option.bind_some, checkedShl, if_pos (by omega)]

/-- An accepted text has one slash, so it is cut at any slash. -/
theorem fromStr_append {format : AddrFormat} {addressText prefixText : Text} {c : IpCidr}
    (h : fromStr format (addressText ++ '/' :: prefixText) = .ok c) :
    ∃ address, ∃ hfits : c.prefixLen.toNat ≤ IpAddr.width address,
      format.parse addressText = some address ∧
        fromStrRadix u8Max 10 prefixText = .ok c.prefixLen.toNat ∧
        c = ofAddress address c.prefixLen hfits := by
  obtain ⟨addressText', prefixText', address, hfits, hinput, hslash, hparse, hnumber, hc⟩ :=
    fromStr_eq_ok_iff.mp h
  have hdigits : '/' ∉ prefixText' := by
    intro hmem
    rcases (chars_of_fromStrRadix (by decide) hnumber).1 '/' hmem with heq | hdigit
    · exact absurd heq (by decide)
    · exact ne_of_toDigit hdigit (by decide) rfl
  have hcount := congrArg (List.count '/') hinput
  simp only [List.count_append, List.count_cons_self, List.count_eq_zero.mpr hslash,
    List.count_eq_zero.mpr hdigits] at hcount
  have hslash' : '/' ∉ addressText := List.count_eq_zero.mp (by omega)
  have hsplit := splitOnce_eq_some_iff.mpr ⟨hinput, hslash⟩
  rw [splitOnce_eq_some_iff.mpr ⟨rfl, hslash'⟩] at hsplit
  obtain ⟨rfl, rfl⟩ := Prod.mk.inj (Option.some.inj hsplit)
  exact ⟨address, hfits, hparse, hnumber, hc⟩

/-- **Membership is agreement of leading bits.**  For an accepted text, the
network has the addresses of the same family whose first bits are those of the
written address, as many as the written length; and no mask which is computed
for it overflows. -/
theorem contains_iff_leading_bits {format : AddrFormat} {addressText prefixText : Text}
    {address : IpAddr} {prefixLen : Nat} {c : IpCidr}
    (haddress : format.parse addressText = some address)
    (hnumber : fromStrRadix u8Max 10 prefixText = .ok prefixLen)
    (hc : fromStr format (addressText ++ '/' :: prefixText) = .ok c) :
    (∀ x, c.contains x = true ↔ address.SharesPrefix prefixLen x) ∧
      c.network.width = address.width ∧ prefixLen ≤ address.width ∧
      checkedPrefixMask address.width c.prefixLen =
        some (prefixMask address.width c.prefixLen) := by
  obtain ⟨address', hfits, haddress', hnumber', hcidr⟩ := fromStr_append hc
  obtain rfl := Option.some.inj (haddress.symm.trans haddress')
  obtain rfl := Except.ok.inj (hnumber.symm.trans hnumber')
  refine ⟨?_, ?_, hfits, checkedPrefixMask_eq hfits⟩
  · intro x
    rw [hcidr]
    exact contains_ofAddress hfits x
  · rw [hcidr]
    exact IpAddr.width_mask address c.prefixLen

private def sampleFormat : AddrFormat :=
  .ofTable [("10.20.30.40".toList, .v4 0x0a141e28#32), ("10.16.0.0".toList, .v4 0x0a100000#32)]

private theorem sampleNetwork_fits : (12 : UInt8).toNat ≤ (IpAddr.v4 0x0a141e28#32).width := by
  decide

private def sampleNetwork : IpCidr := ofAddress (.v4 0x0a141e28#32) 12 sampleNetwork_fits

private theorem fromStr_sampleNetwork :
    fromStr sampleFormat "10.20.30.40/12".toList = .ok sampleNetwork := by
  decide

/-- 10.31.255.255 is in 10.20.30.40/12, and 10.32.0.0 is not. -/
theorem contains_iff_leading_bits_twelve :
    sampleNetwork.contains (.v4 0x0a1fffff#32) = true ∧
      ¬ sampleNetwork.contains (.v4 0x0a200000#32) = true := by
  have haddress : sampleFormat.parse "10.20.30.40".toList = some (.v4 0x0a141e28#32) := by
    decide
  have hnumber : fromStrRadix u8Max 10 "12".toList = .ok 12 := by decide
  have hmember := (contains_iff_leading_bits haddress hnumber fromStr_sampleNetwork).1
  rw [hmember, hmember]
  have hin : AgreeOn 12 0x0a141e28#32 0x0a1fffff#32 := by decide
  have hout : ¬ AgreeOn 12 0x0a141e28#32 0x0a200000#32 := by decide
  exact ⟨hin, hout⟩

/-- **Networks are canonical.**  Two networks are equal exactly if they have the
same addresses, and a network is read back from its text, if the text of its
address is and has no slash. -/
theorem network_canonical (format : AddrFormat) (c d : IpCidr) :
    (c = d ↔ ∀ x, c.contains x = d.contains x) ∧
      (format.parse (format.display c.network) = some c.network →
        '/' ∉ format.display c.network → fromStr format (c.display format) = .ok c) := by
  refine ⟨⟨?_, eq_of_contains_eq⟩, fromStr_display⟩
  rintro rfl x
  rfl

/-- 10.20.30.40/12 is displayed as 10.16.0.0/12 and read back. -/
theorem network_canonical_twelve :
    sampleNetwork.display sampleFormat = "10.16.0.0/12".toList ∧
      fromStr sampleFormat "10.16.0.0/12".toList = .ok sampleNetwork := by
  have hdisplay : sampleNetwork.display sampleFormat = "10.16.0.0/12".toList := by decide
  refine ⟨hdisplay, ?_⟩
  rw [← hdisplay]
  exact (network_canonical sampleFormat sampleNetwork sampleNetwork).2 (by decide)
    (by decide)

end IpCidr

end Config
end Fastpx
