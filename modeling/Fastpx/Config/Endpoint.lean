import Fastpx.StreamKit.Text

/-!
# Endpoints

`Endpoint` of `config.rs`: its parser, its display and how the two fit.

`Authority s host port` is the grammar the parser follows: a host without
brackets and colons before the colon, or a host in brackets.  `fromStr` accepts
exactly the authorities whose host passes the byte filter and whose port is a
non-zero `u16` (`fromStr_eq_ok_iff`), and the display of an accepted endpoint
is read back unless the host starts with a bracket and has no colon
(`fromStr_display_iff`).
-/

namespace Fastpx
namespace Config

open StreamKit

/-- A `host:port` pair.  `Endpoint::new` accepts any host, so only the parser
makes the promise that the host is clean. -/
structure Endpoint where
  host : Text
  port : UInt16
  deriving DecidableEq, Repr

/-- The error type of the endpoint parser. -/
inductive EndpointParseError where
  | empty
  | emptyHost
  | invalidHost
  | missingPort
  | unbracketedIpv6
  | invalidIpv6
  | zeroPort
  | invalidPort (error : IntErrorKind)
  deriving DecidableEq, Repr

def EndpointParseError.display : EndpointParseError → Text
  | .empty => "endpoint is empty".toList
  | .emptyHost => "endpoint host is empty".toList
  | .invalidHost => "endpoint host contains invalid characters".toList
  | .missingPort => "endpoint is missing a port".toList
  | .unbracketedIpv6 => "IPv6 addresses must be enclosed in brackets".toList
  | .invalidIpv6 => "invalid bracketed IPv6 endpoint".toList
  | .zeroPort => "port must not be zero".toList
  | .invalidPort error => "invalid port: ".toList ++ error.display

/-- The largest `u16`. -/
def u16Max : Nat := 2 ^ 16 - 1

namespace Endpoint

/-- The text of an endpoint; a host with a colon is put in brackets. -/
def display (e : Endpoint) : Text :=
  if ':' ∈ e.host then '[' :: e.host ++ ']' :: ':' :: decimal e.port.toNat
  else e.host ++ ':' :: decimal e.port.toNat

/-- The first half of `from_str`: where the host ends and the port starts. -/
def splitAuthority (input : Text) : Except EndpointParseError (Text × Text) :=
  match input with
  | '[' :: bracketed =>
      -- `find(']')` and the slices on both sides of the hit
      match splitOnce ']' bracketed with
      | none => .error .invalidIpv6
      | some (host, suffix) =>
          match suffix with
          | ':' :: port => .ok (host, port)
          | _ => .error .missingPort
  | _ =>
      match rsplitOnce ':' input with
      | none => .error .missingPort
      | some (host, port) =>
          if ':' ∈ host then .error .unbracketedIpv6 else .ok (host, port)

/-- `u8::is_ascii_whitespace`: tab, line feed, form feed, carriage return,
space. -/
def isAsciiWhitespace (byte : UInt8) : Bool :=
  byte == 9 || byte == 10 || byte == 12 || byte == 13 || byte == 32

/-- The bytes which a host must not contain: white space, `/`, `@`, and once
more carriage return and line feed. -/
def isForbidden (byte : UInt8) : Bool :=
  isAsciiWhitespace byte || (byte == 47 || byte == 64 || byte == 13 || byte == 10)

/-- Parse an endpoint. -/
def fromStr (input : Text) : Except EndpointParseError Endpoint :=
  if input = [] then .error .empty
  else
    match splitAuthority input with
    | .error e => .error e
    | .ok (host, port) =>
        if host = [] then .error .emptyHost
        else if (utf8 host).any isForbidden then .error .invalidHost
        else
          match fromStrRadix u16Max 10 port with
          | .error e => .error (.invalidPort e)
          | .ok number =>
              if number = 0 then .error .zeroPort else .ok ⟨host, UInt16.ofNat number⟩

/-! ## The grammar of authorities -/

/-- `Authority input host port`: the two forms in which an authority is
written. -/
inductive Authority : Text → Text → Text → Prop
  | plain {host port : Text} (hopen : host.head? ≠ some '[') (hhost : ':' ∉ host)
      (hport : ':' ∉ port) : Authority (host ++ ':' :: port) host port
  | bracketed {host port : Text} (hhost : ']' ∉ host) :
      Authority ('[' :: host ++ ']' :: ':' :: port) host port

/-- The splitter accepts exactly the authorities. -/
theorem splitAuthority_eq_ok_iff {input host port : Text} :
    splitAuthority input = .ok (host, port) ↔ Authority input host port := by
  constructor
  · intro h
    unfold splitAuthority at h
    split at h
    · next bracketed =>
        split at h
        · cases h
        · next host' suffix hsplit =>
            obtain ⟨rfl, hnot⟩ := splitOnce_eq_some_iff.mp hsplit
            split at h
            · obtain ⟨rfl, rfl⟩ := Prod.mk.inj (Except.ok.inj h)
              exact Authority.bracketed hnot
            · cases h
    · next hplain =>
        split at h
        · cases h
        · next host' port' hsplit =>
            obtain ⟨rfl, hport⟩ := rsplitOnce_eq_some_iff.mp hsplit
            split at h
            · cases h
            · next hhost =>
                obtain ⟨rfl, rfl⟩ := Prod.mk.inj (Except.ok.inj h)
                refine Authority.plain (fun hopen => ?_) hhost hport
                obtain ⟨rest, rfl⟩ := List.head?_eq_some_iff.mp hopen
                exact hplain _ rfl
  · intro h
    cases h with
    | plain hopen hhost hport =>
        unfold splitAuthority
        split
        · next bracketed heq =>
            -- a leading bracket would have to be the first character of the host
            cases host with
            | nil => cases heq
            | cons c rest =>
                obtain ⟨rfl, -⟩ := List.cons.inj heq
                exact absurd rfl hopen
        · rw [rsplitOnce_eq_some_iff.mpr ⟨rfl, hport⟩]
          simp only [if_neg hhost]
    | bracketed hhost =>
        simp only [splitAuthority, List.cons_append,
          splitOnce_eq_some_iff.mpr ⟨rfl, hhost⟩]

theorem Authority.ne_nil {input host port : Text} (h : Authority input host port) :
    input ≠ [] := by
  cases h <;> simp

/-- What the parser promises about a host. -/
structure CleanHost (host : Text) : Prop where
  ne_nil : host ≠ []
  allowed : ∀ byte ∈ utf8 host, isForbidden byte = false

theorem toNat_le_u16Max (port : UInt16) : port.toNat ≤ u16Max := by
  have := port.toNat_lt
  unfold u16Max
  omega

/-- The parser accepts exactly the authorities with a clean host and a
non-zero port. -/
theorem fromStr_eq_ok_iff {input : Text} {e : Endpoint} :
    fromStr input = .ok e ↔
      ∃ port, Authority input e.host port ∧ CleanHost e.host ∧
        fromStrRadix u16Max 10 port = .ok e.port.toNat ∧ e.port ≠ 0 := by
  constructor
  · intro h
    unfold fromStr at h
    split at h
    · cases h
    split at h
    · cases h
    next host port hsplit =>
    split at h
    · cases h
    next hne =>
    split at h
    · cases h
    next hany =>
    split at h
    · cases h
    next number hnumber =>
    split at h
    · cases h
    next hzero =>
    obtain rfl := Except.ok.inj h
    have hclean : CleanHost host :=
      ⟨hne, fun byte hbyte => by
        simpa using fun hbad => hany (List.any_eq_true.mpr ⟨byte, hbyte, hbad⟩)⟩
    have hle : number ≤ u16Max := fromStrRadix_le (by decide) hnumber
    have hback : (UInt16.ofNat number).toNat = number := by
      rw [UInt16.toNat_ofNat']
      exact Nat.mod_eq_of_lt (by unfold u16Max at hle; omega)
    refine ⟨port, splitAuthority_eq_ok_iff.mp hsplit, hclean, by rw [hback]; exact hnumber, ?_⟩
    intro hport
    rw [show UInt16.ofNat number = 0 from hport] at hback
    exact hzero hback.symm
  · rintro ⟨port, hauthority, hclean, hport, hzero⟩
    have hany : (utf8 e.host).any isForbidden = false := by
      rw [List.any_eq_false]
      intro byte hbyte
      simp [hclean.allowed byte hbyte]
    have hnumber : e.port.toNat ≠ 0 := fun h => hzero (UInt16.toNat_inj.mp h)
    simp only [fromStr, if_neg hauthority.ne_nil, splitAuthority_eq_ok_iff.mpr hauthority,
      if_neg hclean.ne_nil, hany, hport, if_neg hnumber, UInt16.ofNat_toNat]
    rfl

/-! ## The language of endpoints -/

/-- The characters which a host must not contain. -/
def forbiddenChars : Text := [' ', '\t', '\n', '\x0c', '\r', '/', '@']

/-- The texts of a port: an optional plus sign, then decimal digits with this
value. -/
def PortText (text : Text) (port : UInt16) : Prop :=
  ∃ digits, (text = digits ∨ text = '+' :: digits) ∧ digits ≠ [] ∧
    (∀ c ∈ digits, 48 ≤ c.toNat ∧ c.toNat ≤ 57) ∧ digitsValue 10 0 digits = port.toNat

/-- `Spells input host port`: the text is this host and this port, with or
without brackets around the host. -/
structure Spells (input host : Text) (port : UInt16) : Prop where
  form : ∃ digits, PortText digits port ∧
    (input = host ++ ':' :: digits ∧ host.head? ≠ some '[' ∧ ':' ∉ host ∨
      input = '[' :: host ++ ']' :: ':' :: digits ∧ ']' ∉ host)
  host_ne_nil : host ≠ []
  host_allowed : ∀ c ∈ forbiddenChars, c ∉ host
  port_ne_zero : port ≠ 0

/-- The byte filter refuses the codes of the forbidden characters, all of them
ASCII. -/
theorem isForbidden_iff {byte : UInt8} :
    isForbidden byte = true ↔
      byte.toNat < 0x80 ∧ ∃ c ∈ forbiddenChars, c.val.toNat = byte.toNat := by
  have hcodes : (∃ c ∈ forbiddenChars, c.val.toNat = byte.toNat) ↔
      byte.toNat ∈ [32, 9, 10, 12, 13, 47, 64] := by
    rw [show [32, 9, 10, 12, 13, 47, 64] = forbiddenChars.map (fun c => c.val.toNat) from rfl,
      List.mem_map]
  rw [hcodes]
  simp only [isForbidden, isAsciiWhitespace, Bool.or_eq_true, beq_iff_eq, ← UInt8.toNat_inj,
    UInt8.reduceToNat, List.mem_cons, List.not_mem_nil, or_false]
  omega

/-- A host is clean if it is not empty and has no forbidden character. -/
theorem cleanHost_iff {host : Text} :
    CleanHost host ↔ host ≠ [] ∧ ∀ c ∈ forbiddenChars, c ∉ host := by
  constructor
  · rintro ⟨hne, hallowed⟩
    refine ⟨hne, fun c hc hmem => ?_⟩
    have hascii : ∀ c ∈ forbiddenChars, (UInt8.ofNat c.toNat).toNat = c.toNat ∧
        isForbidden (UInt8.ofNat c.toNat) = true := by decide
    obtain ⟨hcode, hbad⟩ := hascii c hc
    have hbyte : UInt8.ofNat c.toNat ∈ utf8 host :=
      (mem_utf8_iff_of_lt (isForbidden_iff.mp hbad).1 host).mpr ⟨c, hmem, hcode.symm⟩
    rw [hallowed _ hbyte] at hbad
    cases hbad
  · rintro ⟨hne, hallowed⟩
    refine ⟨hne, fun byte hbyte => ?_⟩
    by_contra hbad
    rw [Bool.not_eq_false, isForbidden_iff] at hbad
    obtain ⟨hascii, c, hc, hcode⟩ := hbad
    obtain ⟨d, hd, hcode'⟩ := (mem_utf8_iff_of_lt hascii host).mp hbyte
    have heq : d = c := Char.ext (UInt32.toNat_inj.mp (hcode'.trans hcode.symm))
    exact hallowed c hc (heq ▸ hd)

theorem portText_iff {text : Text} {port : UInt16} :
    PortText text port ↔ fromStrRadix u16Max 10 text = .ok port.toNat := by
  rw [fromStrRadix_eq_ok_iff (by decide)]
  constructor
  · rintro ⟨digits, hsrc, hne, hdigits, hvalue⟩
    exact ⟨digits, hsrc, hne, fun c hc => isSome_toDigit_ten_iff.mpr (hdigits c hc), hvalue.symm,
      toNat_le_u16Max port⟩
  · rintro ⟨digits, hsrc, hne, hdigits, hvalue, -⟩
    exact ⟨digits, hsrc, hne, fun c hc => isSome_toDigit_ten_iff.mp (hdigits c hc), hvalue.symm⟩

/-- A port has no colon, so the colon before it is the last one. -/
theorem colon_not_mem_of_portText {text : Text} {port : UInt16} (h : PortText text port) :
    ':' ∉ text := by
  intro hmem
  rcases (chars_of_fromStrRadix (by decide) (portText_iff.mp h)).1 ':' hmem with heq | hdigit
  · exact absurd heq (by decide)
  · exact ne_of_toDigit hdigit (by decide) rfl

theorem fromStr_eq_ok_iff_spells {input host : Text} {port : UInt16} :
    fromStr input = .ok ⟨host, port⟩ ↔ Spells input host port := by
  rw [fromStr_eq_ok_iff]
  constructor
  · rintro ⟨text, hauthority, hclean, hport, hzero⟩
    obtain ⟨hne, hallowed⟩ := cleanHost_iff.mp hclean
    refine ⟨⟨text, portText_iff.mpr hport, ?_⟩, hne, hallowed, hzero⟩
    cases hauthority with
    | plain hopen hhost _ => exact Or.inl ⟨rfl, hopen, hhost⟩
    | bracketed hclose => exact Or.inr ⟨rfl, hclose⟩
  · rintro ⟨⟨text, hport, hform⟩, hne, hallowed, hzero⟩
    refine ⟨text, ?_, cleanHost_iff.mpr ⟨hne, hallowed⟩, portText_iff.mp hport, hzero⟩
    rcases hform with ⟨rfl, hopen, hhost⟩ | ⟨rfl, hclose⟩
    · exact Authority.plain hopen hhost (colon_not_mem_of_portText hport)
    · exact Authority.bracketed hclose

/-- **Endpoints are their language, and are read uniquely.**  A text is parsed to
a host and a port exactly if it spells them, and it spells at most one pair. -/
theorem fromStr_language (input : Text) :
    (∀ host port, fromStr input = .ok ⟨host, port⟩ ↔ Spells input host port) ∧
      ∀ host port host' port', Spells input host port → Spells input host' port' →
        host = host' ∧ port = port' := by
  refine ⟨fun host port => fromStr_eq_ok_iff_spells, ?_⟩
  intro host port host' port' h h'
  have hsame := (fromStr_eq_ok_iff_spells.mpr h).symm.trans (fromStr_eq_ok_iff_spells.mpr h')
  exact Endpoint.mk.inj (Except.ok.inj hsame)

/-! ## Display and parse -/

theorem not_mem_decimal {n : Nat} {c : Char} (hc : c.toNat < 48 ∨ 57 < c.toNat) :
    c ∉ decimal n := by
  intro hmem
  have hrange := range_of_mem_decimal hmem
  omega

/-- An endpoint is read back as soon as its display splits where its host
ends. -/
theorem fromStr_display_of_authority {e : Endpoint} (hclean : CleanHost e.host)
    (hzero : e.port ≠ 0) (h : Authority e.display e.host (decimal e.port.toNat)) :
    fromStr e.display = .ok e := by
  apply fromStr_eq_ok_iff.mpr
  exact ⟨_, h, hclean, fromStrRadix_decimal (toNat_le_u16Max e.port), hzero⟩

/-- A host in front of which no bracket is put must not bring its own. -/
theorem splitAuthority_of_open_bracket {host digits : Text} (hopen : host.head? = some '[')
    (hclose : ']' ∉ host) (hdigits : ']' ∉ digits) :
    splitAuthority (host ++ ':' :: digits) = .error .invalidIpv6 := by
  obtain ⟨rest, rfl⟩ := List.head?_eq_some_iff.mp hopen
  have hnone : splitOnce ']' (rest ++ ':' :: digits) = none := by
    apply splitOnce_eq_none_iff.mpr
    simp only [List.mem_append, List.mem_cons, not_or] at hclose ⊢
    exact ⟨hclose.2, by decide, hdigits⟩
  simp only [splitAuthority, List.cons_append, hnone]

/-- The condition on the source text under which display and parser agree:
not a bracketed host which starts with a bracket itself and has no colon. -/
def KeepsBrackets (input : Text) : Prop :=
  ¬ (['[', '['] <+: input ∧ ':' ∉ input.takeWhile (· ≠ ']'))

instance (input : Text) : Decidable (KeepsBrackets input) :=
  inferInstanceAs (Decidable (¬ _))

theorem keepsBrackets_plain {host port : Text} (hne : host ≠ [])
    (hopen : host.head? ≠ some '[') : KeepsBrackets (host ++ ':' :: port) := by
  rintro ⟨⟨rest, hrest⟩, -⟩
  obtain ⟨c, host, rfl⟩ := List.exists_cons_of_ne_nil hne
  obtain ⟨rfl, -⟩ := List.cons.inj hrest
  exact hopen rfl

theorem keepsBrackets_bracketed_iff {host port : Text} (hne : host ≠ []) (hclose : ']' ∉ host) :
    KeepsBrackets ('[' :: host ++ ']' :: ':' :: port) ↔
      host.head? ≠ some '[' ∨ ':' ∈ host := by
  obtain ⟨c, host, rfl⟩ := List.exists_cons_of_ne_nil hne
  have htake : ('[' :: c :: host ++ ']' :: ':' :: port).takeWhile (· ≠ ']') =
      '[' :: c :: host := by
    rw [List.takeWhile_append_of_pos]
    · simp
    · intro d hd
      have hne : d ≠ ']' := by
        rintro rfl
        exact hclose (by simpa using hd)
      simpa using hne
  rw [KeepsBrackets, htake]
  simp only [List.cons_append, List.cons_prefix_cons, List.nil_prefix, and_true, true_and,
    List.mem_cons, List.head?_cons, Option.some.injEq, ne_eq, not_and, not_not]
  simp only [show ¬ ':' = '[' by decide, false_or]
  exact ⟨fun h => or_iff_not_imp_left.mpr fun hc => h (not_not.mp hc).symm,
    fun h hc => h.resolve_left (not_not.mpr hc.symm)⟩

/-- The displayed endpoint is read back exactly when the client's text did not
hide a bracket in a host without colons. -/
theorem fromStr_display_iff {input : Text} {e : Endpoint} (h : fromStr input = .ok e) :
    fromStr e.display = .ok e ↔ KeepsBrackets input := by
  obtain ⟨port, hauthority, hclean, -, hzero⟩ := fromStr_eq_ok_iff.mp h
  have hcolon : ':' ∉ decimal e.port.toNat := not_mem_decimal (by decide)
  have hback : ']' ∉ decimal e.port.toNat := not_mem_decimal (by decide)
  by_cases hhost : ':' ∈ e.host
  · -- the display is bracketed, and so was the source
    cases hauthority with
    | plain _ hnot _ => exact absurd hhost hnot
    | bracketed hclose =>
        rw [keepsBrackets_bracketed_iff hclean.ne_nil hclose]
        refine iff_of_true (fromStr_display_of_authority hclean hzero ?_) (Or.inr hhost)
        rw [display, if_pos hhost]
        exact Authority.bracketed hclose
  · have hdisplay : e.display = e.host ++ ':' :: decimal e.port.toNat := by
      rw [display, if_neg hhost]
    have hplain : e.host.head? ≠ some '[' → fromStr e.display = .ok e := fun hopen =>
      fromStr_display_of_authority hclean hzero
        (hdisplay ▸ Authority.plain hopen hhost hcolon)
    cases hauthority with
    | plain hopen _ _ =>
        exact iff_of_true (hplain hopen) (keepsBrackets_plain hclean.ne_nil hopen)
    | bracketed hclose =>
        rw [keepsBrackets_bracketed_iff hclean.ne_nil hclose]
        constructor
        · intro hok
          refine Or.inl fun hopen => ?_
          obtain ⟨port', hsplit, -⟩ := fromStr_eq_ok_iff.mp hok
          rw [← splitAuthority_eq_ok_iff, hdisplay,
            splitAuthority_of_open_bracket hopen hclose hback] at hsplit
          cases hsplit
        · intro hor
          exact hplain (hor.resolve_right hhost)

/-- A bracketed host which starts with a bracket is displayed without its
outer brackets, and the parser refuses the result. -/
theorem fromStr_display_open_bracket :
    fromStr "[[a]:80".toList = .ok ⟨"[a".toList, 80⟩ ∧
      (Endpoint.mk "[a".toList 80).display = "[a:80".toList ∧
      fromStr (Endpoint.mk "[a".toList 80).display = .error .invalidIpv6 := by
  decide

theorem fromStr_display_iff_ipv6 :
    fromStr "[2001:db8::1]:3128".toList = .ok ⟨"2001:db8::1".toList, 3128⟩ ∧
      (fromStr (Endpoint.mk "2001:db8::1".toList 3128).display =
          .ok ⟨"2001:db8::1".toList, 3128⟩ ↔
        KeepsBrackets "[2001:db8::1]:3128".toList) := by
  have hparse : fromStr "[2001:db8::1]:3128".toList = .ok ⟨"2001:db8::1".toList, 3128⟩ := by
    decide
  exact ⟨hparse, fromStr_display_iff hparse⟩

end Endpoint

end Config
end Fastpx
