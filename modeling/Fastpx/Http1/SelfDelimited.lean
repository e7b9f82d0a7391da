import Fastpx.StreamKit.FieldList
import Fastpx.Http1.Head

/-!
# Self-delimited responses

When the end of a response can be told without the connection being closed: its
last transfer coding is `chunked`, or it has no transfer coding and a valid
length.

`content_length` of `http1.rs` accepts more than the valid lengths, since it
reads with the integer parser of the standard library.  `validLength_iff` says
what is missing: the values must be plain digits.  That they agree and fit is
what the code does check.
-/

namespace Fastpx
namespace Http1

open StreamKit

namespace ResponseHead

/-! ## Message framing -/

/-- The transfer codings, in the order in which they were applied. -/
def transferCodings (response : ResponseHead) : List Text :=
  (response.headerValues transferEncodingField).flatMap fieldElements

/-- The last transfer coding is `chunked`. -/
def EndsChunked (response : ResponseHead) : Prop :=
  ∃ coding ∈ response.transferCodings.getLast?, eqIgnoreAsciiCase coding chunkedToken = true

/-- The elements of the `Content-Length` fields. -/
def announcedLengths (response : ResponseHead) : List Text :=
  (response.headerValues contentLengthField).flatMap fieldElements

/-- There is a length, and if it is announced more than once then always the
same. -/
def ValidLength (response : ResponseHead) : Prop :=
  response.announcedLengths ≠ [] ∧ ∃ length, ∀ digits ∈ response.announcedLengths,
    (∀ c ∈ digits, (toDigit 10 c).isSome) ∧ digitsValue 10 0 digits = length

/-- The body ends where the head says. -/
def SelfDelimited (response : ResponseHead) : Prop :=
  response.EndsChunked ∨
    response.headerValues transferEncodingField = [] ∧ response.ValidLength

/-! ## Lengths as the code reads them -/

/-- Digits, with optional white space around them. -/
def PlainLength (value : Bytes) : Prop :=
  trimOws (octets value) ≠ [] ∧ ∀ c ∈ trimOws (octets value), (toDigit 10 c).isSome

instance (value : Bytes) : Decidable (PlainLength value) :=
  inferInstanceAs (Decidable (_ ∧ _))

theorem contentLengthFrom_some {parsed : Nat} {values : List Bytes} {result : Option Nat}
    (h : contentLengthFrom (some parsed) values = .ok result) : result = some parsed := by
  induction values with
  | nil => exact (Except.ok.inj h).symm
  | cons value rest ih =>
      rw [contentLengthFrom] at h
      split at h
      · cases h
      · split at h
        · cases h
        · next length _ =>
            split at h
            · cases h
            · next hsame =>
                obtain rfl : parsed = length := by simpa using hsame
                exact ih h

/-- Every value was read as the returned length. -/
theorem contentLengthFrom_ok {parsed : Option Nat} {values : List Bytes} {result : Option Nat}
    (h : contentLengthFrom parsed values = .ok result) {value : Bytes} (hmem : value ∈ values) :
    ∃ text length, fromUtf8 value = some text ∧
      fromStrRadix usizeMax 10 (trim text) = .ok length ∧ result = some length := by
  induction values generalizing parsed with
  | nil => cases hmem
  | cons first rest ih =>
      rw [contentLengthFrom] at h
      split at h
      · cases h
      · next text htext =>
          split at h
          · cases h
          · next length hlength =>
              split at h
              · cases h
              · rcases List.mem_cons.mp hmem with rfl | hmem
                · exact ⟨text, length, htext, hlength, contentLengthFrom_some h⟩
                · exact ih h hmem

/-- A value which the integer parser accepts has no comma, and is not blank. -/
theorem single_of_parsed {value : Bytes} {text : Text} {length : Nat}
    (htext : fromUtf8 value = some text)
    (hlength : fromStrRadix usizeMax 10 (trim text) = .ok length) :
    ',' ∉ octets value ∧ trimOws (octets value) ≠ [] := by
  obtain ⟨hchars, digit, hdigit, hsome⟩ := chars_of_fromStrRadix (by decide) hlength
  constructor
  · intro hmem
    have hcomma : ',' ∈ trim text :=
      (mem_trimMatches (by decide)).mpr ((mem_octets_iff (by decide) htext).mp hmem)
    exact absurd (hchars _ hcomma) (by decide)
  · have hrange := range_of_toDigit hsome
    have hows : isOws digit = false := by
      simp only [isOws, Bool.or_eq_false_iff, beq_eq_false_iff_ne]
      exact ⟨ne_of_toDigit hsome (by decide), ne_of_toDigit hsome (by decide)⟩
    have hmem : digit ∈ text :=
      (mem_trimMatches (isWhitespace_eq_false_of_toDigit hsome)).mp hdigit
    have hkept : digit ∈ trimOws (octets value) :=
      (mem_trimMatches hows).mpr ((mem_octets_iff (by omega) htext).mpr hmem)
    exact List.ne_nil_of_mem hkept

/-- A plain length is ASCII and has no comma. -/
theorem PlainLength.octets_range {value : Bytes} (h : PlainLength value) :
    ∀ c ∈ octets value, c.toNat < 0x80 ∧ c ≠ ',' := by
  intro c hc
  by_cases hows : isOws c = true
  · rcases Bool.or_eq_true_iff.mp hows with hc | hc <;> rw [eq_of_beq hc] <;> decide
  · have hdigit := h.2 c ((mem_trimMatches (by simpa using hows)).mpr hc)
    have hrange := range_of_toDigit hdigit
    exact ⟨by omega, ne_of_toDigit hdigit (by decide)⟩

/-- A plain length is decoded as it stands. -/
theorem PlainLength.fromUtf8_eq {value : Bytes} (h : PlainLength value) :
    fromUtf8 value = some (octets value) := by
  apply fromUtf8_ascii
  intro b hb
  by_contra hlarge
  have hmem : Char.ofNat b.toNat ∈ octets value := List.mem_map.mpr ⟨b, hb, rfl⟩
  exact ne_octet_of_ascii (h.octets_range _ hmem).1 hlarge rfl

/-- The lengths which the code accepts are valid exactly when they are plain
digits: `content_length` also takes a sign and Unicode white space. -/
theorem validLength_iff {response : ResponseHead} {result : Option Nat}
    (h : response.contentLength = .ok result) :
    response.ValidLength ↔ response.headerValues contentLengthField ≠ [] ∧
      ∀ value ∈ response.headerValues contentLengthField, PlainLength value := by
  have helement : ∀ value ∈ response.headerValues contentLengthField,
      fieldElements value = [trimOws (octets value)] ∧ trimOws (octets value) ≠ [] := by
    intro value hvalue
    obtain ⟨text, length, htext, hlength, -⟩ := contentLengthFrom_ok h hvalue
    obtain ⟨hcomma, hne⟩ := single_of_parsed htext hlength
    exact ⟨fieldElements_of_not_mem hcomma hne, hne⟩
  constructor
  · rintro ⟨hne, length, hall⟩
    refine ⟨fun hnil => hne (by simp [announcedLengths, hnil]), fun value hvalue => ?_⟩
    obtain ⟨hvalueElement, hblank⟩ := helement value hvalue
    refine ⟨hblank, (hall _ ?_).1⟩
    exact List.mem_flatMap.mpr ⟨value, hvalue, by simp [hvalueElement]⟩
  · rintro ⟨hne, hplain⟩
    obtain ⟨first, rest, hvalues⟩ := List.exists_cons_of_ne_nil hne
    have hfirst : first ∈ response.headerValues contentLengthField := by simp [hvalues]
    obtain ⟨-, length, -, -, rfl⟩ := contentLengthFrom_ok h hfirst
    refine ⟨?_, length, fun digits hdigits => ?_⟩
    · rw [announcedLengths, hvalues, List.flatMap_cons, (helement first hfirst).1]
      simp
    · obtain ⟨value, hvalue, hmem⟩ := List.mem_flatMap.mp hdigits
      rw [(helement value hvalue).1] at hmem
      obtain rfl := List.mem_singleton.mp hmem
      have hp := hplain value hvalue
      refine ⟨hp.2, ?_⟩
      -- the code has read the same digits
      obtain ⟨text, length', htext, hlength, hsame⟩ := contentLengthFrom_ok h hvalue
      obtain rfl := Option.some.inj (hp.fromUtf8_eq.symm.trans htext)
      rw [trim_of_trimOws hp.1 hp.2, fromStrRadix_of_digits hp.1 hp.2] at hlength
      rw [Option.some.inj hsame]
      exact ((parseDigits_eq_ok_iff (by decide) (Nat.zero_le _)).mp hlength).2.1.symm

end ResponseHead

end Http1
end Fastpx
