import Fastpx.StreamKit.Text

/-!
# List-valued header fields

How HTTP itself reads a field value which is a list: octet by octet, with
commas inside quoted strings not separating, optional white space (blanks and
tabs) removed around the elements, and empty elements not counted.

Programs often decode the value as UTF-8, split at every comma and trim Unicode
white space instead.  The lemmas here say where the two readings agree:
`mem_octets_iff` for the characters, `fieldElements_of_not_mem` for a value
with one element, and `trim_of_trimOws` for the white space.
-/

namespace StreamKit

/-! ## Octets as characters -/

/-- The octets of a value, each as the character with its code. -/
def octets (bytes : Bytes) : Text :=
  bytes.map fun b => Char.ofNat b.toNat

/-- A character code from `0x80` on is not an ASCII character. -/
theorem ne_ofNat_of_ascii {c : Char} {n : Nat} (hc : c.toNat < 0x80) (hn : 0x80 ≤ n)
    (hvalid : n < 0xD800 ∨ 0xDFFF < n ∧ n < 0x110000) : c ≠ Char.ofNat n := by
  rintro rfl
  rw [Char.ofNat, dif_pos (show n.isValidChar from hvalid)] at hc
  exact absurd hc (Nat.not_lt.mpr hn)

/-- Octets from `0x80` on are not ASCII characters. -/
theorem ne_octet_of_ascii {c : Char} {b : UInt8} (hc : c.toNat < 0x80) (hb : ¬ b.toNat < 0x80) :
    c ≠ Char.ofNat b.toNat := by
  have hlt := b.toNat_lt
  exact ne_ofNat_of_ascii hc (by omega) (by omega)

theorem toNat_of_isTail {b : UInt8} (h : isTail b = true) : 0x80 ≤ b.toNat ∧ b.toNat ≤ 0xBF := by
  simpa [isTail] using h

theorem toNat_of_leadsThree {b₀ b₁ : UInt8} (h : leadsThree b₀ b₁ = true) :
    0x80 ≤ b₁.toNat ∧ b₁.toNat ≤ 0xBF ∧ (b₀.toNat = 0xE0 ∧ 0xA0 ≤ b₁.toNat ∨
      0xE1 ≤ b₀.toNat ∧ b₀.toNat ≤ 0xEC ∨ b₀.toNat = 0xED ∧ b₁.toNat ≤ 0x9F ∨
      0xEE ≤ b₀.toNat ∧ b₀.toNat ≤ 0xEF) := by
  simp only [leadsThree, isTail, Bool.or_eq_true, Bool.and_eq_true, beq_iff_eq,
    decide_eq_true_eq] at h
  omega

theorem toNat_of_leadsFour {b₀ b₁ : UInt8} (h : leadsFour b₀ b₁ = true) :
    0x80 ≤ b₁.toNat ∧ b₁.toNat ≤ 0xBF ∧ (b₀.toNat = 0xF0 ∧ 0x90 ≤ b₁.toNat ∨
      0xF1 ≤ b₀.toNat ∧ b₀.toNat ≤ 0xF3 ∨ b₀.toNat = 0xF4 ∧ b₁.toNat ≤ 0x8F) := by
  simp only [leadsFour, isTail, Bool.or_eq_true, Bool.and_eq_true, beq_iff_eq,
    decide_eq_true_eq] at h
  omega

/-- An octet from `0x80` on adds no ASCII character. -/
theorem mem_octets_cons_of_ascii {c : Char} {b : UInt8} (hc : c.toNat < 0x80)
    (hb : ¬ b.toNat < 0x80) (rest : Bytes) : c ∈ octets (b :: rest) ↔ c ∈ octets rest := by
  rw [octets, List.map_cons, List.mem_cons, ← octets]
  exact or_iff_right (ne_octet_of_ascii hc hb)

/-- The ASCII characters of a value do not depend on how it is decoded. -/
theorem mem_octets_iff {bytes : Bytes} {text : Text} {c : Char} (hc : c.toNat < 0x80)
    (h : fromUtf8 bytes = some text) : c ∈ octets bytes ↔ c ∈ text := by
  -- each form of the encoding adds one character, which is the octet itself or not ASCII,
  -- and octets of which none is ASCII
  fun_induction fromUtf8 bytes generalizing text with
  | case1 =>
      obtain rfl := Option.some.inj h
      rfl
  | case2 b₀ rest _ ih =>
      obtain ⟨tail, htail, rfl⟩ := Option.map_eq_some_iff.mp h
      rw [octets, List.map_cons, ← octets, List.mem_cons, List.mem_cons, ih htail]
  | case4 b₀ hnot b₁ rest htwo ih =>
      obtain ⟨tail, htail, rfl⟩ := Option.map_eq_some_iff.mp h
      simp only [Bool.and_eq_true, decide_eq_true_eq] at htwo
      have hrange := toNat_of_isTail htwo.2
      rw [mem_octets_cons_of_ascii hc hnot, mem_octets_cons_of_ascii hc (by omega), ih htail]
      exact (List.mem_cons.trans (or_iff_right (ne_ofNat_of_ascii hc (by omega) (by omega)))).symm
  | case6 b₀ hnot b₁ _ b₂ rest hthree ih =>
      obtain ⟨tail, htail, rfl⟩ := Option.map_eq_some_iff.mp h
      obtain ⟨hlead, h₂⟩ := Bool.and_eq_true_iff.mp hthree
      have hrange₁ := toNat_of_leadsThree hlead
      have hrange₂ := toNat_of_isTail h₂
      rw [mem_octets_cons_of_ascii hc hnot, mem_octets_cons_of_ascii hc (by omega),
        mem_octets_cons_of_ascii hc (by omega), ih htail]
      exact (List.mem_cons.trans (or_iff_right (ne_ofNat_of_ascii hc (by omega) (by omega)))).symm
  | case8 b₀ hnot b₁ _ b₂ _ b₃ rest hfour ih =>
      obtain ⟨tail, htail, rfl⟩ := Option.map_eq_some_iff.mp h
      simp only [Bool.and_eq_true] at hfour
      obtain ⟨⟨hlead, h₂⟩, h₃⟩ := hfour
      have hrange₁ := toNat_of_leadsFour hlead
      have hrange₂ := toNat_of_isTail h₂
      have hrange₃ := toNat_of_isTail h₃
      rw [mem_octets_cons_of_ascii hc hnot, mem_octets_cons_of_ascii hc (by omega),
        mem_octets_cons_of_ascii hc (by omega), mem_octets_cons_of_ascii hc (by omega), ih htail]
      exact (List.mem_cons.trans (or_iff_right (ne_ofNat_of_ascii hc (by omega) (by omega)))).symm
  | _ =>
      -- the decoder refuses the value
      cases h

/-! ## White space around elements -/

/-- The text without the characters in `p` at either end. -/
def trimMatches (p : Char → Bool) (t : Text) : Text :=
  (t.dropWhile p).rdropWhile p

theorem eq_append_trimMatches (p : Char → Bool) (t : Text) :
    ∃ left right, t = left ++ trimMatches p t ++ right ∧ (∀ c ∈ left, p c = true) ∧
      ∀ c ∈ right, p c = true := by
  refine ⟨t.takeWhile p, (t.dropWhile p).rtakeWhile p, ?_, ?_, ?_⟩
  · rw [trimMatches, List.append_assoc, List.rdropWhile_append_rtakeWhile,
      List.takeWhile_append_dropWhile]
  · exact fun c => List.mem_takeWhile_imp
  · exact fun c => List.mem_rtakeWhile_imp

/-- Only the characters in `p` can be trimmed away. -/
theorem mem_trimMatches {p : Char → Bool} {t : Text} {c : Char} (hp : p c = false) :
    c ∈ trimMatches p t ↔ c ∈ t := by
  obtain ⟨left, right, ht, hleft, hright⟩ := eq_append_trimMatches p t
  have hl : c ∉ left := fun hmem => by simp [hleft c hmem] at hp
  have hr : c ∉ right := fun hmem => by simp [hright c hmem] at hp
  conv_rhs => rw [ht]
  simp [hl, hr]

/-- Optional white space. -/
def isOws (c : Char) : Bool := c == ' ' || c == '\t'

theorem isWhitespace_of_isOws {c : Char} (h : isOws c = true) : isWhitespace c = true := by
  rcases Bool.or_eq_true_iff.mp h with hc | hc <;> rw [eq_of_beq hc] <;> decide

def trimOws (t : Text) : Text := trimMatches isOws t

/-- Where optional white space surrounds digits, both ways of trimming agree. -/
theorem trim_of_trimOws {radix : Nat} {t : Text} (hne : trimOws t ≠ [])
    (hdigits : ∀ c ∈ trimOws t, (toDigit radix c).isSome) : trim t = trimOws t := by
  obtain ⟨left, right, ht, hleft, hright⟩ := eq_append_trimMatches isOws t
  rw [← trimOws] at ht
  conv_lhs => rw [ht]
  exact trim_eq_of_ends left (fun c hc => isWhitespace_of_isOws (hleft c hc))
    (fun c hc => isWhitespace_of_isOws (hright c hc))
    hne (isWhitespace_eq_false_of_toDigit (hdigits _ (List.head_mem hne)))
    (isWhitespace_eq_false_of_toDigit (hdigits _ (List.getLast_mem hne)))

/-- Digits which denote `n`, with optional white space around them. -/
def Denotes (radix : Nat) (t : Text) (n : Nat) : Prop :=
  trimOws t ≠ [] ∧ (∀ c ∈ trimOws t, (toDigit radix c).isSome) ∧
    digitsValue radix 0 (trimOws t) = n

/-- No white space but blanks and tabs at the ends, and no plus sign. -/
def Unadorned (t : Text) : Prop :=
  trim t = trimOws t ∧ (trim t).head? ≠ some '+'

/-- The integer parser reads the number which the digits denote. -/
theorem Denotes.parsed_eq {radix maximum n m : Nat} {t : Text} (hradix : 0 < radix)
    (h : Denotes radix t n) (hparsed : fromStrRadix maximum radix (trim t) = .ok m) : m = n := by
  obtain ⟨hne, hdigits, hvalue⟩ := h
  rw [trim_of_trimOws hne hdigits, fromStrRadix_of_digits hne hdigits] at hparsed
  rw [((parseDigits_eq_ok_iff hradix (Nat.zero_le _)).mp hparsed).2.1, hvalue]

/-- Of the texts which the integer parser reads after trimming, the unadorned
ones are those made of digits alone. -/
theorem denotes_iff_unadorned {radix maximum n : Nat} {t : Text} (hradix : 0 < radix)
    (h : fromStrRadix maximum radix (trim t) = .ok n) : Denotes radix t n ↔ Unadorned t := by
  constructor
  · rintro ⟨hne, hdigits, -⟩
    have htrim := trim_of_trimOws hne hdigits
    refine ⟨htrim, fun hplus => ?_⟩
    rw [htrim] at hplus
    exact ne_of_toDigit (hdigits '+' (List.mem_of_mem_head? hplus)) (by decide) rfl
  · rintro ⟨htrim, hplus⟩
    obtain ⟨digits, hsrc, hne, hdigits, hvalue, -⟩ := (fromStrRadix_eq_ok_iff hradix).mp h
    rcases hsrc with rfl | hsrc
    · rw [htrim] at hne hdigits hvalue
      exact ⟨hne, hdigits, hvalue.symm⟩
    · rw [hsrc] at hplus
      exact absurd rfl hplus

/-! ## The elements of a list -/

/-- Where a scanner stands with respect to quoted strings. -/
inductive Quoting where
  | outside
  | inside
  /-- after a backslash in a quoted string -/
  | escaped
  deriving DecidableEq, Repr

/-- The effect of one character on the quotation. -/
def Quoting.next : Quoting → Char → Quoting
  | .outside, c => if c = '"' then .inside else .outside
  | .inside, c => if c = '"' then .outside else if c = '\\' then .escaped else .inside
  | .escaped, _ => .inside

/-- Split at the separators which are not quoted. -/
def splitUnquoted (sep : Char) : Quoting → Text → List Text
  | _, [] => [[]]
  | quoting, c :: rest =>
      if quoting = .outside ∧ c = sep then [] :: splitUnquoted sep .outside rest
      else (splitUnquoted sep (quoting.next c) rest).modifyHead (c :: ·)

theorem splitUnquoted_of_not_mem {sep : Char} {t : Text} (quoting : Quoting) (h : sep ∉ t) :
    splitUnquoted sep quoting t = [t] := by
  induction t generalizing quoting with
  | nil => rfl
  | cons c rest ih =>
      have hc : c ≠ sep := fun hc => h (by simp [hc])
      have hrest : sep ∉ rest := fun hmem => h (List.mem_cons_of_mem c hmem)
      rw [splitUnquoted, if_neg (fun hand => hc hand.2), ih _ hrest]
      rfl

/-- The non-empty elements of a list-valued field. -/
def fieldElements (value : Bytes) : List Text :=
  ((splitUnquoted ',' .outside (octets value)).map trimOws).filter (· ≠ [])

/-- A value without commas is one element, unless it is blank. -/
theorem fieldElements_of_not_mem {value : Bytes} (h : ',' ∉ octets value)
    (hne : trimOws (octets value) ≠ []) : fieldElements value = [trimOws (octets value)] := by
  simp [fieldElements, splitUnquoted_of_not_mem _ h, hne]

end StreamKit
