import Mathlib.Tactic

/-!
# UTF-8 texts and their bytes

Texts are lists of characters.  `utf8 t` is the byte string of a text and
`fromUtf8` the strict decoder: it accepts exactly the well-formed byte
sequences of the Unicode standard, so overlong forms, surrogates and values
beyond `U+10FFFF` are refused.

The decoder is used through three facts: it inverts the encoder
(`fromUtf8_utf8`), it reads ASCII bytes as themselves (`fromUtf8_ascii`), and a
byte below `0x80` occurs in an encoded text only where its character does
(`mem_utf8_iff_of_lt`).
-/

namespace StreamKit

/-- A text: the characters of a valid UTF-8 string. -/
abbrev Text := List Char

/-- A byte string. -/
abbrev Bytes := List UInt8

/-- A statement about the members of a list is decided along the list.  The
instance which tries every character would be found first for a text. -/
instance (priority := 2000) decidableForallMem {α : Type*} (l : List α) (P : α → Prop)
    [DecidablePred P] : Decidable (∀ x ∈ l, P x) :=
  List.decidableBAll P l

/-- The UTF-8 bytes of a text. -/
def utf8 (t : Text) : Bytes :=
  t.flatMap String.utf8EncodeChar

@[simp] theorem utf8_nil : utf8 [] = [] := rfl

@[simp] theorem utf8_cons (c : Char) (t : Text) :
    utf8 (c :: t) = String.utf8EncodeChar c ++ utf8 t := rfl

@[simp] theorem utf8_append (t u : Text) : utf8 (t ++ u) = utf8 t ++ utf8 u := by
  simp [utf8]

/-- Continuation bytes. -/
def isTail (b : UInt8) : Bool :=
  0x80 ≤ b.toNat && b.toNat ≤ 0xBF

/-- Lead byte and first continuation byte of a well-formed three-byte form. -/
def leadsThree (b₀ b₁ : UInt8) : Bool :=
  (b₀.toNat == 0xE0 && (0xA0 ≤ b₁.toNat && b₁.toNat ≤ 0xBF)) ||
  (0xE1 ≤ b₀.toNat && b₀.toNat ≤ 0xEC && isTail b₁) ||
  (b₀.toNat == 0xED && (0x80 ≤ b₁.toNat && b₁.toNat ≤ 0x9F)) ||
  (0xEE ≤ b₀.toNat && b₀.toNat ≤ 0xEF && isTail b₁)

/-- Lead byte and first continuation byte of a well-formed four-byte form. -/
def leadsFour (b₀ b₁ : UInt8) : Bool :=
  (b₀.toNat == 0xF0 && (0x90 ≤ b₁.toNat && b₁.toNat ≤ 0xBF)) ||
  (0xF1 ≤ b₀.toNat && b₀.toNat ≤ 0xF3 && isTail b₁) ||
  (b₀.toNat == 0xF4 && (0x80 ≤ b₁.toNat && b₁.toNat ≤ 0x8F))

/-- Strict decoding of a byte string. -/
def fromUtf8 : Bytes → Option Text
  | [] => some []
  | b₀ :: rest =>
      if b₀.toNat < 0x80 then
        (fromUtf8 rest).map (Char.ofNat b₀.toNat :: ·)
      else
        match rest with
        | [] => none
        | b₁ :: rest =>
            if 0xC2 ≤ b₀.toNat && b₀.toNat ≤ 0xDF && isTail b₁ then
              (fromUtf8 rest).map
                (Char.ofNat ((b₀.toNat - 0xC0) * 64 + (b₁.toNat - 0x80)) :: ·)
            else
              match rest with
              | [] => none
              | b₂ :: rest =>
                  if leadsThree b₀ b₁ && isTail b₂ then
                    (fromUtf8 rest).map
                      (Char.ofNat ((b₀.toNat - 0xE0) * 4096 +
                        (b₁.toNat - 0x80) * 64 + (b₂.toNat - 0x80)) :: ·)
                  else
                    match rest with
                    | [] => none
                    | b₃ :: rest =>
                        if leadsFour b₀ b₁ && isTail b₂ && isTail b₃ then
                          (fromUtf8 rest).map
                            (Char.ofNat ((b₀.toNat - 0xF0) * 262144 +
                              (b₁.toNat - 0x80) * 4096 + (b₂.toNat - 0x80) * 64 +
                              (b₃.toNat - 0x80)) :: ·)
                        else none

private theorem toNat_ofNat_of_lt {n : Nat} (h : n < 256) : (UInt8.ofNat n).toNat = n := by
  simp [Nat.mod_eq_of_lt h]

/-- One-byte form. -/
theorem fromUtf8_one {b₀ : UInt8} (h : b₀.toNat < 0x80) (rest : Bytes) :
    fromUtf8 (b₀ :: rest) = (fromUtf8 rest).map (Char.ofNat b₀.toNat :: ·) := by
  rw [fromUtf8.eq_def]
  simp only [if_pos h]

/-- Two-byte form. -/
theorem fromUtf8_two {b₀ b₁ : UInt8} (hlo : 0xC2 ≤ b₀.toNat) (hhi : b₀.toNat ≤ 0xDF)
    (h₁ : isTail b₁ = true) (rest : Bytes) :
    fromUtf8 (b₀ :: b₁ :: rest) =
      (fromUtf8 rest).map
        (Char.ofNat ((b₀.toNat - 0xC0) * 64 + (b₁.toNat - 0x80)) :: ·) := by
  rw [fromUtf8.eq_def]
  simp [show ¬ b₀.toNat < 0x80 by omega, hlo, hhi, h₁]

/-- Three-byte form. -/
theorem fromUtf8_three {b₀ b₁ b₂ : UInt8} (hlead : 0xE0 ≤ b₀.toNat)
    (h₁ : leadsThree b₀ b₁ = true) (h₂ : isTail b₂ = true) (rest : Bytes) :
    fromUtf8 (b₀ :: b₁ :: b₂ :: rest) =
      (fromUtf8 rest).map
        (Char.ofNat ((b₀.toNat - 0xE0) * 4096 + (b₁.toNat - 0x80) * 64 +
          (b₂.toNat - 0x80)) :: ·) := by
  rw [fromUtf8.eq_def]
  simp [show ¬ b₀.toNat < 0x80 by omega, show ¬ b₀.toNat ≤ 0xDF by omega, h₁, h₂]

/-- Four-byte form. -/
theorem fromUtf8_four {b₀ b₁ b₂ b₃ : UInt8} (hlead : 0xF0 ≤ b₀.toNat)
    (h₁ : leadsFour b₀ b₁ = true) (h₂ : isTail b₂ = true) (h₃ : isTail b₃ = true)
    (rest : Bytes) :
    fromUtf8 (b₀ :: b₁ :: b₂ :: b₃ :: rest) =
      (fromUtf8 rest).map
        (Char.ofNat ((b₀.toNat - 0xF0) * 262144 + (b₁.toNat - 0x80) * 4096 +
          (b₂.toNat - 0x80) * 64 + (b₃.toNat - 0x80)) :: ·) := by
  have hthree : leadsThree b₀ b₁ = false := by
    simp only [leadsThree, Bool.or_eq_false_iff, Bool.and_eq_false_iff, beq_eq_false_iff_ne,
      decide_eq_false_iff_not]
    omega
  rw [fromUtf8.eq_def]
  simp [show ¬ b₀.toNat < 0x80 by omega, show ¬ b₀.toNat ≤ 0xDF by omega, hthree, h₁, h₂, h₃]

/-- The low six bits, shifted to a continuation byte. -/
private theorem isTail_ofNat {n : Nat} : isTail (UInt8.ofNat (n % 64 + 128)) = true := by
  simp only [isTail, toNat_ofNat_of_lt (show n % 64 + 128 < 256 by omega),
    Bool.and_eq_true, decide_eq_true_eq]
  omega

/-- Decoding consumes one encoded character at a time. -/
theorem fromUtf8_utf8EncodeChar_append (c : Char) (rest : Bytes) :
    fromUtf8 (String.utf8EncodeChar c ++ rest) = (fromUtf8 rest).map (c :: ·) := by
  have hvalid : c.val.toNat < 0xD800 ∨ 0xDFFF < c.val.toNat ∧ c.val.toNat < 0x110000 := c.valid
  have hchar : Char.ofNat c.val.toNat = c := Char.ofNat_toNat c
  simp only [String.utf8EncodeChar]
  generalize c.val.toNat = v at hvalid hchar ⊢
  -- one case for each length of the encoding
  split
  · rw [List.cons_append, List.nil_append, fromUtf8_one] <;>
      rw [toNat_ofNat_of_lt (by omega)]
    · rw [hchar]
    · omega
  · split
    · have hb₀ := toNat_ofNat_of_lt (show v / 64 % 32 + 192 < 256 by omega)
      have hb₁ := toNat_ofNat_of_lt (show v % 64 + 128 < 256 by omega)
      simp only [List.cons_append, List.nil_append]
      rw [fromUtf8_two (by omega) (by omega) isTail_ofNat, hb₀, hb₁,
        show (v / 64 % 32 + 192 - 0xC0) * 64 + (v % 64 + 128 - 0x80) = v by omega, hchar]
    · split
      · have hb₀ := toNat_ofNat_of_lt (show v / 4096 % 16 + 224 < 256 by omega)
        have hb₁ := toNat_ofNat_of_lt (show v / 64 % 64 + 128 < 256 by omega)
        have hb₂ := toNat_ofNat_of_lt (show v % 64 + 128 < 256 by omega)
        have hlead : leadsThree (UInt8.ofNat (v / 4096 % 16 + 224))
            (UInt8.ofNat (v / 64 % 64 + 128)) = true := by
          simp only [leadsThree, isTail, hb₀, hb₁, Bool.or_eq_true, Bool.and_eq_true,
            beq_iff_eq, decide_eq_true_eq]
          omega
        simp only [List.cons_append, List.nil_append]
        rw [fromUtf8_three (by omega) hlead isTail_ofNat, hb₀, hb₁, hb₂,
          show (v / 4096 % 16 + 224 - 0xE0) * 4096 + (v / 64 % 64 + 128 - 0x80) * 64 +
            (v % 64 + 128 - 0x80) = v by omega, hchar]
      · have hb₀ := toNat_ofNat_of_lt (show v / 262144 % 8 + 240 < 256 by omega)
        have hb₁ := toNat_ofNat_of_lt (show v / 4096 % 64 + 128 < 256 by omega)
        have hb₂ := toNat_ofNat_of_lt (show v / 64 % 64 + 128 < 256 by omega)
        have hb₃ := toNat_ofNat_of_lt (show v % 64 + 128 < 256 by omega)
        have hlead : leadsFour (UInt8.ofNat (v / 262144 % 8 + 240))
            (UInt8.ofNat (v / 4096 % 64 + 128)) = true := by
          simp only [leadsFour, isTail, hb₀, hb₁, Bool.or_eq_true, Bool.and_eq_true,
            beq_iff_eq, decide_eq_true_eq]
          omega
        simp only [List.cons_append, List.nil_append]
        rw [fromUtf8_four (by omega) hlead isTail_ofNat isTail_ofNat, hb₀, hb₁, hb₂, hb₃,
          show (v / 262144 % 8 + 240 - 0xF0) * 262144 + (v / 4096 % 64 + 128 - 0x80) * 4096 +
            (v / 64 % 64 + 128 - 0x80) * 64 + (v % 64 + 128 - 0x80) = v by omega, hchar]

/-- The decoder inverts the encoder. -/
theorem fromUtf8_utf8 (t : Text) : fromUtf8 (utf8 t) = some t := by
  induction t with
  | nil => rfl
  | cons c t ih =>
      rw [utf8_cons, fromUtf8_utf8EncodeChar_append, ih]
      rfl

/-- ASCII bytes decode to the characters with the same codes. -/
theorem fromUtf8_ascii {bytes : Bytes} (h : ∀ b ∈ bytes, b.toNat < 0x80) :
    fromUtf8 bytes = some (bytes.map fun b => Char.ofNat b.toNat) := by
  induction bytes with
  | nil => rfl
  | cons b rest ih =>
      rw [fromUtf8_one (h b List.mem_cons_self),
        ih fun b' hb' => h b' (List.mem_cons_of_mem _ hb')]
      rfl

/-- An ASCII byte of an encoded character is the character itself. -/
theorem mem_utf8EncodeChar_iff_of_lt {b : UInt8} (hb : b.toNat < 0x80) (c : Char) :
    b ∈ String.utf8EncodeChar c ↔ c.val.toNat = b.toNat := by
  simp only [String.utf8EncodeChar]
  have hmem : ∀ n, n < 256 → (b = UInt8.ofNat n ↔ b.toNat = n) := by
    intro n hn
    constructor
    · rintro rfl
      exact toNat_ofNat_of_lt hn
    · rintro rfl
      simp
  split
  · rw [List.mem_singleton, hmem _ (by omega)]
    exact eq_comm
  · split
    · simp only [List.mem_cons, List.not_mem_nil, or_false]
      rw [hmem _ (by omega), hmem _ (by omega)]
      omega
    · split
      · simp only [List.mem_cons, List.not_mem_nil, or_false]
        rw [hmem _ (by omega), hmem _ (by omega), hmem _ (by omega)]
        omega
      · simp only [List.mem_cons, List.not_mem_nil, or_false]
        rw [hmem _ (by omega), hmem _ (by omega), hmem _ (by omega), hmem _ (by omega)]
        omega

/-- A byte below `0x80` occurs in an encoded text only where its character
does. -/
theorem mem_utf8_iff_of_lt {b : UInt8} (hb : b.toNat < 0x80) (t : Text) :
    b ∈ utf8 t ↔ ∃ c ∈ t, c.val.toNat = b.toNat := by
  simp only [utf8, List.mem_flatMap, mem_utf8EncodeChar_iff_of_lt hb]

end StreamKit
