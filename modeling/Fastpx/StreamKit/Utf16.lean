import Mathlib.Data.List.Basic
import Fastpx.StreamKit.Text

/-!
# UTF-16 texts with a terminator

Text as a list of 16-bit code units which is ended by a zero unit, as native
interfaces take it.  A reader sees the units up to the first zero; what it sees
is the text up to its first NUL character (`fromUtf16_terminated`).
-/

namespace StreamKit

/-- The character with the number zero. -/
def nul : Char := Char.ofNat 0

/-- The code units of a character. -/
def utf16Units (c : Char) : List UInt16 :=
  if c.toNat < 0x10000 then [UInt16.ofNat c.toNat]
  else
    let rest := c.toNat - 0x10000
    [UInt16.ofNat (0xD800 + rest / 0x400), UInt16.ofNat (0xDC00 + rest % 0x400)]

/-- The first unit of a pair. -/
def isLeadingUnit (u : UInt16) : Bool := 0xD800 ≤ u.toNat && u.toNat < 0xDC00

/-- The second unit of a pair. -/
def isTrailingUnit (u : UInt16) : Bool := 0xDC00 ≤ u.toNat && u.toNat < 0xE000

/-- Read text from code units; a unit of a pair on its own is an error. -/
def fromUtf16 : List UInt16 → Option Text
  | [] => some []
  | u :: rest =>
      if isLeadingUnit u then
        match rest with
        | [] => none
        | v :: rest =>
            if isTrailingUnit v then
              (fromUtf16 rest).map
                (Char.ofNat (0x10000 + (u.toNat - 0xD800) * 0x400 + (v.toNat - 0xDC00)) :: ·)
            else none
      else if isTrailingUnit u then none
      else (fromUtf16 rest).map (Char.ofNat u.toNat :: ·)

/-- The units in front of the terminator. -/
def untilZero (units : List UInt16) : List UInt16 := units.takeWhile (· ≠ 0)

theorem toNat_ofNat_unit {n : Nat} (h : n < 0x10000) : (UInt16.ofNat n).toNat = n :=
  UInt16.toNat_ofNat_of_lt' h

/-- A character is no unit of a pair, and less than the end of Unicode. -/
theorem char_range (c : Char) :
    c.toNat < 0xD800 ∨ (0xDFFF < c.toNat ∧ c.toNat < 0x110000) :=
  c.valid

theorem fromUtf16_units_append (c : Char) (rest : List UInt16) :
    fromUtf16 (utf16Units c ++ rest) = (fromUtf16 rest).map (c :: ·) := by
  have hrange := char_range c
  unfold utf16Units
  split
  · next hsmall =>
      have hunit := toNat_ofNat_unit hsmall
      have hleading : isLeadingUnit (UInt16.ofNat c.toNat) = false := by
        simp only [isLeadingUnit, hunit, Bool.and_eq_false_iff, decide_eq_false_iff_not]
        omega
      have htrailing : isTrailingUnit (UInt16.ofNat c.toNat) = false := by
        simp only [isTrailingUnit, hunit, Bool.and_eq_false_iff, decide_eq_false_iff_not]
        omega
      rw [List.singleton_append, fromUtf16.eq_def]
      simp only [hleading, htrailing, Bool.false_eq_true, if_false, hunit, Char.ofNat_toNat]
  · next hlarge =>
      -- both units of the pair, and the number they stand for
      have hfirst := toNat_ofNat_unit (show 0xD800 + (c.toNat - 0x10000) / 0x400 < 0x10000 by omega)
      have hsecond :=
        toNat_ofNat_unit (show 0xDC00 + (c.toNat - 0x10000) % 0x400 < 0x10000 by omega)
      have hleading :
          isLeadingUnit (UInt16.ofNat (0xD800 + (c.toNat - 0x10000) / 0x400)) = true := by
        simp only [isLeadingUnit, hfirst, Bool.and_eq_true, decide_eq_true_eq]
        omega
      have htrailing :
          isTrailingUnit (UInt16.ofNat (0xDC00 + (c.toNat - 0x10000) % 0x400)) = true := by
        simp only [isTrailingUnit, hsecond, Bool.and_eq_true, decide_eq_true_eq]
        omega
      have hvalue : 0x10000 + (0xD800 + (c.toNat - 0x10000) / 0x400 - 0xD800) * 0x400 +
          (0xDC00 + (c.toNat - 0x10000) % 0x400 - 0xDC00) = c.toNat := by
        omega
      rw [List.cons_append, List.singleton_append, fromUtf16]
      simp only [hleading, htrailing, if_true, hfirst, hsecond, hvalue, Char.ofNat_toNat]

/-- Code units are read back as the text. -/
theorem fromUtf16_flatMap (t : Text) : fromUtf16 (t.flatMap utf16Units) = some t := by
  induction t with
  | nil => rfl
  | cons c rest ih =>
      rw [List.flatMap_cons, fromUtf16_units_append, ih]
      rfl

/-- Only the NUL character has a zero unit. -/
theorem zero_mem_utf16Units_iff {c : Char} : 0 ∈ utf16Units c ↔ c = nul := by
  have hrange := char_range c
  have hzero : ∀ {n : Nat}, n < 0x10000 → ((0 : UInt16) = UInt16.ofNat n ↔ n = 0) := by
    intro n hn
    rw [← UInt16.toNat_inj, toNat_ofNat_unit hn]
    exact eq_comm
  unfold utf16Units
  split
  · next hsmall =>
      rw [List.mem_singleton, hzero hsmall]
      constructor
      · intro h
        rw [← Char.ofNat_toNat c, h]
        rfl
      · rintro rfl
        rfl
  · next hlarge =>
      rw [List.mem_cons, List.mem_singleton, hzero (by omega), hzero (by omega)]
      constructor
      · intro h
        omega
      · rintro rfl
        exact absurd (show nul.toNat < 0x10000 by decide) hlarge

/-- The units up to the terminator are those of the text up to its first NUL. -/
theorem untilZero_terminated (t : Text) :
    untilZero (t.flatMap utf16Units ++ [0]) = (t.takeWhile (· ≠ nul)).flatMap utf16Units := by
  induction t with
  | nil => rfl
  | cons c rest ih =>
      by_cases hc : c = nul
      · subst hc
        rfl
      · have hunits : ∀ u ∈ utf16Units c, decide (u ≠ 0) = true := by
          intro u hu
          rw [decide_eq_true_eq]
          rintro rfl
          exact hc (zero_mem_utf16Units_iff.mp hu)
        rw [List.flatMap_cons, List.append_assoc, untilZero, List.takeWhile_append_of_pos hunits,
          ← untilZero, ih, List.takeWhile_cons_of_pos (by simpa using hc), List.flatMap_cons]

/-- A reader of terminated text gets it up to its first NUL character. -/
theorem fromUtf16_terminated (t : Text) :
    fromUtf16 (untilZero (t.flatMap utf16Units ++ [0])) = some (t.takeWhile (· ≠ nul)) := by
  rw [untilZero_terminated, fromUtf16_flatMap]

end StreamKit
