import Mathlib.Data.List.Infix

/-!
# First occurrences of a pattern in a list

`firstIndex pattern text` is the position of the first window of `text` that
equals `pattern`.  A reader which receives `text` in pieces only ever sees a
growing left factor of it, so the lemmas below compare the search in a list
with the search in its left factors:

* a position found early is never revised by later input
  (`firstIndex_append_of_some`);
* a position of the whole list is already visible in every left factor which
  contains the window (`firstIndex_left_of_append`);
* a two-letter pattern with distinct letters cannot straddle the end of a
  pattern-free list and a fresh copy of the pattern (`firstIndex_pair_append`).
-/

namespace StreamKit

variable {α : Type*} [DecidableEq α]

/-- Position of the first window of the list which equals `pattern`. -/
def firstIndex (pattern : List α) : List α → Option Nat
  | [] => none
  | x :: rest =>
      if pattern.isPrefixOf (x :: rest) then some 0
      else (firstIndex pattern rest).map (· + 1)

@[simp] theorem firstIndex_nil (pattern : List α) :
    firstIndex pattern [] = none := rfl

theorem firstIndex_cons (pattern : List α) (x : α) (rest : List α) :
    firstIndex pattern (x :: rest) =
      if pattern.isPrefixOf (x :: rest) then some 0
      else (firstIndex pattern rest).map (· + 1) := rfl

/-- A window at the very front is the first one. -/
theorem firstIndex_of_isPrefix {pattern text : List α} (hne : text ≠ [])
    (h : pattern <+: text) : firstIndex pattern text = some 0 := by
  cases text with
  | nil => exact absurd rfl hne
  | cons x rest =>
      rw [firstIndex_cons, if_pos (List.isPrefixOf_iff_prefix.mpr h)]

/-- Without a window at the front the search moves on by one element. -/
theorem firstIndex_cons_of_not_isPrefix {pattern rest : List α} {x : α}
    (h : ¬ pattern <+: x :: rest) :
    firstIndex pattern (x :: rest) = (firstIndex pattern rest).map (· + 1) := by
  rw [firstIndex_cons, if_neg (fun hp => h (List.isPrefixOf_iff_prefix.mp hp))]

/-- A position is the front, with a window there, or comes from the rest of the
list. -/
theorem firstIndex_cons_cases {pattern rest : List α} {x : α} {i : Nat}
    (h : firstIndex pattern (x :: rest) = some i) :
    (pattern <+: x :: rest ∧ i = 0) ∨
      (¬ pattern <+: x :: rest ∧ ∃ j, firstIndex pattern rest = some j ∧ i = j + 1) := by
  by_cases hfront : pattern <+: x :: rest
  · rw [firstIndex_of_isPrefix (List.cons_ne_nil _ _) hfront] at h
    exact Or.inl ⟨hfront, (Option.some.inj h).symm⟩
  · rw [firstIndex_cons_of_not_isPrefix hfront] at h
    obtain ⟨j, hj, rfl⟩ := Option.map_eq_some_iff.mp h
    exact Or.inr ⟨hfront, j, hj, rfl⟩

/-- The reported position is a window. -/
theorem firstIndex_isPrefix_drop {pattern text : List α} {i : Nat}
    (h : firstIndex pattern text = some i) : pattern <+: text.drop i := by
  induction text generalizing i with
  | nil => simp at h
  | cons x rest ih =>
      rcases firstIndex_cons_cases h with ⟨hfront, rfl⟩ | ⟨-, j, hj, rfl⟩
      · simpa using hfront
      · simpa using ih hj

/-- The window lies inside the list. -/
theorem firstIndex_add_length_le {pattern text : List α} {i : Nat}
    (h : firstIndex pattern text = some i) : i + pattern.length ≤ text.length := by
  induction text generalizing i with
  | nil => simp at h
  | cons x rest ih =>
      rcases firstIndex_cons_cases h with ⟨hfront, rfl⟩ | ⟨-, j, hj, rfl⟩
      · simpa using hfront.length_le
      · have := ih hj
        simp only [List.length_cons]
        omega

/-- A position found in a left factor is the position in the whole list. -/
theorem firstIndex_append_of_some {pattern text : List α} {i : Nat}
    (h : firstIndex pattern text = some i) (later : List α) :
    firstIndex pattern (text ++ later) = some i := by
  induction text generalizing i with
  | nil => simp at h
  | cons x rest ih =>
      rcases firstIndex_cons_cases h with ⟨hfront, rfl⟩ | ⟨hfront, j, hj, rfl⟩
      · exact firstIndex_of_isPrefix (by simp)
          (hfront.trans (List.prefix_append _ _))
      · have hlen := firstIndex_add_length_le h
        -- the window fits into `x :: rest`, so a front window of the longer
        -- list would already be one of the shorter list
        have hfront' : ¬ pattern <+: x :: (rest ++ later) := by
          intro hp
          exact hfront (List.prefix_of_prefix_length_le hp
            (List.prefix_append (x :: rest) later) (by omega))
        rw [List.cons_append, firstIndex_cons_of_not_isPrefix hfront', ih hj]
        rfl

/-- A position of the whole list whose window lies inside a left factor is
already the position in that factor. -/
theorem firstIndex_left_of_append {pattern text later : List α} {i : Nat}
    (h : firstIndex pattern (text ++ later) = some i)
    (hin : i + pattern.length ≤ text.length) (hne : pattern ≠ []) :
    firstIndex pattern text = some i := by
  induction text generalizing i with
  | nil =>
      have hpos := List.length_pos_iff.mpr hne
      rw [List.length_nil] at hin
      omega
  | cons x rest ih =>
      by_cases hfront : pattern <+: x :: rest
      · have hlong : pattern <+: x :: rest ++ later :=
          hfront.trans (List.prefix_append _ _)
        rw [firstIndex_of_isPrefix (by simp) hlong] at h
        rw [← h]
        exact firstIndex_of_isPrefix (List.cons_ne_nil _ _) hfront
      · rcases firstIndex_cons_cases h with ⟨hlong, rfl⟩ | ⟨-, j, hj, rfl⟩
        · exact absurd (List.prefix_of_prefix_length_le hlong
            (List.prefix_append (x :: rest) later) (by omega)) hfront
        · rw [firstIndex_cons_of_not_isPrefix hfront,
            ih hj (by simp only [List.length_cons] at hin; omega)]
          rfl

/-- Nothing found means that no suffix starts with the pattern. -/
theorem not_isPrefix_drop_of_firstIndex_none {pattern text : List α}
    (h : firstIndex pattern text = none) (hne : pattern ≠ []) (i : Nat) :
    ¬ pattern <+: text.drop i := by
  induction text generalizing i with
  | nil => simpa using hne
  | cons x rest ih =>
      have hfront : ¬ pattern <+: x :: rest := by
        intro hp
        rw [firstIndex_of_isPrefix (List.cons_ne_nil _ _) hp] at h
        cases h
      rw [firstIndex_cons_of_not_isPrefix hfront] at h
      cases i with
      | zero => simpa using hfront
      | succ i => simpa using ih (by simpa using h) i

/-- No window starts before the reported position. -/
theorem not_isPrefix_drop_of_lt {pattern text : List α} {i j : Nat}
    (h : firstIndex pattern text = some i) (hj : j < i) : ¬ pattern <+: text.drop j := by
  induction text generalizing i j with
  | nil => simp at h
  | cons x rest ih =>
      rcases firstIndex_cons_cases h with ⟨-, rfl⟩ | ⟨hfront, k, hk, rfl⟩
      · exact absurd hj (Nat.not_lt_zero j)
      · cases j with
        | zero => simpa using hfront
        | succ j => simpa using ih hk (Nat.lt_of_succ_lt_succ hj)

/-- The reported position is the smallest one with a window. -/
theorem firstIndex_eq_some_iff {pattern text : List α} (hne : pattern ≠ []) {i : Nat} :
    firstIndex pattern text = some i ↔
      pattern <+: text.drop i ∧ ∀ j < i, ¬ pattern <+: text.drop j := by
  constructor
  · exact fun h => ⟨firstIndex_isPrefix_drop h, fun _ => not_isPrefix_drop_of_lt h⟩
  · rintro ⟨hwindow, hfirst⟩
    cases hfound : firstIndex pattern text with
    | none => exact absurd hwindow (not_isPrefix_drop_of_firstIndex_none hfound hne i)
    | some k =>
        -- neither position can be before the other
        have hki : ¬ k < i := fun h => hfirst k h (firstIndex_isPrefix_drop hfound)
        have hik : ¬ i < k := fun h => not_isPrefix_drop_of_lt hfound h hwindow
        rw [show k = i by omega]

/-- A pattern does not occur where its first letter does not. -/
theorem firstIndex_eq_none_of_not_mem {a : α} {pattern text : List α} (h : a ∉ text) :
    firstIndex (a :: pattern) text = none := by
  induction text with
  | nil => rfl
  | cons x rest ih =>
      have hfront : ¬ a :: pattern <+: x :: rest := by
        intro hp
        exact h ((List.cons_prefix_cons.mp hp).1 ▸ List.mem_cons_self)
      rw [firstIndex_cons_of_not_isPrefix hfront, ih fun hmem => h (List.mem_cons_of_mem _ hmem)]
      rfl

/-- Appending a fresh copy of a two-letter pattern with distinct letters to a
pattern-free list puts the first occurrence exactly at the end of the list. -/
theorem firstIndex_pair_append {a b : α} (hab : a ≠ b) {text : List α}
    (h : firstIndex [a, b] text = none) (later : List α) :
    firstIndex [a, b] (text ++ a :: b :: later) = some text.length := by
  induction text with
  | nil => exact firstIndex_of_isPrefix (by simp) ⟨later, rfl⟩
  | cons x rest ih =>
      have hfront : ¬ [a, b] <+: x :: rest := by
        simpa using not_isPrefix_drop_of_firstIndex_none h (by simp) 0
      rw [firstIndex_cons_of_not_isPrefix hfront, Option.map_eq_none_iff] at h
      have hlong : ¬ [a, b] <+: x :: (rest ++ a :: b :: later) := by
        intro hp
        obtain ⟨hax, htail⟩ := List.cons_prefix_cons.mp hp
        cases rest with
        | nil =>
            obtain ⟨hba, -⟩ := List.cons_prefix_cons.mp htail
            exact hab hba.symm
        | cons y rest =>
            obtain ⟨hby, -⟩ := List.cons_prefix_cons.mp htail
            exact hfront ⟨rest, by rw [hax, hby]; rfl⟩
      rw [List.cons_append, firstIndex_cons_of_not_isPrefix hlong, ih h]
      rfl

end StreamKit
