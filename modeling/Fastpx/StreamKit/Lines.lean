import Mathlib.Data.List.Flatten
import Fastpx.StreamKit.Pattern

/-!
# Lines ended by a pair of letters

A line-based protocol ends every line with the same two letters `a b` and the
whole message with an empty line.  `joinLines` writes such lines and
`splitLines` takes a text apart at every occurrence of the pair.  When no line
contains `a`:

* splitting gives the lines back (`splitLines_joinLines`);
* if moreover no line is empty, the first place where the pair occurs twice in
  a row is the empty line at the end (`firstIndex_joinLines`).
-/

namespace StreamKit

variable {α : Type*}

/-- The lines, each followed by the pair. -/
def joinLines (a b : α) (lines : List (List α)) : List α :=
  lines.flatMap fun line => line ++ [a, b]

@[simp] theorem joinLines_nil (a b : α) : joinLines a b [] = [] := rfl

@[simp] theorem joinLines_cons (a b : α) (line : List α) (lines : List (List α)) :
    joinLines a b (line :: lines) = line ++ a :: b :: joinLines a b lines := by
  simp [joinLines]

variable [DecidableEq α]

/-- The parts of a text between the occurrences of the pair. -/
def splitLines (a b : α) : List α → List (List α)
  | [] => [[]]
  | [x] => [[x]]
  | x :: y :: rest =>
      if x = a ∧ y = b then [] :: splitLines a b rest
      else (splitLines a b (y :: rest)).modifyHead (x :: ·)

theorem splitLines_pair (a b : α) (rest : List α) :
    splitLines a b (a :: b :: rest) = [] :: splitLines a b rest := by
  simp [splitLines]

theorem splitLines_cons_of_ne {a b x : α} (hx : x ≠ a) (rest : List α) :
    splitLines a b (x :: rest) = (splitLines a b rest).modifyHead (x :: ·) := by
  cases rest with
  | nil => rfl
  | cons y rest => rw [splitLines, if_neg fun h => hx h.1]

/-- A line without `a` is split off as it stands. -/
theorem splitLines_line {a b : α} {line : List α} (hline : a ∉ line) (rest : List α) :
    splitLines a b (line ++ a :: b :: rest) = line :: splitLines a b rest := by
  induction line with
  | nil => exact splitLines_pair a b rest
  | cons x line ih =>
      obtain ⟨hx, hline⟩ := not_or.mp (mt List.mem_cons.mpr hline)
      rw [List.cons_append, splitLines_cons_of_ne (Ne.symm hx), ih hline]
      rfl

/-- Splitting undoes joining. -/
theorem splitLines_joinLines {a b : α} {lines : List (List α)} (hlines : ∀ line ∈ lines, a ∉ line)
    (rest : List α) :
    splitLines a b (joinLines a b lines ++ rest) = lines ++ splitLines a b rest := by
  induction lines with
  | nil => rfl
  | cons line lines ih =>
      obtain ⟨hline, hlines⟩ := List.forall_mem_cons.mp hlines
      rw [joinLines_cons, List.append_assoc, List.cons_append, List.cons_append,
        splitLines_line hline, ih hlines]
      rfl

/-- The search for a pattern skips everything before its first letter. -/
theorem firstIndex_skip {a : α} {pattern front : List α} (hfront : a ∉ front) (rest : List α) :
    firstIndex (a :: pattern) (front ++ rest) =
      (firstIndex (a :: pattern) rest).map (· + front.length) := by
  induction front with
  | nil => simp
  | cons x front ih =>
      obtain ⟨hx, hfront⟩ := not_or.mp (mt List.mem_cons.mpr hfront)
      have hwindow : ¬ (a :: pattern) <+: x :: (front ++ rest) :=
        fun h => hx (List.cons_prefix_cons.mp h).1
      rw [List.cons_append, firstIndex_cons_of_not_isPrefix hwindow, ih hfront, Option.map_map,
        List.length_cons]
      congr 1

/-- Between two lines which are not empty the pair does not occur twice in a
row. -/
theorem firstIndex_pair_pair_skip {a b x : α} (hab : a ≠ b) (hx : x ≠ a) (rest : List α) :
    firstIndex [a, b, a, b] (a :: b :: x :: rest) =
      (firstIndex [a, b, a, b] (x :: rest)).map (· + 2) := by
  have hfirst : ¬ [a, b, a, b] <+: a :: b :: x :: rest := by
    simp [List.cons_prefix_cons, Ne.symm hx]
  have hsecond : ¬ [a, b, a, b] <+: b :: x :: rest :=
    fun h => hab (List.cons_prefix_cons.mp h).1
  rw [firstIndex_cons_of_not_isPrefix hfirst, firstIndex_cons_of_not_isPrefix hsecond,
    Option.map_map]
  congr 1

/-- The first empty line of a message is the one which ends it. -/
theorem firstIndex_joinLines {a b : α} (hab : a ≠ b) {lines : List (List α)} (hne : lines ≠ [])
    (hlines : ∀ line ∈ lines, line ≠ [] ∧ a ∉ line) :
    (firstIndex [a, b, a, b] (joinLines a b lines ++ [a, b])).map (· + 4) =
      some (joinLines a b lines ++ [a, b]).length := by
  induction lines with
  | nil => exact absurd rfl hne
  | cons line lines ih =>
      obtain ⟨⟨-, hline⟩, hlines⟩ := List.forall_mem_cons.mp hlines
      rw [joinLines_cons, List.append_assoc, firstIndex_skip hline]
      cases lines with
      | nil =>
          have hfront : firstIndex [a, b, a, b] [a, b, a, b] = some 0 :=
            firstIndex_of_isPrefix (by simp) (List.prefix_refl _)
          simp [hfront]
      | cons next more =>
          obtain ⟨⟨hnextne, hnext⟩, -⟩ := List.forall_mem_cons.mp hlines
          obtain ⟨x, next, rfl⟩ := List.exists_cons_of_ne_nil hnextne
          have hx : x ≠ a := fun h => hnext (h ▸ List.mem_cons_self)
          have hrest := ih (List.cons_ne_nil _ _) hlines
          rw [joinLines_cons, List.cons_append, List.cons_append] at hrest ⊢
          rw [List.cons_append, List.cons_append, firstIndex_pair_pair_skip hab hx]
          obtain ⟨i, hi, hlen⟩ := Option.map_eq_some_iff.mp hrest
          rw [hi]
          simp only [Option.map_some, Option.some.injEq, List.length_append, List.length_cons]
            at hlen ⊢
          omega

end StreamKit
