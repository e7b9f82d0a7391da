import Mathlib.Data.List.Pairwise
import Mathlib.Tactic

/-!
# Selection without repetition

The filter loop which keeps the elements that pass a test and were not kept
before, with the set of those already kept as its state.  `FirstOccurrences`
says what such a loop is for, and determines its result.
-/

namespace StreamKit

variable {α : Type*} [DecidableEq α]

/-- Keep what passes `p` and is not in `seen` yet. -/
def selectNew (p : α → Bool) : List α → List α → List α
  | _, [] => []
  | seen, a :: rest =>
      if p a = true ∧ a ∉ seen then a :: selectNew p (a :: seen) rest
      else selectNew p seen rest

/-- `result` are the elements of `xs` which pass `p`, in the order in which they
first occur (so each of them once). -/
structure FirstOccurrences (p : α → Bool) (xs result : List α) : Prop where
  mem_iff : ∀ a, a ∈ result ↔ a ∈ xs ∧ p a = true
  ordered : result.Pairwise fun a b => xs.idxOf a < xs.idxOf b

theorem FirstOccurrences.nodup {p : α → Bool} {xs result : List α}
    (h : FirstOccurrences p xs result) : result.Nodup :=
  h.ordered.imp fun hlt heq => by simp [heq] at hlt

theorem mem_selectNew {p : α → Bool} {seen xs : List α} {a : α} :
    a ∈ selectNew p seen xs ↔ a ∈ xs ∧ p a = true ∧ a ∉ seen := by
  induction xs generalizing seen with
  | nil => simp [selectNew]
  | cons b rest ih =>
      rw [selectNew]
      split
      · next hnew =>
          rw [List.mem_cons, List.mem_cons, ih, List.mem_cons]
          constructor
          · rintro (rfl | ⟨hmem, hp, hnot⟩)
            · exact ⟨Or.inl rfl, hnew⟩
            · exact ⟨Or.inr hmem, hp, fun hseen => hnot (Or.inr hseen)⟩
          · rintro ⟨hmem, hp, hnot⟩
            by_cases hab : a = b
            · exact Or.inl hab
            · exact Or.inr ⟨hmem.resolve_left hab, hp, fun hor => hnot (hor.resolve_left hab)⟩
      · next hold =>
          rw [ih, List.mem_cons]
          refine and_congr_left fun ha => ⟨Or.inr, fun hmem => hmem.resolve_left ?_⟩
          rintro rfl
          exact hold ha

theorem pairwise_selectNew (p : α → Bool) (seen xs : List α) :
    (selectNew p seen xs).Pairwise fun a b => xs.idxOf a < xs.idxOf b := by
  induction xs generalizing seen with
  | nil => exact List.Pairwise.nil
  | cons b rest ih =>
      -- what is kept from the rest differs from `b`, so its positions move by one
      have hshift : ∀ seen', (∀ a ∈ selectNew p seen' rest, a ≠ b) →
          (selectNew p seen' rest).Pairwise fun a a' =>
            (b :: rest).idxOf a < (b :: rest).idxOf a' := by
        intro seen' hne
        refine (ih seen').imp_of_mem fun ha ha' hlt => ?_
        rw [List.idxOf_cons_ne _ (hne _ ha).symm, List.idxOf_cons_ne _ (hne _ ha').symm]
        exact Nat.succ_lt_succ hlt
      rw [selectNew]
      split
      · have hne : ∀ a ∈ selectNew p (b :: seen) rest, a ≠ b := by
          rintro a ha rfl
          exact (mem_selectNew.mp ha).2.2 List.mem_cons_self
        refine List.Pairwise.cons (fun a ha => ?_) (hshift _ hne)
        rw [List.idxOf_cons_self, List.idxOf_cons_ne _ (hne a ha).symm]
        exact Nat.succ_pos _
      · next hold =>
          refine hshift seen ?_
          rintro a ha rfl
          exact hold (mem_selectNew.mp ha).2

/-- The loop, started with nothing seen, keeps the first occurrences. -/
theorem firstOccurrences_selectNew (p : α → Bool) (xs : List α) :
    FirstOccurrences p xs (selectNew p [] xs) where
  mem_iff a := by simp [mem_selectNew]
  ordered := pairwise_selectNew p [] xs

end StreamKit
