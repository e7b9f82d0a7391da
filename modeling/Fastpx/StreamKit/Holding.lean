import Mathlib.Algebra.GroupWithZero.Nat
import Mathlib.Data.List.Perm.Basic
import Mathlib.Data.List.Nodup

/-!
# Resources and their holders

A list of holders, each of which holds some resources: what changes when one
holder is replaced, and when nobody shares a resource.  A system conserves its
resources if every step keeps the number of copies of each; `count_flatMap_set`
and `count_map_eraseIdx` give these numbers, and the rest is arithmetic.  What
the holders count for together changes in the same way.
-/

namespace StreamKit

variable {α β : Type*}

section

variable [DecidableEq β]

/-- Replacing a holder exchanges what the old one held for what the new one
holds. -/
theorem count_flatMap_set {held : α → List β} {holders : List α} {i : Nat} {old : α}
    (h : holders[i]? = some old) (new : α) (b : β) :
    ((holders.set i new).flatMap held).count b + (held old).count b =
      (holders.flatMap held).count b + (held new).count b := by
  obtain ⟨hi, rfl⟩ := List.getElem?_eq_some_iff.mp h
  have hset := ((List.set_perm_cons_eraseIdx hi new).flatMap_right held).count_eq b
  have hget := ((List.getElem_cons_eraseIdx_perm hi).flatMap_right held).count_eq b
  rw [List.flatMap_cons, List.count_append] at hset hget
  omega

/-- Nobody shares a resource after a holder is replaced, if the new one holds each
once, and only what the old one held or nobody did. -/
theorem nodup_flatMap_set {held : α → List β} {holders : List α} {i : Nat} {old : α}
    (h : holders[i]? = some old) (hall : (holders.flatMap held).Nodup) {new : α}
    (hnew : (held new).Nodup)
    (hfresh : ∀ b ∈ held new, b ∈ held old ∨ b ∉ holders.flatMap held) :
    ((holders.set i new).flatMap held).Nodup := by
  refine List.nodup_iff_count_le_one.mpr fun b => ?_
  have hset := @count_flatMap_set _ _ _ held _ _ _ h new b
  have hold := List.nodup_iff_count_le_one.mp hall b
  have honce := List.nodup_iff_count_le_one.mp hnew b
  by_cases hb : b ∈ held new
  · rcases hfresh b hb with hkept | hnone
    · have hpos := List.count_pos_iff.mpr hkept
      omega
    · have hzero := List.count_eq_zero.mpr hnone
      omega
  · have hzero := List.count_eq_zero.mpr hb
    omega

/-- Removing an element removes one copy of its resource. -/
theorem count_map_eraseIdx {holds : α → β} {holders : List α} {i : Nat} {a : α}
    (h : holders[i]? = some a) (b : β) :
    ((holders.eraseIdx i).map holds).count b + [holds a].count b =
      (holders.map holds).count b := by
  obtain ⟨hi, rfl⟩ := List.getElem?_eq_some_iff.mp h
  have hget := ((List.getElem_cons_eraseIdx_perm hi).map holds).count_eq b
  rw [List.map_cons, ← List.singleton_append, List.count_append] at hget
  omega

end

/-- Replacing a holder exchanges what the two count for. -/
theorem countP_set_of_getElem? (p : α → Bool) {holders : List α} {i : Nat} {old : α}
    (h : holders[i]? = some old) (new : α) :
    (holders.set i new).countP p + (p old).toNat = holders.countP p + (p new).toNat := by
  obtain ⟨hi, rfl⟩ := List.getElem?_eq_some_iff.mp h
  have hset := (List.set_perm_cons_eraseIdx hi new).countP_eq p
  have hget := (List.getElem_cons_eraseIdx_perm hi).countP_eq p
  rw [List.countP_cons] at hset hget
  cases hold : p holders[i] <;> cases hnew : p new <;>
    simp only [hold, hnew, if_true, Bool.false_eq_true, if_false, Bool.toNat_true,
      Bool.toNat_false] at hset hget ⊢ <;>
    omega

/-- Replacing a holder exchanges the two summands. -/
theorem sum_map_set_of_getElem? (f : α → Nat) {holders : List α} {i : Nat} {old : α}
    (h : holders[i]? = some old) (new : α) :
    ((holders.set i new).map f).sum + f old = (holders.map f).sum + f new := by
  obtain ⟨hi, rfl⟩ := List.getElem?_eq_some_iff.mp h
  have hset := ((List.set_perm_cons_eraseIdx hi new).map f).sum_nat
  have hget := ((List.getElem_cons_eraseIdx_perm hi).map f).sum_nat
  rw [List.map_cons, List.sum_cons] at hset hget
  omega

/-- Without copies, two holders have nothing in common. -/
theorem not_mem_of_nodup_flatMap {held : α → List β} {holders : List α}
    (h : (holders.flatMap held).Nodup) {i j : Nat} (hij : i ≠ j) {a a' : α}
    (ha : holders[i]? = some a) (ha' : holders[j]? = some a') {b : β} (hb : b ∈ held a) :
    b ∉ held a' := by
  obtain ⟨hi, rfl⟩ := List.getElem?_eq_some_iff.mp ha
  obtain ⟨hj, rfl⟩ := List.getElem?_eq_some_iff.mp ha'
  have hpairwise := List.pairwise_iff_getElem.mp (List.nodup_flatMap.mp h).2
  rcases Nat.lt_or_gt_of_ne hij with hlt | hgt
  · exact fun hmem => hpairwise i j hi hj hlt hb hmem
  · exact fun hmem => hpairwise j i hj hi hgt hmem hb

end StreamKit
