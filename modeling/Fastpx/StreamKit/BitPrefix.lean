import Mathlib.Data.BitVec
import Mathlib.Tactic

/-!
# Leading bits

The words which share their leading bits with a given word.  `AgreeOn n x y` is
the definition bit by bit; programs compute it from masked words
(`agreeOn_iff_and_mask`) or from quotients by a power of two
(`agreeOn_iff_toNat_div`).

The set of words which agree with `x` on `n` bits determines `n`, and `x` up to
agreement (`agreeOn_determined`).
-/

namespace StreamKit

variable {w m n : Nat} {x y z : BitVec w}

/-- The words have the same `n` most significant bits. -/
def AgreeOn (n : Nat) (x y : BitVec w) : Prop :=
  ∀ i < n, x.getMsbD i = y.getMsbD i

instance (n : Nat) (x y : BitVec w) : Decidable (AgreeOn n x y) :=
  Nat.decidableBallLT n fun i _ => x.getMsbD i = y.getMsbD i

theorem AgreeOn.refl (n : Nat) (x : BitVec w) : AgreeOn n x x := fun _ _ => rfl

theorem AgreeOn.symm (h : AgreeOn n x y) : AgreeOn n y x := fun i hi => (h i hi).symm

theorem AgreeOn.trans (h : AgreeOn n x y) (h' : AgreeOn n y z) : AgreeOn n x z :=
  fun i hi => (h i hi).trans (h' i hi)

theorem agreeOn_congr_left (h : AgreeOn n x y) : AgreeOn n x z ↔ AgreeOn n y z :=
  ⟨h.symm.trans, h.trans⟩

/-! ## Masks -/

/-- The word with its `n` leading bits set. -/
def leadingMask (w n : Nat) : BitVec w := BitVec.allOnes w <<< (w - n)

theorem getMsbD_leadingMask (hn : n ≤ w) (i : Nat) :
    (leadingMask w n).getMsbD i = decide (i < n) := by
  rw [leadingMask, BitVec.getMsbD_shiftLeft, BitVec.getMsbD_allOnes, decide_eq_decide]
  omega

theorem agreeOn_iff_and_mask (hn : n ≤ w) :
    AgreeOn n x y ↔ x &&& leadingMask w n = y &&& leadingMask w n := by
  constructor
  · intro h
    apply BitVec.eq_of_getMsbD_eq
    intro i _
    rw [BitVec.getMsbD_and, BitVec.getMsbD_and, getMsbD_leadingMask hn]
    by_cases hi : i < n
    · rw [h i hi]
    · simp [hi]
  · intro h i hi
    have hbit := congrArg (fun word => word.getMsbD i) h
    simpa [getMsbD_leadingMask hn, hi] using hbit

/-- Masking does not change the leading bits. -/
theorem agreeOn_and_mask (hn : n ≤ w) (x : BitVec w) : AgreeOn n (x &&& leadingMask w n) x := by
  intro i hi
  simp [getMsbD_leadingMask hn, hi]

/-! ## Quotients -/

theorem agreeOn_iff_shift (hn : n ≤ w) : AgreeOn n x y ↔ x >>> (w - n) = y >>> (w - n) := by
  constructor
  · intro h
    apply BitVec.eq_of_getLsbD_eq
    intro i hi
    rw [BitVec.getLsbD_ushiftRight, BitVec.getLsbD_ushiftRight, BitVec.getLsbD_eq_getMsbD,
      BitVec.getLsbD_eq_getMsbD y]
    by_cases hlow : w - n + i < w
    · rw [h (w - 1 - (w - n + i)) (by omega)]
    · simp [hlow]
  · intro h i hi
    have hbit := congrArg (fun word => word.getLsbD (n - 1 - i)) h
    simp only [BitVec.getLsbD_ushiftRight] at hbit
    have hindex : w - n + (n - 1 - i) = w - 1 - i := by omega
    rw [hindex] at hbit
    rw [BitVec.getMsbD_eq_getLsbD, BitVec.getMsbD_eq_getLsbD, hbit]

theorem agreeOn_iff_toNat_div (hn : n ≤ w) :
    AgreeOn n x y ↔ x.toNat / 2 ^ (w - n) = y.toNat / 2 ^ (w - n) := by
  rw [agreeOn_iff_shift hn, ← BitVec.toNat_inj, BitVec.toNat_ushiftRight,
    BitVec.toNat_ushiftRight, Nat.shiftRight_eq_div_pow, Nat.shiftRight_eq_div_pow]

/-- The test of a masked word against a constant without low bits. -/
theorem and_mask_eq_iff_toNat_div (hn : n ≤ w) (hy : y &&& leadingMask w n = y) :
    x &&& leadingMask w n = y ↔ x.toNat / 2 ^ (w - n) = y.toNat / 2 ^ (w - n) := by
  rw [← agreeOn_iff_toNat_div hn, agreeOn_iff_and_mask hn, hy]

/-! ## The set of agreeing words -/

/-- Some word agrees on exactly the bits before position `n`. -/
theorem exists_agreeOn_ne (hn : n < w) (x : BitVec w) :
    ∃ z, AgreeOn n x z ∧ x.getMsbD n ≠ z.getMsbD n := by
  -- flip the bit
  have hbit : ∀ i, (BitVec.twoPow w (w - 1 - n)).getMsbD i = decide (i = n) := by
    intro i
    rw [BitVec.getMsbD_twoPow, ← Bool.decide_and, decide_eq_decide]
    omega
  refine ⟨x ^^^ BitVec.twoPow w (w - 1 - n), ?_, ?_⟩
  · intro i hi
    simp [hbit, Nat.ne_of_lt hi]
  · simp [hbit]

theorem le_of_agreeOn_imp (hn : n ≤ w) (h : ∀ z, AgreeOn m x z → AgreeOn n y z) : n ≤ m := by
  by_contra hlt
  obtain ⟨z, hagree, hne⟩ := exists_agreeOn_ne (show m < w by omega) x
  have hx := h x (AgreeOn.refl m x)
  have hz := h z hagree
  exact hne ((hx.symm.trans hz) m (by omega))

/-- The set determines the number of bits, and the word up to agreement. -/
theorem agreeOn_determined (hm : m ≤ w) (hn : n ≤ w)
    (h : ∀ z, AgreeOn m x z ↔ AgreeOn n y z) : m = n ∧ AgreeOn m x y := by
  have hle : n ≤ m := le_of_agreeOn_imp hn fun z => (h z).mp
  have hge : m ≤ n := le_of_agreeOn_imp hm fun z => (h z).mpr
  exact ⟨Nat.le_antisymm hge hle, (h y).mpr (AgreeOn.refl n y)⟩

end StreamKit
