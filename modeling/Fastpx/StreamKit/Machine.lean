import Mathlib.Algebra.GroupWithZero.Nat
import Mathlib.Data.List.Basic
import Mathlib.Logic.Function.Iterate

/-!
# Labelled transitions and their runs

Two ways to say how a system moves.  A `Machine` is executable: it says which
state an action leads to, or that the action is not possible now.  A transition
relation is what a specification is written as; its runs are `Runs`.  A run is a
list of actions, and since every list is considered, a fact about all runs is a
fact about every interleaving of the parties whose actions these are.

Properties of runs are proved from one step: `Machine.run_invariant` for
properties of the state, `Machine.collect_invariant` for properties which relate
the state to what was observed on the way, `Machine.run_cost` for the number of
actions, `Machine.exists_run` for states which can be reached, `Runs.history` for
properties which relate the state to the actions that led to it.  A machine is
compared with a coarser one by `Machine.run_simulation`.  Machines which do not
touch each other can be put side by side; their runs are the interleavings of the
single runs (`Machine.product_run_iff`).

A system without choices is a function on its states; it comes to an end if a
number gets smaller in every step (`exists_iterate_of_measure`).
-/

namespace StreamKit

variable {σ α β : Type*}

/-! ## Machines -/

/-- Which state an action leads to, if it is possible. -/
structure Machine (σ α : Type*) where
  step : σ → α → Option σ

namespace Machine

/-- The state after a list of actions, if each was possible in its turn. -/
def run (m : Machine σ α) : σ → List α → Option σ
  | s, [] => some s
  | s, a :: rest => (m.step s a).bind fun s' => m.run s' rest

variable {m : Machine σ α} {s s' t : σ} {a : α} {actions more : List α}

@[simp] theorem run_nil (m : Machine σ α) (s : σ) : m.run s [] = some s := rfl

theorem run_cons (m : Machine σ α) (s : σ) (a : α) (rest : List α) :
    m.run s (a :: rest) = (m.step s a).bind fun s' => m.run s' rest := rfl

theorem run_cons_of_step (h : m.step s a = some s') (rest : List α) :
    m.run s (a :: rest) = m.run s' rest := by
  rw [run_cons, h]
  rfl

/-- Runs are run one after the other. -/
theorem run_append (m : Machine σ α) (s : σ) (actions more : List α) :
    m.run s (actions ++ more) = (m.run s actions).bind fun t => m.run t more := by
  induction actions generalizing s with
  | nil => rfl
  | cons a rest ih =>
      rw [List.cons_append, run_cons, run_cons]
      cases m.step s a with
      | none => rfl
      | some s' => exact ih s'

theorem run_trans (h : m.run s actions = some t) (hmore : m.run t more = some s') :
    m.run s (actions ++ more) = some s' := by
  rw [run_append, h]
  exact hmore

/-- What every step preserves, every run preserves. -/
theorem run_invariant {inv : σ → Prop}
    (hstep : ∀ {s a s'}, inv s → m.step s a = some s' → inv s')
    (hinit : inv s) (h : m.run s actions = some t) : inv t := by
  induction actions generalizing s with
  | nil =>
      obtain rfl := Option.some.inj h
      exact hinit
  | cons a rest ih =>
      obtain ⟨s', hs', hrest⟩ := Option.bind_eq_some_iff.mp h
      exact ih (hstep hinit hs') hrest

/-- What `observe` sees along a list of actions, as far as they are possible. -/
def collect (m : Machine σ α) (observe : σ → α → List β) : σ → List α → List β
  | _, [] => []
  | s, a :: rest =>
      match m.step s a with
      | none => []
      | some s' => observe s a ++ m.collect observe s' rest

/-- What every step preserves of a relation between the observations and the
state, every run preserves. -/
theorem collect_invariant {observe : σ → α → List β} {inv : List β → σ → Prop}
    (hstep : ∀ {seen s a s'}, inv seen s → m.step s a = some s' → inv (seen ++ observe s a) s')
    {seen : List β} (hinit : inv seen s) (h : m.run s actions = some t) :
    inv (seen ++ m.collect observe s actions) t := by
  induction actions generalizing s seen with
  | nil =>
      obtain rfl := Option.some.inj h
      simpa [collect] using hinit
  | cons a rest ih =>
      obtain ⟨s', hs', hrest⟩ := Option.bind_eq_some_iff.mp h
      have hlater := ih (hstep hinit hs') hrest
      rw [List.append_assoc] at hlater
      simpa only [collect, hs'] using hlater

/-- If a potential pays for every step, it pays for every run. -/
theorem run_cost {inv : σ → Prop} {cost : α → Nat} {potential : σ → Nat}
    (hinv : ∀ {s a s'}, inv s → m.step s a = some s' → inv s')
    (hstep : ∀ {s a s'}, inv s → m.step s a = some s' → cost a + potential s' ≤ potential s)
    (hinit : inv s) (h : m.run s actions = some t) :
    (actions.map cost).sum + potential t ≤ potential s := by
  induction actions generalizing s with
  | nil =>
      obtain rfl := Option.some.inj h
      exact Nat.le_of_eq (Nat.zero_add _)
  | cons a rest ih =>
      obtain ⟨s', hs', hrest⟩ := Option.bind_eq_some_iff.mp h
      have hfirst := hstep hinit hs'
      have hlater := ih (hinv hinit hs') hrest
      rw [List.map_cons, List.sum_cons]
      omega

/-- If what one step does can be done by a run of another machine, then so can
what a run does. -/
theorem run_simulation {τ : Type*} {m' : Machine τ β} {f : σ → τ}
    (hstep : ∀ {s a s'}, m.step s a = some s' → ∃ abstract, m'.run (f s) abstract = some (f s'))
    (h : m.run s actions = some t) : ∃ abstract, m'.run (f s) abstract = some (f t) := by
  induction actions generalizing s with
  | nil =>
      obtain rfl := Option.some.inj h
      exact ⟨[], rfl⟩
  | cons a rest ih =>
      obtain ⟨s', hs', hrest⟩ := Option.bind_eq_some_iff.mp h
      obtain ⟨first, hfirst⟩ := hstep hs'
      obtain ⟨later, hlater⟩ := ih hrest
      exact ⟨first ++ later, run_trans hfirst hlater⟩

/-- If a potential can be lowered with allowed actions as long as the goal is not
reached, then the goal can be reached with allowed actions. -/
theorem exists_run {inv goal : σ → Prop} {allowed : α → Prop} {potential : σ → Nat}
    (hlower : ∀ {s}, inv s → ¬ goal s → ∃ actions s', m.run s actions = some s' ∧
      (∀ a ∈ actions, allowed a) ∧ inv s' ∧ potential s' < potential s)
    (hinit : inv s) :
    ∃ actions t, m.run s actions = some t ∧ (∀ a ∈ actions, allowed a) ∧ inv t ∧ goal t := by
  induction hn : potential s using Nat.strongRecOn generalizing s with
  | ind n ih =>
      by_cases hgoal : goal s
      · exact ⟨[], s, rfl, fun _ hmem => absurd hmem List.not_mem_nil, hinit, hgoal⟩
      · obtain ⟨actions, s', hrun, hactions, hinv, hlt⟩ := hlower hinit hgoal
        obtain ⟨more, t, hmore, hallowed, hend⟩ := ih (potential s') (hn ▸ hlt) hinv rfl
        refine ⟨actions ++ more, t, run_trans hrun hmore, fun a hmem => ?_, hend⟩
        exact (List.mem_append.mp hmem).elim (hactions a) (hallowed a)

/-! ### Machines side by side -/

section Product

variable {ι : Type*} [DecidableEq ι]

/-- Machines side by side: every action is one of a single machine and leaves
the others alone. -/
def product (machines : ι → Machine σ α) : Machine (ι → σ) (ι × α) where
  step s a := ((machines a.1).step (s a.1) a.2).map (Function.update s a.1)

/-- The actions of one machine in a list of actions of all of them. -/
def actionsOf (i : ι) (actions : List (ι × α)) : List α :=
  (actions.filter fun a => a.1 = i).map Prod.snd

theorem actionsOf_cons_self (i : ι) (a : α) (rest : List (ι × α)) :
    actionsOf i ((i, a) :: rest) = a :: actionsOf i rest := by
  simp [actionsOf]

theorem actionsOf_cons_ne {i j : ι} (h : i ≠ j) (a : α) (rest : List (ι × α)) :
    actionsOf j ((i, a) :: rest) = actionsOf j rest := by
  simp [actionsOf, h]

/-- The runs side by side are the interleavings of the single runs. -/
theorem product_run_iff (machines : ι → Machine σ α) (s t : ι → σ) (actions : List (ι × α)) :
    (product machines).run s actions = some t ↔
      ∀ i, (machines i).run (s i) (actionsOf i actions) = some (t i) := by
  induction actions generalizing s with
  | nil => simp [actionsOf, funext_iff]
  | cons first rest ih =>
      obtain ⟨i, a⟩ := first
      cases hstep : (machines i).step (s i) a with
      | none =>
          -- neither side can make the first action
          have hproduct : (product machines).run s ((i, a) :: rest) = none := by
            simp [run_cons, product, hstep]
          have hsingle : (machines i).run (s i) (actionsOf i ((i, a) :: rest)) = none := by
            simp [actionsOf_cons_self, run_cons, hstep]
          rw [hproduct]
          constructor
          · exact nofun
          · intro h
            cases hsingle.symm.trans (h i)
      | some x =>
          have hproduct : (product machines).step s (i, a) = some (Function.update s i x) := by
            simp [product, hstep]
          rw [run_cons_of_step hproduct, ih]
          refine forall_congr' fun j => ?_
          by_cases hij : i = j
          · subst hij
            rw [actionsOf_cons_self, run_cons_of_step hstep, Function.update_self]
          · rw [actionsOf_cons_ne hij, Function.update_of_ne (Ne.symm hij)]

end Product

end Machine

/-! ## Transition relations -/

/-- The runs of a transition relation. -/
inductive Runs (step : σ → α → σ → Prop) : σ → List α → σ → Prop
  | nil (s : σ) : Runs step s [] s
  | cons {s s' t : σ} {a : α} {rest : List α} (hstep : step s a s') (hrest : Runs step s' rest t) :
      Runs step s (a :: rest) t

namespace Runs

variable {step : σ → α → σ → Prop} {s s' t : σ} {a : α} {actions more : List α}

theorem single (h : step s a s') : Runs step s [a] s' := cons h (nil s')

theorem trans (h : Runs step s actions s') (hmore : Runs step s' more t) :
    Runs step s (actions ++ more) t := by
  induction h with
  | nil => exact hmore
  | cons hstep _ ih => exact cons hstep (ih hmore)

/-- A run can be taken apart at each of its actions. -/
theorem split (h : Runs step s (actions ++ a :: more) t) :
    ∃ before after, Runs step s actions before ∧ step before a after ∧ Runs step after more t := by
  induction actions generalizing s with
  | nil =>
      cases h with
      | cons hstep hrest => exact ⟨s, _, nil s, hstep, hrest⟩
  | cons first rest ih =>
      cases h with
      | cons hstep hrest =>
          obtain ⟨before, after, hbefore, hmid, hafter⟩ := ih hrest
          exact ⟨before, after, cons hstep hbefore, hmid, hafter⟩

/-- What every step preserves, every run preserves. -/
theorem invariant (inv : σ → Prop) (hstep : ∀ {s a s'}, inv s → step s a s' → inv s')
    (hinit : inv s) (h : Runs step s actions t) : inv t := by
  induction h with
  | nil => exact hinit
  | cons hs _ ih => exact ih (hstep hinit hs)

/-- What every step preserves of a relation between the past actions and the
state, every run preserves. -/
theorem history (inv : List α → σ → Prop)
    (hstep : ∀ {past s a s'}, inv past s → step s a s' → inv (past ++ [a]) s')
    {past : List α} (hinit : inv past s) (h : Runs step s actions t) :
    inv (past ++ actions) t := by
  induction h generalizing past with
  | nil => simpa using hinit
  | cons hs _ ih => simpa using ih (hstep hinit hs)

end Runs

/-! ## Deterministic systems -/

section Iteration

variable {step : σ → σ}

/-- What every step preserves, every number of steps preserves. -/
theorem iterate_eq_of_step_eq (value : σ → β) (hstep : ∀ s, value (step s) = value s) (n : Nat)
    (s : σ) : value (step^[n] s) = value s := by
  induction n with
  | zero => rfl
  | succ n ih => rw [Function.iterate_succ_apply', hstep, ih]

theorem iterate_le_of_step_le (size : σ → Nat) (hstep : ∀ s, size (step s) ≤ size s) (n : Nat)
    (s : σ) : size (step^[n] s) ≤ size s := by
  induction n with
  | zero => exact Nat.le_refl _
  | succ n ih =>
      rw [Function.iterate_succ_apply']
      exact Nat.le_trans (hstep _) ih

/-- The system comes to an end within as many steps as the measure says. -/
theorem exists_iterate_of_measure (ended : σ → Prop) (measure : σ → Nat)
    (hstep : ∀ s, ¬ ended s → measure (step s) < measure s) (s : σ) :
    ∃ n ≤ measure s, ended (step^[n] s) := by
  induction hm : measure s using Nat.strongRecOn generalizing s with
  | _ m ih =>
      by_cases hended : ended s
      · exact ⟨0, Nat.zero_le m, hended⟩
      · have hlt : measure (step s) < m := hm ▸ hstep s hended
        obtain ⟨n, hn, hfinal⟩ := ih _ hlt (step s) rfl
        exact ⟨n + 1, by omega, hfinal⟩

end Iteration

end StreamKit
