import Fastpx.StreamKit.Effect
import Mathlib.Data.List.Forall2

/-!
# Two computations side by side

A relation between computations, for properties of pairs of runs.  Coupled
computations lead from every state to the same state, with events which an
observer cannot tell apart and outcomes which are alike.  Couplings are composed
like the computations are (`Coupled.bind`), and a computation is coupled with
itself (`coupled_refl`), so only the places where two computations differ have to
be looked at.
-/

namespace StreamKit

variable {σ ν ε α β α' β' : Type}

/-- Two outcomes are alike: values which `same` relates, or errors which `fails`
relates. -/
inductive OutcomeRel (fails : ε → ε → Prop) (same : α → β → Prop) :
    Except ε α → Except ε β → Prop
  | ok {a : α} {b : β} (h : same a b) : OutcomeRel fails same (.ok a) (.ok b)
  | error {e e' : ε} (h : fails e e') : OutcomeRel fails same (.error e) (.error e')

namespace Effect

/-- From every state the two computations lead to the same state, with related
events and outcomes which are alike. -/
def Coupled (sees : ν → ν → Prop) (fails : ε → ε → Prop) (x : Effect σ ν ε α)
    (y : Effect σ ν ε β) (same : α → β → Prop) : Prop :=
  ∀ w, OutcomeRel fails same (x w).1 (y w).1 ∧ (x w).2.1 = (y w).2.1 ∧
    List.Forall₂ sees (x w).2.2 (y w).2.2

variable {sees : ν → ν → Prop} {fails : ε → ε → Prop} {same : α → β → Prop}
  {same' : α' → β' → Prop}

theorem coupled_pure {a : α} {b : β} (h : same a b) :
    Coupled sees fails (pure a : Effect σ ν ε α) (pure b : Effect σ ν ε β) same :=
  fun _ => ⟨.ok h, rfl, .nil⟩

theorem coupled_fail {e e' : ε} (h : fails e e') :
    Coupled sees fails (fail e : Effect σ ν ε α) (fail e' : Effect σ ν ε β) same :=
  fun _ => ⟨.error h, rfl, .nil⟩

theorem coupled_emit {event event' : ν} (h : sees event event') :
    Coupled sees fails (emit event : Effect σ ν ε Unit) (emit event') (· = ·) :=
  fun _ => ⟨.ok rfl, rfl, .cons h .nil⟩

/-- A computation cannot be told apart from itself. -/
theorem coupled_refl (hsees : ∀ event, sees event event) (hfails : ∀ e, fails e e)
    (x : Effect σ ν ε α) : Coupled sees fails x x (· = ·) := by
  intro w
  refine ⟨?_, rfl, ?_⟩
  · cases (x w).1 with
    | error e => exact .error (hfails e)
    | ok a => exact .ok rfl
  · exact List.forall₂_same.mpr fun event _ => hsees event

/-- The rule of sequencing. -/
theorem Coupled.bind {x : Effect σ ν ε α} {y : Effect σ ν ε β} {f : α → Effect σ ν ε α'}
    {g : β → Effect σ ν ε β'} (h : Coupled sees fails x y same)
    (hnext : ∀ a b, same a b → Coupled sees fails (f a) (g b) same') :
    Coupled sees fails (x >>= f) (y >>= g) same' := by
  intro w
  obtain ⟨houtcome, hstate, hlog⟩ := h w
  rw [bind_apply, bind_apply]
  generalize x w = first at houtcome hstate hlog
  generalize y w = second at houtcome hstate hlog
  obtain ⟨r, w₁, log₁⟩ := first
  obtain ⟨r', w₂, log₂⟩ := second
  obtain rfl : w₁ = w₂ := hstate
  cases houtcome with
  | error herror => exact ⟨.error herror, rfl, hlog⟩
  | ok hvalue =>
      obtain ⟨hresult, hfinal, hmore⟩ := hnext _ _ hvalue w₁
      exact ⟨hresult, hfinal, List.rel_append hlog hmore⟩

/-- Going on after an error. -/
theorem Coupled.attempt {x : Effect σ ν ε α} {y : Effect σ ν ε β}
    (h : Coupled sees fails x y same) :
    Coupled sees fails (attempt x) (attempt y) (OutcomeRel fails same) := by
  intro w
  obtain ⟨houtcome, hstate, hlog⟩ := h w
  exact ⟨.ok houtcome, hstate, hlog⟩

end Effect

end StreamKit
