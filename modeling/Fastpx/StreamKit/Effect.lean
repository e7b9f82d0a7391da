import Fastpx.StreamKit.Machine

/-!
# Logged computations

An `Effect` is a computation over a world: it returns a value or an error, the
world afterwards and the list of the events that happened, in order.

Its events are judged by a transition relation.  `Guided step x s w post` says
that from the state `s` there is a run of the relation over exactly the events
which `x` emits in the world `w`, and that `post` holds of the result, of the
last state of that run and of the world afterwards.  So a guided computation
refines the relation: its log is a run.  The rules below follow the structure
of the computation.

Where no state is needed, `Within R x` relates the world before, the events and
the world afterwards; `Emits p x` is the case in which every event is of one kind.
-/

namespace StreamKit

/-- A computation over worlds `σ` with events `ν` and errors `ε`. -/
def Effect (σ ν ε α : Type) : Type := σ → Except ε α × σ × List ν

namespace Effect

variable {σ ν ε α β S : Type}

/-- Sequencing: an error ends the computation, the events are collected. -/
def andThen (x : Effect σ ν ε α) (f : α → Effect σ ν ε β) : Effect σ ν ε β := fun w =>
  match x w with
  | (.error e, w', log) => (.error e, w', log)
  | (.ok a, w', log) =>
      let (r, w'', more) := f a w'
      (r, w'', log ++ more)

instance : Monad (Effect σ ν ε) where
  pure a := fun w => (.ok a, w, [])
  bind := andThen

/-- End with an error. -/
def fail (e : ε) : Effect σ ν ε α := fun w => (.error e, w, [])

/-- Let an event happen. -/
def emit (event : ν) : Effect σ ν ε Unit := fun w => (.ok (), w, [event])

/-- The outcome of a pure computation. -/
def ofExcept (r : Except ε α) : Effect σ ν ε α := fun w => (r, w, [])

/-- Go on after an error. -/
def attempt (x : Effect σ ν ε α) : Effect σ ν ε (Except ε α) := fun w => (.ok (x w).1, (x w).2)

/-! ## What a sequence does -/

theorem bind_apply (x : Effect σ ν ε α) (f : α → Effect σ ν ε β) (w : σ) :
    (x >>= f) w =
      match x w with
      | (.error e, w', log) => (.error e, w', log)
      | (.ok a, w', log) => ((f a w').1, (f a w').2.1, log ++ (f a w').2.2) := rfl

theorem bind_of_ok {x : Effect σ ν ε α} {w w' : σ} {a : α} {log : List ν}
    (h : x w = (.ok a, w', log)) (f : α → Effect σ ν ε β) :
    (x >>= f) w = ((f a w').1, (f a w').2.1, log ++ (f a w').2.2) := by
  rw [bind_apply, h]

theorem fst_bind_of_ok {x : Effect σ ν ε α} {w w' : σ} {a : α} {log : List ν}
    (h : x w = (.ok a, w', log)) (f : α → Effect σ ν ε β) : ((x >>= f) w).1 = (f a w').1 := by
  rw [bind_of_ok h]

/-- A sequence which returned a value can be taken apart. -/
theorem bind_eq_ok {x : Effect σ ν ε α} {f : α → Effect σ ν ε β} {w w' : σ} {b : β} {log : List ν}
    (h : (x >>= f) w = (.ok b, w', log)) :
    ∃ a w₁ past more, x w = (.ok a, w₁, past) ∧ f a w₁ = (.ok b, w', more) ∧
      log = past ++ more := by
  rw [bind_apply] at h
  split at h
  · cases (Prod.mk.inj h).1
  · next a w₁ past hx =>
      obtain ⟨hvalue, hrest⟩ := Prod.mk.inj h
      obtain ⟨hworld, hlog⟩ := Prod.mk.inj hrest
      refine ⟨a, w₁, past, (f a w₁).2.2, hx, ?_, hlog.symm⟩
      rw [← hvalue, ← hworld]

theorem pure_eq_ok {a b : α} {w w' : σ} {log : List ν}
    (h : (pure a : Effect σ ν ε α) w = (.ok b, w', log)) : b = a ∧ w' = w ∧ log = [] := by
  obtain ⟨hvalue, hrest⟩ := Prod.mk.inj h
  obtain ⟨hworld, hlog⟩ := Prod.mk.inj hrest
  exact ⟨(Except.ok.inj hvalue).symm, hworld.symm, hlog.symm⟩

/-- An event first, and then the rest. -/
theorem emit_bind_eq_ok {event : ν} {f : Unit → Effect σ ν ε β} {w w' : σ} {b : β} {log : List ν}
    (h : (emit event >>= f) w = (.ok b, w', log)) :
    ∃ more, f () w = (.ok b, w', more) ∧ log = event :: more := by
  obtain ⟨_, w₁, past, more, hemit, hrest, hlog⟩ := bind_eq_ok h
  obtain ⟨-, hstate⟩ := Prod.mk.inj hemit
  obtain ⟨rfl, rfl⟩ := Prod.mk.inj hstate
  exact ⟨more, hrest, hlog⟩

theorem ofExcept_eq_ok {r : Except ε α} {a : α} {w w' : σ} {log : List ν}
    (h : (ofExcept r : Effect σ ν ε α) w = (.ok a, w', log)) : r = .ok a ∧ w' = w ∧ log = [] := by
  obtain ⟨hvalue, hrest⟩ := Prod.mk.inj h
  obtain ⟨hworld, hlog⟩ := Prod.mk.inj hrest
  exact ⟨hvalue, hworld.symm, hlog.symm⟩

/-- A pure computation which returned, and then the rest. -/
theorem ofExcept_bind_eq_ok {r : Except ε α} {f : α → Effect σ ν ε β} {w w' : σ} {b : β}
    {log : List ν} (h : (ofExcept r >>= f) w = (.ok b, w', log)) :
    ∃ a, r = .ok a ∧ f a w = (.ok b, w', log) := by
  obtain ⟨a, w₁, past, more, hr, hrest, hlog⟩ := bind_eq_ok h
  obtain ⟨hvalue, rfl, rfl⟩ := ofExcept_eq_ok hr
  exact ⟨a, hvalue, hlog ▸ hrest⟩

/-! ## Computations guided by a transition relation -/

/-- The events of `x` are a run of `step`, and `post` holds at the end. -/
def Guided (step : S → ν → S → Prop) (x : Effect σ ν ε α) (s : S) (w : σ)
    (post : Except ε α → S → σ → Prop) : Prop :=
  ∃ s', Runs step s (x w).2.2 s' ∧ post (x w).1 s' (x w).2.1

variable {step : S → ν → S → Prop} {s s' : S} {w : σ} {post : Except ε α → S → σ → Prop}

theorem guided_pure {a : α} (h : post (.ok a) s w) :
    Guided step (pure a : Effect σ ν ε α) s w post :=
  ⟨s, Runs.nil s, h⟩

theorem guided_fail {e : ε} (h : post (.error e) s w) :
    Guided step (fail e : Effect σ ν ε α) s w post :=
  ⟨s, Runs.nil s, h⟩

theorem guided_ofExcept {r : Except ε α} (h : post r s w) :
    Guided step (ofExcept r : Effect σ ν ε α) s w post :=
  ⟨s, Runs.nil s, h⟩

theorem guided_emit {event : ν} {post : Except ε Unit → S → σ → Prop}
    (hstep : step s event s') (h : post (.ok ()) s' w) :
    Guided step (emit event : Effect σ ν ε Unit) s w post :=
  ⟨s', Runs.single hstep, h⟩

/-- The rule of sequencing. -/
theorem guided_bind {x : Effect σ ν ε α} {f : α → Effect σ ν ε β}
    {post : Except ε β → S → σ → Prop}
    (h : Guided step x s w fun r s' w' =>
      match r with
      | .ok a => Guided step (f a) s' w' post
      | .error e => post (.error e) s' w') :
    Guided step (x >>= f) s w post := by
  obtain ⟨s', hrun, hpost⟩ := h
  unfold Guided
  rw [bind_apply]
  generalize x w = outcome at hrun hpost
  obtain ⟨r, w', log⟩ := outcome
  cases r with
  | error e => exact ⟨s', hrun, hpost⟩
  | ok a =>
      obtain ⟨s'', hrest, hfinal⟩ := hpost
      exact ⟨s'', hrun.trans hrest, hfinal⟩

/-- The rule of consequence. -/
theorem Guided.mono {x : Effect σ ν ε α} {post post' : Except ε α → S → σ → Prop}
    (h : Guided step x s w post) (himp : ∀ r s' w', post r s' w' → post' r s' w') :
    Guided step x s w post' := by
  obtain ⟨s', hrun, hpost⟩ := h
  exact ⟨s', hrun, himp _ _ _ hpost⟩

/-! ## Computations within a relation -/

/-- In every world, the world before, the events and the world afterwards are
related. -/
def Within (R : σ → List ν → σ → Prop) (x : Effect σ ν ε α) : Prop :=
  ∀ w, R w (x w).2.2 (x w).2.1

/-- The relation holds if nothing happens, and of one thing after another. -/
structure Composes (R : σ → List ν → σ → Prop) : Prop where
  nil : ∀ w, R w [] w
  append : ∀ {w w' w'' : σ} {past more : List ν}, R w past w' → R w' more w'' →
    R w (past ++ more) w''

variable {R : σ → List ν → σ → Prop}

theorem Composes.within_pure (hR : Composes R) (a : α) :
    Within R (pure a : Effect σ ν ε α) :=
  hR.nil

theorem Composes.within_fail (hR : Composes R) (e : ε) :
    Within R (fail e : Effect σ ν ε α) :=
  hR.nil

theorem Composes.within_ofExcept (hR : Composes R) (r : Except ε α) :
    Within R (ofExcept r : Effect σ ν ε α) :=
  hR.nil

theorem Within.attempt {x : Effect σ ν ε α} (hx : Within R x) : Within R x.attempt := hx

theorem Composes.within_bind (hR : Composes R) {x : Effect σ ν ε α}
    {f : α → Effect σ ν ε β} (hx : Within R x) (hf : ∀ a, Within R (f a)) :
    Within R (x >>= f) := by
  intro w
  have hfirst := hx w
  rw [bind_apply]
  generalize x w = outcome at hfirst
  obtain ⟨r, w', log⟩ := outcome
  cases r with
  | error e => exact hfirst
  | ok a => exact hR.append hfirst (hf a w')

/-! ## Computations with events of one kind -/

/-- Every event of the computation has the property. -/
def Emits (p : ν → Prop) (x : Effect σ ν ε α) : Prop := ∀ w, ∀ event ∈ (x w).2.2, p event

variable {p : ν → Prop}

/-- That is a relation which composes. -/
theorem emits_composes (p : ν → Prop) :
    Composes (fun (_ : σ) (log : List ν) (_ : σ) => ∀ event ∈ log, p event) where
  nil _ := by simp
  append hpast hmore event hmem := by
    rcases List.mem_append.mp hmem with hfirst | hlater
    · exact hpast event hfirst
    · exact hmore event hlater

/-- An event which the first part cannot have is an event of the rest. -/
theorem Emits.split {x : Effect σ ν ε α} {f : α → Effect σ ν ε β} {w : σ} {before after : List ν}
    {event : ν} (hx : Emits p x) (hevent : ¬ p event)
    (hlog : ((x >>= f) w).2.2 = before ++ event :: after) :
    ∃ a w₁ past rest, x w = (.ok a, w₁, past) ∧ (∀ event ∈ past, p event) ∧
      before = past ++ rest ∧ (f a w₁).2.2 = rest ++ event :: after ∧
      ((x >>= f) w).1 = (f a w₁).1 := by
  have hpast := hx w
  rw [bind_apply] at hlog ⊢
  rcases hresult : x w with ⟨e | a, w₁, past⟩
  · simp only [hresult] at hlog hpast
    exact absurd (hpast event (by simp [hlog])) hevent
  · simp only [hresult] at hlog hpast ⊢
    refine ⟨a, w₁, past, ?_⟩
    rcases List.append_eq_append_iff.mp hlog with ⟨rest, hbefore, hrest⟩ | ⟨late, hlate, hrest⟩
    · exact ⟨rest, rfl, hpast, hbefore, hrest, rfl⟩
    -- the first part would reach over the event
    · cases late with
      | nil =>
          refine ⟨[], rfl, hpast, ?_, hrest.symm, rfl⟩
          rw [hlate, List.append_nil, List.append_nil]
      | cons first others =>
          obtain ⟨rfl, -⟩ := List.cons.inj hrest
          exact absurd (hpast event (by simp [hlate])) hevent

end Effect

end StreamKit
