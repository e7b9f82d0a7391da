import Fastpx.Relay.Steps

/-!
# The relay as two independent pumps

`try_join!` polls the two pumps in one task.  They share the activity channel
and the return of the relay, and nothing else: the relay is the product of two
pump machines, in which every action of one pump leaves the other alone.  What a
direction does therefore depends on its own actions only, and every interleaving
of two single copies is a run of the relay (`relay_interleaves`).
-/

namespace Fastpx
namespace Relay

open StreamKit Http1

/-- A step of a pump which does not fail. -/
def Pump.advance (p : Pump) (a : PumpAction) : Option Pump :=
  match p.step a with
  | some (.ok p') => some p'
  | _ => none

/-- One pump on its own, as long as it does not fail. -/
def Pump.machine : Machine Pump PumpAction := ⟨Pump.advance⟩

theorem Pump.machine_step_iff {p p' : Pump} {a : PumpAction} :
    Pump.machine.step p a = some p' ↔ p.Moves a p' := by
  constructor
  · intro h
    apply Pump.moves_of_step
    change p.advance a = some p' at h
    unfold Pump.advance at h
    split at h
    · next hstep => rw [hstep, Option.some.inj h]
    · cases h
  · intro h
    simp only [Pump.machine, Pump.advance, Pump.step_of_moves h]

/-- The two pumps of a relay side by side. -/
def Pump.both : Machine (Direction → Pump) (Direction × PumpAction) :=
  Machine.product fun _ => Pump.machine

namespace RelayState

/-- The pump that moved is replaced, the other one stays. -/
theorem pump_advance_eq (s : RelayState) (d : Direction) (a : PumpAction) (p : Pump) :
    (s.advance d a p).pump = Function.update s.pump d p := by
  funext d'
  rcases Direction.eq_or_eq_other d d' with rfl | rfl
  · rw [pump_advance, Function.update_self]
  · have hne : d.other ≠ d := by cases d <;> simp [Direction.other]
    rw [pump_other_advance, Function.update_of_ne hne]

/-- Nothing happens after the return. -/
theorem step_returned {s : RelayState} {r : Except IoError (UInt64 × UInt64)}
    (h : s.result = some r) (a : Action) : machine.step s a = none := by
  simp [machine, step, h]

/-- A run of the relay which does not end in an error is a run of its pumps side
by side. -/
theorem both_run_of_run {s t : RelayState} {actions : List (Direction × PumpAction)}
    (h : machine.run s (actions.map fun a => .pump a.1 a.2) = some t)
    (hok : ∀ e, t.result ≠ some (.error e)) : Pump.both.run s.pump actions = some t.pump := by
  induction actions generalizing s with
  | nil =>
      obtain rfl := Option.some.inj h
      rfl
  | cons first rest ih =>
      obtain ⟨d, a⟩ := first
      obtain ⟨s', hstep, hrest⟩ := Option.bind_eq_some_iff.mp h
      obtain ⟨-, hmoves⟩ := moves_of_step (show s.step (.pump d a) = some s' from hstep)
      cases hmoves with
      | pumped hmove =>
          rename_i p
          have hpair : Pump.both.step s.pump (d, a) = some (Function.update s.pump d p) := by
            simp [Pump.both, Machine.product, Pump.machine_step_iff.mpr hmove]
          rw [Machine.run_cons_of_step hpair, ← pump_advance_eq s d a p]
          exact ih hrest
      | pumpFailed _ =>
          -- after the failure nothing happens, so the run ends in it
          cases rest with
          | nil =>
              obtain rfl := Option.some.inj hrest
              exact absurd rfl (hok _)
          | cons next more =>
              obtain ⟨_, hnext, -⟩ := Option.bind_eq_some_iff.mp hrest
              cases (step_returned rfl _).symm.trans hnext

/-- A pump which can move has not returned. -/
theorem not_joined_of_moves {s : RelayState} {d : Direction} {a : PumpAction} {p : Pump}
    (h : (s.pump d).Moves a p) : ¬ s.Joined := by
  intro hjoined
  have hphase := hjoined d
  cases h <;> simp_all

/-- The relay is running, or it has returned because both pumps did. -/
def Unfailed (s : RelayState) : Prop :=
  s.result = none ∨ s.Joined ∧ ∃ counts, s.result = some (.ok counts)

theorem unfailed_advance {s : RelayState} (hresult : s.result = none) (d : Direction)
    (a : PumpAction) (p : Pump) : (s.advance d a p).Unfailed := by
  rcases result_advance hresult d a p with ⟨hjoined, hok⟩ | ⟨-, hnone⟩
  · exact Or.inr ⟨hjoined, _, hok⟩
  · exact Or.inl hnone

/-- Every run of the pumps side by side is one of the relay. -/
theorem run_of_both_run {s : RelayState} {ps : Direction → Pump}
    {actions : List (Direction × PumpAction)} (hs : s.Unfailed)
    (h : Pump.both.run s.pump actions = some ps) :
    ∃ t, machine.run s (actions.map fun a => .pump a.1 a.2) = some t ∧ t.Unfailed ∧
      t.pump = ps := by
  induction actions generalizing s with
  | nil => exact ⟨s, rfl, hs, Option.some.inj h⟩
  | cons first rest ih =>
      obtain ⟨d, a⟩ := first
      obtain ⟨_, hstep, hrest⟩ := Option.bind_eq_some_iff.mp h
      obtain ⟨p, hp, rfl⟩ := Option.map_eq_some_iff.mp
        (show (Pump.machine.step (s.pump d) a).map (Function.update s.pump d) = some _ from hstep)
      have hmove := Pump.machine_step_iff.mp hp
      -- the relay has not returned, because this pump has not
      have hresult : s.result = none := by
        rcases hs with hnone | ⟨hjoined, -⟩
        · exact hnone
        · exact absurd hjoined (not_joined_of_moves hmove)
      rw [← pump_advance_eq s d a p] at hrest
      obtain ⟨t, hrun, ht, hpump⟩ := ih (unfailed_advance hresult d a p) hrest
      have hfirst : machine.step s (.pump d a) = some (s.advance d a p) :=
        step_of_pump_moves hresult hmove
      exact ⟨t, (Machine.run_cons_of_step hfirst _).trans hrun, ht, hpump⟩

end RelayState

/-- **The two directions of a relay are independent.**  A list of actions of the
two pumps can be run without an error exactly if the actions of each pump can be
run on its own, and each pump then ends as it does on its own.  So every
interleaving of two copies is possible, and the bytes delivered and the numbers
returned do not depend on which one it is. -/
theorem relay_interleaves (up down : Pipe UInt8 IoError) (idleTimeout : Option Nat) (now : Nat)
    (actions : List (Direction × PumpAction)) (ps : Direction → Pump) :
    (∃ s, RelayState.machine.run (RelayState.start up down idleTimeout now)
          (actions.map fun a => .pump a.1 a.2) = some s ∧
        (∀ e, s.result ≠ some (.error e)) ∧ s.pump = ps) ↔
      ∀ d, Pump.machine.run (Pump.start (Direction.both up down d))
        (Machine.actionsOf d actions) = some (ps d) := by
  have hpumps : (RelayState.start up down idleTimeout now).pump =
      fun d => Pump.start (Direction.both up down d) := by
    funext d
    cases d <;> rfl
  rw [← Machine.product_run_iff (fun _ => Pump.machine)
    (fun d => Pump.start (Direction.both up down d)) ps, ← hpumps]
  constructor
  · rintro ⟨s, hrun, hok, rfl⟩
    exact RelayState.both_run_of_run hrun hok
  · intro hboth
    obtain ⟨s, hrun, hs, hpump⟩ := RelayState.run_of_both_run (Or.inl rfl) hboth
    refine ⟨s, hrun, fun e he => ?_, hpump⟩
    rcases hs with hnone | ⟨-, counts, hcounts⟩
    · cases hnone.symm.trans he
    · cases hcounts.symm.trans he

end Relay
end Fastpx
