import Fastpx.Relay.Steps

/-!
# The idle timeout

When the watchdog closes a tunnel, and what it knows by then.  The activity
stamp is set only after a whole `write_all`, so at every moment it covers all
bytes except those of a pump which is between a read and the stamp after it
(`Watched.stamped`).  A tunnel which is closed was therefore idle unless such a
pump has moved bytes in the meantime: `idle_timeout_iff`.
-/

namespace Fastpx
namespace Relay

open StreamKit Http1

/-! ## Bytes on the move -/

/-- The pump has read bytes for which the activity is not yet stamped. -/
def Phase.unstamped : Phase → Bool
  | .writing _ => true
  | .stamping _ => true
  | _ => false

namespace RelayState

/-- The directions in which an action moves bytes: a read of some bytes, or a
partial write. -/
def moved (s : RelayState) : Action → List Direction
  | .pump d .read =>
      match (s.pump d).pipe.source.read bufferSize with
      | (.ok (_ :: _), _) => [d]
      | _ => []
  | .pump d (.write _) => [d]
  | _ => []

@[simp] theorem moved_tick (s : RelayState) (elapsed : Nat) : s.moved (.tick elapsed) = [] := rfl

@[simp] theorem moved_changed (s : RelayState) : s.moved .changed = [] := rfl

@[simp] theorem moved_wake (s : RelayState) : s.moved .wake = [] := rfl

/-- When bytes were read or written in the course of a run, and in which
direction. -/
def transfers (s : RelayState) (actions : List Action) : List (Direction × Nat) :=
  machine.collect (fun s a => (s.moved a).map fun d => (d, s.now)) s actions

/-! ## Small facts about the steps -/

@[simp] theorem now_advance (s : RelayState) (d : Direction) (a : PumpAction) (p : Pump) :
    (s.advance d a p).now = s.now := by
  unfold advance settle
  split <;> split <;> cases d <;> rfl

theorem activity_advance (s : RelayState) (d : Direction) (a : PumpAction) (p : Pump) :
    (s.advance d a p).activity = if a = .stamp then s.now else s.activity := by
  unfold advance settle
  split <;> split <;> cases d <;> rfl

theorem timeout_advance {s : RelayState} {d : Direction} {a : PumpAction} {p : Pump}
    {w : Watchdog} (h : (s.advance d a p).watchdog = some w) :
    ∃ w', s.watchdog = some w' ∧ w'.timeout = w.timeout := by
  have hdog : (s.advance d a p).watchdog = s.watchdog ∨
      (s.advance d a p).watchdog = s.watchdog.map fun w => { w with unseen := true } := by
    unfold advance settle
    split <;> split <;> cases d <;> first | exact Or.inl rfl | exact Or.inr rfl
  rcases hdog with hsame | hmap
  · exact ⟨w, hsame ▸ h, rfl⟩
  · rw [hmap] at h
    obtain ⟨w', hw', rfl⟩ := Option.map_eq_some_iff.mp h
    exact ⟨w', hw', rfl⟩

theorem now_le_of_step {s s' : RelayState} {a : Action} (h : s.step a = some s') :
    s.now ≤ s'.now := by
  obtain ⟨-, hmoves⟩ := moves_of_step h
  cases hmoves with
  | pumped _ => rw [now_advance]
  | ticked => exact Nat.le_add_right _ _
  | _ => exact Nat.le_refl _

/-- A pump which goes on without a stamp is then unstamped, or it moved no bytes
and had none to stamp. -/
theorem unstamped_or_idle {s : RelayState} {d : Direction} {a : PumpAction} {p : Pump}
    (h : (s.pump d).Moves a p) (hstamp : a ≠ .stamp) :
    p.phase.unstamped = true ∨
      (s.pump d).phase.unstamped = false ∧ s.moved (.pump d a) = [] := by
  cases h with
  | readEnd hphase hread => exact Or.inr ⟨by rw [hphase]; rfl, by simp [moved, hread]⟩
  | readSome hphase hread => exact Or.inl rfl
  | write hphase hpos hle =>
      left
      split <;> rfl
  | stamp hphase => exact absurd rfl hstamp
  | shutdown hphase => exact Or.inr ⟨by rw [hphase]; rfl, rfl⟩

/-- A pump which fails moves no bytes by that. -/
theorem moved_of_failed {s : RelayState} {d : Direction} {a : PumpAction} {e : IoError}
    (h : (s.pump d).step a = some (.error e)) : s.moved (.pump d a) = [] := by
  unfold Pump.step at h
  split at h
  · split at h
    · next hread => simp [moved, hread]
    · cases h
    · cases h
  · split at h <;> cases h
  · rfl
  · cases h
  · cases h
  · rfl
  · cases h

end RelayState

/-! ## Clock and timeout -/

/-- The watchdog has the configured timeout, and the activity is not stamped
ahead of the clock. -/
structure Timed (idleTimeout : Option Nat) (s : RelayState) : Prop where
  armed : ∀ w, s.watchdog = some w → idleTimeout = some w.timeout
  stamp_le : s.activity ≤ s.now

theorem timed_start (up down : Pipe UInt8 IoError) (idleTimeout : Option Nat) (now : Nat) :
    Timed idleTimeout (RelayState.start up down idleTimeout now) where
  armed w hw := by
    obtain ⟨timeout, htimeout, rfl⟩ := Option.map_eq_some_iff.mp
      (show idleTimeout.map (fun timeout => ⟨timeout, now + timeout, false⟩) = some w from hw)
    exact htimeout
  stamp_le := Nat.le_refl now

theorem Timed.rearm {idleTimeout : Option Nat} {s : RelayState} {w : Watchdog}
    (hinv : Timed idleTimeout s) (hw : s.watchdog = some w) : Timed idleTimeout (s.rearm w) where
  armed w' hw' := by
    obtain rfl := Option.some.inj hw'
    exact hinv.armed w hw
  stamp_le := hinv.stamp_le

theorem Timed.step {idleTimeout : Option Nat} {s s' : RelayState} {a : Action}
    (hinv : Timed idleTimeout s) (h : s.step a = some s') : Timed idleTimeout s' := by
  obtain ⟨-, hmoves⟩ := RelayState.moves_of_step h
  cases hmoves with
  | pumped _ =>
      refine ⟨fun w hw => ?_, ?_⟩
      · obtain ⟨w', hw', htimeout⟩ := RelayState.timeout_advance hw
        exact htimeout ▸ hinv.armed w' hw'
      · rw [RelayState.activity_advance, RelayState.now_advance]
        split
        · exact Nat.le_refl _
        · exact hinv.stamp_le
  | ticked => exact ⟨hinv.armed, hinv.stamp_le.trans (Nat.le_add_right _ _)⟩
  | changed hw _ => exact hinv.rearm hw
  | woke hw _ _ => exact hinv.rearm hw
  | pumpFailed _ => exact ⟨hinv.armed, hinv.stamp_le⟩
  | orphaned _ _ _ => exact ⟨hinv.armed, hinv.stamp_le⟩
  | timedOut _ _ _ => exact ⟨hinv.armed, hinv.stamp_le⟩

/-! ## What the activity stamp covers -/

/-- The relay in relation to the transfers up to now. -/
structure Watched (timeout : Nat) (seen : List (Direction × Nat)) (s : RelayState) : Prop where
  timed : Timed (some timeout) s
  running : s.result = none → ¬ s.Joined
  past : ∀ d t, (d, t) ∈ seen → t ≤ s.now
  stamped : ∀ d t, (d, t) ∈ seen → (s.pump d).phase.unstamped = false → t ≤ s.activity

theorem watched_start (up down : Pipe UInt8 IoError) (timeout now : Nat) :
    Watched timeout [] (RelayState.start up down (some timeout) now) where
  timed := timed_start up down (some timeout) now
  running _ h := by cases h .up
  past _ _ h := by cases h
  stamped _ _ h := by cases h

theorem Watched.past_append {timeout : Nat} {seen : List (Direction × Nat)} {s : RelayState}
    {ds : List Direction} (hinv : Watched timeout seen s) :
    ∀ d t, (d, t) ∈ seen ++ ds.map (fun d => (d, s.now)) → t ≤ s.now := by
  intro d t hmem
  rcases List.mem_append.mp hmem with hold | hnew
  · exact hinv.past d t hold
  · obtain ⟨_, -, heq⟩ := List.mem_map.mp hnew
    exact (Prod.mk.inj heq).2 ▸ Nat.le_refl _

theorem mem_of_other_moved {seen : List (Direction × Nat)} {s : RelayState} {d : Direction}
    {a : PumpAction} {t now : Nat}
    (h : (d.other, t) ∈ seen ++ (s.moved (.pump d a)).map fun d => (d, now)) :
    (d.other, t) ∈ seen := by
  have hown : ∀ d' ∈ s.moved (.pump d a), d' = d := by
    intro d' hmem
    unfold RelayState.moved at hmem
    split at hmem
    · next heq =>
        obtain ⟨rfl, -⟩ := Action.pump.inj heq
        split at hmem
        · exact List.mem_singleton.mp hmem
        · cases hmem
    · next heq =>
        obtain ⟨rfl, -⟩ := Action.pump.inj heq
        exact List.mem_singleton.mp hmem
    · cases hmem
  rcases List.mem_append.mp h with hold | hnew
  · exact hold
  · obtain ⟨d', hd', heq⟩ := List.mem_map.mp hnew
    have hother := (hown d' hd').symm.trans (Prod.mk.inj heq).1
    cases d <;> cases hother

/-- Every transition of the relay keeps the relation. -/
theorem Watched.step {timeout : Nat} {seen : List (Direction × Nat)} {s s' : RelayState}
    {a : Action} (hinv : Watched timeout seen s) (h : RelayState.machine.step s a = some s') :
    Watched timeout (seen ++ (s.moved a).map fun d => (d, s.now)) s' := by
  obtain ⟨hresult, hmoves⟩ := RelayState.moves_of_step h
  have htimed := hinv.timed.step h
  have hrunning := hinv.running hresult
  cases hmoves with
  | pumped hmove =>
      rename_i d a p
      refine ⟨htimed, ?_, ?_, ?_⟩
      · rcases RelayState.result_advance hresult d a p with ⟨-, hok⟩ | ⟨hnot, -⟩
        · simp [hok]
        · exact fun _ => hnot
      · rw [RelayState.now_advance]
        exact hinv.past_append
      · intro d' t hmem hidle
        rw [RelayState.activity_advance]
        by_cases hstamp : a = .stamp
        · -- the new stamp is later than everything before
          rw [if_pos hstamp]
          exact hinv.past_append d' t hmem
        · rw [if_neg hstamp]
          rcases Direction.eq_or_eq_other d d' with rfl | rfl
          · rw [RelayState.pump_advance] at hidle
            rcases RelayState.unstamped_or_idle hmove hstamp with hbusy | ⟨hbefore, hnone⟩
            · rw [hbusy] at hidle
              cases hidle
            · rw [hnone, List.map_nil, List.append_nil] at hmem
              exact hinv.stamped d' t hmem hbefore
          · rw [RelayState.pump_other_advance] at hidle
            exact hinv.stamped d.other t (mem_of_other_moved hmem) hidle
  | pumpFailed hfail =>
      rw [RelayState.moved_of_failed hfail, List.map_nil, List.append_nil]
      exact ⟨htimed, by simp, hinv.past, hinv.stamped⟩
  | ticked =>
      rename_i elapsed
      rw [RelayState.moved_tick, List.map_nil, List.append_nil]
      exact ⟨htimed, fun _ => hrunning,
        fun d t hmem => (hinv.past d t hmem).trans (Nat.le_add_right _ elapsed), hinv.stamped⟩
  | changed _ _ =>
      rw [RelayState.moved_changed, List.map_nil, List.append_nil]
      exact ⟨htimed, fun _ => hrunning, hinv.past, hinv.stamped⟩
  | orphaned _ _ hjoined => exact absurd hjoined hrunning
  | woke _ _ _ =>
      rw [RelayState.moved_wake, List.map_nil, List.append_nil]
      exact ⟨htimed, fun _ => hrunning, hinv.past, hinv.stamped⟩
  | timedOut _ _ _ =>
      rw [RelayState.moved_wake, List.map_nil, List.append_nil]
      exact ⟨htimed, by simp, hinv.past, hinv.stamped⟩

/-- **The idle timeout closes idle tunnels, up to unfinished writes.**  The
watchdog ended the relay at the time `s.now`; then no byte was read or written
within the timeout before it exactly if none was by a pump that is between a
read and the stamp after it.  The two directions have not both finished. -/
theorem idle_timeout_iff {up down : Pipe UInt8 IoError} {timeout start : Nat}
    {actions : List Action} {s s' : RelayState} {a : Action}
    (hrun : RelayState.machine.run (RelayState.start up down (some timeout) start) actions =
      some s)
    (hwatchdog : a = .wake ∨ a = .changed) (hstep : s.step a = some s')
    (hended : s'.result = some (.error idleError)) :
    ((∀ d t, (d, t) ∈ (RelayState.start up down (some timeout) start).transfers actions →
        ¬ (s.now < t + timeout ∧ t ≤ s.now)) ↔
      ∀ d t, (s.pump d).phase.unstamped = true →
        (d, t) ∈ (RelayState.start up down (some timeout) start).transfers actions →
          ¬ (s.now < t + timeout ∧ t ≤ s.now)) ∧
    ¬ s.Joined := by
  have hinv : Watched timeout
      ([] ++ (RelayState.start up down (some timeout) start).transfers actions) s :=
    Machine.collect_invariant Watched.step (watched_start up down timeout start) hrun
  rw [List.nil_append] at hinv
  obtain ⟨hresult, hmoves⟩ := RelayState.moves_of_step hstep
  have hrunning := hinv.running hresult
  refine ⟨⟨fun hall d t _ => hall d t, fun hbusy d t hmem => ?_⟩, hrunning⟩
  have hidle : s.activity + timeout ≤ s.now := by
    cases hmoves with
    | timedOut hw _ hidle => rwa [← Option.some.inj (hinv.timed.armed _ hw)] at hidle
    | orphaned _ _ hjoined => exact absurd hjoined hrunning
    | changed _ _ => cases hresult.symm.trans hended
    | woke _ _ _ => cases hresult.symm.trans hended
    | pumped _ => rcases hwatchdog with h | h <;> cases h
    | pumpFailed _ => rcases hwatchdog with h | h <;> cases h
    | ticked => rcases hwatchdog with h | h <;> cases h
  cases hphase : (s.pump d).phase.unstamped with
  | true => exact hbusy d t hphase hmem
  | false =>
      have hstamped := hinv.stamped d t hmem hphase
      omega

/-! A tunnel with a timeout of ten, whose upstream takes one byte of two. -/

private def slowUp : Pipe UInt8 IoError := ⟨⟨[⟨[1, 2], by decide⟩], none⟩, [], []⟩

private def silentDown : Pipe UInt8 IoError := ⟨⟨[], none⟩, [], []⟩

private def slowActions : List Action :=
  [.tick 5, .pump .up .read, .tick 4, .pump .up (.write 1), .tick 1]

/-- **A busy tunnel is closed.**  The upstream takes a byte at the time 9 and is
still in the write when the watchdog ends the relay at the time 10. -/
theorem slow_write_timed_out :
    ∃ s s', RelayState.machine.run (RelayState.start slowUp silentDown (some 10) 0) slowActions =
        some s ∧
      s.step .wake = some s' ∧ s'.result = some (.error idleError) ∧
      (.up, 9) ∈ (RelayState.start slowUp silentDown (some 10) 0).transfers slowActions ∧
      s.now < 9 + 10 ∧ 9 ≤ s.now := by
  refine ⟨_, _, rfl, rfl, rfl, ?_, ?_, ?_⟩
  · decide
  · decide
  · decide

private def promptActions : List Action :=
  [.pump .up .read, .pump .up (.write 2), .pump .up .stamp, .tick 10]

/-- The same tunnel with a prompt upstream was idle when it was closed. -/
theorem idle_timeout_iff_prompt :
    ∃ s s', RelayState.machine.run (RelayState.start slowUp silentDown (some 10) 0) promptActions =
        some s ∧
      s.step .wake = some s' ∧ s'.result = some (.error idleError) ∧
      ∀ d t, (d, t) ∈ (RelayState.start slowUp silentDown (some 10) 0).transfers promptActions →
        ¬ (s.now < t + 10 ∧ t ≤ s.now) := by
  refine ⟨_, _, rfl, rfl, rfl, ?_⟩
  refine (idle_timeout_iff rfl (Or.inl rfl) rfl rfl).1.mpr ?_
  intro d t hbusy
  cases d <;> cases hbusy

/-! ## The deadlines which the watchdog computes -/

namespace RelayState

/-- The instants which the watchdog computes in an action: the re-check after a
sleep, and the deadline of its next turn. -/
def computed (s : RelayState) : Action → List Nat
  | .changed =>
      match s.watchdog with
      | some w => if w.unseen then [s.activity + w.timeout] else []
      | none => []
  | .wake =>
      match s.watchdog with
      | some w =>
          if w.deadline ≤ s.now then
            if s.activity + w.timeout ≤ s.now then [s.activity + w.timeout]
            else [s.activity + w.timeout, s.activity + w.timeout]
          else []
      | none => []
  | _ => []

/-- All instants which the watchdog computes in the course of a run, beginning
with its first deadline. -/
def deadlines (s : RelayState) (actions : List Action) : List Nat :=
  (s.watchdog.map Watchdog.deadline).toList ++ machine.collect computed s actions

theorem computed_eq {s : RelayState} {a : Action} {t : Nat} (h : t ∈ s.computed a) :
    ∃ w, s.watchdog = some w ∧ t = s.activity + w.timeout := by
  unfold computed at h
  split at h
  · split at h
    · next w hw =>
        split at h
        · exact ⟨w, hw, List.mem_singleton.mp h⟩
        · cases h
    · cases h
  · split at h
    · next w hw =>
        refine ⟨w, hw, ?_⟩
        split at h
        · split at h <;> simpa using h
        · cases h
    · cases h
  · cases h

end RelayState

/-- Every instant which was computed is at most one timeout ahead of the
clock. -/
structure DeadlinesNear (idleTimeout : Option Nat) (seen : List Nat) (s : RelayState) : Prop where
  timed : Timed idleTimeout s
  near : ∀ t ∈ seen, ∃ timeout, idleTimeout = some timeout ∧ t ≤ s.now + timeout

theorem DeadlinesNear.step {idleTimeout : Option Nat} {seen : List Nat} {s s' : RelayState}
    {a : Action} (hinv : DeadlinesNear idleTimeout seen s)
    (h : RelayState.machine.step s a = some s') :
    DeadlinesNear idleTimeout (seen ++ s.computed a) s' := by
  have hnow := RelayState.now_le_of_step h
  refine ⟨hinv.timed.step h, fun t hmem => ?_⟩
  rcases List.mem_append.mp hmem with hold | hnew
  · obtain ⟨timeout, htimeout, hle⟩ := hinv.near t hold
    exact ⟨timeout, htimeout, by omega⟩
  · obtain ⟨w, hw, rfl⟩ := RelayState.computed_eq hnew
    have hstamp := hinv.timed.stamp_le
    exact ⟨w.timeout, hinv.timed.armed w hw, by omega⟩

theorem deadlines_near {up down : Pipe UInt8 IoError} {idleTimeout : Option Nat} {start : Nat}
    {actions : List Action} {s : RelayState}
    (hrun : RelayState.machine.run (RelayState.start up down idleTimeout start) actions = some s) :
    ∀ t ∈ (RelayState.start up down idleTimeout start).deadlines actions,
      ∃ timeout, idleTimeout = some timeout ∧ t ≤ s.now + timeout := by
  have hinit : DeadlinesNear idleTimeout
      ((RelayState.start up down idleTimeout start).watchdog.map Watchdog.deadline).toList
      (RelayState.start up down idleTimeout start) := by
    refine ⟨timed_start up down idleTimeout start, fun t hmem => ?_⟩
    cases idleTimeout with
    | none => cases hmem
    | some timeout =>
        obtain rfl := List.mem_singleton.mp hmem
        exact ⟨timeout, rfl, Nat.le_refl _⟩
  exact (Machine.collect_invariant DeadlinesNear.step hinit hrun).near

end Relay
end Fastpx
