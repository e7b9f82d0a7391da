import Fastpx.Relay.Completion
import Fastpx.Relay.Idle

/-!
# How much a tunnel does, and how much it holds

Every action other than the passing of time is paid
for by the bytes which are still to be moved: four for a byte that is not read
yet (its read, its write, the stamp after it and the watchdog's look at the
stamp) and one for a byte that waits to be written.  So a tunnel makes only so
many moves, however the two directions and the watchdog are interleaved, and as
long as it has not returned there is a next one (`tunnel_work_bounded`).

The watchdog is never armed too late: its deadline does not lie behind the time
at which the tunnel becomes idle (`Armed`), so it can close the tunnel at that
time and not before (`idle_wake_iff`).

The buffers do not grow: a direction never holds more than the bytes which were
read ahead of it or one read of a pump (`Tunnel.Holds.step`).
-/

namespace Fastpx
namespace Relay

open StreamKit Http1

/-! ## The deadline of the watchdog -/

/-- The deadline is the one for the current activity, unless the watchdog has
not seen the last stamp; it is never later. -/
structure Armed (s : RelayState) : Prop where
  seen : ∀ w, s.watchdog = some w → w.unseen = false → w.deadline = s.activity + w.timeout
  early : ∀ w, s.watchdog = some w → w.deadline ≤ s.activity + w.timeout

theorem armed_start (up down : Pipe UInt8 IoError) (idleTimeout : Option Nat) (now : Nat) :
    Armed (RelayState.start up down idleTimeout now) := by
  have hdog : ∀ w, (RelayState.start up down idleTimeout now).watchdog = some w →
      w.deadline = now + w.timeout := by
    intro w hw
    obtain ⟨timeout, -, rfl⟩ := Option.map_eq_some_iff.mp
      (show idleTimeout.map (fun timeout => ⟨timeout, now + timeout, false⟩) = some w from hw)
    rfl
  exact ⟨fun w hw _ => hdog w hw, fun w hw => (hdog w hw).le⟩

theorem armed_rearm (s : RelayState) (w : Watchdog) : Armed (s.rearm w) where
  seen w' hw' _ := by
    obtain rfl := Option.some.inj hw'
    rfl
  early w' hw' := by
    obtain rfl := Option.some.inj hw'
    exact Nat.le_refl _

namespace RelayState

/-- A stamp is news for the watchdog; nothing else that a pump does is. -/
theorem watchdog_advance (s : RelayState) (d : Direction) (a : PumpAction) (p : Pump) :
    (s.advance d a p).watchdog =
      if a = .stamp then s.watchdog.map fun w => { w with unseen := true } else s.watchdog := by
  unfold advance settle
  split <;> split <;> cases d <;> rfl

end RelayState

theorem Armed.step {idleTimeout : Option Nat} {s s' : RelayState} {a : Action}
    (htimed : Timed idleTimeout s) (hinv : Armed s) (h : s.step a = some s') : Armed s' := by
  obtain ⟨-, hmoves⟩ := RelayState.moves_of_step h
  cases hmoves with
  | pumped hmove =>
      rename_i d a p
      have hdog := s.watchdog_advance d a p
      have hactivity := s.activity_advance d a p
      by_cases hstamp : a = .stamp
      · -- the activity moves forward to the present, and the watchdog does not know it yet
        rw [if_pos hstamp] at hdog hactivity
        have hlate := htimed.stamp_le
        constructor
        · intro w hw hunseen
          rw [hdog] at hw
          obtain ⟨w', -, rfl⟩ := Option.map_eq_some_iff.mp hw
          cases hunseen
        · intro w hw
          rw [hdog] at hw
          obtain ⟨w', hw', rfl⟩ := Option.map_eq_some_iff.mp hw
          have hearly := hinv.early w' hw'
          rw [hactivity]
          show w'.deadline ≤ s.now + w'.timeout
          omega
      · rw [if_neg hstamp] at hdog hactivity
        constructor
        · intro w hw hunseen
          rw [hactivity]
          exact hinv.seen w (hdog ▸ hw) hunseen
        · intro w hw
          rw [hactivity]
          exact hinv.early w (hdog ▸ hw)
  | changed _ _ => exact armed_rearm s _
  | woke _ _ _ => exact armed_rearm s _
  | pumpFailed _ => exact ⟨hinv.seen, hinv.early⟩
  | ticked => exact ⟨hinv.seen, hinv.early⟩
  | orphaned _ _ _ => exact ⟨hinv.seen, hinv.early⟩
  | timedOut _ _ _ => exact ⟨hinv.seen, hinv.early⟩

/-! ## What an action costs -/

/-- How many actions a pump in this phase can make besides its writes. -/
def Phase.fuel : Phase → Nat
  | .finished => 0
  | .closing => 1
  | .reading => 2
  | .writing _ => 4
  | .stamping _ => 4

/-- The actions which a pump can still make, and which it can cause the watchdog
to make. -/
def Pump.fuel (p : Pump) : Nat :=
  4 * p.pipe.source.unread.length + p.pipe.pending.length + p.phase.fuel

/-- Every transition of a pump is paid for; a stamp also pays for the watchdog. -/
theorem Pump.Moves.fuel_lt {p p' : Pump} {a : PumpAction} (h : p.Moves a p') :
    p'.fuel + (if a = .stamp then 2 else 1) ≤ p.fuel := by
  unfold Pump.fuel
  cases h with
  | readEnd hphase hread =>
      obtain ⟨rfl, -, -⟩ := Source.read_nil bufferSize_pos hread
      simp [hphase, Phase.fuel]
  | readSome hphase hread =>
      have hunread := congrArg List.length (Source.read_ok hread).1
      simp only [List.length_append, List.length_cons] at hunread
      simp only [hphase, Phase.fuel, List.length_cons, reduceCtorEq, if_false]
      omega
  | @write read accepted hphase hpos hle =>
      have hfuel : (if accepted = p.pipe.pending.length then Phase.stamping read
          else Phase.writing read).fuel = 4 := by
        split <;> rfl
      have hbefore : p.phase.fuel = 4 := by rw [hphase]; rfl
      simp only [hfuel, hbefore, Pipe.push_source, Pipe.push_pending, List.length_drop,
        reduceCtorEq, if_false]
      omega
  | stamp hphase => simp [hphase, Phase.fuel]
  | shutdown hphase => simp [hphase, Phase.fuel]

namespace RelayState

/-- The actions which the relay can still make: those of the pumps, the
watchdog's look at an unseen stamp, and the one that ends it. -/
def fuel (s : RelayState) : Nat :=
  (s.pump .up).fuel + (s.pump .down).fuel +
    (s.watchdog.any Watchdog.unseen).toNat + s.result.isNone.toNat

theorem fuel_eq (s : RelayState) (d : Direction) :
    s.fuel = (s.pump d).fuel + (s.pump d.other).fuel +
      (s.watchdog.any Watchdog.unseen).toNat + s.result.isNone.toNat := by
  cases d
  · rfl
  · rw [fuel, Nat.add_comm (s.pump .up).fuel]
    rfl

/-- A relay which has returned has spent the action that ended it. -/
theorem fuel_returned {s : RelayState} (hresult : s.result = none)
    (r : Except IoError (UInt64 × UInt64)) : ({ s with result := some r }).fuel + 1 ≤ s.fuel := by
  simp [fuel, hresult, pump]

/-- The watchdog's look at the stamp is spent when it has looked. -/
theorem fuel_rearm {s : RelayState} {w : Watchdog} (hw : s.watchdog = some w)
    (hunseen : w.unseen = true) : (s.rearm w).fuel + 1 ≤ s.fuel := by
  simp only [fuel, rearm, hw, hunseen, pump, Option.any_some, Bool.toNat_false, Bool.toNat_true]
  omega

theorem unseen_advance_le (s : RelayState) (d : Direction) (a : PumpAction) (p : Pump) :
    ((s.advance d a p).watchdog.any Watchdog.unseen).toNat + 1 ≤
      (s.watchdog.any Watchdog.unseen).toNat + if a = .stamp then 2 else 1 := by
  rw [watchdog_advance]
  split
  · have := Bool.toNat_le ((s.watchdog.map fun w => { w with unseen := true }).any Watchdog.unseen)
    omega
  · exact Nat.le_refl _

end RelayState

/-- What an action costs: time passes for free. -/
def Action.cost : Action → Nat
  | .tick _ => 0
  | _ => 1

/-- Every action of the relay is paid for. -/
theorem RelayState.fuel_step {s s' : RelayState} {a : Action} (hinv : Armed s)
    (h : s.step a = some s') : a.cost + s'.fuel ≤ s.fuel := by
  obtain ⟨hresult, hmoves⟩ := moves_of_step h
  cases hmoves with
  | pumped hmove =>
      rename_i d a p
      have hpump := hmove.fuel_lt
      have hunseen := s.unseen_advance_le d a p
      have hdone := Bool.toNat_le (s.advance d a p).result.isNone
      have hrunning : s.result.isNone.toNat = 1 := by rw [hresult]; rfl
      rw [fuel_eq _ d, pump_advance, pump_other_advance, fuel_eq s d]
      simp only [Action.cost]
      omega
  | pumpFailed _ => exact (Nat.add_comm _ _).trans_le (fuel_returned hresult _)
  | ticked => exact (Nat.zero_add _).le
  | changed hw hunseen => exact (Nat.add_comm _ _).trans_le (fuel_rearm hw hunseen)
  | orphaned _ _ _ => exact (Nat.add_comm _ _).trans_le (fuel_returned hresult _)
  | woke hw hdue hactive =>
      -- the deadline has passed although there was activity: there is a stamp not seen yet
      rename_i w
      have hunseen : w.unseen = true := by
        by_contra hseen
        have := hinv.seen w hw (by simpa using hseen)
        omega
      exact (Nat.add_comm _ _).trans_le (fuel_rearm hw hunseen)
  | timedOut _ _ _ => exact (Nat.add_comm _ _).trans_le (fuel_returned hresult _)

/-! ## The tunnel -/

/-- The bytes of the response head which are not written yet. -/
def Stage.left : Stage → Nat
  | .greeting rest => rest.length
  | _ => 0

def TunnelAction.cost : TunnelAction → Nat
  | .tick _ => 0
  | .relay a => a.cost
  | _ => 1

namespace Tunnel

variable {idleTimeout : Option Nat}

/-- What two pipes have left before the relay takes them over. -/
def ahead (up down : Pipe UInt8 IoError) : Nat :=
  up.pending.length + down.pending.length +
    4 * (up.source.unread.length + down.source.unread.length) + 5

/-- The actions which the tunnel can still make. -/
def fuel : Tunnel → Nat
  | opening stage _ up down _ => stage.left + ahead up down
  | relaying r => r.fuel
  | failed _ _ _ _ => 0

theorem fuel_afterGreeting (idleTimeout : Option Nat) (up down : Pipe UInt8 IoError) (now : Nat) :
    (afterGreeting idleTimeout up down now).fuel = ahead up down := by
  unfold afterGreeting
  split
  · exact Nat.zero_add _
  next hup =>
  split
  · exact Nat.zero_add _
  next hdown =>
  -- nothing is pending, and a fresh relay owes two moves for each pump and its return
  have hseen : ((idleTimeout.map fun timeout => (⟨timeout, now + timeout, false⟩ : Watchdog)).any
      Watchdog.unseen) = false := by
    cases idleTimeout <;> rfl
  have hup : up.pending = [] := by simpa using hup
  have hdown : down.pending = [] := by simpa using hdown
  simp only [fuel, RelayState.fuel, RelayState.pump, RelayState.start, Pump.fuel, Pump.start,
    Phase.fuel, ahead, hseen, hup, hdown, List.length_nil, Option.isNone_none, Bool.toNat_false,
    Bool.toNat_true]
  omega

/-- The relay of a tunnel keeps the times straight. -/
def Dated (idleTimeout : Option Nat) : Tunnel → Prop
  | relaying r => Timed idleTimeout r ∧ Armed r
  | _ => True

theorem dated_afterGreeting (idleTimeout : Option Nat) (up down : Pipe UInt8 IoError) (now : Nat) :
    (afterGreeting idleTimeout up down now).Dated idleTimeout := by
  unfold afterGreeting
  split
  · trivial
  split
  · trivial
  · exact ⟨timed_start up down idleTimeout now, armed_start up down idleTimeout now⟩

/-- Every action of the tunnel is paid for, and keeps the times straight. -/
theorem fuel_step {t t' : Tunnel} {a : TunnelAction} (hinv : t.Dated idleTimeout)
    (h : t.step idleTimeout a = some t') : a.cost + t'.fuel ≤ t.fuel ∧ t'.Dated idleTimeout := by
  cases moves_of_step h with
  | ticked => exact ⟨(Nat.zero_add _).le, trivial⟩
  | writeFailed =>
      refine ⟨?_, trivial⟩
      simp only [TunnelAction.cost, fuel, ahead]
      omega
  | headPart hpos hlt =>
      refine ⟨?_, trivial⟩
      simp only [TunnelAction.cost, fuel, Stage.left, List.length_drop]
      omega
  | head hpos =>
      refine ⟨?_, dated_afterGreeting _ _ _ _⟩
      rw [fuel_afterGreeting]
      simp only [TunnelAction.cost, fuel, Stage.left]
      omega
  | upPart hpos hlt =>
      refine ⟨?_, trivial⟩
      simp only [TunnelAction.cost, fuel, ahead, Pipe.push_pending, Pipe.push_source,
        List.length_drop]
      omega
  | up hpos =>
      refine ⟨?_, dated_afterGreeting _ _ _ _⟩
      rw [fuel_afterGreeting]
      simp only [TunnelAction.cost, fuel, Stage.left, ahead, Pipe.push_pending, Pipe.push_source,
        List.length_drop]
      omega
  | downPart hpos hlt =>
      refine ⟨?_, trivial⟩
      simp only [TunnelAction.cost, fuel, ahead, Pipe.push_pending, Pipe.push_source,
        List.length_drop]
      omega
  | down hpos =>
      refine ⟨?_, dated_afterGreeting _ _ _ _⟩
      rw [fuel_afterGreeting]
      simp only [TunnelAction.cost, fuel, Stage.left, ahead, Pipe.push_pending, Pipe.push_source,
        List.length_drop]
      omega
  | relayed hr =>
      obtain ⟨htimed, harmed⟩ := hinv
      exact ⟨RelayState.fuel_step harmed hr, htimed.step hr, harmed.step htimed hr⟩

end Tunnel

/-! ## There is always a next action -/

/-- The writer does not fail in this action. -/
def PumpAction.accepted : PumpAction → Bool
  | .writeError _ => false
  | .shutdown (.error _) => false
  | _ => true

def TunnelAction.accepted : TunnelAction → Bool
  | .writeError _ => false
  | .relay (.pump _ a) => a.accepted
  | _ => true

/-- A pump which has not returned has a next action, for which its writer need
not fail. -/
theorem Pump.Inv.exists_step {stream : Bytes} {base : Nat} {p : Pump} (hinv : p.Inv stream base)
    (hphase : p.phase ≠ .finished) : ∃ a outcome, a.accepted = true ∧ p.step a = some outcome := by
  cases hp : p.phase with
  | reading =>
      cases hread : p.pipe.source.read bufferSize with
      | mk outcome source =>
          rcases outcome with e | _ | ⟨byte, bytes⟩
          · exact ⟨.read, .error e, rfl, by simp only [Pump.step, hp, hread]⟩
          · exact ⟨.read, _, rfl, Pump.step_of_moves (Moves.readEnd hp hread)⟩
          · exact ⟨.read, _, rfl, Pump.step_of_moves (Moves.readSome hp hread)⟩
  | writing read =>
      have hpos : 0 < p.pipe.pending.length := List.length_pos_iff.mpr (hinv.writing read hp)
      exact ⟨_, _, rfl, Pump.step_of_moves (Moves.write hp hpos (Nat.le_refl _))⟩
  | stamping read => exact ⟨_, _, rfl, Pump.step_of_moves (Moves.stamp hp)⟩
  | closing => exact ⟨_, _, rfl, Pump.step_of_moves (Moves.shutdown hp)⟩
  | finished => exact absurd hp hphase

theorem RelayState.Inv.exists_step {stream : Direction → Bytes} {base : Direction → Nat}
    {s : RelayState} (hinv : s.Inv stream base) (hresult : s.result = none) :
    ∃ d a s', a.accepted = true ∧ s.step (.pump d a) = some s' := by
  obtain ⟨d, hd⟩ := not_forall.mp (hinv.running hresult)
  obtain ⟨a, outcome, haccepted, hstep⟩ := (hinv.pumps d).exists_step hd
  cases outcome with
  | error e =>
      refine ⟨d, a, { s with result := some (.error e) }, haccepted, ?_⟩
      simp [RelayState.step, hresult, hstep]
  | ok p => exact ⟨d, a, _, haccepted, step_of_pump_moves hresult (Pump.moves_of_step hstep)⟩

/-- A tunnel which has not returned has a next action besides the passing of
time, for which no writer need fail. -/
theorem Tunnel.Inv.exists_step {stream ahead : Direction → Bytes} {t : Tunnel}
    (hinv : Tunnel.Inv stream ahead t) (idleTimeout : Option Nat) (hresult : t.result = none) :
    ∃ a t', a.cost = 1 ∧ a.accepted = true ∧ (machine idleTimeout).step t a = some t' := by
  cases hinv with
  | @opening stage greeted up down now _ _ _ _ hstage =>
      -- what the stage is about is not written yet, so a byte of it can be
      cases stage with
      | greeting rest =>
          have hpos : 0 < rest.length := List.length_pos_iff.mpr hstage.2.1
          exact ⟨.write rest.length, afterGreeting idleTimeout up down now, rfl, rfl,
            by simp [machine, Tunnel.step, hpos]⟩
      | toUpstream =>
          have hpos : 0 < up.pending.length := List.length_pos_iff.mpr hstage.2.1
          exact ⟨.write up.pending.length,
            afterGreeting idleTimeout (up.push up.pending.length) down now, rfl, rfl,
            by simp [machine, Tunnel.step, hpos]⟩
      | toClient =>
          have hpos : 0 < down.pending.length := List.length_pos_iff.mpr hstage.2.2
          exact ⟨.write down.pending.length,
            afterGreeting idleTimeout up (down.push down.pending.length) now, rfl, rfl,
            by simp [machine, Tunnel.step, hpos]⟩
  | relaying hrelay =>
      obtain ⟨d, a, s', haccepted, hstep⟩ := hrelay.exists_step hresult
      refine ⟨.relay (.pump d a), .relaying s', rfl, haccepted, ?_⟩
      show Option.map _ _ = _
      rw [hstep]
      rfl
  | failed => cases hresult

/-- **A tunnel makes finitely many moves and never gets stuck.**  Whatever the
order in which reads, partial writes, errors, shutdowns and the watchdog's
wake-ups come, their number is bounded by the bytes to be moved; and as long as
the tunnel has not returned there is a next one, without the help of an
error. -/
theorem tunnel_work_bounded {prefetched : Bytes} {client : Incoming} {upstream : BufferedStream}
    {idleTimeout : Option Nat} {now : Nat} {actions : List TunnelAction} {t : Tunnel}
    (hrun : (Tunnel.machine idleTimeout).run (Tunnel.start prefetched client upstream now) actions =
      some t) :
    (actions.map TunnelAction.cost).sum ≤
        establishedHead.length + prefetched.length + upstream.buffer.length +
          4 * (client.unread.length + upstream.stream.unread.length) + 5 ∧
      (t.result = none → ∃ a t', a.cost = 1 ∧ a.accepted = true ∧
        (Tunnel.machine idleTimeout).step t a = some t') := by
  have hinv := (Tunnel.inv_start prefetched client upstream now).run hrun
  refine ⟨?_, hinv.exists_step idleTimeout⟩
  have hdated : (Tunnel.start prefetched client upstream now).Dated idleTimeout := trivial
  have hcost : (actions.map TunnelAction.cost).sum + t.fuel ≤
      (Tunnel.start prefetched client upstream now).fuel :=
    Machine.run_cost (fun hinv h => (Tunnel.fuel_step hinv h).2)
      (fun hinv h => (Tunnel.fuel_step hinv h).1) hdated hrun
  have hfuel : (Tunnel.start prefetched client upstream now).fuel =
      establishedHead.length + (prefetched.length + upstream.buffer.length +
        4 * (client.unread.length + upstream.stream.unread.length) + 5) := rfl
  omega

/-! A client that sends one byte with its request and one after it, to an
upstream that closes at once. -/

private def workClient : Incoming := ⟨[⟨[7], by decide⟩], none⟩

private def workActions : List TunnelAction :=
  [.write 39, .write 1, .relay (.pump .up .read), .relay (.tick 3), .relay (.pump .up (.write 1)),
    .relay (.pump .up .stamp), .relay .changed]

/-- Six of at most forty-nine actions are done, and there is a next one. -/
theorem tunnel_work_bounded_sample :
    ∃ t, (Tunnel.machine (some 60)).run
        (Tunnel.start [1] workClient (BufferedStream.new ⟨[], none⟩) 0) workActions = some t ∧
      (workActions.map TunnelAction.cost).sum = 6 ∧ 6 ≤ 49 ∧
      ∃ a t', a.cost = 1 ∧ a.accepted = true ∧ (Tunnel.machine (some 60)).step t a = some t' := by
  have hresult : ((Tunnel.machine (some 60)).run
      (Tunnel.start [1] workClient (BufferedStream.new ⟨[], none⟩) 0) workActions).map
      Tunnel.result = some none := by
    decide
  obtain ⟨t, hrun, ht⟩ := Option.map_eq_some_iff.mp hresult
  obtain ⟨-, hnext⟩ := tunnel_work_bounded hrun
  exact ⟨t, hrun, rfl, by decide, hnext ht⟩

/-! ## When the watchdog closes the tunnel -/

namespace RelayState

/-- When a write to either side was completed, in the course of a run. -/
def stamps (s : RelayState) (actions : List Action) : List Nat :=
  machine.collect (fun s a => if a = .pump .up .stamp ∨ a = .pump .down .stamp then [s.now] else [])
    s actions

end RelayState

/-- The relay in relation to the stamps up to now: the watchdog can read the last
of them. -/
structure Stamped (timeout : Nat) (seen : List Nat) (s : RelayState) : Prop where
  timed : Timed (some timeout) s
  armed : Armed s
  watched : s.watchdog ≠ none
  last : s.activity ∈ seen
  latest : ∀ t ∈ seen, t ≤ s.activity

/-- The bookkeeping after a write cannot fail. -/
theorem Pump.step_stamp_ne_error (p : Pump) (e : IoError) : p.step .stamp ≠ some (.error e) := by
  unfold Pump.step
  split <;> simp_all

theorem stamped_start (up down : Pipe UInt8 IoError) (timeout now : Nat) :
    Stamped timeout [now] (RelayState.start up down (some timeout) now) where
  timed := timed_start up down (some timeout) now
  armed := armed_start up down (some timeout) now
  watched := Option.some_ne_none _
  last := List.mem_singleton.mpr rfl
  latest _ h := (List.mem_singleton.mp h).le

/-- A step which does not touch the activity adds nothing to the stamps. -/
theorem Stamped.step {timeout : Nat} {seen : List Nat} {s s' : RelayState} {a : Action}
    (hinv : Stamped timeout seen s) (h : RelayState.machine.step s a = some s') :
    Stamped timeout
      (seen ++ if a = .pump .up .stamp ∨ a = .pump .down .stamp then [s.now] else []) s' := by
  have htimed := hinv.timed.step h
  have harmed := hinv.armed.step hinv.timed h
  obtain ⟨-, hmoves⟩ := RelayState.moves_of_step h
  cases hmoves with
  | pumped hmove =>
      rename_i d a p
      have hactivity := s.activity_advance d a p
      have hdog : (s.advance d a p).watchdog ≠ none := by
        rw [RelayState.watchdog_advance]
        split
        · simpa using hinv.watched
        · exact hinv.watched
      have hstamp : (Action.pump d a = .pump .up .stamp ∨ Action.pump d a = .pump .down .stamp) ↔
          a = .stamp := by
        cases d <;> simp
      by_cases ha : a = .stamp
      · rw [if_pos ha] at hactivity
        rw [if_pos (hstamp.mpr ha)]
        refine ⟨htimed, harmed, hdog, ?_, ?_⟩
        · rw [hactivity]
          exact List.mem_append_right _ (List.mem_singleton.mpr rfl)
        · intro t ht
          rw [hactivity]
          rcases List.mem_append.mp ht with hold | hnew
          · exact (hinv.latest t hold).trans hinv.timed.stamp_le
          · exact (List.mem_singleton.mp hnew).le
      · rw [if_neg ha] at hactivity
        rw [if_neg (mt hstamp.mp ha), List.append_nil]
        exact ⟨htimed, harmed, hdog, hactivity ▸ hinv.last, hactivity ▸ hinv.latest⟩
  | pumpFailed hfail =>
      rename_i d a e
      have ha : ¬ (Action.pump d a = .pump .up .stamp ∨ Action.pump d a = .pump .down .stamp) := by
        rintro (heq | heq) <;> cases heq <;> exact Pump.step_stamp_ne_error _ e hfail
      rw [if_neg ha, List.append_nil]
      exact ⟨htimed, harmed, hinv.watched, hinv.last, hinv.latest⟩
  | ticked =>
      rw [if_neg (by simp), List.append_nil]
      exact ⟨htimed, harmed, hinv.watched, hinv.last, hinv.latest⟩
  | changed _ _ =>
      rw [if_neg (by simp), List.append_nil]
      exact ⟨htimed, harmed, Option.some_ne_none _, hinv.last, hinv.latest⟩
  | woke _ _ _ =>
      rw [if_neg (by simp), List.append_nil]
      exact ⟨htimed, harmed, Option.some_ne_none _, hinv.last, hinv.latest⟩
  | orphaned _ _ _ =>
      rw [if_neg (by simp), List.append_nil]
      exact ⟨htimed, harmed, hinv.watched, hinv.last, hinv.latest⟩
  | timedOut _ _ _ =>
      rw [if_neg (by simp), List.append_nil]
      exact ⟨htimed, harmed, hinv.watched, hinv.last, hinv.latest⟩

/-- **The watchdog closes the tunnel at the right time.**  While the relay runs,
a wake-up of the watchdog ends it exactly if its start and every completed write
since then are at least the timeout ago. -/
theorem idle_wake_iff {up down : Pipe UInt8 IoError} {timeout start : Nat} {actions : List Action}
    {s : RelayState}
    (hrun : RelayState.machine.run (RelayState.start up down (some timeout) start) actions = some s)
    (hresult : s.result = none) :
    (∃ s', s.step .wake = some s' ∧ s'.result = some (.error idleError)) ↔
      ∀ t ∈ start :: (RelayState.start up down (some timeout) start).stamps actions,
        t + timeout ≤ s.now := by
  have hinv : Stamped timeout
      ([start] ++ (RelayState.start up down (some timeout) start).stamps actions) s :=
    Machine.collect_invariant Stamped.step (stamped_start up down timeout start) hrun
  rw [List.singleton_append] at hinv
  constructor
  · rintro ⟨s', hstep, hended⟩ t ht
    have hle := hinv.latest t ht
    obtain ⟨-, hmoves⟩ := RelayState.moves_of_step hstep
    cases hmoves with
    | woke _ _ _ => cases hresult.symm.trans hended
    | timedOut hw _ hidle =>
        rw [← Option.some.inj (hinv.timed.armed _ hw)] at hidle
        omega
  · intro hall
    obtain ⟨w, hw⟩ := Option.ne_none_iff_exists'.mp hinv.watched
    have hidle := hall s.activity hinv.last
    rw [Option.some.inj (hinv.timed.armed w hw)] at hidle
    -- the deadline is not later than the end of the idle time
    have hdue := (hinv.armed.early w hw).trans hidle
    exact ⟨{ s with result := some (.error idleError) },
      by simp [RelayState.step, hresult, hw, hdue, hidle], rfl⟩

private def stampedUp : Pipe UInt8 IoError := ⟨⟨[⟨[8, 9], by decide⟩], none⟩, [], []⟩

private def stampedActions : List Action :=
  [.tick 3, .pump .up .read, .pump .up (.write 2), .pump .up .stamp, .tick 10]

/-- The write was completed at the time 3, and the timeout is over at 13. -/
theorem idle_wake_iff_at_deadline :
    ∃ s s', RelayState.machine.run (RelayState.start stampedUp ⟨⟨[], none⟩, [], []⟩ (some 10) 0)
        stampedActions = some s ∧
      s.step .wake = some s' ∧ s'.result = some (.error idleError) ∧ s.now = 13 := by
  have hrun : ∃ s, RelayState.machine.run
      (RelayState.start stampedUp ⟨⟨[], none⟩, [], []⟩ (some 10) 0) stampedActions = some s ∧
        s.result = none ∧ s.now = 13 :=
    ⟨_, rfl, rfl, rfl⟩
  obtain ⟨s, hrun, hresult, hnow⟩ := hrun
  have hidle : ∀ t ∈ 0 :: (RelayState.start stampedUp ⟨⟨[], none⟩, [], []⟩ (some 10) 0).stamps
      stampedActions, t + 10 ≤ s.now := by
    rw [hnow]
    decide
  obtain ⟨s', hstep, hended⟩ := (idle_wake_iff hrun hresult).mpr hidle
  exact ⟨s, s', hrun, hstep, hended, hnow⟩

/-! ## What a tunnel holds -/

/-- A pump holds what it held, or what it has just read. -/
theorem Pump.Moves.pending_le {p p' : Pump} {a : PumpAction} {bound : Nat} (h : p.Moves a p')
    (hbound : bufferSize ≤ bound) (hp : p.pipe.pending.length ≤ bound) :
    p'.pipe.pending.length ≤ bound := by
  cases h with
  | readSome _ hread => exact (Source.read_length_le hread).trans hbound
  | write _ _ _ =>
      rw [Pipe.push_pending, List.length_drop]
      omega
  | readEnd _ _ => exact hp
  | stamp _ => exact hp
  | shutdown _ => exact hp

theorem RelayState.pending_le_of_step {s s' : RelayState} {a : Action} {bound : Nat}
    (h : s.step a = some s') (hbound : bufferSize ≤ bound)
    (hs : ∀ d, (s.pump d).pipe.pending.length ≤ bound) :
    ∀ d, (s'.pump d).pipe.pending.length ≤ bound := by
  obtain ⟨-, hmoves⟩ := moves_of_step h
  cases hmoves with
  | pumped hmove =>
      rename_i d a p
      intro d'
      rcases Direction.eq_or_eq_other d d' with rfl | rfl
      · rw [pump_advance]
        exact hmove.pending_le hbound (hs d')
      · rw [pump_other_advance]
        exact hs _
  | _ => exact hs

namespace Tunnel

/-- Neither direction has more than `bound` bytes in its buffer. -/
def Holds (bound : Nat) (t : Tunnel) : Prop := ∀ d, (t.pipe d).pending.length ≤ bound

variable {idleTimeout : Option Nat} {bound : Nat}

theorem holds_afterGreeting {up down : Pipe UInt8 IoError} {now : Nat}
    (hup : up.pending.length ≤ bound) (hdown : down.pending.length ≤ bound) :
    (afterGreeting idleTimeout up down now).Holds bound := by
  rintro (_ | _)
  · simpa using hup
  · simpa using hdown

/-- A tunnel never holds more than what was read ahead, or one relay buffer. -/
theorem Holds.step {t t' : Tunnel} {a : TunnelAction} (hinv : t.Holds bound)
    (hbound : bufferSize ≤ bound) (h : t.step idleTimeout a = some t') : t'.Holds bound := by
  have hdrop : ∀ {p : Pipe UInt8 IoError} (n : Nat), p.pending.length ≤ bound →
      (p.push n).pending.length ≤ bound := by
    intro p n hp
    rw [Pipe.push_pending, List.length_drop]
    omega
  have hup := hinv .up
  have hdown := hinv .down
  cases moves_of_step h with
  | ticked => exact Direction.rec hup hdown
  | writeFailed => exact Direction.rec hup hdown
  | headPart _ _ => exact Direction.rec hup hdown
  | head _ => exact holds_afterGreeting hup hdown
  | upPart _ _ => exact Direction.rec (hdrop _ hup) hdown
  | up _ => exact holds_afterGreeting (hdrop _ hup) hdown
  | downPart _ _ => exact Direction.rec hup (hdrop _ hdown)
  | down _ => exact holds_afterGreeting hup (hdrop _ hdown)
  | relayed hr => exact RelayState.pending_le_of_step hr hbound hinv

theorem Holds.run {t t' : Tunnel} {actions : List TunnelAction} (hbound : bufferSize ≤ bound)
    (hinv : t.Holds bound) (h : (machine idleTimeout).run t actions = some t') : t'.Holds bound :=
  Machine.run_invariant (fun hinv hstep => hinv.step hbound hstep) hinv h

/-- At every moment the client has a left factor of the head and its stream. -/
theorem Inv.received {stream ahead : Direction → Bytes} {t : Tunnel} (hinv : Inv stream ahead t) :
    t.clientReceived <+: establishedHead ++ stream .down := by
  obtain ⟨hsinks, hgreeted, hfirst⟩ := hinv.sinks
  rw [clientReceived]
  by_cases hsink : (t.pipe .down).sink = []
  · rw [hsink, List.append_nil]
    exact hgreeted.trans (List.prefix_append _ _)
  · rw [hfirst .down hsink]
    exact (List.prefix_append_right_inj _).mpr (hsinks .down)

/-- A tunnel which returned successfully has delivered everything, and both of
its readers are at their end. -/
theorem Inv.delivered {stream ahead : Direction → Bytes} {t : Tunnel}
    {counts : UInt64 × UInt64} (hinv : Inv stream ahead t) (hok : t.result = some (.ok counts)) :
    ∃ r, t = Tunnel.relaying r ∧ r.Joined ∧ (∀ d, (t.pipe d).source.ending = none) ∧
      (∀ d, (t.pipe d).sink = stream d) ∧ t.clientReceived = establishedHead ++ stream .down := by
  cases hinv with
  | opening => cases hok
  | failed => cases hok
  | @relaying r hrelay =>
      obtain ⟨hjoined, -, -⟩ := hrelay.returned counts.1 counts.2 hok
      have hended : ∀ d, (r.pump d).phase.ended := fun d => by simp [hjoined d, Phase.ended]
      have hdelivered : ∀ d, ((Tunnel.relaying r).pipe d).sink = stream d := fun d =>
        (hrelay.pumps d).delivered (hended d)
      refine ⟨r, rfl, hjoined, fun d => ((hrelay.pumps d).exhausted (hended d)).2, hdelivered, ?_⟩
      rw [clientReceived, hdelivered .down]
      rfl

/-- How a reader ends is not changed by the tunnel. -/
theorem ending_step {t t' : Tunnel} {a : TunnelAction} (h : t.step idleTimeout a = some t')
    (d : Direction) : (t'.pipe d).source.ending = (t.pipe d).source.ending := by
  cases moves_of_step h with
  | relayed hr =>
      rename_i r r' a
      obtain ⟨-, hmoves⟩ := RelayState.moves_of_step hr
      show (r'.pump d).pipe.source.ending = (r.pump d).pipe.source.ending
      cases hmoves with
      | pumped hmove =>
          rename_i d' a p
          rcases Direction.eq_or_eq_other d' d with rfl | rfl
          · rw [RelayState.pump_advance, hmove.ending_eq]
          · rw [RelayState.pump_other_advance]
      | _ => rfl
  | head _ =>
      rw [pipe_afterGreeting]
      cases d <;> rfl
  | up _ =>
      rw [pipe_afterGreeting]
      cases d <;> rfl
  | down _ =>
      rw [pipe_afterGreeting]
      cases d <;> rfl
  | _ => cases d <;> rfl

theorem EndsCleanly.run {t t' : Tunnel} {actions : List TunnelAction} (hclean : t.EndsCleanly)
    (h : (machine idleTimeout).run t actions = some t') : t'.EndsCleanly :=
  Machine.run_invariant (fun hclean hstep d => (ending_step hstep d).trans (hclean d)) hclean h

end Tunnel

end Relay
end Fastpx
