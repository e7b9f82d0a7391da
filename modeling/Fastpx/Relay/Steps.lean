import Fastpx.Relay.Pump

/-!
# What one step of the relay can do

`Pump.Moves`, `RelayState.Moves` and `Tunnel.Moves` list the transitions of a
pump, of the relay and of the tunnel with their guards.  Every invariant below
is proved from these lists and never looks into the step functions again.
-/

namespace Fastpx
namespace Relay

open StreamKit Http1

/-- The transitions of a pump which goes on. -/
inductive Pump.Moves : Pump → PumpAction → Pump → Prop
  | readEnd {p : Pump} {source : Incoming} (hphase : p.phase = .reading)
      (hread : p.pipe.source.read bufferSize = (.ok [], source)) :
      Moves p .read { p with pipe := { p.pipe with source := source }, phase := .closing }
  | readSome {p : Pump} {source : Incoming} {byte : UInt8} {bytes : Bytes}
      (hphase : p.phase = .reading)
      (hread : p.pipe.source.read bufferSize = (.ok (byte :: bytes), source)) :
      Moves p .read { p with
        pipe := { p.pipe with source := source, pending := byte :: bytes }
        phase := .writing (bytes.length + 1) }
  | write {p : Pump} {read accepted : Nat} (hphase : p.phase = .writing read)
      (hpos : 0 < accepted) (hle : accepted ≤ p.pipe.pending.length) :
      Moves p (.write accepted) { p with
        pipe := p.pipe.push accepted
        phase := if accepted = p.pipe.pending.length then .stamping read else .writing read }
  | stamp {p : Pump} {read : Nat} (hphase : p.phase = .stamping read) :
      Moves p .stamp
        { p with transferred := p.transferred + UInt64.ofNat read, phase := .reading }
  | shutdown {p : Pump} (hphase : p.phase = .closing) :
      Moves p (.shutdown (.ok ())) { p with phase := .finished }

/-- A pump step is one of the transitions. -/
theorem Pump.moves_of_step {p p' : Pump} {a : PumpAction} (h : p.step a = some (.ok p')) :
    p.Moves a p' := by
  unfold Pump.step at h
  split at h
  · next hphase =>
      split at h
      · cases h
      · next source hread =>
          obtain rfl := Except.ok.inj (Option.some.inj h)
          exact Moves.readEnd hphase hread
      · next byte bytes source hread =>
          obtain rfl := Except.ok.inj (Option.some.inj h)
          exact Moves.readSome hphase hread
  · next read accepted hphase =>
      split at h
      · next hguard =>
          obtain rfl := Except.ok.inj (Option.some.inj h)
          exact Moves.write hphase hguard.1 hguard.2
      · cases h
  · cases h
  · next read hphase =>
      obtain rfl := Except.ok.inj (Option.some.inj h)
      exact Moves.stamp hphase
  · next hphase =>
      obtain rfl := Except.ok.inj (Option.some.inj h)
      exact Moves.shutdown hphase
  · cases h
  · cases h

/-- Every transition is a pump step. -/
theorem Pump.step_of_moves {p p' : Pump} {a : PumpAction} (h : p.Moves a p') :
    p.step a = some (.ok p') := by
  cases h with
  | readEnd hphase hread => simp only [Pump.step, hphase, hread]
  | readSome hphase hread => simp only [Pump.step, hphase, hread]
  | write hphase hpos hle => simp only [Pump.step, hphase, if_pos (And.intro hpos hle)]
  | stamp hphase => simp only [Pump.step, hphase]
  | shutdown hphase => simp only [Pump.step, hphase]

theorem Direction.eq_or_eq_other (d d' : Direction) : d' = d ∨ d' = d.other := by
  cases d <;> cases d' <;> simp [Direction.other]

namespace RelayState

@[simp] theorem pump_setPump (s : RelayState) (d : Direction) (p : Pump) :
    (s.setPump d p).pump d = p := by
  cases d <;> rfl

@[simp] theorem pump_other_setPump (s : RelayState) (d : Direction) (p : Pump) :
    (s.setPump d p).pump d.other = s.pump d.other := by
  cases d <;> rfl

@[simp] theorem pump_touch (s : RelayState) (d : Direction) : s.touch.pump d = s.pump d := by
  cases d <;> rfl

@[simp] theorem pump_settle (s : RelayState) (d : Direction) : s.settle.pump d = s.pump d := by
  unfold settle
  split <;> cases d <;> rfl

@[simp] theorem result_setPump (s : RelayState) (d : Direction) (p : Pump) :
    (s.setPump d p).result = s.result := by
  cases d <;> rfl

@[simp] theorem result_touch (s : RelayState) : s.touch.result = s.result := rfl

/-- The relay after a pump went on. -/
def advance (s : RelayState) (d : Direction) (a : PumpAction) (p : Pump) : RelayState :=
  (if a = .stamp then (s.setPump d p).touch else s.setPump d p).settle

@[simp] theorem pump_advance (s : RelayState) (d : Direction) (a : PumpAction) (p : Pump) :
    (s.advance d a p).pump d = p := by
  unfold advance
  split <;> simp

@[simp] theorem pump_other_advance (s : RelayState) (d : Direction) (a : PumpAction) (p : Pump) :
    (s.advance d a p).pump d.other = s.pump d.other := by
  unfold advance
  split <;> simp

/-- Both pumps have returned. -/
def Joined (s : RelayState) : Prop := ∀ d, (s.pump d).phase = .finished

theorem joined_iff (s : RelayState) :
    s.Joined ↔ s.up.phase = .finished ∧ s.down.phase = .finished := by
  constructor
  · exact fun h => ⟨h .up, h .down⟩
  · rintro ⟨hup, hdown⟩ (_ | _)
    · exact hup
    · exact hdown

/-- The relay returns when the pumps are joined, and not before. -/
theorem result_advance {s : RelayState} (hresult : s.result = none) (d : Direction)
    (a : PumpAction) (p : Pump) :
    ((s.advance d a p).Joined ∧ (s.advance d a p).result =
        some (.ok (((s.advance d a p).pump .up).transferred,
          ((s.advance d a p).pump .down).transferred))) ∨
      (¬ (s.advance d a p).Joined ∧ (s.advance d a p).result = none) := by
  have hbefore : (if a = .stamp then (s.setPump d p).touch else s.setPump d p).result = none := by
    split <;> simpa using hresult
  unfold advance
  generalize (if a = .stamp then (s.setPump d p).touch else s.setPump d p) = t at hbefore ⊢
  by_cases hboth : t.up.phase = .finished ∧ t.down.phase = .finished
  · refine Or.inl ⟨(joined_iff _).mpr ?_, ?_⟩ <;> simp [settle, hboth, pump]
  · refine Or.inr ⟨fun hjoined => hboth ?_, ?_⟩
    · simpa [settle, hboth] using (joined_iff _).mp hjoined
    · simpa [settle, hboth] using hbefore

/-- The transitions of a relay which has not returned. -/
inductive Moves : RelayState → Action → RelayState → Prop
  | pumped {s : RelayState} {d : Direction} {a : PumpAction} {p : Pump}
      (hmove : (s.pump d).Moves a p) : Moves s (.pump d a) (s.advance d a p)
  | pumpFailed {s : RelayState} {d : Direction} {a : PumpAction} {e : IoError}
      (hfail : (s.pump d).step a = some (.error e)) :
      Moves s (.pump d a) { s with result := some (.error e) }
  | ticked {s : RelayState} {elapsed : Nat} :
      Moves s (.tick elapsed) { s with now := s.now + elapsed }
  | changed {s : RelayState} {w : Watchdog} (hw : s.watchdog = some w) (hunseen : w.unseen = true) :
      Moves s .changed (s.rearm w)
  | orphaned {s : RelayState} {w : Watchdog} (hw : s.watchdog = some w)
      (hseen : w.unseen = false) (hjoined : s.Joined) :
      Moves s .changed { s with result := some (.error idleError) }
  | woke {s : RelayState} {w : Watchdog} (hw : s.watchdog = some w) (hdue : w.deadline ≤ s.now)
      (hactive : s.now < s.activity + w.timeout) : Moves s .wake (s.rearm w)
  | timedOut {s : RelayState} {w : Watchdog} (hw : s.watchdog = some w)
      (hdue : w.deadline ≤ s.now) (hidle : s.activity + w.timeout ≤ s.now) :
      Moves s .wake { s with result := some (.error idleError) }

/-- A relay step is one of the transitions, and there is none after the
return. -/
theorem moves_of_step {s s' : RelayState} {a : Action} (h : s.step a = some s') :
    s.result = none ∧ s.Moves a s' := by
  unfold step at h
  split at h
  · cases h
  next hresult =>
  refine ⟨by simpa using hresult, ?_⟩
  split at h
  · next d a =>
      split at h
      · cases h
      · next e hfail =>
          obtain rfl := Option.some.inj h
          exact Moves.pumpFailed hfail
      · next p hstep =>
          obtain rfl := Option.some.inj h
          exact Moves.pumped (Pump.moves_of_step hstep)
  · obtain rfl := Option.some.inj h
    exact Moves.ticked
  · split at h
    · cases h
    · next w hw =>
        split at h
        · next hunseen =>
            obtain rfl := Option.some.inj h
            exact Moves.changed hw hunseen
        · next hseen =>
            split at h
            · next hboth =>
                obtain rfl := Option.some.inj h
                exact Moves.orphaned hw (by simpa using hseen) ((joined_iff s).mpr hboth)
            · cases h
  · split at h
    · cases h
    · next w hw =>
        split at h
        · next hdue =>
            split at h
            · next hidle =>
                obtain rfl := Option.some.inj h
                exact Moves.timedOut hw hdue hidle
            · next hactive =>
                obtain rfl := Option.some.inj h
                exact Moves.woke hw hdue (by omega)
        · cases h

theorem step_of_pump_moves {s : RelayState} {d : Direction} {a : PumpAction} {p : Pump}
    (hresult : s.result = none) (h : (s.pump d).Moves a p) :
    s.step (.pump d a) = some (s.advance d a p) := by
  simp only [step, hresult, Option.isSome_none, Bool.false_eq_true, if_false,
    Pump.step_of_moves h]
  rfl

end RelayState

namespace Tunnel

/-- The next stage begins with the same two pipes. -/
@[simp] theorem pipe_afterGreeting (idleTimeout : Option Nat) (up down : Pipe UInt8 IoError)
    (now : Nat) : (afterGreeting idleTimeout up down now).pipe = Direction.both up down := by
  funext d
  unfold afterGreeting
  split
  · cases d <;> rfl
  split
  · cases d <;> rfl
  · cases d <;> rfl

/-- The transitions of a tunnel.  A write in the opening is one of a part of
what is to be written, or of all that is left of it. -/
inductive Moves (idleTimeout : Option Nat) : Tunnel → TunnelAction → Tunnel → Prop
  | ticked {stage : Stage} {greeted : Bytes} {up down : Pipe UInt8 IoError} {now elapsed : Nat} :
      Moves idleTimeout (opening stage greeted up down now) (.tick elapsed)
        (opening stage greeted up down (now + elapsed))
  | writeFailed {stage : Stage} {greeted : Bytes} {up down : Pipe UInt8 IoError} {now : Nat}
      {e : IoError} :
      Moves idleTimeout (opening stage greeted up down now) (.writeError e)
        (failed e greeted up down)
  | headPart {rest greeted : Bytes} {up down : Pipe UInt8 IoError} {now accepted : Nat}
      (hpos : 0 < accepted) (hlt : accepted < rest.length) :
      Moves idleTimeout (opening (.greeting rest) greeted up down now) (.write accepted)
        (opening (.greeting (rest.drop accepted)) (greeted ++ rest.take accepted) up down now)
  | head {rest greeted : Bytes} {up down : Pipe UInt8 IoError} {now : Nat}
      (hpos : 0 < rest.length) :
      Moves idleTimeout (opening (.greeting rest) greeted up down now) (.write rest.length)
        (afterGreeting idleTimeout up down now)
  | upPart {greeted : Bytes} {up down : Pipe UInt8 IoError} {now accepted : Nat}
      (hpos : 0 < accepted) (hlt : accepted < up.pending.length) :
      Moves idleTimeout (opening .toUpstream greeted up down now) (.write accepted)
        (opening .toUpstream greeted (up.push accepted) down now)
  | up {greeted : Bytes} {up down : Pipe UInt8 IoError} {now : Nat}
      (hpos : 0 < up.pending.length) :
      Moves idleTimeout (opening .toUpstream greeted up down now) (.write up.pending.length)
        (afterGreeting idleTimeout (up.push up.pending.length) down now)
  | downPart {greeted : Bytes} {up down : Pipe UInt8 IoError} {now accepted : Nat}
      (hpos : 0 < accepted) (hlt : accepted < down.pending.length) :
      Moves idleTimeout (opening .toClient greeted up down now) (.write accepted)
        (opening .toClient greeted up (down.push accepted) now)
  | down {greeted : Bytes} {up down : Pipe UInt8 IoError} {now : Nat}
      (hpos : 0 < down.pending.length) :
      Moves idleTimeout (opening .toClient greeted up down now) (.write down.pending.length)
        (afterGreeting idleTimeout up (down.push down.pending.length) now)
  | relayed {r r' : RelayState} {a : Action} (hstep : r.step a = some r') :
      Moves idleTimeout (relaying r) (.relay a) (relaying r')

/-- A step of the tunnel is one of the transitions. -/
theorem moves_of_step {idleTimeout : Option Nat} {t t' : Tunnel} {a : TunnelAction}
    (h : t.step idleTimeout a = some t') : Moves idleTimeout t a t' := by
  unfold step at h
  split at h
  · obtain rfl := Option.some.inj h
    exact Moves.ticked
  · obtain rfl := Option.some.inj h
    exact Moves.writeFailed
  · split at h
    · next hguard =>
        split at h
        · next hall =>
            obtain rfl := Option.some.inj h
            subst hall
            exact Moves.head hguard.1
        · next hpart =>
            obtain rfl := Option.some.inj h
            exact Moves.headPart hguard.1 (Nat.lt_of_le_of_ne hguard.2 hpart)
    · cases h
  · split at h
    · next hguard =>
        split at h
        · next hall =>
            obtain rfl := Option.some.inj h
            subst hall
            exact Moves.up hguard.1
        · next hpart =>
            obtain rfl := Option.some.inj h
            exact Moves.upPart hguard.1 (Nat.lt_of_le_of_ne hguard.2 hpart)
    · cases h
  · split at h
    · next hguard =>
        split at h
        · next hall =>
            obtain rfl := Option.some.inj h
            subst hall
            exact Moves.down hguard.1
        · next hpart =>
            obtain rfl := Option.some.inj h
            exact Moves.downPart hguard.1 (Nat.lt_of_le_of_ne hguard.2 hpart)
    · cases h
  · obtain ⟨r', hr', rfl⟩ := Option.map_eq_some_iff.mp h
    exact Moves.relayed hr'
  · cases h

end Tunnel

end Relay
end Fastpx
