import Fastpx.Relay.Steps

/-!
# Tunnel transparency

The tunnel hands every byte on unchanged and in order, in both directions and
whatever the interleaving.  Three layers are stacked: a pump (`Pump.Inv`), the
relay of two pumps (`RelayState.Inv`) and the tunnel with its opening writes
(`Tunnel.Inv`).  Each is an invariant of single steps, and of runs by the rule
for machines.  What the invariant says about the bytes on both sides is
`Tunnel.Inv.sinks`.
-/

namespace Fastpx
namespace Relay

open StreamKit Http1

/-! ## One direction -/

/-- The bytes of the current read, which the counter does not know yet. -/
def Phase.inFlight : Phase → Nat
  | .writing read => read
  | .stamping read => read
  | _ => 0

/-- The reader has reported the end of its stream. -/
def Phase.ended : Phase → Prop
  | .closing => True
  | .finished => True
  | _ => False

/-- A pump which copies `stream`, of which `base` bytes were written before it
started. -/
structure Pump.Inv (stream : Bytes) (base : Nat) (p : Pump) : Prop where
  carried : p.pipe.carried = stream
  flushed : (∀ read, p.phase ≠ .writing read) → p.pipe.pending = []
  writing : ∀ read, p.phase = .writing read → p.pipe.pending ≠ []
  counted : ∃ count, p.transferred = UInt64.ofNat count ∧
    p.pipe.sink.length + p.pipe.pending.length = base + count + p.phase.inFlight
  exhausted : p.phase.ended → p.pipe.source.unread = [] ∧ p.pipe.source.ending = none

theorem bufferSize_pos : 0 < bufferSize := by decide

theorem Pump.inv_start {pipe : Pipe UInt8 IoError} (hpending : pipe.pending = []) :
    (Pump.start pipe).Inv pipe.carried pipe.sink.length where
  carried := rfl
  flushed _ := hpending
  writing _ h := by cases h
  counted := ⟨0, rfl, by simp [start, hpending, Phase.inFlight]⟩
  exhausted h := h.elim

/-- Every transition of a pump keeps its invariant. -/
theorem Pump.Inv.moves {stream : Bytes} {base : Nat} {p p' : Pump} {a : PumpAction}
    (hinv : p.Inv stream base) (h : p.Moves a p') : p'.Inv stream base := by
  obtain ⟨count, hcount, hlength⟩ := hinv.counted
  cases h with
  | readEnd hphase hread =>
      -- an empty read can only be the end, because the buffer has room
      obtain ⟨rfl, hunread, hending⟩ := Source.read_nil bufferSize_pos hread
      have hpending := hinv.flushed (by simp [hphase])
      refine ⟨hinv.carried, fun _ => hpending, by simp, ⟨count, hcount, ?_⟩,
        fun _ => ⟨hunread, hending⟩⟩
      simpa [hphase, Phase.inFlight] using hlength
  | readSome hphase hread =>
      have hpending := hinv.flushed (by simp [hphase])
      refine ⟨(Pipe.carried_read hpending hread).trans hinv.carried, fun h => absurd rfl (h _),
        fun _ _ => List.cons_ne_nil _ _, ⟨count, hcount, ?_⟩, fun h => h.elim⟩
      simp only [hphase, hpending, Phase.inFlight, List.length_nil, List.length_cons] at hlength ⊢
      omega
  | write hphase hpos hle =>
      rw [hphase] at hlength
      have hsame := p.pipe.push_length
      refine ⟨(p.pipe.carried_push _).trans hinv.carried, ?_, ?_, ⟨count, hcount, ?_⟩, ?_⟩
      · intro hnot
        split at hnot
        · next hall => simp [hall]
        · next read _ _ => exact absurd rfl (hnot read)
      · intro read hread
        split at hread
        · cases hread
        · next hpart =>
            rw [Pipe.push_pending, ne_eq, List.drop_eq_nil_iff]
            omega
      · simp only [hsame]
        split <;> exact hlength
      · intro hended
        split at hended <;> exact hended.elim
  | stamp hphase =>
      have hpending := hinv.flushed (by simp [hphase])
      rename_i read
      refine ⟨hinv.carried, fun _ => hpending, by simp, ⟨count + read, ?_, ?_⟩, fun h => h.elim⟩
      · rw [hcount, UInt64.ofNat_add]
      · simp only [hphase, Phase.inFlight] at hlength ⊢
        omega
  | shutdown hphase =>
      have hpending := hinv.flushed (by simp [hphase])
      refine ⟨hinv.carried, fun _ => hpending, by simp, ⟨count, hcount, ?_⟩, fun _ => ?_⟩
      · simpa [hphase, Phase.inFlight] using hlength
      · exact hinv.exhausted (by simp [hphase, Phase.ended])

/-- A pump past the end of its reader has written everything. -/
theorem Pump.Inv.delivered {stream : Bytes} {base : Nat} {p : Pump} (hinv : p.Inv stream base)
    (hended : p.phase.ended) : p.pipe.sink = stream := by
  have hpending : p.pipe.pending = [] := by
    apply hinv.flushed
    intro read hphase
    rw [hphase] at hended
    exact hended
  rw [← hinv.carried]
  exact Pipe.sink_eq_carried hpending (hinv.exhausted hended).1

/-- A finished pump returns the number of bytes it moved. -/
theorem Pump.Inv.transferred_eq {stream : Bytes} {base : Nat} {p : Pump}
    (hinv : p.Inv stream base) (hfinished : p.phase = .finished) :
    p.transferred = UInt64.ofNat (stream.length - base) := by
  have hended : p.phase.ended := by simp [hfinished, Phase.ended]
  have hpending := hinv.flushed (by simp [hfinished])
  obtain ⟨count, hcount, hlength⟩ := hinv.counted
  rw [hinv.delivered hended, hpending, hfinished] at hlength
  simp only [Phase.inFlight, List.length_nil] at hlength
  rw [hcount]
  congr 1
  omega

/-! ## Two directions -/

/-- Both pumps keep their invariants, and the relay has returned a result only
if both have returned theirs. -/
structure RelayState.Inv (stream : Direction → Bytes) (base : Direction → Nat)
    (s : RelayState) : Prop where
  pumps : ∀ d, (s.pump d).Inv (stream d) (base d)
  running : s.result = none → ¬ s.Joined
  returned : ∀ sent received, s.result = some (.ok (sent, received)) →
    s.Joined ∧ sent = (s.pump .up).transferred ∧ received = (s.pump .down).transferred

theorem RelayState.inv_start {up down : Pipe UInt8 IoError} (hup : up.pending = [])
    (hdown : down.pending = []) (idleTimeout : Option Nat) (now : Nat)
    {stream : Direction → Bytes} {base : Direction → Nat}
    (hstream : up.carried = stream .up ∧ down.carried = stream .down)
    (hbase : up.sink.length = base .up ∧ down.sink.length = base .down) :
    (RelayState.start up down idleTimeout now).Inv stream base where
  pumps d := by
    cases d with
    | up => exact hstream.1 ▸ hbase.1 ▸ Pump.inv_start hup
    | down => exact hstream.2 ▸ hbase.2 ▸ Pump.inv_start hdown
  running _ h := by cases h .up
  returned _ _ h := by cases h

/-- Every transition of the relay keeps the invariant. -/
theorem RelayState.Inv.step {stream : Direction → Bytes} {base : Direction → Nat}
    {s s' : RelayState} {a : Action} (hinv : s.Inv stream base) (h : s.step a = some s') :
    s'.Inv stream base := by
  obtain ⟨hresult, hmoves⟩ := moves_of_step h
  have hrunning := hinv.running hresult
  have hnone : ∀ sent received, s.result ≠ some (.ok (sent, received)) := by simp [hresult]
  cases hmoves with
  | pumped hmove =>
      rename_i d a p
      refine ⟨fun d' => ?_, ?_, ?_⟩
      -- the pump that moved keeps its invariant, and the other one is untouched
      · rcases Direction.eq_or_eq_other d d' with rfl | rfl
        · rw [pump_advance]
          exact (hinv.pumps d').moves hmove
        · rw [pump_other_advance]
          exact hinv.pumps _
      · rcases result_advance hresult d a p with ⟨-, hok⟩ | ⟨hnot, -⟩
        · simp [hok]
        · exact fun _ => hnot
      · intro sent received hok'
        rcases result_advance hresult d a p with ⟨hjoined, hok⟩ | ⟨-, hnone'⟩
        · rw [hok] at hok'
          obtain ⟨rfl, rfl⟩ := Prod.mk.inj (Except.ok.inj (Option.some.inj hok'))
          exact ⟨hjoined, rfl, rfl⟩
        · rw [hnone'] at hok'
          cases hok'
  | pumpFailed _ => exact ⟨hinv.pumps, by simp, by simp⟩
  | ticked => exact ⟨hinv.pumps, fun _ => hrunning, fun _ _ h => absurd h (hnone _ _)⟩
  | changed _ _ => exact ⟨hinv.pumps, fun _ => hrunning, fun _ _ h => absurd h (hnone _ _)⟩
  | orphaned _ _ hjoined => exact absurd hjoined hrunning
  | woke _ _ _ => exact ⟨hinv.pumps, fun _ => hrunning, fun _ _ h => absurd h (hnone _ _)⟩
  | timedOut _ _ _ => exact ⟨hinv.pumps, by simp, by simp⟩

/-! ## The whole tunnel -/

/-- How far the opening writes have come. -/
def StageInv (greeted : Bytes) (up down : Pipe UInt8 IoError) : Stage → Prop
  | .greeting rest =>
      greeted ++ rest = establishedHead ∧ rest ≠ [] ∧ up.sink = [] ∧ down.sink = []
  | .toUpstream => greeted = establishedHead ∧ up.pending ≠ [] ∧ down.sink = []
  | .toClient => greeted = establishedHead ∧ up.pending = [] ∧ down.pending ≠ []

/-- The invariant of a tunnel for the bytes `stream` of each direction, of
which `ahead` were read before it was opened. -/
inductive Tunnel.Inv (stream ahead : Direction → Bytes) : Tunnel → Prop
  | opening {stage : Stage} {greeted : Bytes} {up down : Pipe UInt8 IoError} {now : Nat}
      (hup : up.carried = stream .up) (hdown : down.carried = stream .down)
      (hupAhead : up.sink ++ up.pending = ahead .up)
      (hdownAhead : down.sink ++ down.pending = ahead .down)
      (hstage : StageInv greeted up down stage) :
      Tunnel.Inv stream ahead (.opening stage greeted up down now)
  | relaying {r : RelayState} (hrelay : r.Inv stream fun d => (ahead d).length) :
      Tunnel.Inv stream ahead (.relaying r)
  | failed {e : IoError} {greeted : Bytes} {up down : Pipe UInt8 IoError}
      (hup : up.carried = stream .up) (hdown : down.carried = stream .down)
      (hgreeted : greeted <+: establishedHead)
      (hfirst : up.sink ≠ [] ∨ down.sink ≠ [] → greeted = establishedHead) :
      Tunnel.Inv stream ahead (.failed e greeted up down)

/-- During the opening the head comes first. -/
theorem StageInv.greeted_first {stage : Stage} {greeted : Bytes} {up down : Pipe UInt8 IoError}
    (h : StageInv greeted up down stage) :
    greeted <+: establishedHead ∧
      (up.sink ≠ [] ∨ down.sink ≠ [] → greeted = establishedHead) := by
  cases stage with
  | greeting rest =>
      obtain ⟨hhead, -, hup, hdown⟩ := h
      exact ⟨⟨rest, hhead⟩, fun hsink => by simp [hup, hdown] at hsink⟩
  | toUpstream => exact ⟨h.1 ▸ List.prefix_refl _, fun _ => h.1⟩
  | toClient => exact ⟨h.1 ▸ List.prefix_refl _, fun _ => h.1⟩

namespace Tunnel

variable {stream ahead : Direction → Bytes} {idleTimeout : Option Nat}

theorem inv_afterGreeting {up down : Pipe UInt8 IoError} {now : Nat}
    (hup : up.carried = stream .up) (hdown : down.carried = stream .down)
    (hupAhead : up.sink ++ up.pending = ahead .up)
    (hdownAhead : down.sink ++ down.pending = ahead .down)
    (hsink : up.pending ≠ [] → down.sink = []) :
    Inv stream ahead (afterGreeting idleTimeout up down now) := by
  unfold afterGreeting
  split
  · next hpending =>
      exact Inv.opening hup hdown hupAhead hdownAhead ⟨rfl, hpending, hsink hpending⟩
  next hupEmpty =>
  have hupEmpty : up.pending = [] := by simpa using hupEmpty
  split
  · next hpending =>
      exact Inv.opening hup hdown hupAhead hdownAhead ⟨rfl, hupEmpty, hpending⟩
  · next hdownEmpty =>
      have hdownEmpty : down.pending = [] := by simpa using hdownEmpty
      refine Inv.relaying (RelayState.inv_start hupEmpty hdownEmpty _ _ ⟨hup, hdown⟩ ⟨?_, ?_⟩)
      · rw [← hupAhead, hupEmpty, List.append_nil]
      · rw [← hdownAhead, hdownEmpty, List.append_nil]

/-- The invariant of a tunnel at its start, for the streams of the two peers. -/
theorem inv_start (clientPrefetched : Bytes) (client : Incoming) (upstream : BufferedStream)
    (now : Nat) :
    Inv (Direction.both (clientPrefetched ++ client.unread) upstream.pending)
      (Direction.both clientPrefetched upstream.buffer)
      (start clientPrefetched client upstream now) :=
  Inv.opening rfl rfl rfl rfl ⟨rfl, by decide, rfl, rfl⟩

/-- A write which the sink accepted keeps the bytes read ahead together. -/
private theorem push_ahead {p : Pipe UInt8 IoError} {bytes : Bytes}
    (h : p.sink ++ p.pending = bytes) (n : Nat) :
    (p.push n).sink ++ (p.push n).pending = bytes := by
  rw [← h, Pipe.push, List.append_assoc, List.take_append_drop]

/-- Every step of the tunnel keeps the invariant. -/
theorem Inv.step {t t' : Tunnel} {a : TunnelAction} (hinv : Inv stream ahead t)
    (h : t.step idleTimeout a = some t') : Inv stream ahead t' := by
  have hmoves := moves_of_step h
  cases hinv with
  | opening hup hdown hupAhead hdownAhead hstage =>
      have hup' := fun n => (Pipe.carried_push _ n).trans hup
      have hdown' := fun n => (Pipe.carried_push _ n).trans hdown
      cases hmoves with
      | ticked => exact Inv.opening hup hdown hupAhead hdownAhead hstage
      | writeFailed => exact Inv.failed hup hdown hstage.greeted_first.1 hstage.greeted_first.2
      | headPart hpos hlt =>
          obtain ⟨hhead, -, hupSink, hdownSink⟩ := hstage
          refine Inv.opening hup hdown hupAhead hdownAhead ⟨?_, ?_, hupSink, hdownSink⟩
          · rw [List.append_assoc, List.take_append_drop, hhead]
          · rwa [ne_eq, List.drop_eq_nil_iff, Nat.not_le]
      | head _ => exact inv_afterGreeting hup hdown hupAhead hdownAhead fun _ => hstage.2.2.2
      | upPart hpos hlt =>
          refine Inv.opening (hup' _) hdown (push_ahead hupAhead _) hdownAhead
            ⟨hstage.1, ?_, hstage.2.2⟩
          rwa [Pipe.push_pending, ne_eq, List.drop_eq_nil_iff, Nat.not_le]
      | up _ =>
          exact inv_afterGreeting (hup' _) hdown (push_ahead hupAhead _) hdownAhead
            fun _ => hstage.2.2
      | downPart hpos hlt =>
          refine Inv.opening hup (hdown' _) hupAhead (push_ahead hdownAhead _)
            ⟨hstage.1, hstage.2.1, ?_⟩
          rwa [Pipe.push_pending, ne_eq, List.drop_eq_nil_iff, Nat.not_le]
      | down _ =>
          exact inv_afterGreeting hup (hdown' _) hupAhead (push_ahead hdownAhead _)
            fun hne => absurd hstage.2.1 hne
  | relaying hrelay =>
      cases hmoves with
      | relayed hstep => exact Inv.relaying (hrelay.step hstep)
  | failed _ _ _ _ => cases hmoves

/-- Two pipes which carry their streams, with empty sinks until the head is
sent. -/
theorem sinks_of_carried {t : Tunnel} (hup : (t.pipe .up).carried = stream .up)
    (hdown : (t.pipe .down).carried = stream .down) (hgreeted : t.greeted <+: establishedHead)
    (hfirst : (t.pipe .up).sink ≠ [] ∨ (t.pipe .down).sink ≠ [] → t.greeted = establishedHead) :
    (∀ d, (t.pipe d).sink <+: stream d) ∧ t.greeted <+: establishedHead ∧
      (∀ d, (t.pipe d).sink ≠ [] → t.greeted = establishedHead) := by
  refine ⟨?_, hgreeted, ?_⟩
  · rintro (_ | _)
    · exact hup ▸ Pipe.sink_isPrefix _
    · exact hdown ▸ Pipe.sink_isPrefix _
  · rintro (_ | _) hsink
    · exact hfirst (Or.inl hsink)
    · exact hfirst (Or.inr hsink)

/-- At every moment each sink holds a left factor of its stream, and the client
has the head before anything else. -/
theorem Inv.sinks {t : Tunnel} (hinv : Inv stream ahead t) :
    (∀ d, (t.pipe d).sink <+: stream d) ∧ t.greeted <+: establishedHead ∧
      (∀ d, (t.pipe d).sink ≠ [] → t.greeted = establishedHead) := by
  cases hinv with
  | opening hup hdown _ _ hstage =>
      obtain ⟨hgreeted, hfirst⟩ := hstage.greeted_first
      exact sinks_of_carried hup hdown hgreeted hfirst
  | relaying hrelay =>
      exact ⟨fun d => (hrelay.pumps d).carried ▸ Pipe.sink_isPrefix _, List.prefix_refl _,
        fun _ _ => rfl⟩
  | failed hup hdown hgreeted hfirst => exact sinks_of_carried hup hdown hgreeted hfirst

end Tunnel

end Relay
end Fastpx
