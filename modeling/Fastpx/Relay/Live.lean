import Fastpx.Relay.Work
import Fastpx.StreamKit.Arrival

/-!
# Peers which react

In the tunnel machine each peer's stream is there from the start.  Real peers
send while the tunnel runs: what they send may depend on what they have got, and
when there is nothing to read, a read has to wait.  `Live` is a tunnel between
such peers.  Segments arrive and streams end at any time, in between the steps of
the tunnel, and a read without anything to read is not possible before the end of
the stream.

A run of the live tunnel is a run of the tunnel machine on the streams which had
arrived at its end (`Live.run_scripted`), so whatever holds of all runs with
given streams holds with peers which react.  In particular the live tunnel is
transparent at every moment (`live_transparent`), and no byte waits for a later
one (`live_prompt`).
-/

namespace Fastpx
namespace Relay

open StreamKit Http1

/-! ## Other streams -/

def Pump.mapSource (f : Incoming → Incoming) (p : Pump) : Pump :=
  { p with pipe := p.pipe.mapSource f }

/-- The relay with other sources. -/
def RelayState.mapSources (f : Direction → Incoming → Incoming) (s : RelayState) : RelayState :=
  { s with up := s.up.mapSource (f .up), down := s.down.mapSource (f .down) }

/-- The tunnel with other sources. -/
def Tunnel.mapSources (f : Direction → Incoming → Incoming) : Tunnel → Tunnel
  | .opening stage greeted up down now =>
      .opening stage greeted (up.mapSource (f .up)) (down.mapSource (f .down)) now
  | .relaying r => .relaying (r.mapSources f)
  | .failed e greeted up down =>
      .failed e greeted (up.mapSource (f .up)) (down.mapSource (f .down))

/-- A change of a source which the next read does not notice. -/
def Unnoticed (f : Incoming → Incoming) (s : Incoming) : Prop :=
  (f s).read bufferSize = ((s.read bufferSize).1, f (s.read bufferSize).2)

/-- A pump steps alike if it does not notice the change. -/
theorem Pump.step_mapSource {f : Incoming → Incoming} {p : Pump} {a : PumpAction}
    (h : a = .read → Unnoticed f p.pipe.source) :
    (p.mapSource f).step a = (p.step a).map (Except.map (Pump.mapSource f)) := by
  unfold Pump.step
  simp only [Pump.mapSource]
  cases hphase : p.phase with
  | reading =>
      cases a with
      | read =>
          have hread : (f p.pipe.source).read bufferSize = _ := h rfl
          simp only [Pipe.mapSource_source, hread]
          rcases p.pipe.source.read bufferSize with ⟨e | _ | ⟨byte, bytes⟩, source⟩ <;> rfl
      | _ => rfl
  | writing read =>
      cases a with
      | write accepted =>
          by_cases hguard : 0 < accepted ∧ accepted ≤ p.pipe.pending.length
          · simp only [if_pos hguard]
            exact if_pos hguard
          · simp only [if_neg hguard]
            exact if_neg hguard
      | _ => rfl
  | stamping read => cases a <;> rfl
  | closing =>
      cases a with
      | shutdown outcome => rcases outcome with e | _ <;> rfl
      | _ => rfl
  | finished => cases a <;> rfl

namespace RelayState

variable {f : Direction → Incoming → Incoming}

theorem pump_mapSources (f : Direction → Incoming → Incoming) (s : RelayState) (d : Direction) :
    (s.mapSources f).pump d = (s.pump d).mapSource (f d) := by
  cases d <;> rfl

theorem setPump_mapSources (f : Direction → Incoming → Incoming) (s : RelayState) (d : Direction)
    (p : Pump) : (s.mapSources f).setPump d (p.mapSource (f d)) = (s.setPump d p).mapSources f := by
  cases d <;> rfl

theorem settle_mapSources (f : Direction → Incoming → Incoming) (s : RelayState) :
    (s.mapSources f).settle = s.settle.mapSources f := by
  unfold settle
  by_cases hboth : s.up.phase = .finished ∧ s.down.phase = .finished
  · rw [if_pos hboth]
    exact if_pos hboth
  · rw [if_neg hboth]
    exact if_neg hboth

/-- The relay steps alike if it does not notice the change. -/
theorem step_mapSources {s : RelayState} {a : Action}
    (h : ∀ d, a = .pump d .read → Unnoticed (f d) (s.pump d).pipe.source) :
    (s.mapSources f).step a = (s.step a).map (mapSources f) := by
  have hresult : (s.mapSources f).result = s.result := rfl
  unfold step
  rw [hresult]
  by_cases hreturned : s.result.isSome = true
  · rw [if_pos hreturned, if_pos hreturned]
    rfl
  rw [if_neg hreturned, if_neg hreturned]
  cases a with
  | pump d a =>
      have hstep : ((s.pump d).mapSource (f d)).step a = _ :=
        Pump.step_mapSource fun ha => h d (by rw [ha])
      simp only [pump_mapSources, hstep]
      rcases (s.pump d).step a with _ | e | p
      · rfl
      · rfl
      · show some ((if a = .stamp then ((s.mapSources f).setPump d (p.mapSource (f d))).touch
          else (s.mapSources f).setPump d (p.mapSource (f d))).settle) = _
        rw [setPump_mapSources]
        by_cases hstamp : a = .stamp
        · simp only [if_pos hstamp]
          exact congrArg some (settle_mapSources f (s.setPump d p).touch)
        · simp only [if_neg hstamp]
          exact congrArg some (settle_mapSources f (s.setPump d p))
  | tick elapsed => rfl
  | changed =>
      have hwatchdog : (s.mapSources f).watchdog = s.watchdog := rfl
      simp only [hwatchdog]
      cases s.watchdog with
      | none => rfl
      | some w =>
          dsimp only
          split
          · rfl
          · by_cases hboth : s.up.phase = .finished ∧ s.down.phase = .finished
            · rw [if_pos hboth]
              exact if_pos hboth
            · rw [if_neg hboth]
              exact if_neg hboth
  | wake =>
      have hwatchdog : (s.mapSources f).watchdog = s.watchdog := rfl
      have hclock : (s.mapSources f).now = s.now := rfl
      have hactivity : (s.mapSources f).activity = s.activity := rfl
      simp only [hwatchdog, hclock, hactivity]
      cases s.watchdog with
      | none => rfl
      | some w =>
          dsimp only
          split
          · split <;> rfl
          · rfl

end RelayState

namespace Tunnel

variable {f : Direction → Incoming → Incoming} {idleTimeout : Option Nat}

@[simp] theorem pipe_mapSources (f : Direction → Incoming → Incoming) (t : Tunnel) (d : Direction) :
    (t.mapSources f).pipe d = (t.pipe d).mapSource (f d) := by
  cases t <;> cases d <;> rfl

theorem mapSources_congr {f g : Direction → Incoming → Incoming} {t : Tunnel}
    (h : ∀ d, f d (t.pipe d).source = g d (t.pipe d).source) : t.mapSources f = t.mapSources g := by
  have hup := h .up
  have hdown := h .down
  cases t with
  | opening stage greeted up down now =>
      rw [mapSources, mapSources, Pipe.mapSource, Pipe.mapSource,
        show f .up up.source = g .up up.source from hup,
        show f .down down.source = g .down down.source from hdown]
      rfl
  | relaying r =>
      rw [mapSources, mapSources, RelayState.mapSources, Pump.mapSource, Pump.mapSource,
        Pipe.mapSource, Pipe.mapSource,
        show f .up r.up.pipe.source = g .up r.up.pipe.source from hup,
        show f .down r.down.pipe.source = g .down r.down.pipe.source from hdown]
      rfl
  | failed e greeted up down =>
      rw [mapSources, mapSources, Pipe.mapSource, Pipe.mapSource,
        show f .up up.source = g .up up.source from hup,
        show f .down down.source = g .down down.source from hdown]
      rfl

theorem mapSources_id (t : Tunnel) : t.mapSources (fun _ s => s) = t := by
  cases t <;> rfl

theorem mapSources_mapSources (f g : Direction → Incoming → Incoming) (t : Tunnel) :
    (t.mapSources f).mapSources g = t.mapSources fun d s => g d (f d s) := by
  cases t <;> rfl

theorem afterGreeting_mapSources (f : Direction → Incoming → Incoming) (idleTimeout : Option Nat)
    (up down : Pipe UInt8 IoError) (now : Nat) :
    afterGreeting idleTimeout (up.mapSource (f .up)) (down.mapSource (f .down)) now =
      (afterGreeting idleTimeout up down now).mapSources f := by
  unfold afterGreeting
  by_cases hup : up.pending ≠ []
  · rw [if_pos hup]
    exact if_pos hup
  · rw [if_neg hup]
    refine (if_neg hup).trans ?_
    by_cases hdown : down.pending ≠ []
    · rw [if_pos hdown]
      exact if_pos hdown
    · rw [if_neg hdown]
      exact if_neg hdown

/-- The tunnel steps alike if it does not notice the change. -/
theorem step_mapSources {t : Tunnel} {a : TunnelAction}
    (h : ∀ d, a = .relay (.pump d .read) → Unnoticed (f d) (t.pipe d).source) :
    (t.mapSources f).step idleTimeout a = (t.step idleTimeout a).map (mapSources f) := by
  cases t with
  | opening stage greeted up down now =>
      cases a with
      | write accepted =>
          cases stage with
          | greeting rest =>
              simp only [mapSources, step]
              split
              · split
                · exact congrArg some (afterGreeting_mapSources f idleTimeout up down now)
                · rfl
              · rfl
          | toUpstream =>
              simp only [mapSources, step]
              by_cases hguard : 0 < accepted ∧ accepted ≤ up.pending.length
              · rw [if_pos hguard]
                refine (if_pos hguard).trans ?_
                by_cases hall : accepted = up.pending.length
                · rw [if_pos hall]
                  exact (if_pos hall).trans
                    (congrArg some
                      (afterGreeting_mapSources f idleTimeout (up.push accepted) down now))
                · rw [if_neg hall]
                  exact if_neg hall
              · rw [if_neg hguard]
                exact if_neg hguard
          | toClient =>
              simp only [mapSources, step]
              by_cases hguard : 0 < accepted ∧ accepted ≤ down.pending.length
              · rw [if_pos hguard]
                refine (if_pos hguard).trans ?_
                by_cases hall : accepted = down.pending.length
                · rw [if_pos hall]
                  exact (if_pos hall).trans
                    (congrArg some
                      (afterGreeting_mapSources f idleTimeout up (down.push accepted) now))
                · rw [if_neg hall]
                  exact if_neg hall
              · rw [if_neg hguard]
                exact if_neg hguard
      | writeError e => cases stage <;> rfl
      | tick elapsed => cases stage <;> rfl
      | relay a => cases stage <;> rfl
  | relaying r =>
      cases a with
      | relay a =>
          have hrelay : (r.mapSources f).step a = _ :=
            RelayState.step_mapSources fun d ha => h d (by rw [ha])
          show ((r.mapSources f).step a).map relaying = ((r.step a).map relaying).map (mapSources f)
          rw [hrelay, Option.map_map, Option.map_map]
          rfl
      | _ => rfl
  | failed e greeted up down => cases a <;> rfl

end Tunnel

/-! ## The live tunnel -/

/-- A tunnel between two peers, with the part of their streams which has
arrived, and whether a peer has ended its stream. -/
structure Live where
  tunnel : Tunnel
  closed : Direction → Bool

/-- What can happen: a peer sends something or ends its stream, or the tunnel
takes a step. -/
inductive LiveAction where
  | arrive (direction : Direction) (segment : Segment UInt8)
  | close (direction : Direction) (ending : Option IoError)
  | act (action : TunnelAction)

namespace Live

/-- A change of one source. -/
def atSource (d : Direction) (f : Incoming → Incoming) : Direction → Incoming → Incoming :=
  fun d' => if d' = d then f else id

/-- Is it a read which has to wait? -/
def blocked (live : Live) : TunnelAction → Bool
  | .relay (.pump d .read) => !live.closed d && (live.tunnel.pipe d).source.segments.isEmpty
  | _ => false

def step (idleTimeout : Option Nat) (live : Live) (a : LiveAction) : Option Live :=
  match a with
  | .arrive d segment =>
      if live.closed d then none
      else some { live with
        tunnel := live.tunnel.mapSources
          (atSource d fun s => { s with segments := s.segments ++ [segment] }) }
  | .close d ending =>
      if live.closed d then none
      else some ⟨live.tunnel.mapSources (atSource d fun s => { s with ending := ending }),
        Function.update live.closed d true⟩
  | .act a =>
      if live.blocked a then none
      else (live.tunnel.step idleTimeout a).map fun t => { live with tunnel := t }

def machine (idleTimeout : Option Nat) : Machine Live LiveAction := ⟨step idleTimeout⟩

/-- What arrived in one direction. -/
def arrivals (d : Direction) (actions : List LiveAction) : List (Segment UInt8) :=
  actions.filterMap fun
    | .arrive d' segment => if d' = d then some segment else none
    | _ => none

/-- The steps of the tunnel itself. -/
def ownSteps (actions : List LiveAction) : List TunnelAction :=
  actions.filterMap fun
    | .act a => some a
    | _ => none

variable {idleTimeout : Option Nat} {live live' : Live}

/-- The transitions of a live tunnel. -/
inductive Moves (idleTimeout : Option Nat) (live : Live) : LiveAction → Live → Prop
  | arrive {d : Direction} {segment : Segment UInt8} (hopen : live.closed d = false) :
      Moves idleTimeout live (.arrive d segment)
        { live with
          tunnel := live.tunnel.mapSources
            (atSource d fun s => { s with segments := s.segments ++ [segment] }) }
  | close {d : Direction} {ending : Option IoError} (hopen : live.closed d = false) :
      Moves idleTimeout live (.close d ending)
        ⟨live.tunnel.mapSources (atSource d fun s => { s with ending := ending }),
          Function.update live.closed d true⟩
  | act {a : TunnelAction} {t : Tunnel} (hready : live.blocked a = false)
      (hstep : live.tunnel.step idleTimeout a = some t) :
      Moves idleTimeout live (.act a) { live with tunnel := t }

theorem moves_of_step {a : LiveAction} (h : live.step idleTimeout a = some live') :
    live.Moves idleTimeout a live' := by
  cases a with
  | arrive d segment =>
      simp only [step] at h
      split at h
      · cases h
      · next hopen =>
          obtain rfl := Option.some.inj h
          exact .arrive (by simpa using hopen)
  | close d ending =>
      simp only [step] at h
      split at h
      · cases h
      · next hopen =>
          obtain rfl := Option.some.inj h
          exact .close (by simpa using hopen)
  | act a =>
      simp only [step] at h
      split at h
      · cases h
      · next hready =>
          obtain ⟨t, ht, rfl⟩ := Option.map_eq_some_iff.mp h
          exact .act (by simpa using hready) ht

/-- A stream which was ended has ended. -/
theorem step_closed {d : Direction} {a : LiveAction} (hclosed : live.closed d = true)
    (h : live.step idleTimeout a = some live') :
    live'.closed d = true ∧
      (live'.tunnel.pipe d).source.ending = (live.tunnel.pipe d).source.ending ∧
      arrivals d [a] = [] := by
  -- the open stream of a transition is another one
  have hother : ∀ {d'}, live.closed d' = false → d ≠ d' := by
    rintro d' hopen rfl
    exact Bool.false_ne_true (hopen.symm.trans hclosed)
  cases moves_of_step h with
  | arrive hopen =>
      refine ⟨hclosed, ?_, by simp [arrivals, (hother hopen).symm]⟩
      simp [atSource, hother hopen]
  | close hopen =>
      refine ⟨?_, ?_, rfl⟩
      · exact (Function.update_of_ne (hother hopen) _ _).trans hclosed
      · simp [atSource, hother hopen]
  | act hready hstep => exact ⟨hclosed, Tunnel.ending_step hstep d, rfl⟩

theorem run_closed {d : Direction} {actions : List LiveAction} (hclosed : live.closed d = true)
    (h : (machine idleTimeout).run live actions = some live') :
    (live'.tunnel.pipe d).source.ending = (live.tunnel.pipe d).source.ending ∧
      arrivals d actions = [] := by
  induction actions generalizing live with
  | nil =>
      obtain rfl := Option.some.inj h
      exact ⟨rfl, rfl⟩
  | cons a rest ih =>
      obtain ⟨live₁, hstep, hrest⟩ := Option.bind_eq_some_iff.mp h
      obtain ⟨hclosed₁, hending, hnone⟩ := step_closed hclosed hstep
      obtain ⟨hfinal, harrivals⟩ := ih hclosed₁ hrest
      refine ⟨hfinal.trans hending, ?_⟩
      have hsplit : arrivals d (a :: rest) = arrivals d [a] ++ arrivals d rest :=
        List.filterMap_append (l := [a])
      rw [hsplit, hnone, harrivals, List.append_nil]

/-- The tunnel on streams which have arrived completely. -/
def scripted (t : Tunnel) (more : Direction → List (Segment UInt8))
    (ending : Direction → Option IoError) : Tunnel :=
  t.mapSources fun d s => s.extend (more d) (ending d)

/-- What arrives now is the first of what is still to arrive. -/
theorem scripted_arrive (t : Tunnel) (d : Direction) (segment : Segment UInt8)
    (rest : List LiveAction) (ending : Direction → Option IoError) :
    scripted
        (t.mapSources (atSource d fun s => { s with segments := s.segments ++ [segment] }))
        (fun d' => arrivals d' rest) ending =
      scripted t (fun d' => arrivals d' (.arrive d segment :: rest)) ending := by
  rw [scripted, Tunnel.mapSources_mapSources]
  refine Tunnel.mapSources_congr fun d' => ?_
  by_cases hd : d' = d
  · subst hd
    simp [atSource, arrivals, Source.extend]
  · simp [atSource, arrivals, Source.extend, hd, Ne.symm hd]

theorem scripted_close (t : Tunnel) (d : Direction) (end' : Option IoError)
    (more : Direction → List (Segment UInt8)) (ending : Direction → Option IoError) :
    scripted (t.mapSources (atSource d fun s => { s with ending := end' })) more ending =
      scripted t more ending := by
  rw [scripted, Tunnel.mapSources_mapSources]
  refine Tunnel.mapSources_congr fun d' => ?_
  by_cases hd : d' = d
  · simp [atSource, Source.extend, hd]
  · simp [atSource, Source.extend, hd]

/-- A step of the tunnel does not notice what is still to arrive. -/
theorem step_scripted {a : TunnelAction} {more : Direction → List (Segment UInt8)}
    {ending : Direction → Option IoError}
    (hfinal : ∀ d, live.closed d = true →
      more d = [] ∧ ending d = (live.tunnel.pipe d).source.ending)
    (h : live.step idleTimeout (.act a) = some live') :
    (scripted live.tunnel more ending).step idleTimeout a =
      some (scripted live'.tunnel more ending) := by
  obtain ⟨hready, t, ht, rfl⟩ : live.blocked a = false ∧ ∃ t,
      live.tunnel.step idleTimeout a = some t ∧ live' = { live with tunnel := t } := by
    cases moves_of_step h with
    | act hready hstep => exact ⟨hready, _, hstep, rfl⟩
  have hunnoticed : ∀ d, a = .relay (.pump d .read) →
      Unnoticed (fun s => s.extend (more d) (ending d)) (live.tunnel.pipe d).source := by
    rintro d rfl
    by_cases hclosed : live.closed d = true
    · -- nothing is still to arrive
      obtain ⟨hmore, hending⟩ := hfinal d hclosed
      have hread := (live.tunnel.pipe d).source.read_ending bufferSize
      simp only [Unnoticed, hmore, hending, Source.extend_self]
      rw [← hread, Source.extend_self]
    · refine Source.read_extend (fun hnil => ?_) _ _ _
      simp [blocked, hclosed, hnil] at hready
  rw [scripted, Tunnel.step_mapSources hunnoticed, ht]
  rfl

/-- **A live run is a run with given streams**: those which had arrived at its
end. -/
theorem run_scripted {actions : List LiveAction}
    (h : (machine idleTimeout).run live actions = some live') :
    (Tunnel.machine idleTimeout).run
        (scripted live.tunnel (fun d => arrivals d actions)
          fun d => (live'.tunnel.pipe d).source.ending)
        (ownSteps actions) = some live'.tunnel := by
  induction actions generalizing live with
  | nil =>
      obtain rfl := Option.some.inj h
      refine congrArg some ?_
      refine (Tunnel.mapSources_congr fun d => ?_).trans (Tunnel.mapSources_id live.tunnel)
      exact Source.extend_self _
  | cons a rest ih =>
      obtain ⟨live₁, hstep, hrest⟩ := Option.bind_eq_some_iff.mp h
      have hlater := ih hrest
      cases moves_of_step hstep with
      | @arrive d segment hopen =>
          rw [scripted_arrive] at hlater
          exact hlater
      | @close d ending hopen =>
          rw [scripted_close] at hlater
          exact hlater
      | @act a t hready ht =>
          have hfinal : ∀ d, live.closed d = true → arrivals d rest = [] ∧
              (live'.tunnel.pipe d).source.ending = (live.tunnel.pipe d).source.ending := by
            intro d hclosed
            obtain ⟨hending, harrivals⟩ := run_closed hclosed h
            exact ⟨harrivals, hending⟩
          exact (Machine.run_cons_of_step (step_scripted hfinal hstep) _).trans hlater

/-! ### Transparency -/

/-- The tunnel at its start, with the part of the streams that was read ahead or
has arrived already. -/
def start (clientPrefetched : Bytes) (client : Incoming) (upstream : BufferedStream) (now : Nat) :
    Live :=
  ⟨Tunnel.start clientPrefetched client upstream now, fun _ => false⟩

/-- All bytes of one direction which have arrived. -/
def arrived (clientPrefetched : Bytes) (client : Incoming) (upstream : BufferedStream)
    (actions : List LiveAction) (d : Direction) : Bytes :=
  Direction.both (clientPrefetched ++ client.unread) upstream.pending d ++
    ((arrivals d actions).map Subtype.val).flatten

variable {clientPrefetched : Bytes} {client : Incoming} {upstream : BufferedStream} {now : Nat}
  {actions : List LiveAction}

/-- At every moment the tunnel carries what has arrived. -/
theorem inv_of_run
    (h : (machine idleTimeout).run (start clientPrefetched client upstream now) actions =
      some live') :
    Tunnel.Inv (arrived clientPrefetched client upstream actions)
      (Direction.both clientPrefetched upstream.buffer) live'.tunnel := by
  let ending := fun d => (live'.tunnel.pipe d).source.ending
  let client' := client.extend (arrivals .up actions) (ending .up)
  let upstream' : BufferedStream :=
    ⟨upstream.stream.extend (arrivals .down actions) (ending .down), upstream.buffer⟩
  have hinv := (Tunnel.inv_start clientPrefetched client' upstream' now).run (run_scripted h)
  have hstream : Direction.both (clientPrefetched ++ client'.unread) upstream'.pending =
      arrived clientPrefetched client upstream actions := by
    funext d
    cases d <;> simp [client', upstream', arrived, Source.unread_extend, Buffered.pending]
  rwa [hstream] at hinv

/-- A pump which is past its last read has seen the end of its stream. -/
def SawEnd (live : Live) : Prop :=
  ∀ r, live.tunnel = .relaying r → ∀ d, (r.pump d).phase.ended → live.closed d = true

/-- The only way to the end of a stream is a read at its end. -/
theorem ended_of_moves {p p' : Pump} {a : PumpAction} (h : p.Moves a p') (hended : p'.phase.ended) :
    p.phase.ended ∨ (a = .read ∧ p.pipe.source.unread = []) := by
  cases h with
  | readEnd _ hread => exact Or.inr ⟨rfl, (Source.read_nil bufferSize_pos hread).2.1⟩
  | readSome _ _ => exact hended.elim
  | write _ _ _ =>
      dsimp only at hended
      split at hended <;> exact hended.elim
  | stamp _ => exact hended.elim
  | shutdown hphase => exact Or.inl (by simp [hphase, Phase.ended])

/-- A relay which steps on does not get past a stream whose end has not come. -/
theorem closed_of_ended {r r' : RelayState} {a : Action} {d : Direction}
    (hinv : live.SawEnd) (hrelay : live.tunnel = .relaying r)
    (hready : live.blocked (.relay a) = false) (h : r.step a = some r')
    (hended : (r'.pump d).phase.ended) : live.closed d = true := by
  obtain ⟨-, hmoves⟩ := RelayState.moves_of_step h
  cases hmoves with
  | @pumped d' a p hmove =>
      rcases Direction.eq_or_eq_other d' d with rfl | rfl
      · rw [RelayState.pump_advance] at hended
        rcases ended_of_moves hmove hended with hbefore | ⟨rfl, hunread⟩
        · exact hinv r hrelay d hbefore
        · -- a read without anything to read was possible
          have hsegments : (r.pump d).pipe.source.segments = [] :=
            Source.segments_eq_nil hunread
          simpa [blocked, hrelay, Tunnel.pipe, hsegments] using hready
      · rw [RelayState.pump_other_advance] at hended
        exact hinv r hrelay _ hended
  | pumpFailed _ => exact hinv r hrelay d hended
  | ticked => exact hinv r hrelay d hended
  | changed _ _ => exact hinv r hrelay d hended
  | orphaned _ _ _ => exact hinv r hrelay d hended
  | woke _ _ _ => exact hinv r hrelay d hended
  | timedOut _ _ _ => exact hinv r hrelay d hended

theorem ended_mapSources {f : Direction → Incoming → Incoming} {t : Tunnel} {r : RelayState}
    (h : t.mapSources f = .relaying r) :
    ∃ r₀, t = .relaying r₀ ∧ ∀ d, (r.pump d).phase = (r₀.pump d).phase := by
  cases t with
  | relaying r₀ =>
      obtain rfl := Tunnel.relaying.inj h
      exact ⟨r₀, rfl, fun d => by rw [RelayState.pump_mapSources]; rfl⟩
  | opening stage greeted up down now => cases h
  | failed e greeted up down => cases h

theorem not_ended_afterGreeting {idleTimeout : Option Nat} {up down : Pipe UInt8 IoError}
    {now : Nat} {r : RelayState} (h : Tunnel.afterGreeting idleTimeout up down now = .relaying r)
    (d : Direction) : ¬ (r.pump d).phase.ended := by
  unfold Tunnel.afterGreeting at h
  split at h
  · cases h
  · split at h
    · cases h
    · obtain rfl := Tunnel.relaying.inj h
      cases d <;> exact not_false

theorem sawEnd_step {a : LiveAction} (hinv : live.SawEnd)
    (h : live.step idleTimeout a = some live') : live'.SawEnd := by
  intro r hr d hended
  cases moves_of_step h with
  | arrive hopen =>
      obtain ⟨r₀, hrelay, hphase⟩ := ended_mapSources hr
      exact hinv r₀ hrelay d (hphase d ▸ hended)
  | @close d' _ hopen =>
      obtain ⟨r₀, hrelay, hphase⟩ := ended_mapSources hr
      have hclosed := hinv r₀ hrelay d (hphase d ▸ hended)
      show Function.update live.closed d' true d = true
      rcases eq_or_ne d d' with rfl | hne
      · exact Function.update_self _ _ _
      · exact (Function.update_of_ne hne _ _).trans hclosed
  | @act a t hready hstep =>
      obtain rfl : t = .relaying r := hr
      generalize hbefore : live.tunnel = before at hstep
      generalize hafter : Tunnel.relaying r = after at hstep
      cases Tunnel.moves_of_step hstep with
      | relayed hrelay =>
          obtain rfl := Tunnel.relaying.inj hafter
          have hclosed := closed_of_ended hinv hbefore hready hrelay hended
          exact hclosed
      | head _ => exact absurd hended (not_ended_afterGreeting hafter.symm d)
      | up _ => exact absurd hended (not_ended_afterGreeting hafter.symm d)
      | down _ => exact absurd hended (not_ended_afterGreeting hafter.symm d)
      | _ => cases hafter

theorem sawEnd_run
    (h : (machine idleTimeout).run (start clientPrefetched client upstream now) actions =
      some live') : live'.SawEnd := by
  have hstart : (start clientPrefetched client upstream now).SawEnd := by
    intro r hr
    simp only [start, Tunnel.start, reduceCtorEq] at hr
  exact Machine.run_invariant (fun hinv hstep => sawEnd_step hinv hstep) hstart h

/-- Both peers have ended their streams, and without a failure. -/
def Done (live : Live) : Prop :=
  ∀ d, live.closed d = true ∧ (live.tunnel.pipe d).source.ending = none

end Live

open Live

/-- **Live tunnels are transparent.**  Let the two peers send what they like, when
they like, also in answer to what they get.  At every moment the upstream has a
left factor of what has arrived from the client, and the client a left factor of
the established head and what has arrived from the upstream.  The tunnel returns
successfully only when both peers have ended their streams, and then everything
is delivered. -/
theorem live_transparent {idleTimeout : Option Nat} {clientPrefetched : Bytes} {client : Incoming}
    {upstream : BufferedStream} {now : Nat} {actions : List LiveAction} {live : Live}
    (h : (Live.machine idleTimeout).run (Live.start clientPrefetched client upstream now) actions =
      some live) :
    let arrived := Live.arrived clientPrefetched client upstream actions
    (live.tunnel.pipe .up).sink <+: arrived .up ∧
      live.tunnel.clientReceived <+: establishedHead ++ arrived .down ∧
      ((∃ counts, live.tunnel.result = some (.ok counts)) →
        live.Done ∧ (live.tunnel.pipe .up).sink = arrived .up ∧
          live.tunnel.clientReceived = establishedHead ++ arrived .down) := by
  intro arrived
  have hinv := inv_of_run h
  refine ⟨hinv.sinks.1 .up, hinv.received, ?_⟩
  rintro ⟨counts, hcounts⟩
  obtain ⟨r, hrelay, hjoined, hending, hdelivered, hreceived⟩ := hinv.delivered hcounts
  have hsaw := sawEnd_run h r hrelay
  exact ⟨fun d => ⟨hsaw d (by simp [hjoined d, Phase.ended]), hending d⟩, hdelivered .up, hreceived⟩

/-! A client which sends one byte, and an upstream which answers with another. -/

private theorem ping_ne_nil : ([1] : Bytes) ≠ [] := by decide

private theorem pong_ne_nil : ([2] : Bytes) ≠ [] := by decide

private def pingStart : Live := Live.start [] ⟨[], none⟩ (BufferedStream.new ⟨[], none⟩) 0

private def pingActions : List LiveAction :=
  [.act (.write 39), .arrive .up ⟨[1], ping_ne_nil⟩]

private def pongActions : List LiveAction :=
  pingActions ++
    [.act (.relay (.pump .up .read)), .act (.relay (.pump .up (.write 1))),
      .arrive .down ⟨[2], pong_ne_nil⟩, .act (.relay (.pump .down .read)),
      .act (.relay (.pump .up .stamp)), .act (.relay (.pump .down (.write 1))), .close .up none,
      .act (.relay (.pump .up .read)), .act (.relay (.pump .down .stamp)),
      .act (.relay (.pump .up (.shutdown (.ok ())))), .close .down none,
      .act (.relay (.pump .down .read)), .act (.relay (.pump .down (.shutdown (.ok ()))))]

/-- The tunnel returned after both had ended. -/
theorem live_transparent_sample : ∃ live,
    (Live.machine none).run pingStart pongActions = some live ∧ live.Done ∧
      live.tunnel.clientReceived = establishedHead ++ [2] := by
  have hrun : ((Live.machine none).run pingStart pongActions).map (fun live => live.tunnel.result) =
      some (some (.ok (1, 1))) := by
    decide +kernel
  obtain ⟨live, hrun, hresult⟩ := Option.map_eq_some_iff.mp hrun
  obtain ⟨hdone, -, hreceived⟩ := (live_transparent hrun).2.2 ⟨_, hresult⟩
  exact ⟨live, hrun, hdone, hreceived⟩

/-! ## Nothing waits -/

/-- A pump with something to deliver can come nearer to it, without a read that
would have to wait. -/
theorem Pump.Inv.exists_delivery {stream : Bytes} {base : Nat} {p : Pump}
    (hinv : p.Inv stream base) (hsink : p.pipe.sink ≠ stream) :
    ∃ a p', p.Moves a p' ∧ p'.rank < p.rank ∧ p'.phase ≠ .finished ∧
      (a = .read → p.pipe.source.segments ≠ []) := by
  cases hp : p.phase with
  | reading =>
      have hpending := hinv.flushed (by simp [hp])
      rcases p.pipe.source.read_cases bufferSize_pos with ⟨x, xs, source, hread, -⟩ | ⟨hnil, -⟩
      · refine ⟨_, _, .readSome hp hread, ?_, by simp, fun _ hsegments => ?_⟩
        · have hlt := Source.read_cons_unread_lt hread
          simp only [rank, hp, Phase.rank]
          omega
        · have hunread := (Source.read_ok hread).1
          simp [StreamKit.Source.unread, hsegments] at hunread
      · exact absurd ((Pipe.sink_eq_carried hpending hnil).trans hinv.carried) hsink
  | writing read =>
      have hpos : 0 < p.pipe.pending.length := List.length_pos_iff.mpr (hinv.writing read hp)
      refine ⟨_, _, .write hp hpos (Nat.le_refl _), ?_, by simp, by simp⟩
      simp only [rank, hp, Phase.rank, Pipe.push_source, if_true]
      omega
  | stamping read =>
      refine ⟨_, _, .stamp hp, ?_, by simp, by simp⟩
      simp only [rank, hp, Phase.rank]
      omega
  | closing => exact absurd (hinv.delivered (by simp [hp, Phase.ended])) hsink
  | finished => exact absurd (hinv.delivered (by simp [hp, Phase.ended])) hsink

/-- How many of the opening writes are to come. -/
def Stage.rank : Stage → Nat
  | .greeting _ => 3
  | .toUpstream => 2
  | .toClient => 1

namespace Tunnel

/-- The distance of a tunnel from the end of both streams. -/
def distance : Tunnel → Nat
  | opening stage _ up down _ =>
      stage.rank + 4 + 3 * (up.source.unread.length + down.source.unread.length)
  | relaying r => r.rank
  | failed _ _ _ _ => 0

theorem distance_afterGreeting (idleTimeout : Option Nat) (up down : Pipe UInt8 IoError)
    (now : Nat) : (afterGreeting idleTimeout up down now).distance ≤
      (if up.pending ≠ [] then 2 else if down.pending ≠ [] then 1 else 0) + 4 +
        3 * (up.source.unread.length + down.source.unread.length) := by
  unfold afterGreeting
  split
  · exact Nat.le_refl _
  · split
    · exact Nat.le_refl _
    · simp only [distance, RelayState.rank, RelayState.start, RelayState.pump, Pump.rank,
        Pump.start, Phase.rank]
      omega

theorem result_afterGreeting (idleTimeout : Option Nat) (up down : Pipe UInt8 IoError)
    (now : Nat) : (afterGreeting idleTimeout up down now).result = none := by
  unfold afterGreeting
  split
  · rfl
  · split <;> rfl

/-- The next of the opening writes. -/
theorem exists_opening_step (idleTimeout : Option Nat) {stage : Stage} {greeted : Bytes}
    {up down : Pipe UInt8 IoError} {now : Nat} (h : StageInv greeted up down stage) :
    ∃ n t, (opening stage greeted up down now).step idleTimeout (.write n) = some t ∧
      t.distance < (opening stage greeted up down now).distance ∧ t.result = none := by
  cases stage with
  | greeting rest =>
      obtain ⟨-, hne, -, -⟩ := h
      have hpos := List.length_pos_iff.mpr hne
      refine ⟨rest.length, afterGreeting idleTimeout up down now, by simp [step, hpos], ?_,
        result_afterGreeting _ _ _ _⟩
      refine Nat.lt_of_le_of_lt (distance_afterGreeting idleTimeout up down now) ?_
      simp only [distance, Stage.rank]
      split_ifs <;> omega
  | toUpstream =>
      obtain ⟨-, hne, -⟩ := h
      have hpos := List.length_pos_iff.mpr hne
      refine ⟨up.pending.length, afterGreeting idleTimeout (up.push up.pending.length) down now,
        by simp [step, hpos], ?_, result_afterGreeting _ _ _ _⟩
      refine Nat.lt_of_le_of_lt
        (distance_afterGreeting idleTimeout (up.push up.pending.length) down now) ?_
      simp only [Pipe.push_pending, List.drop_length, ne_eq, not_true_eq_false, if_false,
        Pipe.push_source, distance, Stage.rank]
      split_ifs <;> omega
  | toClient =>
      obtain ⟨-, hup, hne⟩ := h
      have hpos := List.length_pos_iff.mpr hne
      refine ⟨down.pending.length, afterGreeting idleTimeout up (down.push down.pending.length) now,
        by simp [step, hpos], ?_, result_afterGreeting _ _ _ _⟩
      refine Nat.lt_of_le_of_lt
        (distance_afterGreeting idleTimeout up (down.push down.pending.length) now) ?_
      simp only [Pipe.push_pending, List.drop_length, ne_eq, not_true_eq_false, if_false, hup,
        Pipe.push_source, distance, Stage.rank]
      omega

end Tunnel

namespace Live

variable {idleTimeout : Option Nat} {live : Live}

theorem step_act {a : TunnelAction} {t : Tunnel} (hready : live.blocked a = false)
    (h : live.tunnel.step idleTimeout a = some t) :
    live.step idleTimeout (.act a) = some { live with tunnel := t } := by
  simp [step, hready, h]

/-- A live tunnel which has not delivered everything has a step of its own which
brings it nearer to that. -/
theorem exists_delivery {stream ahead : Direction → Bytes}
    (hinv : Tunnel.Inv stream ahead live.tunnel) (hresult : live.tunnel.result = none)
    (hmissing : ¬ ((live.tunnel.pipe .up).sink = stream .up ∧
      live.tunnel.clientReceived = establishedHead ++ stream .down)) :
    ∃ a t, live.step idleTimeout (.act a) = some { live with tunnel := t } ∧
      t.distance < live.tunnel.distance ∧ t.result = none := by
  rcases live with ⟨t, closed⟩
  cases hinv with
  | opening _ _ _ _ hstage =>
      obtain ⟨n, t, hstep, hlt, hnone⟩ := Tunnel.exists_opening_step idleTimeout hstage
      exact ⟨.write n, t, step_act rfl hstep, hlt, hnone⟩
  | @relaying r hrelay =>
      -- one of the two pumps has something to deliver
      obtain ⟨d, hd⟩ : ∃ d, (r.pump d).pipe.sink ≠ stream d := by
        by_contra hall
        push Not at hall
        refine hmissing ⟨hall .up, ?_⟩
        show establishedHead ++ (r.pump .down).pipe.sink = _
        rw [hall .down]
      obtain ⟨a, p, hmove, hrank, hphase, hread⟩ := (hrelay.pumps d).exists_delivery hd
      have hstep : (Tunnel.relaying r).step idleTimeout (.relay (.pump d a)) =
          some (.relaying (r.advance d a p)) := by
        show (r.step (.pump d a)).map Tunnel.relaying = _
        rw [RelayState.step_of_pump_moves hresult hmove]
        rfl
      refine ⟨.relay (.pump d a), _, step_act ?_ hstep, ?_, ?_⟩
      · cases a with
        | read => simp [blocked, Tunnel.pipe, hread rfl]
        | _ => rfl
      · show (r.advance d a p).rank < r.rank
        rw [RelayState.rank_eq _ d, RelayState.pump_advance, RelayState.pump_other_advance,
          RelayState.rank_eq r d]
        omega
      · rcases RelayState.result_advance hresult d a p with ⟨hjoined, -⟩ | ⟨-, hnone⟩
        · have hfinished := hjoined d
          rw [RelayState.pump_advance] at hfinished
          exact absurd hfinished hphase
        · exact hnone
  | failed _ _ _ _ => cases hresult

/-- When both streams have ended, no step has to wait. -/
theorem run_of_closed {actions : List TunnelAction} {t t' : Tunnel} {closed : Direction → Bool}
    (hclosed : ∀ d, closed d = true)
    (h : (Tunnel.machine idleTimeout).run t actions = some t') :
    (machine idleTimeout).run ⟨t, closed⟩ (actions.map .act) = some ⟨t', closed⟩ := by
  induction actions generalizing t with
  | nil =>
      obtain rfl := Option.some.inj h
      rfl
  | cons a rest ih =>
      obtain ⟨t₁, hstep, hrest⟩ := Option.bind_eq_some_iff.mp h
      have hready : blocked ⟨t, closed⟩ a = false := by
        unfold blocked
        split
        · simp [hclosed]
        · rfl
      have hlive : (machine idleTimeout).step ⟨t, closed⟩ (.act a) = some ⟨t₁, closed⟩ :=
        step_act hready hstep
      rw [List.map_cons, Machine.run_cons_of_step hlive]
      exact ih hrest

/-- Everything that has arrived can be delivered before anything else arrives. -/
theorem can_deliver {stream ahead : Direction → Bytes}
    (hinv : Tunnel.Inv stream ahead live.tunnel) (hresult : live.tunnel.result = none) :
    ∃ actions live', (machine idleTimeout).run live actions = some live' ∧
      (∀ a ∈ actions, ∃ own, a = .act own) ∧ (live'.tunnel.pipe .up).sink = stream .up ∧
      live'.tunnel.clientReceived = establishedHead ++ stream .down := by
  have hlower : ∀ {live : Live},
      (Tunnel.Inv stream ahead live.tunnel ∧ live.tunnel.result = none) →
      ¬ ((live.tunnel.pipe .up).sink = stream .up ∧
        live.tunnel.clientReceived = establishedHead ++ stream .down) →
      ∃ actions live', (machine idleTimeout).run live actions = some live' ∧
        (∀ a ∈ actions, ∃ own, a = .act own) ∧
        (Tunnel.Inv stream ahead live'.tunnel ∧ live'.tunnel.result = none) ∧
        live'.tunnel.distance < live.tunnel.distance := by
    rintro live ⟨hinv, hresult⟩ hmissing
    obtain ⟨a, t, hstep, hlt, hnone⟩ := exists_delivery hinv hresult hmissing
    have htunnel : live.tunnel.step idleTimeout a = some t := by
      cases moves_of_step hstep with
      | act _ htunnel => exact htunnel
    exact ⟨[.act a], _, Machine.run_cons_of_step hstep [],
      fun a' hmem => ⟨a, List.mem_singleton.mp hmem⟩, ⟨hinv.step htunnel, hnone⟩, hlt⟩
  obtain ⟨actions, live', hrun, hactions, -, hup, hdown⟩ :=
    Machine.exists_run hlower ⟨hinv, hresult⟩
  exact ⟨actions, live', hrun, hactions, hup, hdown⟩

end Live

/-- **No byte waits for a later one.**  Whatever the peers have done, a tunnel
which has not returned can by its own steps deliver everything that has arrived,
also while both streams go on; and when both have ended cleanly, it can return
successfully. -/
theorem live_prompt {idleTimeout : Option Nat} {clientPrefetched : Bytes} {client : Incoming}
    {upstream : BufferedStream} {now : Nat} {actions : List LiveAction} {live : Live}
    (h : (Live.machine idleTimeout).run (Live.start clientPrefetched client upstream now) actions =
      some live)
    (hresult : live.tunnel.result = none) :
    let arrived := Live.arrived clientPrefetched client upstream actions
    (∃ more live', (Live.machine idleTimeout).run live more = some live' ∧
      (∀ a ∈ more, ∃ own, a = .act own) ∧ (live'.tunnel.pipe .up).sink = arrived .up ∧
      live'.tunnel.clientReceived = establishedHead ++ arrived .down) ∧
    (live.Done → ∃ more live' counts, (Live.machine idleTimeout).run live more = some live' ∧
      (∀ a ∈ more, ∃ own, a = .act own) ∧ live'.tunnel.result = some (.ok counts)) := by
  intro arrived
  have hinv := inv_of_run h
  refine ⟨can_deliver hinv hresult, fun hdone => ?_⟩
  obtain ⟨more, t, counts, hrun, hok⟩ := Tunnel.can_complete hinv (fun d => (hdone d).2) hresult
  refine ⟨more.map .act, ⟨t, live.closed⟩, counts, run_of_closed (fun d => (hdone d).1) hrun, ?_,
    hok⟩
  intro a hmem
  obtain ⟨own, -, rfl⟩ := List.mem_map.mp hmem
  exact ⟨own, rfl⟩

/-- The first byte can be delivered before the answer is there. -/
theorem live_prompt_sample : ∃ live more live',
    (Live.machine none).run pingStart pingActions = some live ∧
      (Live.machine none).run live more = some live' ∧ (live'.tunnel.pipe .up).sink = [1] := by
  have hrun : ((Live.machine none).run pingStart pingActions).map (fun live => live.tunnel.result) =
      some none := by
    decide +kernel
  obtain ⟨live, hrun, hresult⟩ := Option.map_eq_some_iff.mp hrun
  obtain ⟨⟨more, live', hmore, -, hup, -⟩, -⟩ := live_prompt hrun hresult
  exact ⟨live, more, live', hrun, hmore, hup⟩

end Relay
end Fastpx
