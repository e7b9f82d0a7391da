import Fastpx.Relay.Transparency
import Fastpx.Server.Challenge

/-!
# Tunnels can be completed

Progress of the relay: while a reader ends cleanly, its pump always has a
transition which brings it nearer to its return, whatever the other pump has
done.  The distance is `Pump.rank`.  Together with the invariants of the tunnel
this gives the contract of the tunnel part of `handle_client`,
`tunnel_transparent`.
-/

namespace Fastpx
namespace Relay

open StreamKit Http1 Server

/-! ## Progress of one pump -/

/-- How many moves of a loop iteration are still to come. -/
def Phase.rank : Phase → Nat
  | .finished => 0
  | .closing => 1
  | .reading => 2
  | .stamping _ => 3
  | .writing _ => 4

/-- The distance of a pump from its return. -/
def Pump.rank (p : Pump) : Nat := 3 * p.pipe.source.unread.length + p.phase.rank

theorem Pump.Moves.ending_eq {p p' : Pump} {a : PumpAction} (h : p.Moves a p') :
    p'.pipe.source.ending = p.pipe.source.ending := by
  cases h with
  | readEnd _ hread => exact (Source.read_ok hread).2
  | readSome _ hread => exact (Source.read_ok hread).2
  | write => rfl
  | stamp => rfl
  | shutdown => rfl

/-- A pump which has not returned can move nearer to its return. -/
theorem Pump.Inv.exists_move {stream : Bytes} {base : Nat} {p : Pump} (hinv : p.Inv stream base)
    (hending : p.pipe.source.ending = none) (hphase : p.phase ≠ .finished) :
    ∃ a p', p.Moves a p' ∧ p'.rank < p.rank := by
  cases hp : p.phase with
  | reading =>
      rcases p.pipe.source.read_cases bufferSize_pos with ⟨x, xs, source, hread, -⟩ | ⟨-, hread⟩
      · refine ⟨_, _, Moves.readSome hp hread, ?_⟩
        have hlt := Source.read_cons_unread_lt hread
        simp only [rank, hp, Phase.rank]
        omega
      · have hnil : p.pipe.source.read bufferSize = (.ok [], p.pipe.source) := by
          rw [hread, Source.atEnd, hending]
        refine ⟨_, _, Moves.readEnd hp hnil, ?_⟩
        simp only [rank, hp, Phase.rank]
        omega
  | writing read =>
      have hpos : 0 < p.pipe.pending.length := List.length_pos_iff.mpr (hinv.writing read hp)
      refine ⟨_, _, Moves.write hp hpos (Nat.le_refl _), ?_⟩
      simp only [rank, hp, Phase.rank, Pipe.push_source, if_true]
      omega
  | stamping read =>
      refine ⟨_, _, Moves.stamp hp, ?_⟩
      simp only [rank, hp, Phase.rank]
      omega
  | closing =>
      refine ⟨_, _, Moves.shutdown hp, ?_⟩
      simp only [rank, hp, Phase.rank]
      omega
  | finished => exact absurd hp hphase

/-! ## Progress of the relay -/

namespace RelayState

/-- A step of one direction does not touch the other. -/
theorem step_other {s s' : RelayState} {d : Direction} {a : PumpAction}
    (h : s.step (.pump d a) = some s') : s'.pump d.other = s.pump d.other := by
  obtain ⟨-, hmoves⟩ := moves_of_step h
  cases hmoves with
  | pumped _ => exact pump_other_advance s d a _
  | pumpFailed _ => cases d <;> rfl

/-- The distance of both pumps from their return. -/
def rank (s : RelayState) : Nat := (s.pump .up).rank + (s.pump .down).rank

theorem rank_eq (s : RelayState) (d : Direction) :
    s.rank = (s.pump d).rank + (s.pump d.other).rank := by
  cases d
  · rfl
  · exact Nat.add_comm _ _

/-- A relay whose readers end cleanly can be run to its successful end from
every state in which it has not returned. -/
theorem Inv.can_complete {stream : Direction → Bytes} {base : Direction → Nat} {s : RelayState}
    (hinv : s.Inv stream base) (hending : ∀ d, (s.pump d).pipe.source.ending = none)
    (hresult : s.result = none) :
    ∃ actions s' counts, machine.run s actions = some s' ∧ s'.result = some (.ok counts) := by
  induction hn : s.rank using Nat.strong_induction_on generalizing s with
  | _ n ih =>
      -- some pump has not returned, because the relay has not
      obtain ⟨d, hd⟩ := not_forall.mp (hinv.running hresult)
      obtain ⟨a, p, hmove, hrank⟩ := (hinv.pumps d).exists_move (hending d) hd
      have hstep : machine.step s (.pump d a) = some (s.advance d a p) :=
        step_of_pump_moves hresult hmove
      rcases result_advance hresult d a p with ⟨-, hok⟩ | ⟨-, hnone⟩
      · exact ⟨[.pump d a], _, _, Machine.run_cons_of_step hstep [], hok⟩
      · have hending' : ∀ d', ((s.advance d a p).pump d').pipe.source.ending = none := by
          intro d'
          rcases Direction.eq_or_eq_other d d' with rfl | rfl
          · rw [pump_advance, hmove.ending_eq]
            exact hending d'
          · rw [pump_other_advance]
            exact hending _
        have hlt : (s.advance d a p).rank < n := by
          rw [rank_eq _ d, pump_advance, pump_other_advance, ← hn, rank_eq s d]
          omega
        obtain ⟨actions, s', counts, hrun, hok⟩ := ih _ hlt
          (hinv.step (show s.step (.pump d a) = _ from hstep)) hending' hnone rfl
        refine ⟨.pump d a :: actions, s', counts, ?_, hok⟩
        rw [Machine.run_cons_of_step hstep, hrun]

end RelayState

/-! ## Progress of the tunnel -/

namespace Tunnel

variable {stream ahead : Direction → Bytes} {idleTimeout : Option Nat}

/-- A run of the relay is a run of the tunnel. -/
theorem run_relaying {r r' : RelayState} {actions : List Action}
    (h : RelayState.machine.run r actions = some r') :
    (machine idleTimeout).run (relaying r) (actions.map .relay) = some (relaying r') := by
  induction actions generalizing r with
  | nil =>
      obtain rfl := Option.some.inj h
      rfl
  | cons a rest ih =>
      obtain ⟨r₁, hstep, hrest⟩ := Option.bind_eq_some_iff.mp h
      have hstep' : (machine idleTimeout).step (relaying r) (.relay a) = some (relaying r₁) := by
        show (r.step a).map relaying = _
        rw [show r.step a = some r₁ from hstep]
        rfl
      rw [List.map_cons, Machine.run_cons_of_step hstep', ih hrest]

/-- The readers of both directions end cleanly. -/
def EndsCleanly (t : Tunnel) : Prop := ∀ d, (t.pipe d).source.ending = none

/-- Once the head is out, the bytes read ahead can be written and the relay
started. -/
theorem run_afterGreeting (idleTimeout : Option Nat) (up down : Pipe UInt8 IoError) (now : Nat) :
    ∃ actions r, (machine idleTimeout).run (afterGreeting idleTimeout up down now) actions =
        some (relaying r) ∧ r.result = none ∧
      (r.pump .up).pipe.source = up.source ∧ (r.pump .down).pipe.source = down.source := by
  -- with nothing pending towards the upstream, at most one write is missing
  have hclient : ∀ up : Pipe UInt8 IoError, up.pending = [] → ∃ actions r,
      (machine idleTimeout).run (afterGreeting idleTimeout up down now) actions =
          some (relaying r) ∧ r.result = none ∧
        (r.pump .up).pipe.source = up.source ∧ (r.pump .down).pipe.source = down.source := by
    intro up hup
    by_cases hdown : down.pending = []
    · exact ⟨[], RelayState.start up down idleTimeout now, by simp [afterGreeting, hup, hdown],
        rfl, rfl, rfl⟩
    · have hpos := List.length_pos_iff.mpr hdown
      refine ⟨[.write down.pending.length],
        RelayState.start up (down.push down.pending.length) idleTimeout now, ?_, rfl, rfl, rfl⟩
      have hstep : (machine idleTimeout).step (afterGreeting idleTimeout up down now)
          (.write down.pending.length) =
          some (relaying
            (RelayState.start up (down.push down.pending.length) idleTimeout now)) := by
        simp [machine, step, afterGreeting, hup, hdown, hpos]
      exact Machine.run_cons_of_step hstep []
  by_cases hup : up.pending = []
  · exact hclient up hup
  · have hpos := List.length_pos_iff.mpr hup
    obtain ⟨actions, r, hrun, hrest⟩ := hclient (up.push up.pending.length) (by simp)
    refine ⟨.write up.pending.length :: actions, r, ?_, hrest⟩
    have hstep : (machine idleTimeout).step (afterGreeting idleTimeout up down now)
        (.write up.pending.length) =
        some (afterGreeting idleTimeout (up.push up.pending.length) down now) := by
      simp [machine, step, afterGreeting, hup, hpos]
    rw [Machine.run_cons_of_step hstep, hrun]

/-- The opening writes can be finished. -/
theorem can_relay (idleTimeout : Option Nat) {stage : Stage} {greeted : Bytes}
    {up down : Pipe UInt8 IoError} {now : Nat}
    (hinv : Inv stream ahead (opening stage greeted up down now)) :
    ∃ actions r, (machine idleTimeout).run (opening stage greeted up down now) actions =
        some (relaying r) ∧ r.result = none ∧
      (r.pump .up).pipe.source = up.source ∧ (r.pump .down).pipe.source = down.source := by
  cases hinv with
  | opening _ _ _ _ hstage =>
      cases stage with
      | greeting rest =>
          obtain ⟨-, hne, -, -⟩ := hstage
          have hpos := List.length_pos_iff.mpr hne
          obtain ⟨actions, r, hrun, hrest⟩ := run_afterGreeting idleTimeout up down now
          refine ⟨.write rest.length :: actions, r, ?_, hrest⟩
          have hstep : (machine idleTimeout).step (opening (.greeting rest) greeted up down now)
              (.write rest.length) = some (afterGreeting idleTimeout up down now) := by
            simp [machine, step, hpos]
          rw [Machine.run_cons_of_step hstep, hrun]
      | toUpstream =>
          obtain ⟨rfl, hpending, -⟩ := hstage
          obtain ⟨actions, r, hrun, hrest⟩ := run_afterGreeting idleTimeout up down now
          exact ⟨actions, r, by simpa [afterGreeting, hpending] using hrun, hrest⟩
      | toClient =>
          obtain ⟨rfl, hup, hpending⟩ := hstage
          obtain ⟨actions, r, hrun, hrest⟩ := run_afterGreeting idleTimeout up down now
          exact ⟨actions, r, by simpa [afterGreeting, hup, hpending] using hrun, hrest⟩

/-- What one step preserves, a run preserves. -/
theorem Inv.run {t t' : Tunnel} {actions : List TunnelAction} (hinv : Inv stream ahead t)
    (h : (machine idleTimeout).run t actions = some t') : Inv stream ahead t' :=
  Machine.run_invariant (fun hinv hstep => hinv.step hstep) hinv h

/-- A tunnel which has not returned and whose readers end cleanly can be run to
its successful end. -/
theorem can_complete {t : Tunnel} (hinv : Inv stream ahead t) (hending : t.EndsCleanly)
    (hresult : t.result = none) :
    ∃ actions t' counts, (machine idleTimeout).run t actions = some t' ∧
      t'.result = some (.ok counts) := by
  have hrelay : ∀ r : RelayState, Inv stream ahead (relaying r) →
      (∀ d, (r.pump d).pipe.source.ending = none) → r.result = none →
      ∃ actions t' counts, (machine idleTimeout).run (relaying r) actions = some t' ∧
        t'.result = some (.ok counts) := by
    rintro r (_ | hr | _) hclean hnone
    obtain ⟨actions, r', counts, hrun, hok⟩ := hr.can_complete hclean hnone
    exact ⟨_, relaying r', counts, run_relaying hrun, hok⟩
  cases t with
  | opening stage greeted up down now =>
      obtain ⟨actions, r, hrun, hnone, hup, hdown⟩ := can_relay idleTimeout hinv
      have hclean : ∀ d, (r.pump d).pipe.source.ending = none := by
        rintro (_ | _)
        · exact hup ▸ hending .up
        · exact hdown ▸ hending .down
      obtain ⟨more, t', counts, hmore, hok⟩ := hrelay r (hinv.run hrun) hclean hnone
      exact ⟨_, t', counts, Machine.run_trans hrun hmore, hok⟩
  | relaying r => exact hrelay r hinv hending hresult
  | failed e greeted up down => cases hresult

end Tunnel

/-! ## The contract -/

/-- The upstream side of an established tunnel: a fresh connection to the
destination, or the connection on which the proxy's success was read.  The
first argument is what the upstream sends after the establishment. -/
inductive Established (httparse : Httparse) (maxHeaderBytes : Nat) : Bytes → BufferedStream → Prop
  | direct (incoming : Incoming) :
      Established httparse maxHeaderBytes incoming.unread (BufferedStream.new incoming)
  | accepted {before after : BufferedStream} {head : ResponseHead} {raw later : Bytes}
      (hread : before.readResponseHead httparse maxHeaderBytes = (.ok head, after))
      (hsuccess : isConnectSuccess head = true) (hsplit : before.pending = raw ++ later)
      (hend : findHeaderEnd raw = some raw.length) :
      Established httparse maxHeaderBytes later after

theorem Established.pending_eq {httparse : Httparse} {maxHeaderBytes : Nat} {bytes : Bytes}
    {upstream : BufferedStream} (h : Established httparse maxHeaderBytes bytes upstream) :
    upstream.pending = bytes := by
  cases h with
  | direct incoming => rfl
  | accepted hread _ hsplit hend =>
      obtain ⟨raw', hpending, hend', -, -⟩ := readResponseHead_ok hread
      rw [hsplit] at hpending
      exact (head_unique hpending hend hend').2.symm

/-- A tunnel is transparent: for every client stream with an accepted request
head, every established upstream and every interleaving,

* what either side has received is a left factor of what the other side sent
  after its head, and the client has the proxy's head first;
* a direction is shut down only after everything in it has been written;
* a step of one direction leaves the other alone, and while the tunnel has not
  returned it can still be run to its successful end;
* if it returns successfully, both sides have everything, and the two numbers
  count the bytes which were not read ahead. -/
theorem tunnel_transparent {httparse : Httparse} {maxHeaderBytes : Nat}
    {reader reader' : Incoming} {head : RequestHead}
    {raw clientBytes prefetched upstreamBytes : Bytes} {upstream : BufferedStream}
    (hclient : reader.unread = raw ++ clientBytes) (hraw : findHeaderEnd raw = some raw.length)
    (hrequest : readRequestHead httparse reader maxHeaderBytes =
      (.ok (head, prefetched), reader'))
    (hupstream : Established httparse maxHeaderBytes upstreamBytes upstream)
    {idleTimeout : Option Nat} {now : Nat} {actions : List TunnelAction} {t : Tunnel}
    (hrun : (Tunnel.machine idleTimeout).run (Tunnel.start prefetched reader' upstream now)
      actions = some t) :
    ((t.pipe .up).sink <+: clientBytes ∧ (t.pipe .down).sink <+: upstreamBytes ∧
        t.greeted <+: establishedHead ∧
        ((t.pipe .down).sink ≠ [] → t.greeted = establishedHead)) ∧
      (∀ r d, t = .relaying r → (r.pump d).phase.ended →
        (r.pump d).pipe.pending = [] ∧ (r.pump d).pipe.source.unread = []) ∧
      (∀ r r' d a, t = .relaying r → r.step (.pump d a) = some r' →
        r'.pump d.other = r.pump d.other) ∧
      (t.EndsCleanly → t.result = none →
        ∃ more t' counts, (Tunnel.machine idleTimeout).run t more = some t' ∧
          t'.result = some (.ok counts)) ∧
      (∀ sent received, t.result = some (.ok (sent, received)) →
        (t.pipe .up).sink = clientBytes ∧ (t.pipe .down).sink = upstreamBytes ∧
          sent = UInt64.ofNat reader'.unread.length ∧
          received = UInt64.ofNat upstream.stream.unread.length) := by
  obtain ⟨raw', hunread, hraw', -, -⟩ := readRequestHead_ok hrequest
  rw [hclient] at hunread
  obtain rfl : clientBytes = prefetched ++ reader'.unread := (head_unique hunread hraw hraw').2
  obtain rfl : upstreamBytes = upstream.pending := hupstream.pending_eq.symm
  let stream := Direction.both (prefetched ++ reader'.unread) upstream.pending
  have hinv := (Tunnel.inv_start prefetched reader' upstream now).run hrun
  obtain ⟨hsinks, hgreeted, hfirst⟩ := hinv.sinks
  refine ⟨⟨hsinks .up, hsinks .down, hgreeted, hfirst .down⟩, ?_, ?_, ?_, ?_⟩
  · rintro r d rfl hended
    cases hinv with
    | relaying hrelay =>
        refine ⟨(hrelay.pumps d).flushed fun read hphase => ?_,
          ((hrelay.pumps d).exhausted hended).1⟩
        rw [hphase] at hended
        exact hended
  · rintro r r' d a rfl hstep
    exact RelayState.step_other hstep
  · exact fun hclean hresult => Tunnel.can_complete hinv hclean hresult
  · intro sent received hresult
    cases hinv with
    | opening => cases hresult
    | failed => cases hresult
    | relaying hrelay =>
        obtain ⟨hjoined, rfl, rfl⟩ := hrelay.returned sent received hresult
        have hended : ∀ d, ((Tunnel.relaying _).pipe d).sink = stream d := fun d =>
          (hrelay.pumps d).delivered (by simp [hjoined d, Phase.ended])
        have hcount : ∀ d, _ := fun d => (hrelay.pumps d).transferred_eq (hjoined d)
        refine ⟨hended .up, hended .down, ?_, ?_⟩
        · rw [hcount .up]
          simp
        · rw [hcount .down]
          simp [Buffered.pending]

private def tunnelHead : Bytes := utf8 "CONNECT a:1 HTTP/1.1\r\n\r\n".toList

private def tunnelParser : Httparse :=
  .ofTables [(tunnelHead, .complete 24, ⟨some "CONNECT".toList, some "a:1".toList⟩)] []

/-- The client sends its request with three bytes of data behind it, and later
one byte more. -/
private def tunnelClient : Incoming :=
  ⟨[⟨tunnelHead ++ [1, 2, 3], by decide⟩, ⟨[4], by decide⟩], none⟩

private def tunnelUpstream : Incoming := ⟨[⟨[5, 6], by decide⟩], none⟩

/-- The upstream's two bytes are written one by one while the client's half is
already closed. -/
private def tunnelActions : List TunnelAction :=
  [.write 30, .write 9, .write 3,
    .relay (.pump .up .read), .relay (.pump .down .read), .relay (.pump .up (.write 1)),
    .relay (.pump .down (.write 1)), .relay (.pump .up .stamp), .relay (.pump .up .read),
    .relay (.pump .up (.shutdown (.ok ()))), .relay (.pump .down (.write 1)),
    .relay (.pump .down .stamp), .relay (.pump .down .read),
    .relay (.pump .down (.shutdown (.ok ())))]

/-- A direct tunnel in which both sides send and close. -/
theorem tunnel_transparent_sample :
    ∃ t, (Tunnel.machine (some 60)).run
        (Tunnel.start [1, 2, 3] ⟨[⟨[4], by decide⟩], none⟩ (BufferedStream.new tunnelUpstream) 0)
        tunnelActions = some t ∧
      t.result = some (.ok (1, 2)) ∧
      (t.pipe .up).sink = [1, 2, 3, 4] ∧ (t.pipe .down).sink = [5, 6] := by
  have hrequest : readRequestHead tunnelParser tunnelClient 1024 =
      (.ok (⟨"CONNECT".toList, "a:1".toList⟩, [1, 2, 3]), ⟨[⟨[4], by decide⟩], none⟩) := by
    decide +kernel
  have hclient : tunnelClient.unread = tunnelHead ++ [1, 2, 3, 4] := by decide
  have hraw : findHeaderEnd tunnelHead = some tunnelHead.length := by decide
  have hresult : ((Tunnel.machine (some 60)).run (Tunnel.start [1, 2, 3]
      ⟨[⟨[4], by decide⟩], none⟩ (BufferedStream.new tunnelUpstream) 0) tunnelActions).map
      Tunnel.result = some (some (.ok (1, 2))) := by
    decide
  obtain ⟨t, hrun, ht⟩ := Option.map_eq_some_iff.mp hresult
  have hcontract := tunnel_transparent hclient hraw hrequest (.direct tunnelUpstream) hrun
  obtain ⟨hup, hdown, -, -⟩ := hcontract.2.2.2.2 1 2 ht
  exact ⟨t, hrun, ht, hup, hdown.trans (by decide)⟩

end Relay
end Fastpx
