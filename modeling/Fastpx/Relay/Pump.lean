import Fastpx.StreamKit.Machine
import Fastpx.StreamKit.Pipe
import Fastpx.Http1.Stream

/-!
# The relay

`relay_bidirectional` of `relay.rs` as a machine.  Its actions are the moments
at which the source can be interrupted: a read, one partial write of a
`write_all`, the bookkeeping after it, the shutdown of a writer, and the
wake-ups of the idle watchdog, with the clock moving in between.  Every list of
actions is an interleaving of the two pumps and the watchdog.

Errors are chosen by the environment: a writer may fail or accept fewer bytes
than offered at any time, and a reader fails where its source says so.
-/

namespace Fastpx
namespace Relay

open StreamKit Http1

/-! ## One direction -/

/-- Where a pump stands in its loop. -/
inductive Phase where
  | reading
  /-- in `write_all` for the last read of this many bytes -/
  | writing (read : Nat)
  /-- `write_all` is done; the counter and the activity stamp come next -/
  | stamping (read : Nat)
  /-- the reader is at its end; in `shutdown` -/
  | closing
  | finished
  deriving DecidableEq, Repr

/-- One pump: the bytes it copies and its local variables. -/
structure Pump where
  pipe : Pipe UInt8 IoError
  phase : Phase
  transferred : UInt64
  deriving DecidableEq

/-- The size of a relay buffer. -/
def bufferSize : Nat := 64 * 1024

/-- What can happen to a pump. -/
inductive PumpAction where
  | read
  /-- the writer accepts this many bytes -/
  | write (accepted : Nat)
  | writeError (error : IoError)
  | stamp
  | shutdown (outcome : Except IoError Unit)
  deriving DecidableEq

/-- A pump before its first read. -/
def Pump.start (pipe : Pipe UInt8 IoError) : Pump := ⟨pipe, .reading, 0⟩

/-- One action of a pump; the outcome is the pump afterwards, or the error with
which it returns. -/
def Pump.step (p : Pump) (action : PumpAction) : Option (Except IoError Pump) :=
  match p.phase, action with
  | .reading, .read =>
      match p.pipe.source.read bufferSize with
      | (.error e, _) => some (.error e)
      -- a read of no bytes is the end of the stream: `shutdown` comes next
      | (.ok [], source) =>
          some (.ok { p with pipe := { p.pipe with source := source }, phase := .closing })
      | (.ok (byte :: bytes), source) =>
          some (.ok { p with
            pipe := { p.pipe with source := source, pending := byte :: bytes }
            phase := .writing (bytes.length + 1) })
  | .writing read, .write accepted =>
      if 0 < accepted ∧ accepted ≤ p.pipe.pending.length then
        some (.ok { p with
          pipe := p.pipe.push accepted
          phase := if accepted = p.pipe.pending.length then .stamping read else .writing read })
      else none
  | .writing _, .writeError e => some (.error e)
  | .stamping read, .stamp =>
      some (.ok { p with transferred := p.transferred + UInt64.ofNat read, phase := .reading })
  | .closing, .shutdown (.ok ()) => some (.ok { p with phase := .finished })
  | .closing, .shutdown (.error e) => some (.error e)
  | _, _ => none

/-! ## Both directions and the watchdog -/

/-- The two directions: client to upstream, and back. -/
inductive Direction where
  | up
  | down
  deriving DecidableEq, Repr

def Direction.other : Direction → Direction
  | .up => .down
  | .down => .up

/-- A value for each direction. -/
def Direction.both {α : Type} (up down : α) : Direction → α
  | .up => up
  | .down => down

@[simp] theorem Direction.both_up {α : Type} (up down : α) : both up down .up = up := rfl

@[simp] theorem Direction.both_down {α : Type} (up down : α) : both up down .down = down := rfl

/-- The watchdog: its deadline, and whether the activity channel holds a value
it has not seen. -/
structure Watchdog where
  timeout : Nat
  deadline : Nat
  unseen : Bool
  deriving DecidableEq, Repr

/-- The error of an idle tunnel. -/
def idleError : IoError := ⟨.timedOut, "tunnel idle timeout elapsed".toList⟩

/-- The state of `relay_bidirectional`.  Times are in nanoseconds; `activity`
is the value of the watch channel. -/
structure RelayState where
  up : Pump
  down : Pump
  now : Nat
  activity : Nat
  watchdog : Option Watchdog
  result : Option (Except IoError (UInt64 × UInt64))
  deriving DecidableEq

/-- What can happen to a relay. -/
inductive Action where
  | pump (direction : Direction) (action : PumpAction)
  | tick (elapsed : Nat)
  /-- the watchdog sees that the activity channel changed, or that it was closed -/
  | changed
  /-- the watchdog's sleep is over -/
  | wake
  deriving DecidableEq

/-- The relay as it starts at time `now`. -/
def RelayState.start (up down : Pipe UInt8 IoError) (idleTimeout : Option Nat) (now : Nat) :
    RelayState where
  up := Pump.start up
  down := Pump.start down
  now := now
  activity := now
  watchdog := idleTimeout.map fun timeout => ⟨timeout, now + timeout, false⟩
  result := none

namespace RelayState

def pump (s : RelayState) : Direction → Pump
  | .up => s.up
  | .down => s.down

def setPump (s : RelayState) (direction : Direction) (p : Pump) : RelayState :=
  match direction with
  | .up => { s with up := p }
  | .down => { s with down := p }

/-- `activity.send_replace(Instant::now())`. -/
def touch (s : RelayState) : RelayState :=
  { s with
    activity := s.now
    watchdog := s.watchdog.map fun w => { w with unseen := true } }

/-- `try_join!` returns in the poll in which the second pump returns. -/
def settle (s : RelayState) : RelayState :=
  if s.up.phase = .finished ∧ s.down.phase = .finished then
    { s with result := some (.ok (s.up.transferred, s.down.transferred)) }
  else s

/-- The watchdog computes its deadline anew. -/
def rearm (s : RelayState) (w : Watchdog) : RelayState :=
  { s with watchdog := some { w with deadline := s.activity + w.timeout, unseen := false } }

/-- One action of the relay.  Nothing happens after it returned. -/
def step (s : RelayState) (action : Action) : Option RelayState :=
  if s.result.isSome then none
  else
    match action with
    | .pump direction a =>
        match (s.pump direction).step a with
        | none => none
        | some (.error e) => some { s with result := some (.error e) }
        | some (.ok p) =>
            -- only a completed `write_all` is activity; a read alone does not move the deadline
            let s := s.setPump direction p
            some (if a = .stamp then s.touch else s).settle
    | .tick elapsed => some { s with now := s.now + elapsed }
    | .changed =>
        match s.watchdog with
        | none => none
        | some w =>
            if w.unseen then some (s.rearm w)
            -- the wait for a change fails when both senders are gone, and the watchdog returns
            else if s.up.phase = .finished ∧ s.down.phase = .finished then
              some { s with result := some (.error idleError) }
            else none
    | .wake =>
        match s.watchdog with
        | none => none
        | some w =>
            if w.deadline ≤ s.now then
              -- `sleep_until` is over, but there may have been activity since the deadline was set
              if s.activity + w.timeout ≤ s.now then
                some { s with result := some (.error idleError) }
              else some (s.rearm w)
            else none

/-- The relay as a machine. -/
def machine : Machine RelayState Action := ⟨step⟩

end RelayState

/-! ## The tunnel -/

/-- The head with which the proxy answers a client whose tunnel is open. -/
def establishedHead : Bytes := utf8 "HTTP/1.1 200 Connection Established\r\n\r\n".toList

/-- What `handle_client` writes before it starts the relay. -/
inductive Stage where
  /-- the response head; this much is not yet written -/
  | greeting (rest : Bytes)
  /-- the bytes which were read from the client together with its request -/
  | toUpstream
  /-- the bytes which were read from the upstream together with its response -/
  | toClient
  deriving DecidableEq, Repr

/-- The part of `handle_client` after the tunnel is established.  The bytes read
ahead are pending in the pipes from the start. -/
inductive Tunnel where
  | opening (stage : Stage) (greeted : Bytes) (up down : Pipe UInt8 IoError) (now : Nat)
  | relaying (relay : RelayState)
  | failed (error : IoError) (greeted : Bytes) (up down : Pipe UInt8 IoError)
  deriving DecidableEq

/-- What can happen to a tunnel: a partial write, a failed write or the passing
of time before the relay starts, and the relay's own actions after it. -/
inductive TunnelAction where
  | write (accepted : Nat)
  | writeError (error : IoError)
  | tick (elapsed : Nat)
  | relay (action : Action)
  deriving DecidableEq

namespace Tunnel

/-- The next write after the head, or the relay when nothing was read ahead. -/
def afterGreeting (idleTimeout : Option Nat) (up down : Pipe UInt8 IoError) (now : Nat) : Tunnel :=
  if up.pending ≠ [] then opening .toUpstream establishedHead up down now
  else if down.pending ≠ [] then opening .toClient establishedHead up down now
  else relaying (RelayState.start up down idleTimeout now)

/-- The tunnel of a client and an upstream connection with the bytes that were
read ahead on each. -/
def start (clientPrefetched : Bytes) (client : Incoming) (upstream : BufferedStream)
    (now : Nat) : Tunnel :=
  let (upstream, upstreamPrefetched) := upstream.intoParts
  opening (.greeting establishedHead) [] ⟨client, clientPrefetched, []⟩
    ⟨upstream, upstreamPrefetched, []⟩ now

/-- One action of the tunnel. -/
def step (idleTimeout : Option Nat) (t : Tunnel) (action : TunnelAction) : Option Tunnel :=
  match t, action with
  | opening stage greeted up down now, .tick elapsed =>
      some (opening stage greeted up down (now + elapsed))
  | opening _ greeted up down _, .writeError e => some (failed e greeted up down)
  | opening (.greeting rest) greeted up down now, .write accepted =>
      if 0 < accepted ∧ accepted ≤ rest.length then
        if accepted = rest.length then some (afterGreeting idleTimeout up down now)
        else some (opening (.greeting (rest.drop accepted)) (greeted ++ rest.take accepted)
          up down now)
      else none
  | opening .toUpstream greeted up down now, .write accepted =>
      if 0 < accepted ∧ accepted ≤ up.pending.length then
        if accepted = up.pending.length then
          some (afterGreeting idleTimeout (up.push accepted) down now)
        else some (opening .toUpstream greeted (up.push accepted) down now)
      else none
  | opening .toClient greeted up down now, .write accepted =>
      if 0 < accepted ∧ accepted ≤ down.pending.length then
        if accepted = down.pending.length then
          some (afterGreeting idleTimeout up (down.push accepted) now)
        else some (opening .toClient greeted up (down.push accepted) now)
      else none
  -- from here on the relay has both sockets, and no other writes happen
  | relaying r, .relay a => (r.step a).map relaying
  | _, _ => none

/-- The tunnel machine. -/
def machine (idleTimeout : Option Nat) : Machine Tunnel TunnelAction := ⟨step idleTimeout⟩

/-- The copy in one direction. -/
def pipe : Tunnel → Direction → Pipe UInt8 IoError
  | opening _ _ up _ _, .up => up
  | opening _ _ _ down _, .down => down
  | relaying r, direction => (r.pump direction).pipe
  | failed _ _ up _, .up => up
  | failed _ _ _ down, .down => down

/-- The part of the response head which the client has. -/
def greeted : Tunnel → Bytes
  | opening _ greeted _ _ _ => greeted
  | relaying _ => establishedHead
  | failed _ greeted _ _ => greeted

/-- How the tunnel returned, if it did. -/
def result : Tunnel → Option (Except IoError (UInt64 × UInt64))
  | opening _ _ _ _ _ => none
  | relaying r => r.result
  | failed e _ _ _ => some (.error e)

/-- All bytes the client has received. -/
def clientReceived (t : Tunnel) : Bytes :=
  t.greeted ++ (t.pipe .down).sink

end Tunnel

end Relay
end Fastpx
