import Fastpx.StreamKit.Effect
import Fastpx.Server.Challenge
import Fastpx.Server.Request

/-!
# The network as the server sees it

A run of the server is a computation over a `World`: a script of what the name
resolver and the outgoing connections will do, and a log of what the server
did.  The code is deterministic, so for every run against peers which react to
what they receive there is a script that gives the same run; a fact about all
scripts is a fact about all peers.

Outgoing connections are numbered in the order in which they are opened.
-/

namespace Fastpx
namespace Server

open StreamKit Config Http1

/-- What happens in a run. -/
inductive Event where
  /-- the destination is looked up -/
  | lookup (destination : Endpoint)
  /-- a direct connection to one of these addresses is attempted -/
  | dialDirect (addresses : List SocketAddr)
  /-- a connection to the upstream proxy is attempted -/
  | dialUpstream (upstream : Endpoint)
  | opened (connection : Nat)
  /-- a `CONNECT` request is about to be written -/
  | request (connection : Nat) (destination : Endpoint) (authorization : Option Text)
  /-- bytes which an outgoing connection accepted -/
  | wrote (connection : Nat) (bytes : Bytes)
  | response (connection : Nat) (head : ResponseHead)
  /-- the body of the last response was consumed -/
  | drained (connection : Nat)
  | create (scheme : AuthScheme) (targetName : Text)
  /-- the security context was given a challenge and returned this -/
  | step (challenge : Option Bytes) (outcome : Except AuthError Bytes)
  /-- bytes which the client connection accepted -/
  | answered (bytes : Bytes)
  deriving DecidableEq

/-- Something which happens after a while, or never. -/
abbrev Timed (α : Type) := Option (Nat × α)

/-- `tokio::time::timeout`: the outcome if it is there in time. -/
def withTimeout {α : Type} (limit : Nat) : Timed α → Option α
  | some (elapsed, outcome) => if elapsed ≤ limit then some outcome else none
  | none => none

/-- What a `write_all` will do: accept everything, or fail after some bytes. -/
abbrev WriteOutcome := Option (Nat × IoError)

/-- A connected socket: what arrives on it, whether `set_nodelay` fails, and
what its writes will do (they succeed when the script ends). -/
structure Socket where
  incoming : Incoming
  nodelay : Option IoError
  writes : List WriteOutcome
  deriving DecidableEq

/-- The script of the resolver and of the outgoing connections; a connection
attempt beyond the script never completes. -/
structure World where
  lookups : List (Timed (Except IoError (List SocketAddr)))
  dials : List (Timed (Except IoError Socket))
  nextConnection : Nat

/-- An outgoing connection in use. -/
structure Connection where
  id : Nat
  stream : BufferedStream
  writes : List WriteOutcome
  deriving DecidableEq

/-- Write a whole buffer: the remaining script or the error, and the bytes
which were accepted. -/
def writeAll (writes : List WriteOutcome) (bytes : Bytes) :
    Except IoError (List WriteOutcome) × Bytes :=
  match writes with
  | some (accepted, e) :: _ => (.error e, bytes.take accepted)
  | none :: rest => (.ok rest, bytes)
  | [] => (.ok [], bytes)

theorem writeAll_isPrefix (writes : List WriteOutcome) (bytes : Bytes) :
    (writeAll writes bytes).2 <+: bytes := by
  unfold writeAll
  split
  · exact List.take_prefix _ _
  · exact List.prefix_refl _
  · exact List.prefix_refl _

/-- A write which did not fail has sent everything. -/
theorem writeAll_ok {writes rest : List WriteOutcome} {bytes accepted : Bytes}
    (h : writeAll writes bytes = (.ok rest, accepted)) : accepted = bytes := by
  unfold writeAll at h
  split at h
  · cases (Prod.mk.inj h).1
  · exact (Prod.mk.inj h).2.symm
  · exact (Prod.mk.inj h).2.symm

/-- No write fails. -/
def Writable (writes : List WriteOutcome) : Prop := ∀ outcome ∈ writes, outcome = none

theorem writeAll_of_writable {writes : List WriteOutcome} (h : Writable writes) (bytes : Bytes) :
    writeAll writes bytes = (.ok writes.tail, bytes) := by
  cases writes with
  | nil => rfl
  | cons outcome rest =>
      obtain rfl := h outcome List.mem_cons_self
      rfl

/-- The computations of the server. -/
abbrev Run (α : Type) := Effect World Event ProxyError α

/-- The result of the next connection attempt in the script. -/
def nextDial (limit : Nat) : Run (Option (Except IoError (Nat × Socket))) := fun w =>
  match w.dials with
  | [] => (.ok none, w, [])
  | dial :: rest =>
      -- an attempt that is given up has used its entry of the script
      let w := { w with dials := rest }
      match withTimeout limit dial with
      | none => (.ok none, w, [])
      | some (.error e) => (.ok (some (.error e)), w, [])
      | some (.ok socket) =>
          (.ok (some (.ok (w.nextConnection, socket))),
            { w with nextConnection := w.nextConnection + 1 },
            [.opened w.nextConnection])

/-- `TcpStream::connect` under a timeout, then `set_nodelay`; shared by
`connect_direct` and `connect_upstream`. -/
def connect (attempt : Event) (limit : Nat) (timeoutError : ProxyError) : Run Connection := do
  Effect.emit attempt
  let outcome ← nextDial limit
  match outcome with
  | none => Effect.fail timeoutError
  | some (.error e) => Effect.fail (.io e)
  | some (.ok (id, socket)) =>
      match socket.nodelay with
      | some e => Effect.fail (.io e)
      | none => pure ⟨id, BufferedStream.new socket.incoming, socket.writes⟩

/-! ## The numbers of connections -/

/-- The connections which a script of attempts provides within the limit, in the
order in which they are numbered. -/
def provided (limit : Nat) (dials : List (Timed (Except IoError Socket))) : List Socket :=
  dials.filterMap fun dial => (withTimeout limit dial).bind Except.toOption

/-- The connection with the number `c` is made over this socket. -/
def OpenedOn (w : World) (limit c : Nat) (socket : Socket) : Prop :=
  ∃ k, c = w.nextConnection + k ∧ (provided limit w.dials)[k]? = some socket

/-- From `w` the script was followed up to `w'`, and the connections which it
provided on the way were numbered. -/
def Follows (limit : Nat) (w w' : World) : Prop :=
  ∃ used, w.dials = used ++ w'.dials ∧
    w'.nextConnection = w.nextConnection + (provided limit used).length

theorem Follows.refl (limit : Nat) (w : World) : Follows limit w w := ⟨[], rfl, rfl⟩

theorem Follows.trans {limit : Nat} {w w' w'' : World} (h : Follows limit w w')
    (h' : Follows limit w' w'') : Follows limit w w'' := by
  obtain ⟨used, hdials, hnext⟩ := h
  obtain ⟨more, hdials', hnext'⟩ := h'
  refine ⟨used ++ more, by rw [hdials, hdials', List.append_assoc], ?_⟩
  rw [hnext', hnext, provided, provided, provided, List.filterMap_append, List.length_append,
    Nat.add_assoc]

theorem Follows.next_le {limit : Nat} {w w' : World} (h : Follows limit w w') :
    w.nextConnection ≤ w'.nextConnection := by
  obtain ⟨used, -, hnext⟩ := h
  omega

/-- The numbers stay the same while the script is followed. -/
theorem Follows.openedOn {limit c : Nat} {w w' : World} {socket : Socket}
    (h : Follows limit w w') (hsocket : OpenedOn w' limit c socket) :
    OpenedOn w limit c socket := by
  obtain ⟨used, hdials, hnext⟩ := h
  obtain ⟨k, rfl, hk⟩ := hsocket
  refine ⟨(provided limit used).length + k, by omega, ?_⟩
  have hprovided : provided limit w.dials = provided limit used ++ provided limit w'.dials := by
    rw [hdials, provided, List.filterMap_append]
    rfl
  rw [hprovided, List.getElem?_append_right (Nat.le_add_right _ _), Nat.add_sub_cancel_left]
  exact hk

/-- The three ways in which an attempt to connect ends: without a connection,
with a connection which is refused for `set_nodelay`, or with a fresh
connection. -/
inductive ConnectOutcome (limit : Nat) (w : World) (attempt : Event) :
    Except ProxyError Connection × World × List Event → Prop
  | unopened {e : ProxyError} {w' : World} (hfollows : Follows limit w w')
      (hnext : w'.nextConnection = w.nextConnection) :
      ConnectOutcome limit w attempt (.error e, w', [attempt])
  | refused {e : ProxyError} {w' : World} (hfollows : Follows limit w w')
      (hnext : w'.nextConnection = w.nextConnection + 1) :
      ConnectOutcome limit w attempt (.error e, w', [attempt, .opened w.nextConnection])
  | connected {socket : Socket} {w' : World}
      (hsocket : OpenedOn w limit w.nextConnection socket) (hfollows : Follows limit w w')
      (hnext : w'.nextConnection = w.nextConnection + 1) :
      ConnectOutcome limit w attempt
        (.ok ⟨w.nextConnection, BufferedStream.new socket.incoming, socket.writes⟩, w',
          [attempt, .opened w.nextConnection])

theorem connect_outcome (attempt : Event) (limit : Nat) (timeoutError : ProxyError) (w : World) :
    ConnectOutcome limit w attempt (connect attempt limit timeoutError w) := by
  unfold connect
  rw [Effect.bind_of_ok (show Effect.emit attempt w = (.ok (), w, [attempt]) from rfl)]
  -- follow the script of the attempt
  cases hdials : w.dials with
  | nil =>
      rw [Effect.bind_of_ok (show nextDial limit w = (.ok none, w, []) by
        simp [nextDial, hdials])]
      exact .unopened (.refl limit w) rfl
  | cons dial rest =>
      cases htimeout : withTimeout limit dial with
      | none =>
          rw [Effect.bind_of_ok (show nextDial limit w = (.ok none, { w with dials := rest }, [])
            by simp [nextDial, hdials, htimeout])]
          exact .unopened ⟨[dial], hdials, by simp [provided, htimeout, Effect.fail]⟩ rfl
      | some result =>
          cases result with
          | error e =>
              rw [Effect.bind_of_ok (show nextDial limit w =
                (.ok (some (.error e)), { w with dials := rest }, []) by
                  simp [nextDial, hdials, htimeout])]
              exact .unopened
                ⟨[dial], hdials, by simp [provided, htimeout, Except.toOption, Effect.fail]⟩ rfl
          | ok socket =>
              rw [Effect.bind_of_ok (show nextDial limit w =
                (.ok (some (.ok (w.nextConnection, socket))),
                  { w with dials := rest, nextConnection := w.nextConnection + 1 },
                  [.opened w.nextConnection]) by simp [nextDial, hdials, htimeout])]
              have hfollows : Follows limit w
                  { w with dials := rest, nextConnection := w.nextConnection + 1 } :=
                ⟨[dial], hdials, by simp [provided, htimeout, Except.toOption]⟩
              dsimp only
              cases socket.nodelay with
              | some e => exact .refused hfollows rfl
              | none =>
                  refine .connected ⟨0, rfl, ?_⟩ hfollows rfl
                  simp [hdials, provided, htimeout, Except.toOption]

/-- `send_connect_request`. -/
def sendConnectRequest (c : Connection) (destination : Endpoint) (authorization : Option Text) :
    Run Connection := do
  Effect.emit (.request c.id destination authorization)
  let (outcome, accepted) := writeAll c.writes (utf8 (connectRequest destination authorization))
  Effect.emit (.wrote c.id accepted)
  match outcome with
  | .error e => Effect.fail (.io e)
  | .ok writes => pure { c with writes := writes }

/-- `read_response_head` on a connection. -/
def readResponse (httparse : Httparse) (maxHeaderBytes : Nat) (c : Connection) :
    Run (ResponseHead × Connection) :=
  match c.stream.readResponseHead httparse maxHeaderBytes with
  | (.error e, _) => Effect.fail (.http e)
  | (.ok head, stream) => do
      Effect.emit (.response c.id head)
      pure (head, { c with stream := stream })

/-- `drain_response_body` on a connection. -/
def drainResponse (response : ResponseHead) (c : Connection) : Run Connection :=
  match c.stream.drainResponseBody response with
  | (.error e, _) => Effect.fail (.http e)
  | (.ok (), stream) => do
      Effect.emit (.drained c.id)
      pure { c with stream := stream }

/-- The relation composes, and the events by which a handshake goes on with a
connection may happen at any time. -/
structure Allows (R : World → List Event → World → Prop) : Prop extends Effect.Composes R where
  request : ∀ c destination value w, R w [.request c destination value] w
  wrote : ∀ c bytes w, R w [.wrote c bytes] w
  response : ∀ c response w, R w [.response c response] w
  drained : ∀ c w, R w [.drained c] w
  create : ∀ scheme name w, R w [.create scheme name] w

section

variable {R : World → List Event → World → Prop}

theorem Allows.sendConnectRequest (hR : Allows R) (c : Connection) (destination : Endpoint)
    (value : Option Text) : Effect.Within R (sendConnectRequest c destination value) := by
  refine hR.within_bind (hR.request _ _ _) fun _ => hR.within_bind (hR.wrote _ _) fun _ => ?_
  split
  · exact hR.within_fail _
  · exact hR.within_pure _

theorem Allows.readResponse (hR : Allows R) (httparse : Httparse) (maxHeaderBytes : Nat)
    (c : Connection) : Effect.Within R (readResponse httparse maxHeaderBytes c) := by
  unfold Server.readResponse
  split
  · exact hR.within_fail _
  · exact hR.within_bind (hR.response _ _) fun _ => hR.within_pure _

theorem Allows.drainResponse (hR : Allows R) (response : ResponseHead) (c : Connection) :
    Effect.Within R (drainResponse response c) := by
  unfold Server.drainResponse
  split
  · exact hR.within_fail _
  · exact hR.within_bind (hR.drained _) fun _ => hR.within_pure _

end

end Server
end Fastpx
