import Fastpx.Relay.Completion
import Fastpx.Server.Route

/-!
# Serving one client

`handle_client` of `server.rs`.  Up to the point where a tunnel exists it is a
computation over the world, which may answer the client with an error
(`acceptClient`).  From there on it is the tunnel machine, whose actions are
chosen by the environment (`handleClient`).
-/

namespace Fastpx
namespace Server

open StreamKit Config Http1 Relay

/-- A tunnel before anything was written through it: the bytes read ahead from
the client, the rest of its stream, and the connection to the other side. -/
structure OpenTunnel where
  prefetched : Bytes
  client : Incoming
  upstream : Connection
  deriving DecidableEq

def badRequest : Text := "Bad Request".toList
def connectRequired : Text := "CONNECT Required".toList
def invalidTarget : Text := "Invalid CONNECT Target".toList
def badGateway : Text := "Bad Gateway".toList

/-- The method which the proxy serves. -/
def connectMethod : Text := "CONNECT".toList

/-- `send_error`, on a client whose writes do this. -/
def sendError (writes : List WriteOutcome) (status : UInt16) (reason : Text) : Run Unit := do
  let (outcome, accepted) := writeAll writes (utf8 (errorResponse status reason))
  Effect.emit (.answered accepted)
  match outcome with
  | .error e => Effect.fail (.io e)
  | .ok _ => pure ()

namespace Proxy

variable {κ : Type}

/-- The part of `handle_client` up to the tunnel.  There is none, and no error
either, after a request with another method. -/
def acceptClient (proxy : Proxy κ) (client : Socket) : Run (Option OpenTunnel) :=
  match client.nodelay with
  | some e => Effect.fail (.io e)
  | none =>
      match readRequestHead proxy.httparse client.incoming proxy.config.maxHeaderBytes with
      | (.error e, _) => do
          sendError client.writes 400 badRequest
          Effect.fail (.http e)
      | (.ok (request, prefetched), incoming) =>
          if eqIgnoreAsciiCase request.method connectMethod then
            match Endpoint.fromStr request.target with
            | .error e => do
                sendError client.writes 400 invalidTarget
                Effect.fail (.invalidDestination e.display)
            | .ok destination => do
                -- the client learns of a failure as a 502 before the error is returned
                let tunnel ← Effect.attempt (proxy.establishTunnel destination)
                match tunnel with
                | .error e => do
                    sendError client.writes 502 badGateway
                    Effect.fail e
                | .ok upstream => pure (some ⟨prefetched, incoming, upstream⟩)
          else do
            sendError client.writes 405 connectRequired
            pure none

end Proxy

/-- A run of `handle_client`: how it returned, if it did, what happened before
the tunnel, and how far the tunnel has come. -/
structure ClientRun where
  result : Option (Except ProxyError Unit)
  log : List Event
  tunnel : Option Tunnel

/-- The tunnel machine at its start. -/
def OpenTunnel.start (opened : OpenTunnel) (now : Nat) : Tunnel :=
  Tunnel.start opened.prefetched opened.client opened.upstream.stream now

/-- How a tunnel which returned ends the run. -/
def tunnelResult (t : Tunnel) : Option (Except ProxyError Unit) :=
  t.result.map fun
    | .ok _ => .ok ()
    | .error e => .error (.io e)

/-- `handle_client`, with the tunnel driven by `actions` from the time `now` on;
there is no run if the actions are not possible. -/
def Proxy.handleClient {κ : Type} (proxy : Proxy κ) (client : Socket) (now : Nat)
    (actions : List TunnelAction) (w : World) : Option ClientRun :=
  match proxy.acceptClient client w with
  | (.error e, _, log) => some ⟨some (.error e), log, none⟩
  | (.ok none, _, log) => some ⟨some (.ok ()), log, none⟩
  | (.ok (some opened), _, log) =>
      ((Tunnel.machine proxy.config.idleTimeout).run (opened.start now) actions).map fun t =>
        ⟨tunnelResult t, log, some t⟩

/-- The runs of `handle_client`. -/
inductive Handles {κ : Type} (proxy : Proxy κ) (client : Socket) (now : Nat)
    (actions : List TunnelAction) (w : World) : ClientRun → Prop
  | failed {e : ProxyError} {w' : World} {log : List Event}
      (haccept : proxy.acceptClient client w = (.error e, w', log)) :
      Handles proxy client now actions w ⟨some (.error e), log, none⟩
  | refused {w' : World} {log : List Event}
      (haccept : proxy.acceptClient client w = (.ok none, w', log)) :
      Handles proxy client now actions w ⟨some (.ok ()), log, none⟩
  | tunnelled {opened : OpenTunnel} {w' : World} {log : List Event} {t : Tunnel}
      (haccept : proxy.acceptClient client w = (.ok (some opened), w', log))
      (hrun : (Tunnel.machine proxy.config.idleTimeout).run (opened.start now) actions = some t) :
      Handles proxy client now actions w ⟨tunnelResult t, log, some t⟩

theorem handles_of_run {κ : Type} {proxy : Proxy κ} {client : Socket} {now : Nat}
    {actions : List TunnelAction} {w : World} {run : ClientRun}
    (h : proxy.handleClient client now actions w = some run) :
    Handles proxy client now actions w run := by
  unfold Proxy.handleClient at h
  split at h
  · next haccept =>
      obtain rfl := Option.some.inj h
      exact .failed haccept
  · next haccept =>
      obtain rfl := Option.some.inj h
      exact .refused haccept
  · next haccept =>
      obtain ⟨t, hrun, rfl⟩ := Option.map_eq_some_iff.mp h
      exact .tunnelled haccept hrun

/-- The bytes which the client was answered before a tunnel was open. -/
def answers (log : List Event) : List Bytes :=
  log.filterMap fun
    | .answered bytes => some bytes
    | _ => none

/-- All bytes which the client has received. -/
def ClientRun.clientReceived (run : ClientRun) : Bytes :=
  (answers run.log).flatten ++ (run.tunnel.map Tunnel.clientReceived).getD []

/-! ## Writes to the client -/

/-- Does the action make a write to the client fail? -/
def clientWriteFails : Tunnel → TunnelAction → Bool
  | .opening (.greeting _) _ _ _ _, .writeError _ => true
  | .opening .toClient _ _ _ _, .writeError _ => true
  | .relaying _, .relay (.pump .down (.writeError _)) => true
  | _, _ => false

/-- No action of the run makes a write to the client fail. -/
def tunnelWritesSucceed (idleTimeout : Option Nat) : Tunnel → List TunnelAction → Bool
  | _, [] => true
  | t, a :: rest =>
      !clientWriteFails t a &&
        match t.step idleTimeout a with
        | none => true
        | some t' => tunnelWritesSucceed idleTimeout t' rest

/-- `set_nodelay` on the client and all writes to it succeed. -/
structure ClientWritable {κ : Type} (proxy : Proxy κ) (client : Socket) (now : Nat)
    (actions : List TunnelAction) (w : World) : Prop where
  nodelay : client.nodelay = none
  writes : Writable client.writes
  tunnel : ∀ opened, (proxy.acceptClient client w).1 = .ok (some opened) →
    tunnelWritesSucceed proxy.config.idleTimeout (opened.start now) actions = true

theorem sendError_of_writable {writes : List WriteOutcome} (h : Writable writes) (status : UInt16)
    (reason : Text) (w : World) :
    sendError writes status reason w =
      (.ok (), w, [.answered (utf8 (errorResponse status reason))]) := by
  simp only [sendError, writeAll_of_writable h]
  rfl

end Server
end Fastpx
