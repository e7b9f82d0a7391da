import Fastpx.Server.World

/-!
# Establishing a tunnel through the upstream proxy

`establish_upstream_tunnel` of `server.rs`: an unauthenticated probe, the choice
of a scheme, and up to four rounds of authentication.  The variables which the
loop of the source carries from round to round (the connection, the last
response, the security context, the challenge and the drain flag) are the
arguments of `authRounds`.
-/

namespace Fastpx
namespace Server

open StreamKit Config Http1

/-- A proxy: its settings, its authentication provider with contexts `κ`, and
the third-party parser and codec it is linked with. -/
structure Proxy (κ : Type) where
  config : ProxyConfig
  authFactory : AuthFactory κ
  httparse : Httparse
  base64 : Base64

/-- The number of authenticated requests which are tried. -/
def maxAuthRounds : Nat := 4

/-- The service name for which a security context is created. -/
def targetName (upstream : Endpoint) : Text := "HTTP/".toList ++ upstream.host

namespace Proxy

variable {κ : Type}

/-- Open a connection to the upstream proxy. -/
def connectUpstream (proxy : Proxy κ) : Run Connection :=
  connect (.dialUpstream proxy.config.upstream) proxy.config.connectTimeout .connectTimeout

/-- Create a security context. -/
def createContext (proxy : Proxy κ) (scheme : AuthScheme) : Run κ := do
  let name := targetName proxy.config.upstream
  -- the target name has the upstream's host, and not the client's destination
  Effect.emit (.create scheme name)
  match proxy.authFactory.create scheme name with
  | .error e => Effect.fail (.authentication e)
  | .ok context => pure context

/-- Give the security context a challenge. -/
def stepContext (proxy : Proxy κ) (context : κ) (challenge : Option Bytes) : Run (Bytes × κ) := do
  let (outcome, context) := proxy.authFactory.step context challenge
  Effect.emit (.step challenge outcome)
  match outcome with
  | .error e => Effect.fail (.authentication e)
  | .ok token => pure (token, context)

/-- One authenticated request and its response. -/
def exchange (proxy : Proxy κ) (destination : Endpoint) (scheme : AuthScheme) (token : Bytes)
    (upstream : Connection) : Run (ResponseHead × Connection) := do
  let upstream ← sendConnectRequest upstream destination
    (some (authorization proxy.base64 scheme token))
  readResponse proxy.httparse proxy.config.maxHeaderBytes upstream

/-- The challenge for the scheme in a response to an authenticated request. -/
def nextChallenge (proxy : Proxy κ) (response : ResponseHead) (scheme : AuthScheme) :
    Except ProxyError (Option Bytes) :=
  match findChallenge response scheme with
  | none => .error .authenticationSchemeMissing
  | some challenge => decodeChallenge proxy.base64 challenge

/-- The part of a round before the token: consume the last response, if it came
on this connection. -/
def prepareRound (mustDrain : Bool) (response : ResponseHead) (upstream : Connection) :
    Run Connection :=
  if mustDrain then
    if response.connectionClose then Effect.fail .connectionClosedDuringAuth
    else drainResponse response upstream
  else pure upstream

/-- The loop of authentication rounds, with the number of rounds left. -/
def authRounds (proxy : Proxy κ) (destination : Endpoint) (scheme : AuthScheme) :
    Nat → Connection → ResponseHead → κ → Option Bytes → Bool → Run Connection
  | 0, _, _, _, _, _ => Effect.fail .tooManyAuthenticationRounds
  | rounds + 1, upstream, response, context, challenge, mustDrain => do
      let upstream ← prepareRound mustDrain response upstream
      let (token, context) ← proxy.stepContext context challenge
      let (response, upstream) ← proxy.exchange destination scheme token upstream
      -- whatever was read beyond the head stays in the stream and belongs to the tunnel
      if isConnectSuccess response then pure upstream
      else if response.status ≠ 407 then Effect.fail (.upstreamStatus response.status)
      else do
        let challenge ← Effect.ofExcept (proxy.nextChallenge response scheme)
        proxy.authRounds destination scheme rounds upstream response context challenge true

/-- The answer to a challenge of the probe: choose a scheme, create a context
and start the rounds, on a fresh connection if the probe's is being closed. -/
def authenticate (proxy : Proxy κ) (destination : Endpoint) (upstream : Connection)
    (response : ResponseHead) : Run Connection := do
  let (scheme, firstChallenge) ← Effect.ofExcept (chooseScheme response proxy.config.auth)
  let context ← proxy.createContext scheme
  let challenge ← Effect.ofExcept (decodeChallenge proxy.base64 firstChallenge)
  if response.connectionClose then
    -- a token is bound to the connection which is being closed
    if challenge.isSome then Effect.fail .connectionClosedDuringAuth
    else do
      let upstream ← proxy.connectUpstream
      proxy.authRounds destination scheme maxAuthRounds upstream response context challenge false
  else
    proxy.authRounds destination scheme maxAuthRounds upstream response context challenge true

/-- Establish a tunnel through the upstream proxy. -/
def establishUpstreamTunnel (proxy : Proxy κ) (destination : Endpoint) : Run Connection := do
  let upstream ← proxy.connectUpstream
  let upstream ← sendConnectRequest upstream destination none
  let (response, upstream) ← readResponse proxy.httparse proxy.config.maxHeaderBytes upstream
  if isConnectSuccess response then pure upstream
  else if response.status ≠ 407 then Effect.fail (.upstreamStatus response.status)
  else if proxy.config.auth = .none then Effect.fail .authenticationRequired
  else proxy.authenticate destination upstream response

end Proxy

section

variable {κ : Type} {R : World → List Event → World → Prop}

theorem Allows.createContext (hR : Allows R) (proxy : Proxy κ) (scheme : AuthScheme) :
    Effect.Within R (proxy.createContext scheme) := by
  refine hR.within_bind (hR.create _ _) fun _ => ?_
  split
  · exact hR.within_fail _
  · exact hR.within_pure _

theorem Allows.exchange (hR : Allows R) (proxy : Proxy κ) (destination : Endpoint)
    (scheme : AuthScheme) (token : Bytes) (c : Connection) :
    Effect.Within R (proxy.exchange destination scheme token c) :=
  hR.within_bind (hR.sendConnectRequest _ _ _) fun _ => hR.readResponse _ _ _

theorem Allows.prepareRound (hR : Allows R) (mustDrain : Bool) (response : ResponseHead)
    (c : Connection) : Effect.Within R (Proxy.prepareRound mustDrain response c) := by
  unfold Proxy.prepareRound
  split
  · split
    · exact hR.within_fail _
    · exact hR.drainResponse response c
  · exact hR.within_pure _

end

end Server
end Fastpx
