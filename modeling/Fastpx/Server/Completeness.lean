import Fastpx.Http1.Framing
import Fastpx.Server.EndToEnd
import Fastpx.Sspi

/-!
# Handshakes which succeed

The other side of the transcript: an upstream proxy that speaks the protocol is
understood.  `UpstreamScript` is what such an upstream sends, a number of
refusals with challenges which the authentication provider can answer, and then
the acceptance.  However its bytes arrive, the handshake returns its connection
with the bytes behind the acceptance, unless it asks for more rounds than there
are (`establish_of_plays`), and a client behind it is served to the end
(`client_served`).
-/

namespace Fastpx
namespace Server

open StreamKit Config Http1 Relay

variable {κ : Type}

/-! ## A cooperative upstream -/

/-- A refusal after which the connection is kept, with a challenge for the
scheme. -/
structure Invites (proxy : Proxy κ) (scheme : AuthScheme) (response : ResponseHead)
    (challenge : Option Bytes) : Prop where
  status : response.status = 407
  keepsOpen : response.connectionClose = false
  challenged : proxy.nextChallenge response scheme = .ok challenge

/-- The provider has a token for each of these challenges in turn. -/
def Answers (proxy : Proxy κ) (context : κ) (challenges : List (Option Bytes)) : Prop :=
  ∀ result ∈ proxy.authFactory.results context challenges, ∃ token, result = .ok token

theorem Answers.cons {proxy : Proxy κ} {context : κ} {challenge : Option Bytes}
    {challenges : List (Option Bytes)} (h : Answers proxy context (challenge :: challenges)) :
    ∃ token context', proxy.authFactory.step context challenge = (.ok token, context') ∧
      Answers proxy context' challenges := by
  obtain ⟨token, htoken⟩ := h (proxy.authFactory.step context challenge).1 List.mem_cons_self
  refine ⟨token, (proxy.authFactory.step context challenge).2, by rw [← htoken], ?_⟩
  exact fun result hmem => h result (List.mem_cons_of_mem _ hmem)

/-- What an upstream sends which refuses a number of times and then accepts:
framed refusals with their challenges, the head of the acceptance, and the bytes
of the tunnel.  The provider can answer the challenges of all rounds. -/
structure UpstreamScript (proxy : Proxy κ) (scheme : AuthScheme) where
  refusals : List (FramedResponse proxy.httparse proxy.config.maxHeaderBytes)
  challenges : List (Option Bytes)
  final : HeadOnWire proxy.httparse proxy.config.maxHeaderBytes
  rest : Bytes
  invites : List.Forall₂ (fun refusal challenge => Invites proxy scheme refusal.head challenge)
    refusals challenges
  accepts : isConnectSuccess final.head = true

/-- The bytes of a script. -/
def UpstreamScript.bytes {proxy : Proxy κ} {scheme : AuthScheme}
    (script : UpstreamScript proxy scheme) : Bytes :=
  script.refusals.flatMap FramedResponse.wire ++ (script.final.raw ++ script.rest)

/-- The next connection attempt leads to this socket, which can be written to. -/
structure Serves (w : World) (limit : Nat) (socket : Socket)
    (later : List (Timed (Except IoError Socket))) : Prop where
  dials : ∃ elapsed ≤ limit, w.dials = some (elapsed, .ok socket) :: later
  nodelay : socket.nodelay = none
  writable : Writable socket.writes

/-! ## The pieces of a handshake go well -/

theorem connectUpstream_of_serves {proxy : Proxy κ} {w : World} {socket : Socket}
    {later : List (Timed (Except IoError Socket))}
    (h : Serves w proxy.config.connectTimeout socket later) :
    proxy.connectUpstream w =
      (.ok ⟨w.nextConnection, BufferedStream.new socket.incoming, socket.writes⟩,
        { w with dials := later, nextConnection := w.nextConnection + 1 },
        [.dialUpstream proxy.config.upstream, .opened w.nextConnection]) := by
  obtain ⟨elapsed, hle, hdials⟩ := h.dials
  have hnext : nextDial proxy.config.connectTimeout w =
      (.ok (some (.ok (w.nextConnection, socket))),
        { w with dials := later, nextConnection := w.nextConnection + 1 },
        [.opened w.nextConnection]) := by
    simp [nextDial, hdials, withTimeout, hle]
  unfold Proxy.connectUpstream connect
  rw [Effect.bind_of_ok (show Effect.emit (Event.dialUpstream proxy.config.upstream) w =
    (.ok (), w, _) from rfl), Effect.bind_of_ok hnext]
  simp only [h.nodelay]
  rfl

/-- A request is sent and the head of its response read. -/
theorem ask_of_head {httparse : Httparse} {maxHeaderBytes : Nat} {c : Connection}
    (next : HeadOnWire httparse maxHeaderBytes) {tail : Bytes}
    (hpending : c.stream.pending = next.raw ++ tail) (hwritable : Writable c.writes)
    (destination : Endpoint) (value : Option Text) (w : World) :
    ∃ c₁ c₂ log₁ log₂, sendConnectRequest c destination value w = (.ok c₁, w, log₁) ∧
      readResponse httparse maxHeaderBytes c₁ w = (.ok (next.head, c₂), w, log₂) ∧
      c₂.stream.pending = tail ∧ Writable c₂.writes := by
  obtain ⟨stream, hread, htail⟩ :=
    readResponseHead_exact httparse hpending next.ends next.fits
  rw [next.parse] at hread
  refine ⟨{ c with writes := c.writes.tail },
    { c with writes := c.writes.tail, stream := stream },
    [.request c.id destination value, .wrote c.id (utf8 (connectRequest destination value))],
    [.response c.id next.head], ?_, ?_, htail, ?_⟩
  · simp only [sendConnectRequest, writeAll_of_writable hwritable]
    rfl
  · simp only [readResponse, hread]
    rfl
  · exact fun outcome hmem => hwritable outcome (List.mem_of_mem_tail hmem)

/-- The body of a framed response is drained. -/
theorem prepareRound_of_framed {httparse : Httparse} {maxHeaderBytes : Nat} {c : Connection}
    (response : FramedResponse httparse maxHeaderBytes) {tail : Bytes}
    (hclose : response.head.connectionClose = false)
    (hpending : c.stream.pending = response.body ++ tail) (w : World) :
    ∃ stream log, Proxy.prepareRound true response.head c w =
      (.ok { c with stream := stream }, w, log) ∧ stream.pending = tail := by
  obtain ⟨stream, hdrain, htail⟩ := drainResponseBody_exact hpending response.framed
  refine ⟨stream, [.drained c.id], ?_, htail⟩
  simp only [Proxy.prepareRound, if_true, hclose, Bool.false_eq_true, if_false, drainResponse,
    hdrain]
  rfl

variable {proxy : Proxy κ} {destination : Endpoint} {scheme : AuthScheme}

/-- One round against a head: the connection is returned, or the next round
begins. -/
theorem authRounds_round {rounds : Nat} {c c₁ : Connection} {response : ResponseHead}
    {context context' : κ} {challenge : Option Bytes} {token : Bytes} {mustDrain : Bool}
    {w : World} {log : List Event}
    (hprepare : Proxy.prepareRound mustDrain response c w = (.ok c₁, w, log))
    (hstep : proxy.authFactory.step context challenge = (.ok token, context'))
    (next : HeadOnWire proxy.httparse proxy.config.maxHeaderBytes) {tail : Bytes}
    (hpending : c₁.stream.pending = next.raw ++ tail) (hwritable : Writable c₁.writes) :
    ∃ c₂, c₂.stream.pending = tail ∧ Writable c₂.writes ∧
      (isConnectSuccess next.head = true →
        (proxy.authRounds destination scheme (rounds + 1) c response context challenge mustDrain
          w).1 = .ok c₂) ∧
      ∀ challenge', Invites proxy scheme next.head challenge' →
        (proxy.authRounds destination scheme (rounds + 1) c response context challenge mustDrain
          w).1 =
        (proxy.authRounds destination scheme rounds c₂ next.head context' challenge' true w).1 := by
  obtain ⟨c', c₂, log₁, log₂, hsend, hread, htail, hwritable₂⟩ :=
    ask_of_head next hpending hwritable destination
      (some (authorization proxy.base64 scheme token)) w
  have hcontext : proxy.stepContext context challenge w =
      (.ok (token, context'), w, [.step challenge (.ok token)]) := by
    simp only [Proxy.stepContext, hstep]
    rfl
  have hexchange : proxy.exchange destination scheme token c₁ w =
      (.ok (next.head, c₂), w, log₁ ++ log₂) := by
    rw [Proxy.exchange, Effect.bind_of_ok hsend, hread]
  refine ⟨c₂, htail, hwritable₂, fun hsuccess => ?_, fun challenge' hinvites => ?_⟩
  · rw [Proxy.authRounds, Effect.fst_bind_of_ok hprepare, Effect.fst_bind_of_ok hcontext,
      Effect.fst_bind_of_ok hexchange]
    simp only [hsuccess, if_true]
    rfl
  · have hrefused : isConnectSuccess next.head = false := by
      simp [isConnectSuccess, hinvites.status]
    rw [Proxy.authRounds, Effect.fst_bind_of_ok hprepare, Effect.fst_bind_of_ok hcontext,
      Effect.fst_bind_of_ok hexchange]
    simp only [hrefused, Bool.false_eq_true, if_false, hinvites.status, ne_eq, not_true]
    rw [Effect.fst_bind_of_ok (show Effect.ofExcept (proxy.nextChallenge next.head scheme) w =
      (.ok challenge', w, []) by rw [hinvites.challenged]; rfl)]

/-- The rounds against the rest of a script, from a connection whose last
response is consumed: they return the connection if there are more rounds than
refusals, and otherwise they give up. -/
theorem authRounds_of_script {refusals : List (FramedResponse proxy.httparse
      proxy.config.maxHeaderBytes)} {challenges : List (Option Bytes)}
    (final : HeadOnWire proxy.httparse proxy.config.maxHeaderBytes) (rest : Bytes)
    (haccepts : isConnectSuccess final.head = true)
    (hinvites : List.Forall₂ (fun refusal challenge => Invites proxy scheme refusal.head challenge)
      refusals challenges)
    {rounds : Nat} {c c₁ : Connection} {response : ResponseHead} {context : κ}
    {challenge : Option Bytes} {mustDrain : Bool} {w : World} {log : List Event}
    (hprepare : Proxy.prepareRound mustDrain response c w = (.ok c₁, w, log))
    (hpending : c₁.stream.pending =
      refusals.flatMap FramedResponse.wire ++ (final.raw ++ rest))
    (hwritable : Writable c₁.writes)
    (hanswers : Answers proxy context ((challenge :: challenges).take rounds)) :
    (refusals.length < rounds → ∃ upstream,
      (proxy.authRounds destination scheme rounds c response context challenge mustDrain w).1 =
        .ok upstream ∧ upstream.stream.pending = rest) ∧
    (rounds ≤ refusals.length →
      (proxy.authRounds destination scheme rounds c response context challenge mustDrain w).1 =
        .error .tooManyAuthenticationRounds) := by
  induction hinvites generalizing rounds c c₁ response context challenge mustDrain log with
  | nil =>
      cases rounds with
      | zero => exact ⟨fun h => absurd h (by simp), fun _ => rfl⟩
      | succ left =>
          obtain ⟨token, context', hstep, -⟩ := Answers.cons hanswers
          obtain ⟨c₂, htail, -, hok, -⟩ := authRounds_round hprepare hstep final
            (show c₁.stream.pending = final.raw ++ rest from hpending) hwritable
          exact ⟨fun _ => ⟨c₂, hok haccepts, htail⟩, fun h => absurd h (by simp)⟩
  | @cons refusal challenge' refusals challenges hinvites _ ih =>
      cases rounds with
      | zero => exact ⟨fun h => absurd h (by simp), fun _ => rfl⟩
      | succ left =>
          obtain ⟨token, context', hstep, hlater⟩ := Answers.cons hanswers
          have hhead : c₁.stream.pending = refusal.raw ++ (refusal.body ++
              (refusals.flatMap FramedResponse.wire ++ (final.raw ++ rest))) := by
            rw [hpending, List.flatMap_cons, FramedResponse.wire]
            simp only [List.append_assoc]
          obtain ⟨c₂, htail, hwritable₂, -, hnext⟩ := authRounds_round hprepare hstep
            refusal.toHeadOnWire hhead hwritable
          -- the next round begins by draining the refusal
          obtain ⟨stream, log₂, hprepare₂, hrest⟩ := prepareRound_of_framed refusal
            hinvites.keepsOpen htail w
          obtain ⟨hok, hfail⟩ := ih hprepare₂ hrest hwritable₂ hlater
          rw [hnext challenge' hinvites]
          exact ⟨fun h => hok (by simpa using h), fun h => hfail (by simpa using h)⟩

/-! ## The answer to the probe -/

/-- The challenge of the chosen scheme is the first one for it. -/
theorem decodeChallenge_of_chosen {response : ResponseHead} {first : Challenge}
    {challenge : Option Bytes}
    (hchosen : chooseScheme response proxy.config.auth = .ok (scheme, first))
    (hnext : proxy.nextChallenge response scheme = .ok challenge) :
    decodeChallenge proxy.base64 first = .ok challenge := by
  simpa only [Proxy.nextChallenge, (chooseScheme_ok hchosen).offered] using hnext

theorem createContext_of_ok {context : κ} (w : World)
    (hcreate : proxy.authFactory.create scheme (targetName proxy.config.upstream) = .ok context) :
    proxy.createContext scheme w =
      (.ok context, w, [.create scheme (targetName proxy.config.upstream)]) := by
  simp only [Proxy.createContext, hcreate]
  rfl

/-- After a refusal which keeps the connection the rounds begin on it. -/
theorem authenticate_of_open {response : ResponseHead} {first : Challenge}
    {challenge : Option Bytes} {context : κ} (c : Connection) (w : World)
    (hchosen : chooseScheme response proxy.config.auth = .ok (scheme, first))
    (hdecode : decodeChallenge proxy.base64 first = .ok challenge)
    (hcreate : proxy.authFactory.create scheme (targetName proxy.config.upstream) = .ok context)
    (hclose : response.connectionClose = false) :
    (proxy.authenticate destination c response w).1 =
      (proxy.authRounds destination scheme maxAuthRounds c response context challenge true
        w).1 := by
  rw [Proxy.authenticate, hchosen, hclose]
  rw [Effect.fst_bind_of_ok (show Effect.ofExcept (.ok (scheme, first)) w = _ from rfl)]
  dsimp only
  rw [Effect.fst_bind_of_ok (createContext_of_ok w hcreate), hdecode,
    Effect.fst_bind_of_ok (show Effect.ofExcept (.ok challenge) w = _ from rfl)]
  rfl

/-- After a refusal which closes the connection, and has no token, they begin on
another one. -/
theorem authenticate_of_close {response : ResponseHead} {first : Challenge} {context : κ}
    (c : Connection) {w : World} {socket : Socket}
    {later : List (Timed (Except IoError Socket))}
    (hchosen : chooseScheme response proxy.config.auth = .ok (scheme, first))
    (hdecode : decodeChallenge proxy.base64 first = .ok none)
    (hcreate : proxy.authFactory.create scheme (targetName proxy.config.upstream) = .ok context)
    (hclose : response.connectionClose = true)
    (hserves : Serves w proxy.config.connectTimeout socket later) :
    (proxy.authenticate destination c response w).1 =
      (proxy.authRounds destination scheme maxAuthRounds
        ⟨w.nextConnection, BufferedStream.new socket.incoming, socket.writes⟩ response context none
        false { w with dials := later, nextConnection := w.nextConnection + 1 }).1 := by
  rw [Proxy.authenticate, hchosen, hclose]
  rw [Effect.fst_bind_of_ok (show Effect.ofExcept (.ok (scheme, first)) w = _ from rfl)]
  dsimp only
  rw [Effect.fst_bind_of_ok (createContext_of_ok w hcreate), hdecode,
    Effect.fst_bind_of_ok (show Effect.ofExcept (.ok none) w = _ from rfl)]
  simp only [if_true, Option.isSome_none, Bool.false_eq_true, if_false]
  rw [Effect.fst_bind_of_ok (connectUpstream_of_serves hserves)]

/-- The probe against a head: the connection is returned, or the handshake goes
on to authenticate. -/
theorem establish_probe (next : HeadOnWire proxy.httparse proxy.config.maxHeaderBytes)
    {tail : Bytes} {w : World} {socket : Socket} {later : List (Timed (Except IoError Socket))}
    (hserves : Serves w proxy.config.connectTimeout socket later)
    (hbytes : socket.incoming.unread = next.raw ++ tail) :
    ∃ c, c.stream.pending = tail ∧ Writable c.writes ∧
      (isConnectSuccess next.head = true →
        (proxy.establishUpstreamTunnel destination w).1 = .ok c) ∧
      (next.head.status = 407 → proxy.config.auth ≠ .none →
        (proxy.establishUpstreamTunnel destination w).1 =
          (proxy.authenticate destination c next.head
            { w with dials := later, nextConnection := w.nextConnection + 1 }).1) := by
  obtain ⟨c₁, c₂, log₁, log₂, hsend, hread, htail, hwritable⟩ := ask_of_head next
    (show (Connection.mk w.nextConnection (BufferedStream.new socket.incoming)
      socket.writes).stream.pending = next.raw ++ tail from hbytes) hserves.writable destination
    none { w with dials := later, nextConnection := w.nextConnection + 1 }
  refine ⟨c₂, htail, hwritable, fun hsuccess => ?_, fun hstatus hmode => ?_⟩
  · rw [Proxy.establishUpstreamTunnel, Effect.fst_bind_of_ok (connectUpstream_of_serves hserves),
      Effect.fst_bind_of_ok hsend, Effect.fst_bind_of_ok hread]
    simp only [hsuccess, if_true]
    rfl
  · have hrefused : isConnectSuccess next.head = false := by simp [isConnectSuccess, hstatus]
    rw [Proxy.establishUpstreamTunnel, Effect.fst_bind_of_ok (connectUpstream_of_serves hserves),
      Effect.fst_bind_of_ok hsend, Effect.fst_bind_of_ok hread]
    simp only [hrefused, Bool.false_eq_true, if_false, hstatus, ne_eq, not_true, hmode]

/-! ## Whole handshakes -/

/-- The network plays a script to the handshakes of the proxy, and the provider
can answer it; `rounds` is the number of authenticated requests which the script
asks for. -/
inductive UpstreamScript.Plays (script : UpstreamScript proxy scheme) (w : World) : Nat → Prop
  /-- The whole script is on one connection. -/
  | kept {socket : Socket} {later : List (Timed (Except IoError Socket))} {context : κ}
      (hserves : Serves w proxy.config.connectTimeout socket later)
      (hbytes : socket.incoming.unread = script.bytes)
      (hchosen : ∀ refusal ∈ script.refusals.head?, ∃ first,
        chooseScheme refusal.head proxy.config.auth = .ok (scheme, first))
      (hcreate : proxy.authFactory.create scheme (targetName proxy.config.upstream) = .ok context)
      (hanswers : Answers proxy context (script.challenges.take maxAuthRounds)) :
      script.Plays w script.refusals.length
  /-- The probe is refused on a connection which the upstream closes, with a
  challenge that has no token, and the script is on the next connection. -/
  | reopened {socket socket' : Socket} {elapsed : Nat}
      {later : List (Timed (Except IoError Socket))} {context : κ}
      (refusal : HeadOnWire proxy.httparse proxy.config.maxHeaderBytes) {tail : Bytes}
      {first : Challenge}
      (hserves : Serves w proxy.config.connectTimeout socket (some (elapsed, .ok socket') :: later))
      (hrefusal : socket.incoming.unread = refusal.raw ++ tail)
      (hstatus : refusal.head.status = 407) (hclose : refusal.head.connectionClose = true)
      (hchosen : chooseScheme refusal.head proxy.config.auth = .ok (scheme, first))
      (htoken : first.token = none) (helapsed : elapsed ≤ proxy.config.connectTimeout)
      (hnodelay : socket'.nodelay = none) (hwritable : Writable socket'.writes)
      (hbytes : socket'.incoming.unread = script.bytes)
      (hcreate : proxy.authFactory.create scheme (targetName proxy.config.upstream) = .ok context)
      (hanswers : Answers proxy context ((none :: script.challenges).take maxAuthRounds)) :
      script.Plays w (script.refusals.length + 1)

/-- Only the connections of the world matter. -/
theorem UpstreamScript.Plays.of_dials {script : UpstreamScript proxy scheme} {w w' : World}
    {rounds : Nat} (h : script.Plays w rounds) (hdials : w'.dials = w.dials) :
    script.Plays w' rounds := by
  have hserves : ∀ {socket later}, Serves w proxy.config.connectTimeout socket later →
      Serves w' proxy.config.connectTimeout socket later := fun hserves =>
    ⟨hdials ▸ hserves.dials, hserves.nodelay, hserves.writable⟩
  cases h with
  | kept h hbytes hchosen hcreate hanswers =>
      exact .kept (hserves h) hbytes hchosen hcreate hanswers
  | reopened refusal h hrefusal hstatus hclose hchosen htoken helapsed hnodelay hwritable hbytes
      hcreate hanswers =>
      exact .reopened refusal (hserves h) hrefusal hstatus hclose hchosen htoken helapsed hnodelay
        hwritable hbytes hcreate hanswers

/-- A script on one connection is followed to its end, or given up. -/
theorem establish_of_kept (script : UpstreamScript proxy scheme) {w : World} {socket : Socket}
    {later : List (Timed (Except IoError Socket))} {context : κ}
    (hserves : Serves w proxy.config.connectTimeout socket later)
    (hbytes : socket.incoming.unread = script.bytes)
    (hchosen : ∀ refusal ∈ script.refusals.head?, ∃ first,
      chooseScheme refusal.head proxy.config.auth = .ok (scheme, first))
    (hcreate : proxy.authFactory.create scheme (targetName proxy.config.upstream) = .ok context)
    (hanswers : Answers proxy context (script.challenges.take maxAuthRounds)) :
    (script.refusals.length ≤ maxAuthRounds → ∃ upstream,
      (proxy.establishUpstreamTunnel destination w).1 = .ok upstream ∧
        upstream.stream.pending = script.rest) ∧
    (maxAuthRounds < script.refusals.length →
      (proxy.establishUpstreamTunnel destination w).1 = .error .tooManyAuthenticationRounds) := by
  obtain ⟨refusals, challenges, final, rest, hinvites, haccepts⟩ := script
  cases hinvites with
  | nil =>
      obtain ⟨c, htail, -, hok, -⟩ := establish_probe final hserves
        (show socket.incoming.unread = final.raw ++ rest from hbytes)
      exact ⟨fun _ => ⟨c, hok haccepts, htail⟩, fun h => absurd h (by simp)⟩
  | @cons refusal challenge refusals challenges hinvites hlater =>
      obtain ⟨first, hfirst⟩ := hchosen refusal (by simp)
      have hhead : socket.incoming.unread = refusal.raw ++ (refusal.body ++
          (refusals.flatMap FramedResponse.wire ++ (final.raw ++ rest))) := by
        rw [hbytes, UpstreamScript.bytes, List.flatMap_cons, FramedResponse.wire]
        simp only [List.append_assoc]
      obtain ⟨c, htail, hwritable, -, hrefused⟩ :=
        establish_probe refusal.toHeadOnWire hserves hhead
      obtain ⟨stream, log, hprepare, hrest⟩ := prepareRound_of_framed refusal hinvites.keepsOpen
        htail { w with dials := later, nextConnection := w.nextConnection + 1 }
      rw [hrefused hinvites.status (chooseScheme_ok hfirst).enabled,
        authenticate_of_open c _ hfirst (decodeChallenge_of_chosen hfirst hinvites.challenged)
          hcreate hinvites.keepsOpen]
      obtain ⟨hok, hfail⟩ := authRounds_of_script final rest haccepts hlater hprepare hrest
        hwritable hanswers
      refine ⟨fun h => hok ?_, fun h => hfail ?_⟩
      · simpa using h
      · exact Nat.lt_succ_iff.mp h

/-- An upstream which plays a script is understood, unless it asks for more
rounds than there are. -/
theorem establish_of_plays (destination : Endpoint) {script : UpstreamScript proxy scheme}
    {w : World} {rounds : Nat} (h : script.Plays w rounds) :
    (rounds ≤ maxAuthRounds → ∃ upstream,
      (proxy.establishUpstreamTunnel destination w).1 = .ok upstream ∧
        upstream.stream.pending = script.rest) ∧
    (maxAuthRounds < rounds →
      (proxy.establishUpstreamTunnel destination w).1 = .error .tooManyAuthenticationRounds) := by
  cases h with
  | kept hserves hbytes hchosen hcreate hanswers =>
      exact establish_of_kept script hserves hbytes hchosen hcreate hanswers
  | @reopened socket socket' elapsed later context refusal tail first hserves hrefusal hstatus
      hclose hchosen htoken helapsed hnodelay hwritable hbytes hcreate hanswers =>
      obtain ⟨c, -, -, -, hrefused⟩ := establish_probe refusal hserves hrefusal
      let w' : World :=
        { w with dials := some (elapsed, .ok socket') :: later,
                 nextConnection := w.nextConnection + 1 }
      have hserves' : Serves w' proxy.config.connectTimeout socket' later :=
        ⟨⟨elapsed, helapsed, rfl⟩, hnodelay, hwritable⟩
      have hdecode : decodeChallenge proxy.base64 first = .ok none := by
        simp only [decodeChallenge, htoken]
      rw [hrefused hstatus (chooseScheme_ok hchosen).enabled,
        authenticate_of_close c hchosen hdecode hcreate hclose hserves']
      -- on a fresh connection there is nothing to drain
      let c' : Connection :=
        ⟨w'.nextConnection, BufferedStream.new socket'.incoming, socket'.writes⟩
      obtain ⟨hok, hfail⟩ := authRounds_of_script script.final script.rest script.accepts
        script.invites (show Proxy.prepareRound false refusal.head c' _ = (.ok c', _, []) from rfl)
        (show c'.stream.pending = _ from hbytes) hwritable hanswers
      exact ⟨hok, fun h => hfail (Nat.lt_succ_iff.mp h)⟩

/-! ## Whole clients -/

/-- A client which asks for a tunnel, sends `bytes` behind its request, and can
be written to. -/
structure Requests (proxy : Proxy κ) (client : Socket) (destination : Endpoint)
    (bytes : Bytes) : Prop where
  nodelay : client.nodelay = none
  writable : Writable client.writes
  request : ∃ raw head, client.incoming.unread = raw ++ bytes ∧
    findHeaderEnd raw = some raw.length ∧ raw.length ≤ proxy.config.maxHeaderBytes ∧
    parseRequestHead proxy.httparse raw = .ok head ∧
    eqIgnoreAsciiCase head.method connectMethod = true ∧
    Endpoint.fromStr head.target = .ok destination

/-- The destination has no internal address that the proxy would know of. -/
def RoutedUpstream (proxy : Proxy κ) (w : World) : Prop :=
  proxy.config.routing = .auto → ∀ answers,
    w.answer proxy.config.dnsTimeout = some (.ok answers) → ¬ HasDirect proxy.config answers

theorem establishTunnel_of_routed (destination : Endpoint) {w : World}
    (h : RoutedUpstream proxy w) :
    ∃ w₁, w₁.dials = w.dials ∧ (proxy.establishTunnel destination w).1 =
      (proxy.establishUpstreamTunnel destination w₁).1 := by
  have hroute := establishTunnel_route proxy destination w
  generalize proxy.establishTunnel destination w = outcome at hroute
  cases hroute with
  | configured _ => exact ⟨w, rfl, rfl⟩
  | direct hmode hanswer hdirect _ _ => exact absurd hdirect (h hmode _ hanswer)
  | fallback _ _ houtcome => exact ⟨w.afterLookup, rfl, by rw [houtcome]⟩

/-- The client's request is read, and a tunnel is opened for it or it is
answered with an error. -/
theorem acceptClient_of_requests {client : Socket} {bytes : Bytes} {w w' : World}
    {outcome : Except ProxyError Connection} {log : List Event}
    (h : Requests proxy client destination bytes)
    (houtcome : proxy.establishTunnel destination w = (outcome, w', log)) :
    ∃ rest incoming, rest ++ incoming.unread = bytes ∧ incoming.ending = client.incoming.ending ∧
      proxy.acceptClient client w = match outcome with
        | .ok upstream => (.ok (some ⟨rest, incoming, upstream⟩), w', log)
        | .error e => (.error e, w', log ++ [.answered (utf8 (errorResponse 502 badGateway))]) := by
  obtain ⟨raw, head, hunread, hends, hfits, hparse, hmethod, htarget⟩ := h.request
  obtain ⟨rest, incoming, hread, hrest, hending⟩ := readRequestHead_exact hunread hends hfits hparse
  refine ⟨rest, incoming, hrest, hending, ?_⟩
  have hattempt : Effect.attempt (proxy.establishTunnel destination) w =
      (.ok outcome, w', log) := by
    rw [Effect.attempt, houtcome]
  simp only [Proxy.acceptClient, h.nodelay, hread, hmethod, if_true, htarget]
  rw [Effect.bind_of_ok hattempt]
  cases outcome with
  | ok upstream => exact congrArg (fun log => (_, w', log)) (List.append_nil log)
  | error e =>
      dsimp only
      rw [Effect.bind_of_ok (sendError_of_writable h.writable 502 badGateway w')]
      rfl

/-- **Clients of a cooperative upstream are served.**  A client asks for a tunnel
to a destination which is reached through the upstream, which refuses some times
and then accepts.  However all bytes arrive: if it asks for at most four
authenticated requests, then there is a successful run of `handle_client`, every
run which has not returned can be continued to one, and in every successful run
the client has got the established head and the bytes behind the acceptance, and
the upstream the bytes behind the request.  If it asks for more, the client gets
a 502 and nothing else. -/
theorem client_served {script : UpstreamScript proxy scheme} {client : Socket} {bytes : Bytes}
    {w : World} {rounds : Nat} (now : Nat) (hrequests : Requests proxy client destination bytes)
    (hrouted : RoutedUpstream proxy w) (hplays : script.Plays w rounds)
    (hclean : client.incoming.ending = none)
    (hends : ∀ socket, Provided w proxy.config.connectTimeout socket →
      socket.incoming.ending = none) :
    (rounds ≤ maxAuthRounds →
      (∃ actions run, proxy.handleClient client now actions w = some run ∧
        run.result = some (.ok ())) ∧
      ∀ actions run, proxy.handleClient client now actions w = some run →
        (run.result = none → ∃ more run',
          proxy.handleClient client now (actions ++ more) w = some run' ∧
            run'.result = some (.ok ())) ∧
        (run.result = some (.ok ()) →
          run.clientReceived = establishedHead ++ script.rest ∧
            ∃ t, run.tunnel = some t ∧ (t.pipe .up).sink = bytes)) ∧
    (maxAuthRounds < rounds →
      ∀ actions run, proxy.handleClient client now actions w = some run →
        run.result = some (.error .tooManyAuthenticationRounds) ∧ run.tunnel = none ∧
          run.clientReceived = utf8 (errorResponse 502 badGateway)) := by
  obtain ⟨w₁, hdials, hroute⟩ := establishTunnel_of_routed destination hrouted
  obtain ⟨hok, hfail⟩ := establish_of_plays destination (hplays.of_dials hdials)
  rcases htunnel : proxy.establishTunnel destination w with ⟨outcome, w', log⟩
  rw [htunnel] at hroute
  obtain ⟨rest, incoming, hbytes, hending, haccept⟩ := acceptClient_of_requests hrequests htunnel
  constructor
  · intro hrounds
    obtain ⟨upstream, hupstream, hpending⟩ := hok hrounds
    obtain rfl : outcome = .ok upstream := hroute.trans hupstream
    obtain ⟨socket, hleads⟩ := establishTunnel_leads htunnel
    let opened : OpenTunnel := ⟨rest, incoming, upstream⟩
    have hopened : proxy.acceptClient client w = (.ok (some opened), w', log) := haccept
    -- every run of the tunnel which has not returned can be continued to a success
    have hcomplete : ∀ actions t,
        (Tunnel.machine proxy.config.idleTimeout).run (opened.start now) actions = some t →
        t.result = none → ∃ more run',
          proxy.handleClient client now (actions ++ more) w = some run' ∧
            run'.result = some (.ok ()) := by
      intro actions t hrun hnone
      obtain ⟨more, t', counts, hmore, hcounts⟩ := (tunnel_delivers hrun).2.2.2
        (hending.trans hclean) (hleads.ending.trans (hends socket hleads.opened.provided)) hnone
      exact ⟨more, _, handleClient_append hopened hrun hmore,
        tunnelResult_eq_ok.mpr ⟨counts, hcounts⟩⟩
    refine ⟨?_, fun actions run hrun => ?_⟩
    · obtain ⟨actions, run, hrun⟩ := hcomplete [] (opened.start now) rfl rfl
      exact ⟨actions, run, hrun⟩
    · simp only [Proxy.handleClient, hopened] at hrun
      obtain ⟨t, ht, rfl⟩ := Option.map_eq_some_iff.mp hrun
      refine ⟨fun hnone => hcomplete actions t ht (Option.map_eq_none_iff.mp hnone),
        fun hresult => ?_⟩
      obtain ⟨hup, hdown⟩ := (tunnel_delivers ht).2.2.1 (tunnelResult_eq_ok.mp hresult)
      rw [clientReceived_of_tunnel htunnel rfl]
      exact ⟨by rw [hdown, hpending], t, rfl, by rw [hup, hbytes]⟩
  · intro hrounds actions run hrun
    obtain rfl : outcome = .error .tooManyAuthenticationRounds := hroute.trans (hfail hrounds)
    simp only [Proxy.handleClient, haccept] at hrun
    obtain rfl := Option.some.inj hrun
    refine ⟨rfl, rfl, ?_⟩
    have hanswers : answers log = [] := by
      have := answers_establishTunnel proxy destination w
      rwa [htunnel] at this
    unfold answers at hanswers
    simp [ClientRun.clientReceived, answers, hanswers]

/-! An upstream which refuses once, with a body of three bytes, and sends two
bytes behind its acceptance. -/

private def servedRequest : Bytes := utf8 "CONNECT c:443 HTTP/1.1\r\n\r\n".toList

private def servedRefusalRaw : Bytes :=
  utf8 ("HTTP/1.1 407 Who\r\nProxy-Authenticate: NTLM\r\n" ++ "Content-Length: 3\r\n\r\n").toList

private def servedFinalRaw : Bytes := utf8 "HTTP/1.1 200 Fine\r\n\r\n".toList

private def servedRefusalHead : ResponseHead :=
  ⟨1, 407, [⟨"Proxy-Authenticate".toList, utf8 "NTLM".toList⟩,
    ⟨"Content-Length".toList, utf8 "3".toList⟩]⟩

private def servedProxy : Proxy Unit where
  config := ⟨.v4 0x7f000001#32 3128, ⟨"up".toList, 3128⟩, .ntlm, .proxyOnly, [], 5, 10, none, 1024,
    16⟩
  authFactory := ⟨fun _ _ => .ok (), fun _ _ => (.ok [5], ())⟩
  httparse := .ofTables
    [(servedRequest, .complete 26, ⟨some "CONNECT".toList, some "c:443".toList⟩)]
    [(servedRefusalRaw, .complete 66, ⟨some 1, some 407, servedRefusalHead.headers⟩),
      (servedFinalRaw, .complete 21, ⟨some 1, some 200, []⟩)]
  base64 := .ofTable [([5], "BQ==".toList)]

private def servedRefusal :
    FramedResponse servedProxy.httparse servedProxy.config.maxHeaderBytes where
  raw := servedRefusalRaw
  head := servedRefusalHead
  ends := by decide
  fits := by decide
  few := by decide
  parsed := fun _ hslots => ⟨.complete 66, Httparse.response_ofTables (by decide) hslots⟩
  body := utf8 "off".toList
  framed := Or.inl ⟨by decide, by decide, by
    intro value hvalue
    rw [show ResponseHead.headerValues _ contentLengthField = [utf8 "3".toList] by decide,
      List.mem_singleton] at hvalue
    exact hvalue ▸ ⟨"3".toList, rfl, by decide, by decide, by decide⟩, by decide⟩

private def servedFinal : HeadOnWire servedProxy.httparse servedProxy.config.maxHeaderBytes where
  raw := servedFinalRaw
  head := ⟨1, 200, []⟩
  ends := by decide
  fits := by decide
  few := Nat.zero_le _
  parsed := fun _ hslots => ⟨.complete 21, Httparse.response_ofTables (by decide) hslots⟩

private def servedScript : UpstreamScript servedProxy .ntlm where
  refusals := [servedRefusal]
  challenges := [none]
  final := servedFinal
  rest := [21, 22]
  invites := .cons ⟨by decide, by decide, by decide⟩ .nil
  accepts := by decide

private theorem servedScript_ne_nil : servedScript.bytes ≠ [] := by decide

private theorem servedClient_ne_nil : servedRequest ++ [23] ≠ [] := by simp

private def servedSocket : Socket := ⟨⟨[⟨servedScript.bytes, servedScript_ne_nil⟩], none⟩, none, []⟩

private def servedClient : Socket :=
  ⟨⟨[⟨servedRequest ++ [23], servedClient_ne_nil⟩], none⟩, none, []⟩

private def servedWorld : World := ⟨[], [some (0, .ok servedSocket)], 0⟩

/-- There is a successful run, at the end of which the client has the head and
the two bytes. -/
theorem client_served_sample : ∃ actions run,
    servedProxy.handleClient servedClient 0 actions servedWorld = some run ∧
      run.result = some (.ok ()) ∧ run.clientReceived = establishedHead ++ [21, 22] := by
  have hrequests : Requests servedProxy servedClient ⟨"c".toList, 443⟩ [23] :=
    ⟨rfl, by simp [Writable, servedClient], servedRequest, ⟨"CONNECT".toList, "c:443".toList⟩,
      by decide, by decide, by decide, by decide, by decide,
      by decide⟩
  have hplays : servedScript.Plays servedWorld 1 := by
    refine .kept ⟨⟨0, Nat.zero_le _, rfl⟩, rfl, by simp [Writable, servedSocket]⟩ ?_ ?_ rfl ?_
    · decide
    · intro refusal hrefusal
      obtain rfl := Option.some.inj hrefusal
      exact ⟨⟨none⟩, by decide⟩
    · intro result hresult
      exact ⟨[5], List.mem_singleton.mp hresult⟩
  have hends : ∀ socket, Provided servedWorld servedProxy.config.connectTimeout socket →
      socket.incoming.ending = none := by
    rintro socket ⟨elapsed, -, hmem⟩
    rw [Except.ok.inj (Prod.mk.inj (Option.some.inj (List.mem_singleton.mp hmem))).2]
    rfl
  obtain ⟨⟨actions, run, hrun, hresult⟩, hall⟩ := (client_served 0 hrequests
    (fun hauto => absurd hauto (by decide)) hplays rfl hends).1 (by decide)
  exact ⟨actions, run, hrun, hresult, ((hall actions run hrun).2 hresult).1⟩

end Server
end Fastpx
