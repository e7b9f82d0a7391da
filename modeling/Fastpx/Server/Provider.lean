import Fastpx.Server.Transcript
import Fastpx.Sspi

/-!
# The last token of a handshake

A security context which is complete answers no challenge.  So after the step
which has completed the native context, a handshake with the upstream proxy has
one request left, the one with the token of that step, and `LastWord` lists how
it can end then.  That there is no other way is `completed_context_last`.

The step is found in the log by taking the handshake apart from its start on: the
pieces which do not use the context cannot have it (`Quiet`).
-/

namespace Fastpx
namespace Server

open StreamKit Config Http1 Effect

variable {κ : Type}

/-! ## Computations which leave the context alone -/

/-- Is the event a use of the security context? -/
def Event.isStep : Event → Bool
  | .step _ _ => true
  | _ => false

/-- The number of challenges given to the context. -/
def stepCount (log : List Event) : Nat := log.countP Event.isStep

theorem stepCount_append (past more : List Event) :
    stepCount (past ++ more) = stepCount past + stepCount more :=
  List.countP_append

theorem stepCount_step_cons (challenge : Option Bytes) (outcome : Except AuthError Bytes)
    (log : List Event) : stepCount (.step challenge outcome :: log) = stepCount log + 1 :=
  List.countP_cons_of_pos rfl

/-- The computation does not use the context. -/
abbrev Quiet {α : Type} (x : Run α) : Prop := Emits (fun event => event.isStep = false) x

theorem stepCount_of_quiet {log : List Event} (h : ∀ event ∈ log, event.isStep = false) :
    stepCount log = 0 :=
  List.countP_eq_zero.mpr fun event hmem => by simp [h event hmem]

theorem quiet_ofExcept {α : Type} (r : Except ProxyError α) : Quiet (Effect.ofExcept r) :=
  (emits_composes _).within_ofExcept r

theorem quiet_allows :
    Allows (fun _ log _ => ∀ event ∈ log, event.isStep = false) where
  toComposes := emits_composes _
  request := by simp [Event.isStep]
  wrote := by simp [Event.isStep]
  response := by simp [Event.isStep]
  drained := by simp [Event.isStep]
  create := by simp [Event.isStep]

theorem quiet_connectUpstream (proxy : Proxy κ) : Quiet proxy.connectUpstream := by
  intro w
  have houtcome := connect_outcome (.dialUpstream proxy.config.upstream)
    proxy.config.connectTimeout .connectTimeout w
  unfold Proxy.connectUpstream
  generalize connect _ _ _ w = outcome at houtcome ⊢
  cases houtcome <;> simp [Event.isStep]

theorem quiet_sendConnectRequest (c : Connection) (destination : Endpoint) (value : Option Text) :
    Quiet (sendConnectRequest c destination value) :=
  quiet_allows.sendConnectRequest c destination value

theorem quiet_readResponse (httparse : Httparse) (maxHeaderBytes : Nat) (c : Connection) :
    Quiet (readResponse httparse maxHeaderBytes c) :=
  quiet_allows.readResponse httparse maxHeaderBytes c

theorem quiet_exchange (proxy : Proxy κ) (destination : Endpoint) (scheme : AuthScheme)
    (token : Bytes) (c : Connection) : Quiet (proxy.exchange destination scheme token c) :=
  quiet_allows.exchange proxy destination scheme token c

theorem quiet_createContext (proxy : Proxy κ) (scheme : AuthScheme) :
    Quiet (proxy.createContext scheme) :=
  quiet_allows.createContext proxy scheme

theorem quiet_prepareRound (mustDrain : Bool) (response : ResponseHead) (c : Connection) :
    Quiet (Proxy.prepareRound mustDrain response c) :=
  quiet_allows.prepareRound mustDrain response c

/-! ## The rounds -/

/-- The part of a round behind its token, with the rounds that are left. -/
def Proxy.afterToken (proxy : Proxy κ) (destination : Endpoint) (scheme : AuthScheme)
    (left : Nat) (token : Bytes) (context : κ) (upstream : Connection) : Run Connection := do
  let (response, upstream) ← proxy.exchange destination scheme token upstream
  if isConnectSuccess response then pure upstream
  else if response.status ≠ 407 then fail (.upstreamStatus response.status)
  else do
    let challenge ← Effect.ofExcept (proxy.nextChallenge response scheme)
    proxy.authRounds destination scheme left upstream response context challenge true

theorem authRounds_succ (proxy : Proxy κ) (destination : Endpoint) (scheme : AuthScheme)
    (left : Nat) (c : Connection) (response : ResponseHead) (context : κ)
    (challenge : Option Bytes) (mustDrain : Bool) :
    proxy.authRounds destination scheme (left + 1) c response context challenge mustDrain =
      (do
        let upstream ← Proxy.prepareRound mustDrain response c
        let (token, context) ← proxy.stepContext context challenge
        proxy.afterToken destination scheme left token context upstream) := rfl

/-- A step behind the token of a round is one of the rounds that are left, and the
token was refused. -/
theorem afterToken_split {proxy : Proxy κ} {destination : Endpoint} {scheme : AuthScheme}
    {left : Nat} {token : Bytes} {context : κ} {c : Connection} {w : World}
    {before after : List Event} {challenge : Option Bytes} {outcome : Except AuthError Bytes}
    (hlog : (proxy.afterToken destination scheme left token context c w).2.2 =
      before ++ .step challenge outcome :: after) :
    ∃ response c' w' past before' challenge',
      proxy.exchange destination scheme token c w = (.ok (response, c'), w', past) ∧
      response.status = 407 ∧ before = past ++ before' ∧ stepCount past = 0 ∧
      (proxy.authRounds destination scheme left c' response context challenge' true w').2.2 =
        before' ++ .step challenge outcome :: after ∧
      (proxy.afterToken destination scheme left token context c w).1 =
        (proxy.authRounds destination scheme left c' response context challenge' true w').1 := by
  obtain ⟨⟨response, c'⟩, w', past, before', hexchange, hquiet, rfl, hlog', hresult⟩ :=
    (quiet_exchange proxy destination scheme token c).split (by simp [Event.isStep]) hlog
  unfold Proxy.afterToken
  rw [hresult]
  dsimp only at hlog' ⊢
  by_cases hsuccess : isConnectSuccess response = true
  · rw [if_pos hsuccess] at hlog'
    simp [pure] at hlog'
  rw [if_neg hsuccess] at hlog' ⊢
  by_cases hstatus : response.status = 407
  swap
  · rw [if_pos hstatus] at hlog'
    simp [fail] at hlog'
  rw [if_neg (not_not.mpr hstatus)] at hlog' ⊢
  cases hchallenge : proxy.nextChallenge response scheme with
  | error e =>
      rw [hchallenge] at hlog'
      simp [bind_apply, Effect.ofExcept] at hlog'
  | ok challenge' =>
      rw [hchallenge] at hlog'
      exact ⟨response, c', w', past, before', challenge', hexchange, hstatus, rfl,
        stepCount_of_quiet hquiet, hlog', rfl⟩

/-! ## The end of a handshake -/

/-- The bytes of the request with this token. -/
def tokenRequest (proxy : Proxy κ) (destination : Endpoint) (scheme : AuthScheme)
    (token : Bytes) : Bytes :=
  requestBytes destination (some (authorization proxy.base64 scheme token))

/-- The ways in which an authenticated request ends: it cannot be written, no
response can be read, or there is one. -/
inductive ExchangeOutcome (proxy : Proxy κ) (destination : Endpoint) (scheme : AuthScheme)
    (token : Bytes) (c : Connection) (w : World) :
    Except ProxyError (ResponseHead × Connection) × World × List Event → Prop
  | unsent {e : IoError} {bytes : Bytes}
      (hwrite : writeAll c.writes (tokenRequest proxy destination scheme token) =
        (.error e, bytes)) :
      ExchangeOutcome proxy destination scheme token c w (.error (.io e), w,
        [.request c.id destination (some (authorization proxy.base64 scheme token)),
          .wrote c.id bytes])
  | unanswered {e : HttpError} {stream : BufferedStream}
      (hread : c.stream.readResponseHead proxy.httparse proxy.config.maxHeaderBytes =
        (.error e, stream)) :
      ExchangeOutcome proxy destination scheme token c w (.error (.http e), w,
        [.request c.id destination (some (authorization proxy.base64 scheme token)),
          .wrote c.id (tokenRequest proxy destination scheme token)])
  | answered {response : ResponseHead} {c' : Connection} (hid : c'.id = c.id)
      (hread : c.stream.readResponseHead proxy.httparse proxy.config.maxHeaderBytes =
        (.ok response, c'.stream)) :
      ExchangeOutcome proxy destination scheme token c w (.ok (response, c'), w,
        [.request c.id destination (some (authorization proxy.base64 scheme token)),
          .wrote c.id (tokenRequest proxy destination scheme token), .response c.id response])

theorem exchange_outcome (proxy : Proxy κ) (destination : Endpoint) (scheme : AuthScheme)
    (token : Bytes) (c : Connection) (w : World) :
    ExchangeOutcome proxy destination scheme token c w
      (proxy.exchange destination scheme token c w) := by
  let value := authorization proxy.base64 scheme token
  unfold Proxy.exchange
  rcases hwrite : writeAll c.writes (tokenRequest proxy destination scheme token) with
    ⟨e | writes, accepted⟩
  · have hsend : sendConnectRequest c destination (some value) w =
        (.error (.io e), w, [.request c.id destination (some value), .wrote c.id accepted]) := by
      unfold tokenRequest requestBytes at hwrite
      simp only [sendConnectRequest, value, hwrite]
      rfl
    rw [bind_apply, hsend]
    exact .unsent hwrite
  · obtain rfl := writeAll_ok hwrite
    have hsend : sendConnectRequest c destination (some value) w =
        (.ok { c with writes := writes }, w, [.request c.id destination (some value),
          .wrote c.id (tokenRequest proxy destination scheme token)]) := by
      unfold tokenRequest requestBytes at hwrite
      simp only [sendConnectRequest, value, hwrite]
      rfl
    rw [bind_of_ok hsend]
    rcases hread : c.stream.readResponseHead proxy.httparse proxy.config.maxHeaderBytes with
      ⟨e | response, stream⟩
    · simp only [readResponse, hread]
      exact .unanswered hread
    · simp only [readResponse, hread]
      exact .answered rfl hread

/-- The response asks for another token, with a challenge that can be decoded. -/
structure AsksAgain (proxy : Proxy κ) (scheme : AuthScheme) (response : ResponseHead)
    (challenge : Option Bytes) : Prop where
  status : response.status = 407
  challenge : proxy.nextChallenge response scheme = .ok challenge

/-- How a handshake ends after the response to the last token, if the context was
given `used` challenges: what happens behind the response, of which the head was
read from `c`, and what is returned. -/
inductive LastAnswer (proxy : Proxy κ) (scheme : AuthScheme) (used : Nat) (c : Connection)
    (response : ResponseHead) : List Event → Except ProxyError Connection → Prop
  | accepted (hsuccess : isConnectSuccess response = true) :
      LastAnswer proxy scheme used c response [] (.ok c)
  | rejected (hfailure : isConnectSuccess response = false) (hstatus : response.status ≠ 407) :
      LastAnswer proxy scheme used c response [] (.error (.upstreamStatus response.status))
  | unchallenged {e : ProxyError} (hstatus : response.status = 407)
      (hchallenge : proxy.nextChallenge response scheme = .error e) :
      LastAnswer proxy scheme used c response [] (.error e)
  | exhausted {challenge : Option Bytes} (hasks : AsksAgain proxy scheme response challenge)
      (hused : used = maxAuthRounds) :
      LastAnswer proxy scheme used c response [] (.error .tooManyAuthenticationRounds)
  | closing {challenge : Option Bytes} (hasks : AsksAgain proxy scheme response challenge)
      (hused : used < maxAuthRounds) (hclose : response.connectionClose = true) :
      LastAnswer proxy scheme used c response [] (.error .connectionClosedDuringAuth)
  | undrained {challenge : Option Bytes} {e : HttpError} {stream : BufferedStream}
      (hasks : AsksAgain proxy scheme response challenge) (hused : used < maxAuthRounds)
      (hclose : response.connectionClose = false)
      (hdrain : c.stream.drainResponseBody response = (.error e, stream)) :
      LastAnswer proxy scheme used c response [] (.error (.http e))
  | complete {challenge : Option Bytes} {stream : BufferedStream}
      (hasks : AsksAgain proxy scheme response challenge) (hused : used < maxAuthRounds)
      (hclose : response.connectionClose = false)
      (hdrain : c.stream.drainResponseBody response = (.ok (), stream)) :
      LastAnswer proxy scheme used c response
        [.drained c.id, .step challenge (.error .contextComplete)]
        (.error (.authentication .contextComplete))

/-- How a handshake ends after the request with the last token is made on `c`. -/
inductive LastWord (proxy : Proxy κ) (destination : Endpoint) (scheme : AuthScheme)
    (token : Bytes) (used : Nat) (c : Connection) :
    List Event → Except ProxyError Connection → Prop
  | unsent {e : IoError} {bytes : Bytes}
      (hwrite : writeAll c.writes (tokenRequest proxy destination scheme token) =
        (.error e, bytes)) :
      LastWord proxy destination scheme token used c [.wrote c.id bytes] (.error (.io e))
  | unanswered {e : HttpError} {stream : BufferedStream}
      (hread : c.stream.readResponseHead proxy.httparse proxy.config.maxHeaderBytes =
        (.error e, stream)) :
      LastWord proxy destination scheme token used c
        [.wrote c.id (tokenRequest proxy destination scheme token)] (.error (.http e))
  | answered {response : ResponseHead} {c' : Connection} {tail : List Event}
      {r : Except ProxyError Connection} (hid : c'.id = c.id)
      (hread : c.stream.readResponseHead proxy.httparse proxy.config.maxHeaderBytes =
        (.ok response, c'.stream))
      (hlast : LastAnswer proxy scheme used c' response tail r) :
      LastWord proxy destination scheme token used c
        (.wrote c.id (tokenRequest proxy destination scheme token) ::
          .response c.id response :: tail) r

/-- The body of the last response is only consumed to hear that the context is
complete. -/
theorem LastWord.result_of_drained {proxy : Proxy κ} {destination : Endpoint}
    {scheme : AuthScheme} {token : Bytes} {used c' : Nat} {c : Connection} {tail : List Event}
    {r : Except ProxyError Connection}
    (h : LastWord proxy destination scheme token used c tail r) (hmem : .drained c' ∈ tail) :
    r = .error (.authentication .contextComplete) := by
  cases h with
  | unsent _ => simp at hmem
  | unanswered _ => simp at hmem
  | answered _ _ hlast =>
      cases hlast with
      | complete => rfl
      | _ => simp at hmem

/-- Behind the events `past` the connection `c` is idle, over the stream `incoming`,
and the request with the token is made on it, with which the handshake ends. -/
def LastRequest (proxy : Proxy κ) (destination : Endpoint) (scheme : AuthScheme) (token : Bytes)
    (used : Nat) (incoming : Incoming) (past : List Event) (c : Connection) (after : List Event)
    (r : Except ProxyError Connection) : Prop :=
  ∃ (taken : List (TakenResponse proxy.httparse)) (tail : List Event),
    Idle proxy destination incoming past c taken ∧
    after = .request c.id destination (some (authorization proxy.base64 scheme token)) :: tail ∧
    LastWord proxy destination scheme token used c tail r

section

variable {proxy : Proxy (SspiContext × List Reply)} {acquired : Except Text SecHandle}
  {replies : List Reply} {failure : Reply} {destination : Endpoint} {scheme : AuthScheme}

/-- The reply of the system to a challenge of the context. -/
def nextReply (failure : Reply) (context : SspiContext × List Reply) : Reply :=
  context.2.head?.getD failure

theorem nativeFactory_step_ok {context context' : SspiContext × List Reply}
    {challenge : Option Bytes} {token : Bytes}
    (h : (nativeFactory acquired replies failure).step context challenge = (.ok token, context')) :
    (context.1.step challenge (nextReply failure context)).result = .ok token ∧
      context' = ((context.1.step challenge (nextReply failure context)).context,
        context.2.tail) := by
  obtain ⟨hresult, hcontext⟩ := Prod.mk.inj h
  exact ⟨hresult, hcontext.symm⟩

/-- A complete context refuses every challenge. -/
theorem stepContext_of_complete
    (hnative : proxy.authFactory = nativeFactory acquired replies failure)
    {context : SspiContext × List Reply} (hcomplete : context.1.complete = true)
    (challenge : Option Bytes) (w : World) :
    proxy.stepContext context challenge w =
      (.error (.authentication .contextComplete), w,
        [.step challenge (.error .contextComplete)]) := by
  simp only [Proxy.stepContext, hnative, nativeFactory, SspiContext.step, hcomplete, if_true]
  rfl

/-- A round with a complete context, after a response which asks again. -/
theorem authRounds_of_complete
    (hnative : proxy.authFactory = nativeFactory acquired replies failure)
    {context : SspiContext × List Reply} (hcomplete : context.1.complete = true)
    {used left : Nat} (hused : used + left = maxAuthRounds) {response : ResponseHead}
    {challenge : Option Bytes} (hasks : AsksAgain proxy scheme response challenge)
    (destination : Endpoint) (c : Connection) (w : World) :
    let r := proxy.authRounds destination scheme left c response context challenge true w
    LastAnswer proxy scheme used c response r.2.2 r.1 := by
  cases left with
  | zero => exact .exhausted hasks hused
  | succ left =>
      have hless : used < maxAuthRounds := by omega
      unfold Proxy.authRounds
      rw [bind_apply]
      cases hclose : response.connectionClose with
      | true =>
          simp only [Proxy.prepareRound, hclose, if_true]
          exact .closing hasks hless hclose
      | false =>
          simp only [Proxy.prepareRound, hclose, if_true, Bool.false_eq_true, if_false]
          rcases hdrain : c.stream.drainResponseBody response with ⟨e | _, stream⟩
          · simp only [drainResponse, hdrain]
            exact .undrained hasks hless hclose hdrain
          · have hdrained : drainResponse response c w =
                (.ok { c with stream := stream }, w, [.drained c.id]) := by
              simp only [drainResponse, hdrain]
              rfl
            rw [hdrained]
            dsimp only
            rw [bind_apply, stepContext_of_complete hnative hcomplete]
            exact .complete hasks hless hclose hdrain

/-- The rest of the round in which the context became complete. -/
theorem lastWord_of_complete
    (hnative : proxy.authFactory = nativeFactory acquired replies failure)
    {context : SspiContext × List Reply} (hcomplete : context.1.complete = true) (token : Bytes)
    {used left : Nat} (hused : used + left = maxAuthRounds) (c : Connection) (w : World) :
    ∃ tail, (proxy.afterToken destination scheme left token context c w).2.2 =
        .request c.id destination (some (authorization proxy.base64 scheme token)) :: tail ∧
      LastWord proxy destination scheme token used c tail
        (proxy.afterToken destination scheme left token context c w).1 := by
  have houtcome := exchange_outcome proxy destination scheme token c w
  unfold Proxy.afterToken
  rw [bind_apply]
  generalize proxy.exchange destination scheme token c w = outcome at houtcome ⊢
  cases houtcome with
  | unsent hwrite => exact ⟨_, rfl, .unsent hwrite⟩
  | unanswered hread => exact ⟨_, rfl, .unanswered hread⟩
  | @answered response c' hid hread =>
      refine ⟨_, rfl, .answered hid hread ?_⟩
      dsimp only
      by_cases hsuccess : isConnectSuccess response = true
      · rw [if_pos hsuccess]
        exact .accepted hsuccess
      rw [if_neg hsuccess]
      by_cases hstatus : response.status = 407
      swap
      · rw [if_pos hstatus]
        exact .rejected (by simpa using hsuccess) hstatus
      rw [if_neg (not_not.mpr hstatus)]
      cases hchallenge : proxy.nextChallenge response scheme with
      | error e => exact .unchallenged hstatus hchallenge
      | ok challenge =>
          exact authRounds_of_complete hnative hcomplete hused ⟨hstatus, hchallenge⟩
            destination c' w

/-- In the rounds, from a context which was given `used` challenges. -/
theorem authRounds_lastRequest
    (hnative : proxy.authFactory = nativeFactory acquired replies failure) {used rounds : Nat}
    (hrounds : used + rounds = maxAuthRounds) {context : SspiContext × List Reply}
    (hcontext : context.2 = replies.drop used) {incoming : Incoming} {past : List Event}
    {c : Connection} {taken : List (TakenResponse proxy.httparse)} {response : ResponseHead}
    {challenge asked : Option Bytes} {mustDrain : Bool} {w : World} {before after : List Event}
    {token : Bytes}
    (hstart : RoundStart proxy destination incoming past c taken response mustDrain)
    (hlog : (proxy.authRounds destination scheme rounds c response context challenge mustDrain
      w).2.2 = before ++ .step asked (.ok token) :: after)
    (hfinal : isFinal (replies[used + stepCount before]?.getD failure).status = true) :
    ∃ c', c'.id = c.id ∧
      LastRequest proxy destination scheme token (used + stepCount before + 1) incoming
        (past ++ (before ++ [.step asked (.ok token)])) c' after
        (proxy.authRounds destination scheme rounds c response context challenge mustDrain
          w).1 := by
  induction rounds generalizing used context past c taken response challenge mustDrain w before with
  | zero => simp [Proxy.authRounds, fail] at hlog
  | succ left ih =>
      rw [authRounds_succ] at hlog ⊢
      obtain ⟨c₁, w₁, past₁, before₁, hprepare, hquiet₁, rfl, hlog₁, hresult₁⟩ :=
        (quiet_prepareRound mustDrain response c).split (by simp [Event.isStep]) hlog
      obtain ⟨taken₁, hidle, hrefused, hid₁, -⟩ := hstart.prepare hprepare
      rw [stepCount_append, stepCount_of_quiet hquiet₁, Nat.zero_add] at hfinal ⊢
      rw [hresult₁]
      rcases hstep : proxy.authFactory.step context challenge with ⟨e | token', context₂⟩
      -- an error of the context is the last event
      · have hfailed : proxy.stepContext context challenge w₁ =
            (.error (.authentication e), w₁, [.step challenge (.error e)]) := by
          simp only [Proxy.stepContext, hstep]
          rfl
        rw [bind_apply, hfailed] at hlog₁
        have hmem : Event.step asked (.ok token) ∈ [Event.step challenge (.error e)] := by
          rw [show [Event.step challenge (.error e)] = _ from hlog₁]
          simp
        simp at hmem
      have hstepped : proxy.stepContext context challenge w₁ =
          (.ok (token', context₂), w₁, [.step challenge (.ok token')]) := by
        simp only [Proxy.stepContext, hstep]
        rfl
      rw [bind_of_ok hstepped] at hlog₁ ⊢
      rw [hnative] at hstep
      obtain ⟨hanswer, hcontext₂⟩ := nativeFactory_step_ok hstep
      have hleft : used + 1 + left = maxAuthRounds := by omega
      have hidle₂ : Idle proxy destination incoming
          (past ++ past₁ ++ [.step challenge (.ok token')]) c₁ taken₁ := hidle.skip rfl rfl rfl
      cases before₁ with
      -- the step of this round
      | nil =>
          obtain ⟨hevent, hafter⟩ := List.cons.inj hlog₁
          obtain ⟨rfl, htoken⟩ := Event.step.inj hevent
          obtain rfl := Except.ok.inj htoken
          have hcomplete : context₂.1.complete = true := by
            rw [hcontext₂]
            refine SspiContext.complete_of_step hanswer ?_
            rw [nextReply, hcontext, List.head?_drop]
            exact hfinal
          obtain ⟨tail, htail, hlast⟩ := lastWord_of_complete hnative hcomplete token' hleft c₁ w₁
          refine ⟨c₁, hid₁, taken₁, tail, ?_, hafter.symm.trans htail, hlast⟩
          simpa only [List.append_nil, List.append_assoc] using hidle₂
      -- a step of a later round
      | cons first before₂ =>
          obtain ⟨rfl, hlog₂⟩ := List.cons.inj hlog₁
          obtain ⟨response₃, c₃, w₃, past₃, before₃, challenge₃, hexchange, hstatus, rfl, hnone,
            hlog₃, hresult₃⟩ := afterToken_split hlog₂
          obtain ⟨raw, hanswered, hid₃, -⟩ := hidle₂.exchangeToken hexchange
          have hnext : context₂.2 = replies.drop (used + 1) := by
            rw [hcontext₂, hcontext, List.tail_drop]
          have hused : used + stepCount (.step challenge (.ok token') :: (past₃ ++ before₃)) =
              used + 1 + stepCount before₃ := by
            rw [stepCount_step_cons, stepCount_append, hnone]
            omega
          rw [hused] at hfinal ⊢
          rw [show (proxy.afterToken destination scheme left token' context₂ c₁ w₁).1 = _ from
            hresult₃]
          obtain ⟨c', hid, hlast⟩ := ih hleft hnext
            ⟨by simp, fun _ => ⟨hstatus, raw, hanswered⟩, hrefused⟩ hlog₃ hfinal
          refine ⟨c', hid.trans (hid₃.trans hid₁), ?_⟩
          simpa only [List.append_assoc, List.cons_append, List.nil_append] using hlast

/-- In the answer to the probe's challenge. -/
theorem authenticate_lastRequest
    (hnative : proxy.authFactory = nativeFactory acquired replies failure) {w₀ w : World}
    {past : List Event} {socket : Socket} {c : Connection} {raw : Bytes} {response : ResponseHead}
    {asked : Option Bytes} {before after : List Event} {token : Bytes}
    (hprobed : Probed proxy destination w₀ past w socket c raw response)
    (hstatus : response.status = 407)
    (hlog : (proxy.authenticate destination c response w).2.2 =
      before ++ .step asked (.ok token) :: after)
    (hfinal : isFinal (replies[stepCount before]?.getD failure).status = true) :
    ∃ scheme socket' c', OpenedOn w₀ proxy.config.connectTimeout c'.id socket' ∧
      LastRequest proxy destination scheme token (stepCount before + 1) socket'.incoming
        (past ++ (before ++ [.step asked (.ok token)])) c' after
        (proxy.authenticate destination c response w).1 := by
  have hevent : ¬ (Event.step asked (.ok token)).isStep = false := by simp [Event.isStep]
  obtain ⟨⟨scheme, first⟩, w₁, past₁, before₁, hchosen, hquiet₁, rfl, hlog₁, hresult₁⟩ :=
    (quiet_ofExcept _).split hevent hlog
  obtain ⟨context, w₂, past₂, before₂, hcreate, hquiet₂, rfl, hlog₂, hresult₂⟩ :=
    (quiet_createContext proxy scheme).split hevent hlog₁
  obtain ⟨challenge, w₃, past₃, before₃, hdecode, hquiet₃, rfl, hlog₃, hresult₃⟩ :=
    (quiet_ofExcept _).split hevent hlog₂
  rw [stepCount_append, stepCount_append, stepCount_append, stepCount_of_quiet hquiet₁,
    stepCount_of_quiet hquiet₂, stepCount_of_quiet hquiet₃, Nat.zero_add, Nat.zero_add,
    Nat.zero_add] at hfinal ⊢
  obtain ⟨-, rfl, rfl⟩ := Effect.ofExcept_eq_ok hchosen
  obtain ⟨rfl, rfl, hcreated⟩ := createContext_ok hcreate
  obtain ⟨-, rfl, rfl⟩ := Effect.ofExcept_eq_ok hdecode
  have hcontext : context.2 = replies.drop 0 := by
    rw [hnative] at hcreated
    simp only [nativeFactory] at hcreated
    split at hcreated
    · cases hcreated
    · rw [← Except.ok.inj hcreated]
      rfl
  unfold Proxy.authenticate
  rw [hresult₁, hresult₂, hresult₃]
  refine ⟨scheme, ?_⟩
  have hrounds : 0 + maxAuthRounds = maxAuthRounds := Nat.zero_add _
  rw [← Nat.zero_add (stepCount before₃)] at hfinal ⊢
  cases hclose : response.connectionClose with
  | false =>
      simp only [hclose, Bool.false_eq_true, if_false] at hlog₃ ⊢
      obtain ⟨c', hid, hlast⟩ := authRounds_lastRequest hnative hrounds hcontext
        (hprobed.reuse hstatus scheme (targetName proxy.config.upstream)) hlog₃ hfinal
      refine ⟨socket, c', hid ▸ hprobed.opened, ?_⟩
      simpa only [List.append_assoc, List.nil_append] using hlast
  | true =>
      simp only [hclose, if_true] at hlog₃ ⊢
      cases challenge with
      | some bytes => simp [fail] at hlog₃
      | none =>
          obtain ⟨c₄, w₄, past₄, before₄, hconnect, hquiet₄, rfl, hlog₄, hresult₄⟩ :=
            (quiet_connectUpstream proxy).split hevent hlog₃
          obtain ⟨socket', hopened, -, hstart⟩ := hprobed.reconnect hconnect scheme
            (targetName proxy.config.upstream)
          rw [stepCount_append, stepCount_of_quiet hquiet₄, Nat.zero_add (stepCount before₄)]
            at hfinal ⊢
          simp only [Option.isSome_none, Bool.false_eq_true, if_false]
          rw [hresult₄]
          obtain ⟨c', hid, hlast⟩ :=
            authRounds_lastRequest hnative hrounds hcontext hstart hlog₄ hfinal
          refine ⟨socket', c', hid ▸ hopened, ?_⟩
          simpa only [List.append_assoc, List.nil_append] using hlast

end

/-- **A completed context is the last word.**  Take any handshake with the native
provider, against any upstream and any behaviour of the system, and a step in its
log which has completed the security context.  At that moment the handshake has a
connection of the network, of which it has taken whole responses only.  The next
event is the request with the token of that step on this connection, and then the
handshake ends in one of the ways of `LastWord`.  In particular no other request
is sent and no other challenge is answered.  If the upstream asks again, with a
challenge which can be decoded, in a response which keeps the connection open and
whose body can be consumed, and there is a round left, then the context refuses
and the handshake returns that the context is complete. -/
theorem completed_context_last {proxy : Proxy (SspiContext × List Reply)}
    {acquired : Except Text SecHandle} {replies : List Reply} {failure : Reply}
    (hnative : proxy.authFactory = nativeFactory acquired replies failure)
    {destination : Endpoint} {w : World} {before after : List Event} {asked : Option Bytes}
    {token : Bytes}
    (hlog : (proxy.establishUpstreamTunnel destination w).2.2 =
      before ++ .step asked (.ok token) :: after)
    (hfinal : isFinal (replies[stepCount before]?.getD failure).status = true) :
    ∃ scheme socket c, OpenedOn w proxy.config.connectTimeout c.id socket ∧
      LastRequest proxy destination scheme token (stepCount before + 1) socket.incoming
        (before ++ [.step asked (.ok token)]) c after
        (proxy.establishUpstreamTunnel destination w).1 := by
  have hevent : ¬ (Event.step asked (.ok token)).isStep = false := by simp [Event.isStep]
  obtain ⟨c₁, w₁, past₁, before₁, hconnect, hquiet₁, rfl, hlog₁, hresult₁⟩ :=
    (quiet_connectUpstream proxy).split hevent hlog
  obtain ⟨c₂, w₂, past₂, before₂, hsend, hquiet₂, rfl, hlog₂, hresult₂⟩ :=
    (quiet_sendConnectRequest _ _ _).split hevent hlog₁
  obtain ⟨⟨response, c₃⟩, w₃, past₃, before₃, hread, hquiet₃, rfl, hlog₃, hresult₃⟩ :=
    (quiet_readResponse _ _ _).split hevent hlog₂
  obtain ⟨socket, raw, hprobed⟩ := probe_ok hconnect hsend hread
  rw [stepCount_append, stepCount_append, stepCount_append, stepCount_of_quiet hquiet₁,
    stepCount_of_quiet hquiet₂, stepCount_of_quiet hquiet₃, Nat.zero_add, Nat.zero_add,
    Nat.zero_add] at hfinal ⊢
  unfold Proxy.establishUpstreamTunnel
  rw [hresult₁, hresult₂, hresult₃]
  dsimp only at hlog₃ ⊢
  by_cases hsuccess : isConnectSuccess response = true
  · rw [if_pos hsuccess] at hlog₃
    simp [pure] at hlog₃
  rw [if_neg hsuccess] at hlog₃ ⊢
  by_cases hstatus : response.status = 407
  swap
  · rw [if_pos hstatus] at hlog₃
    simp [fail] at hlog₃
  rw [if_neg (not_not.mpr hstatus)] at hlog₃ ⊢
  by_cases hmode : proxy.config.auth = .none
  · rw [if_pos hmode] at hlog₃
    simp [fail] at hlog₃
  rw [if_neg hmode] at hlog₃ ⊢
  obtain ⟨scheme, socket', c', hopened, hlast⟩ :=
    authenticate_lastRequest hnative hprobed hstatus hlog₃ hfinal
  refine ⟨scheme, socket', c', hopened, ?_⟩
  simpa only [List.append_assoc] using hlast

/-! An upstream which refuses twice, and a system which completes the context in
the first step. -/

private def askingRaw : Bytes :=
  utf8 "HTTP/1.1 407 Ask\r\nProxy-Authenticate: NTLM\r\nContent-Length: 0\r\n\r\n".toList

private def askingHead : ResponseHead :=
  ⟨1, 407, [⟨"Proxy-Authenticate".toList, utf8 "NTLM".toList⟩,
    ⟨"Content-Length".toList, utf8 "0".toList⟩]⟩

private def completingReply : Reply := ⟨secEOk, ⟨1, 2⟩, 4096, [9], .ok (), .ok ()⟩

private def completingProxy : Proxy (SspiContext × List Reply) where
  config := ⟨.v4 0x7f000001#32 3128, ⟨"up".toList, 3128⟩, .ntlm, .proxyOnly, [], 5, 10, none, 1024,
    16⟩
  authFactory := nativeFactory (.ok ⟨5, 6⟩) [completingReply] completingReply
  httparse := .ofTables [] [(askingRaw, .complete 66, ⟨some 1, some 407, askingHead.headers⟩)]
  base64 := .ofTable [([9], "CQ==".toList)]

private theorem askingRaw_ne_nil : askingRaw ++ askingRaw ≠ [] := by decide

private def completingWorld : World :=
  ⟨[], [some (0, .ok ⟨⟨[⟨askingRaw ++ askingRaw, askingRaw_ne_nil⟩], none⟩, none, []⟩)], 0⟩

private def askedFor : Endpoint := ⟨"d".toList, 443⟩

private def completingBefore : List Event :=
  [.dialUpstream ⟨"up".toList, 3128⟩, .opened 0, .request 0 askedFor none,
    .wrote 0 (utf8 (connectRequest askedFor none)), .response 0 askingHead,
    .create .ntlm "HTTP/up".toList, .drained 0]

private def completingAfter : List Event :=
  [.request 0 askedFor (some "NTLM CQ==".toList),
    .wrote 0 (utf8 (connectRequest askedFor (some "NTLM CQ==".toList))), .response 0 askingHead,
    .drained 0, .step none (.error .contextComplete)]

/-- The token is sent, and the handshake reports that the context is complete. -/
theorem completed_context_last_sample :
    (∃ c scheme, completingAfter.head? =
      some (.request c askedFor (some (authorization completingProxy.base64 scheme [9])))) ∧
    (completingProxy.establishUpstreamTunnel askedFor completingWorld).1 =
      .error (.authentication .contextComplete) := by
  have hlog : (completingProxy.establishUpstreamTunnel askedFor completingWorld).2.2 =
      completingBefore ++ .step none (.ok [9]) :: completingAfter := by
    decide +kernel
  have hnative : completingProxy.authFactory =
      nativeFactory (.ok ⟨5, 6⟩) [completingReply] completingReply := rfl
  obtain ⟨scheme, socket, c, -, taken, tail, -, hafter, hlast⟩ :=
    completed_context_last hnative hlog (by decide)
  have hdrained : Event.drained 0 ∈ tail := by
    rw [← show completingAfter.tail = tail by rw [hafter]; rfl]
    simp [completingAfter]
  exact ⟨⟨c.id, scheme, by rw [hafter]; rfl⟩, hlast.result_of_drained hdrained⟩

end Server
end Fastpx
