import Fastpx.Server.Handshake

/-!
# The handshake protocol

What a handshake with the upstream proxy may look like, as a transition
relation over the events of a run: which connection a request may be sent on,
when a security context is created, where its challenges come from, and when a
connection may be used again.  `establishUpstreamTunnel` is shown to follow it
(`establish_guided`); properties of all handshakes are then invariants of the
relation.
-/

namespace Fastpx
namespace Server

open StreamKit Config Http1 Effect

/-- What is fixed before a handshake starts. -/
structure Terms where
  destination : Endpoint
  upstream : Endpoint
  mode : AuthMode
  base64 : Base64

/-- How far a handshake has come.  `c` is the connection in use; a round is the
scheme and the number of further rounds, and the probe has none. -/
inductive Phase where
  | start
  | dialing
  /-- the probe's connection is open -/
  | fresh (c : Nat)
  /-- a request is being written -/
  | asking (c : Nat) (round : Option (AuthScheme × Nat)) (authorization : Option Text)
  | waiting (c : Nat) (round : Option (AuthScheme × Nat))
  | answered (c : Nat) (round : Option (AuthScheme × Nat)) (response : ResponseHead)
  /-- the probe was refused and a security context exists -/
  | created (c : Nat) (response : ResponseHead) (scheme : AuthScheme) (challenge : Challenge)
  /-- the probe's connection `c` is given up and another one is being opened -/
  | redialing (c : Nat) (scheme : AuthScheme)
  /-- the context may be given a challenge; `left` rounds are left -/
  | ready (c : Nat) (scheme : AuthScheme) (challenge : Option Bytes) (left : Nat)
  | stepped (c : Nat) (scheme : AuthScheme) (token : Bytes) (left : Nat)
  | failed (c : Nat) (scheme : AuthScheme)

/-- The drain code finds a framing for the body of the response, or takes it to
have none. -/
def Drainable (response : ResponseHead) : Prop :=
  response.isChunked = true ∨ ∃ length, response.contentLength = .ok length

/-- A response after which its connection is used again. -/
structure Reusable (response : ResponseHead) : Prop where
  status : response.status = 407
  keepsOpen : response.connectionClose = false
  drainable : Drainable response

/-- The transitions of a handshake. -/
inductive Step (terms : Terms) : Phase → Event → Phase → Prop
  | dial : Step terms .start (.dialUpstream terms.upstream) .dialing
  | openProbe {c : Nat} : Step terms .dialing (.opened c) (.fresh c)
  | probe {c : Nat} :
      Step terms (.fresh c) (.request c terms.destination none) (.asking c none none)
  | write {c : Nat} {round : Option (AuthScheme × Nat)} {value : Option Text} {bytes : Bytes}
      (hbytes : bytes <+: utf8 (connectRequest terms.destination value)) :
      Step terms (.asking c round value) (.wrote c bytes) (.waiting c round)
  | receive {c : Nat} {round : Option (AuthScheme × Nat)} {response : ResponseHead} :
      Step terms (.waiting c round) (.response c response) (.answered c round response)
  | create {c : Nat} {response : ResponseHead} {scheme : AuthScheme} {challenge : Challenge}
      (hstatus : response.status = 407)
      (hchosen : chooseScheme response terms.mode = .ok (scheme, challenge)) :
      Step terms (.answered c none response) (.create scheme (targetName terms.upstream))
        (.created c response scheme challenge)
  /-- A challenge without a token is not bound to the probe's connection. -/
  | redial {c : Nat} {response : ResponseHead} {scheme : AuthScheme} {challenge : Challenge}
      (hclose : response.connectionClose = true)
      (htoken : decodeChallenge terms.base64 challenge = .ok none) :
      Step terms (.created c response scheme challenge) (.dialUpstream terms.upstream)
        (.redialing c scheme)
  | reopen {c c' : Nat} {scheme : AuthScheme} (hne : c' ≠ c) :
      Step terms (.redialing c scheme) (.opened c') (.ready c' scheme none maxAuthRounds)
  | reuseProbe {c : Nat} {response : ResponseHead} {scheme : AuthScheme} {challenge : Challenge}
      {bytes : Option Bytes} (hreusable : Reusable response)
      (hdecode : decodeChallenge terms.base64 challenge = .ok bytes) :
      Step terms (.created c response scheme challenge) (.drained c)
        (.ready c scheme bytes maxAuthRounds)
  | token {c left : Nat} {scheme : AuthScheme} {challenge : Option Bytes} {token : Bytes} :
      Step terms (.ready c scheme challenge (left + 1)) (.step challenge (.ok token))
        (.stepped c scheme token left)
  | refuse {c left : Nat} {scheme : AuthScheme} {challenge : Option Bytes} {e : AuthError} :
      Step terms (.ready c scheme challenge (left + 1)) (.step challenge (.error e))
        (.failed c scheme)
  | authorize {c left : Nat} {scheme : AuthScheme} {token : Bytes} :
      Step terms (.stepped c scheme token left)
        (.request c terms.destination (some (authorization terms.base64 scheme token)))
        (.asking c (some (scheme, left)) (some (authorization terms.base64 scheme token)))
  | reuse {c left : Nat} {scheme : AuthScheme} {response : ResponseHead} {challenge : Challenge}
      {bytes : Option Bytes} (hreusable : Reusable response)
      (hfound : findChallenge response scheme = some challenge)
      (hdecode : decodeChallenge terms.base64 challenge = .ok bytes) :
      Step terms (.answered c (some (scheme, left + 1)) response) (.drained c)
        (.ready c scheme bytes (left + 1))

/-- The connection on which the upstream has accepted the request. -/
def Phase.accepted : Phase → Option Nat
  | .answered c _ response => if isConnectSuccess response then some c else none
  | _ => none

/-! ## The pieces of a handshake -/

section

variable {terms : Terms}

/-- What a computation which returns a connection promises at its end: the
upstream has accepted on it, or there is an error. -/
def Outcome (r : Except ProxyError Connection) (s : Phase) : Prop :=
  s.accepted = r.toOption.map Connection.id

theorem outcome_error {e : ProxyError} {s : Phase} (h : s.accepted = none) :
    Outcome (.error e) s := h

/-- Opening a connection: the attempt, and the opened connection if there is
one. -/
theorem connect_guided {s s₁ : Phase} (s₂ : Nat → Phase) {w : World} {attempt : Event}
    {limit : Nat} {timeoutError : ProxyError} (hattempt : Step terms s attempt s₁)
    (hopened : Step terms s₁ (.opened w.nextConnection) (s₂ w.nextConnection)) :
    Guided (Step terms) (connect attempt limit timeoutError) s w fun r s' w' =>
      match r with
      | .ok c => s' = s₂ w.nextConnection ∧ c.id = w.nextConnection ∧
          w'.nextConnection = w.nextConnection + 1
      | .error _ => s' = s₁ ∨ s' = s₂ w.nextConnection := by
  have houtcome := connect_outcome attempt limit timeoutError w
  unfold Guided
  generalize connect attempt limit timeoutError w = outcome at houtcome
  cases houtcome with
  | unopened => exact ⟨s₁, Runs.single hattempt, Or.inl rfl⟩
  | refused => exact ⟨_, Runs.cons hattempt (Runs.single hopened), Or.inr rfl⟩
  | connected _ _ hnext =>
      exact ⟨_, Runs.cons hattempt (Runs.single hopened), rfl, rfl, hnext⟩

/-- Sending a request on the connection in use. -/
theorem sendConnectRequest_guided {s : Phase} {w : World} {c : Connection}
    {round : Option (AuthScheme × Nat)} {value : Option Text}
    (hrequest : Step terms s (.request c.id terms.destination value) (.asking c.id round value)) :
    Guided (Step terms) (sendConnectRequest c terms.destination value) s w fun r s' w' =>
      s' = .waiting c.id round ∧ w' = w ∧
        match r with
        | .ok c' => c'.id = c.id
        | .error _ => True := by
  refine guided_bind (guided_emit hrequest ?_)
  refine guided_bind (guided_emit (Step.write (writeAll_isPrefix _ _)) ?_)
  dsimp only
  split
  · exact guided_fail ⟨rfl, rfl, trivial⟩
  · exact guided_pure ⟨rfl, rfl, rfl⟩

/-- Reading the response to the last request. -/
theorem readResponse_guided {w : World} {c : Connection} {round : Option (AuthScheme × Nat)}
    (httparse : Httparse) (maxHeaderBytes : Nat) :
    Guided (Step terms) (readResponse httparse maxHeaderBytes c) (.waiting c.id round) w
      fun r s' w' => w' = w ∧
        match r with
        | .ok (response, c') => s' = .answered c.id round response ∧ c'.id = c.id
        | .error _ => s' = .waiting c.id round := by
  unfold readResponse
  split
  · exact guided_fail ⟨rfl, rfl⟩
  · exact guided_bind (guided_emit Step.receive (guided_pure ⟨rfl, rfl, rfl⟩))

/-- A body was only drained if its framing could be read. -/
theorem drainable_of_drain {response : ResponseHead} {b b' : BufferedStream}
    (h : b.drainResponseBody response = (.ok (), b')) : Drainable response := by
  unfold BufferedStream.drainResponseBody at h
  split at h
  · next hchunked => exact Or.inl hchunked
  · split at h
    · cases (Prod.mk.inj h).1
    · next length hlength => exact Or.inr ⟨_, hlength⟩
    · next hlength => exact Or.inr ⟨_, hlength⟩

/-- The start of a round: the last response is drained, unless the connection
is fresh. -/
theorem prepareRound_guided {s ready : Phase} {w : World} {c : Connection} {mustDrain : Bool}
    {response : ResponseHead} (hfresh : mustDrain = false → s = ready)
    (hdrain : mustDrain = true → response.connectionClose = false → Drainable response →
      Step terms s (.drained c.id) ready) :
    Guided (Step terms) (Proxy.prepareRound mustDrain response c) s w fun r s' w' =>
      w' = w ∧
        match r with
        | .ok c' => s' = ready ∧ c'.id = c.id
        | .error _ => s' = s := by
  unfold Proxy.prepareRound
  split
  · next hmust =>
      split
      · exact guided_fail ⟨rfl, rfl⟩
      · next hopen =>
          unfold drainResponse
          split
          · exact guided_fail ⟨rfl, rfl⟩
          · next stream hbody =>
              have hstep := hdrain hmust (by simpa using hopen) (drainable_of_drain hbody)
              exact guided_bind (guided_emit hstep (guided_pure ⟨rfl, rfl, rfl⟩))
  · next hmust => exact guided_pure ⟨rfl, hfresh (by simpa using hmust), rfl⟩

end

/-! ## The handshake follows the protocol -/

variable {κ : Type}

/-- The terms of a handshake of this proxy. -/
abbrev Proxy.terms (proxy : Proxy κ) (destination : Endpoint) : Terms :=
  ⟨destination, proxy.config.upstream, proxy.config.auth, proxy.base64⟩

theorem stepContext_guided {terms : Terms} (proxy : Proxy κ) {w : World} {c left : Nat}
    {scheme : AuthScheme} {context : κ} {challenge : Option Bytes} :
    Guided (Step terms) (proxy.stepContext context challenge)
      (.ready c scheme challenge (left + 1)) w fun r s' w' => w' = w ∧
        match r with
        | .ok (token, _) => s' = .stepped c scheme token left
        | .error _ => s' = .failed c scheme := by
  unfold Proxy.stepContext
  dsimp only
  apply guided_bind
  cases (proxy.authFactory.step context challenge).1 with
  | error e => exact guided_emit Step.refuse (guided_fail ⟨rfl, rfl⟩)
  | ok token => exact guided_emit Step.token (guided_pure ⟨rfl, rfl⟩)

theorem exchange_guided (proxy : Proxy κ) {destination : Endpoint} {w : World} {c : Connection}
    {left : Nat} {scheme : AuthScheme} {token : Bytes} :
    Guided (Step (proxy.terms destination)) (proxy.exchange destination scheme token c)
      (.stepped c.id scheme token left) w fun r s' w' => w' = w ∧
        match r with
        | .ok (response, c') => s' = .answered c.id (some (scheme, left)) response ∧ c'.id = c.id
        | .error _ => s'.accepted = none := by
  apply guided_bind
  refine (sendConnectRequest_guided Step.authorize).mono ?_
  rintro (e | c') s' w' ⟨rfl, rfl, hid⟩
  · exact ⟨rfl, rfl⟩
  · dsimp only at hid ⊢
    rw [← hid]
    refine (readResponse_guided proxy.httparse proxy.config.maxHeaderBytes).mono ?_
    rintro (e | ⟨response, c''⟩) s' w' ⟨rfl, h⟩
    · exact ⟨rfl, by rw [show s' = _ from h]; rfl⟩
    · exact ⟨rfl, h⟩

/-- The rounds follow the protocol from a connection which is ready for them,
or whose last response still has to be drained. -/
theorem authRounds_guided (proxy : Proxy κ) {destination : Endpoint} {scheme : AuthScheme}
    {rounds : Nat} {s : Phase} {w : World} {c : Connection} {response : ResponseHead}
    {context : κ} {challenge : Option Bytes} {mustDrain : Bool} (hs : s.accepted = none)
    (hfresh : mustDrain = false → s = .ready c.id scheme challenge rounds)
    (hdrain : mustDrain = true → response.connectionClose = false → Drainable response →
      rounds ≠ 0 → Step (proxy.terms destination) s (.drained c.id)
        (.ready c.id scheme challenge rounds)) :
    Guided (Step (proxy.terms destination))
      (proxy.authRounds destination scheme rounds c response context challenge mustDrain) s w
      fun r s' _ => Outcome r s' := by
  induction rounds generalizing s w c response context challenge mustDrain with
  | zero => exact guided_fail (outcome_error hs)
  | succ left ih =>
      apply guided_bind
      refine (prepareRound_guided hfresh fun hmust hclose hbody =>
        hdrain hmust hclose hbody (by omega)).mono ?_
      -- consume the last response
      rintro (e | c₁) s₁ w₁ ⟨rfl, h₁⟩
      · exact outcome_error (by rw [show s₁ = s from h₁]; exact hs)
      obtain ⟨rfl, hid₁⟩ := h₁
      dsimp only
      apply guided_bind
      refine (stepContext_guided proxy).mono ?_
      -- step the context
      rintro (e | ⟨token, context₂⟩) s₂ w₂ ⟨rfl, h₂⟩
      · exact outcome_error (by rw [show s₂ = _ from h₂]; rfl)
      obtain rfl : s₂ = _ := h₂
      dsimp only
      apply guided_bind
      rw [← hid₁]
      refine (exchange_guided proxy).mono ?_
      -- send the request and read its response
      rintro (e | ⟨response₃, c₃⟩) s₃ w₃ ⟨rfl, h₃⟩
      · exact outcome_error h₃
      obtain ⟨rfl, hid₃⟩ := h₃
      dsimp only
      split
      · next hsuccess =>
          refine guided_pure ?_
          simp [Outcome, Phase.accepted, hsuccess, hid₃, Except.toOption]
      next hnot =>
      have hnone : (Phase.answered c₁.id (some (scheme, left)) response₃).accepted = none := by
        simp [Phase.accepted, hnot]
      split
      · exact guided_fail (outcome_error hnone)
      next hstatus =>
      apply guided_bind
      apply guided_ofExcept
      cases hnext : proxy.nextChallenge response₃ scheme with
      | error e => exact outcome_error hnone
      | ok challenge₄ =>
          -- the next round begins with the drain, so the step to `ready` is owed only if
          -- there is a next round: with none left the run ends in `answered`
          refine ih hnone (by simp) fun _ hclose hbody hleft => ?_
          obtain ⟨more, rfl⟩ := Nat.exists_eq_succ_of_ne_zero hleft
          unfold Proxy.nextChallenge at hnext
          split at hnext
          · cases hnext
          · next found hfound =>
              rw [hid₃]
              exact Step.reuse ⟨by simpa using hstatus, hclose, hbody⟩ hfound hnext

/-- The answer to a refused probe follows the protocol. -/
theorem authenticate_guided (proxy : Proxy κ) {destination : Endpoint} {w : World}
    {c : Connection} {response : ResponseHead} (hstatus : response.status = 407)
    (hs : (Phase.answered c.id none response).accepted = none) (hid : c.id < w.nextConnection) :
    Guided (Step (proxy.terms destination)) (proxy.authenticate destination c response)
      (.answered c.id none response) w fun r s' _ => Outcome r s' := by
  apply guided_bind
  apply guided_ofExcept
  cases hchosen : chooseScheme response proxy.config.auth with
  | error e => exact outcome_error hs
  | ok chosen =>
      obtain ⟨scheme, firstChallenge⟩ := chosen
      dsimp only
      apply guided_bind
      refine guided_bind (guided_emit (Step.create hstatus hchosen) ?_)
      dsimp only
      cases proxy.authFactory.create scheme (targetName proxy.config.upstream) with
      | error e => exact guided_fail (outcome_error rfl)
      | ok context =>
          refine guided_pure (guided_bind (guided_ofExcept ?_))
          cases hdecode : decodeChallenge proxy.base64 firstChallenge with
          | error e => exact outcome_error rfl
          | ok challenge =>
              dsimp only
              split
              · next hclose =>
                  cases challenge with
                  -- a token belongs to the connection that is being closed
                  | some bytes => exact guided_fail (outcome_error rfl)
                  | none =>
                      refine guided_bind ((connect_guided (fun c' => .ready c' scheme none
                        maxAuthRounds) (Step.redial hclose hdecode)
                        (Step.reopen (by omega))).mono ?_)
                      rintro (e | c') s' w' h
                      · rcases h with rfl | rfl <;> exact outcome_error rfl
                      · obtain ⟨rfl, hid', -⟩ := h
                        refine authRounds_guided proxy rfl ?_ (by simp)
                        exact fun _ => by rw [hid']
              · next hopen =>
                  refine authRounds_guided proxy rfl (by simp) fun _ hclose hbody _ => ?_
                  exact Step.reuseProbe ⟨hstatus, hclose, hbody⟩ hdecode

/-- Every handshake with the upstream proxy follows the protocol, and returns a
connection exactly when the upstream accepted on it. -/
theorem establish_guided (proxy : Proxy κ) (destination : Endpoint) (w : World) :
    Guided (Step (proxy.terms destination)) (proxy.establishUpstreamTunnel destination) .start w
      fun r s' _ => Outcome r s' := by
  apply guided_bind
  refine (connect_guided .fresh Step.dial Step.openProbe).mono ?_
  rintro (e | c) s₁ w₁ h₁
  · rcases h₁ with rfl | rfl <;> exact outcome_error rfl
  obtain ⟨rfl, hid, hnext⟩ := h₁
  rw [← hid] at hnext ⊢
  dsimp only
  apply guided_bind
  refine (sendConnectRequest_guided Step.probe).mono ?_
  rintro (e | c₂) s₂ w₂ ⟨rfl, rfl, hid₂⟩
  · exact outcome_error rfl
  dsimp only at hid₂ ⊢
  rw [← hid₂] at hnext ⊢
  apply guided_bind
  refine (readResponse_guided proxy.httparse proxy.config.maxHeaderBytes).mono ?_
  rintro (e | ⟨response, c₃⟩) s₃ w₃ ⟨rfl, h₃⟩
  · exact outcome_error (by rw [show s₃ = _ from h₃]; rfl)
  obtain ⟨rfl, hid₃⟩ := h₃
  dsimp only
  rw [← hid₃] at hnext ⊢
  split
  · next hsuccess =>
      refine guided_pure ?_
      simp [Outcome, Phase.accepted, hsuccess, Except.toOption]
  next hnot =>
  have hnone : (Phase.answered c₃.id none response).accepted = none := by
    simp [Phase.accepted, hnot]
  split
  · exact guided_fail (outcome_error hnone)
  next hstatus =>
  split
  · exact guided_fail (outcome_error hnone)
  · exact authenticate_guided proxy (by simpa using hstatus) hnone (by omega)

end Server
end Fastpx
