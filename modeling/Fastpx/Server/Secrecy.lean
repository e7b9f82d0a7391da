import Fastpx.Server.Client
import Fastpx.StreamKit.Coupling

/-!
# Credentials stay with the upstream

Two proxies which differ only in the secrets of their authentication providers:
the tokens which the contexts return, how they are encoded, and the reports of
failures.  Against the same client and the same network the two do the same, and
the client gets the same bytes (`credentials_hidden`).  So nothing that a client
can see depends on the credentials, except through the answers of the upstream.
-/

namespace Fastpx
namespace Server

open StreamKit Config Http1 Relay

variable {κ κ' : Type}

/-! ## What an observer cannot tell apart -/

/-- Events which differ in nothing but secrets: the value of an authorization,
the bytes which are written to the upstream, and what a context returned. -/
inductive Hides : Event → Event → Prop
  | same (event : Event) : Hides event event
  | request (c : Nat) (destination : Endpoint) (value value' : Text) :
      Hides (.request c destination (some value)) (.request c destination (some value'))
  | wrote (c : Nat) (bytes bytes' : Bytes) : Hides (.wrote c bytes) (.wrote c bytes')
  | token (challenge : Option Bytes) (token token' : Bytes) :
      Hides (.step challenge (.ok token)) (.step challenge (.ok token'))
  | refused (challenge : Option Bytes) (e e' : AuthError) :
      Hides (.step challenge (.error e)) (.step challenge (.error e'))

/-- Errors which differ in nothing but the report of the provider. -/
inductive SameFailure : ProxyError → ProxyError → Prop
  | same (e : ProxyError) : SameFailure e e
  | provider (e e' : AuthError) : SameFailure (.authentication e) (.authentication e')

/-- Providers which succeed and fail alike; `R` relates their contexts. -/
structure SameShape (R : κ → κ' → Prop) (provider : AuthFactory κ) (provider' : AuthFactory κ') :
    Prop where
  create : ∀ scheme name, OutcomeRel (fun _ _ => True) R (provider.create scheme name)
    (provider'.create scheme name)
  step : ∀ context context', R context context' → ∀ challenge,
    OutcomeRel (fun _ _ => True) (fun _ _ => True) (provider.step context challenge).1
      (provider'.step context' challenge).1 ∧
    R (provider.step context challenge).2 (provider'.step context' challenge).2

/-- Proxies which differ in nothing but the secrets of their providers. -/
structure Twins (R : κ → κ' → Prop) (proxy : Proxy κ) (proxy' : Proxy κ') : Prop where
  config : proxy'.config = proxy.config
  httparse : proxy'.httparse = proxy.httparse
  decode : proxy'.base64.decode = proxy.base64.decode
  providers : SameShape R proxy.authFactory proxy'.authFactory

/-- The two computations cannot be told apart. -/
abbrev Indistinct {α β : Type} (x : Run α) (y : Run β) (same : α → β → Prop) : Prop :=
  Effect.Coupled Hides SameFailure x y same

theorem indistinct_refl {α : Type} (x : Run α) : Indistinct x x (· = ·) :=
  Effect.coupled_refl .same .same x

/-- The same computation first. -/
theorem indistinct_bind {α β γ : Type} {x : Run α} {f : α → Run β} {g : α → Run γ}
    {same : β → γ → Prop} (h : ∀ a, Indistinct (f a) (g a) same) :
    Indistinct (x >>= f) (x >>= g) same :=
  (indistinct_refl x).bind fun a _ hab => hab ▸ h a

/-! ## The handshake -/

/-- Whether a write succeeds does not depend on what is written. -/
theorem writeAll_fst (writes : List WriteOutcome) (bytes bytes' : Bytes) :
    (writeAll writes bytes).1 = (writeAll writes bytes').1 := by
  unfold writeAll
  split <;> rfl

theorem sendConnectRequest_indistinct (c : Connection) (destination : Endpoint)
    (value value' : Text) :
    Indistinct (sendConnectRequest c destination (some value))
      (sendConnectRequest c destination (some value')) (· = ·) := by
  have hwrites := writeAll_fst c.writes (utf8 (connectRequest destination (some value)))
    (utf8 (connectRequest destination (some value')))
  unfold sendConnectRequest
  generalize writeAll c.writes (utf8 (connectRequest destination (some value))) = r at hwrites
  generalize writeAll c.writes (utf8 (connectRequest destination (some value'))) = r' at hwrites
  obtain ⟨outcome, accepted⟩ := r
  obtain ⟨outcome', accepted'⟩ := r'
  obtain rfl : outcome = outcome' := hwrites
  refine (Effect.coupled_emit (.request _ _ _ _)).bind fun _ _ _ => ?_
  exact (Effect.coupled_emit (.wrote _ _ _)).bind fun _ _ _ => indistinct_refl _

variable {R : κ → κ' → Prop} {proxy : Proxy κ} {proxy' : Proxy κ'}

theorem Twins.createContext (h : Twins R proxy proxy') (scheme : AuthScheme) :
    Indistinct (proxy.createContext scheme) (proxy'.createContext scheme) R := by
  unfold Proxy.createContext
  rw [h.config]
  refine indistinct_bind fun _ => ?_
  have hcreate := h.providers.create scheme (targetName proxy.config.upstream)
  generalize proxy.authFactory.create scheme (targetName proxy.config.upstream) = r at hcreate
  generalize proxy'.authFactory.create scheme (targetName proxy.config.upstream) = r' at hcreate
  cases hcreate with
  | ok hcontext => exact Effect.coupled_pure hcontext
  | error _ => exact Effect.coupled_fail (.provider _ _)

theorem Twins.stepContext (h : Twins R proxy proxy') {context : κ} {context' : κ'}
    (hcontext : R context context') (challenge : Option Bytes) :
    Indistinct (proxy.stepContext context challenge) (proxy'.stepContext context' challenge)
      fun result result' => R result.2 result'.2 := by
  obtain ⟨houtcome, hafter⟩ := h.providers.step context context' hcontext challenge
  unfold Proxy.stepContext
  generalize proxy.authFactory.step context challenge = r at houtcome hafter
  generalize proxy'.authFactory.step context' challenge = r' at houtcome hafter
  obtain ⟨outcome, after⟩ := r
  obtain ⟨outcome', after'⟩ := r'
  cases houtcome with
  | ok _ =>
      exact (Effect.coupled_emit (.token _ _ _)).bind fun _ _ _ => Effect.coupled_pure hafter
  | error _ =>
      exact (Effect.coupled_emit (.refused _ _ _)).bind fun _ _ _ =>
        Effect.coupled_fail (.provider _ _)

theorem Twins.exchange (h : Twins R proxy proxy') (destination : Endpoint) (scheme : AuthScheme)
    (token token' : Bytes) (upstream : Connection) :
    Indistinct (proxy.exchange destination scheme token upstream)
      (proxy'.exchange destination scheme token' upstream) (· = ·) := by
  unfold Proxy.exchange
  rw [h.config, h.httparse]
  refine (sendConnectRequest_indistinct _ _ _ _).bind fun c c' hc => ?_
  rw [hc]
  exact indistinct_refl _

theorem Twins.decodeChallenge (h : Twins R proxy proxy') (challenge : Challenge) :
    decodeChallenge proxy'.base64 challenge = decodeChallenge proxy.base64 challenge := by
  simp only [Server.decodeChallenge, h.decode]

theorem Twins.nextChallenge (h : Twins R proxy proxy') (response : ResponseHead)
    (scheme : AuthScheme) :
    proxy'.nextChallenge response scheme = proxy.nextChallenge response scheme := by
  simp only [Proxy.nextChallenge, h.decodeChallenge]

/-- The rounds of authentication, by induction on the number of rounds left. -/
theorem Twins.authRounds (h : Twins R proxy proxy') (destination : Endpoint) (scheme : AuthScheme)
    (rounds : Nat) (upstream : Connection) (response : ResponseHead) {context : κ} {context' : κ'}
    (hcontext : R context context') (challenge : Option Bytes) (mustDrain : Bool) :
    Indistinct
      (proxy.authRounds destination scheme rounds upstream response context challenge mustDrain)
      (proxy'.authRounds destination scheme rounds upstream response context' challenge mustDrain)
      (· = ·) := by
  induction rounds generalizing upstream response context context' challenge mustDrain with
  | zero => exact Effect.coupled_fail (.same _)
  | succ rounds ih =>
      unfold Proxy.authRounds
      refine indistinct_bind fun upstream => ?_
      refine (h.stepContext hcontext challenge).bind fun ⟨token, _⟩ ⟨token', _⟩ hafter => ?_
      refine (h.exchange destination scheme token token' upstream).bind fun answer answer' heq => ?_
      obtain rfl := heq
      obtain ⟨response, upstream⟩ := answer
      dsimp only
      split
      · exact indistinct_refl _
      · split
        · exact indistinct_refl _
        · rw [h.nextChallenge]
          exact indistinct_bind fun challenge => ih upstream response hafter challenge true

theorem Twins.connectUpstream (h : Twins R proxy proxy') :
    proxy'.connectUpstream = proxy.connectUpstream := by
  simp only [Proxy.connectUpstream, h.config]

theorem Twins.authenticate (h : Twins R proxy proxy') (destination : Endpoint)
    (upstream : Connection) (response : ResponseHead) :
    Indistinct (proxy.authenticate destination upstream response)
      (proxy'.authenticate destination upstream response) (· = ·) := by
  unfold Proxy.authenticate
  rw [h.config, h.connectUpstream]
  refine indistinct_bind fun ⟨scheme, first⟩ => ?_
  refine (h.createContext scheme).bind fun context context' hcontext => ?_
  rw [h.decodeChallenge]
  refine indistinct_bind fun challenge => ?_
  split
  · split
    · exact indistinct_refl _
    · exact indistinct_bind fun upstream => h.authRounds _ _ _ _ _ hcontext _ _
  · exact h.authRounds _ _ _ _ _ hcontext _ _

theorem Twins.establishUpstreamTunnel (h : Twins R proxy proxy') (destination : Endpoint) :
    Indistinct (proxy.establishUpstreamTunnel destination)
      (proxy'.establishUpstreamTunnel destination) (· = ·) := by
  unfold Proxy.establishUpstreamTunnel
  rw [h.config, h.httparse, h.connectUpstream]
  refine indistinct_bind fun upstream => indistinct_bind fun upstream => ?_
  refine indistinct_bind fun ⟨response, upstream⟩ => ?_
  dsimp only
  split
  · exact indistinct_refl _
  · split
    · exact indistinct_refl _
    · split
      · exact indistinct_refl _
      · exact h.authenticate destination upstream response

theorem Twins.establishTunnel (h : Twins R proxy proxy') (destination : Endpoint) :
    Indistinct (proxy.establishTunnel destination) (proxy'.establishTunnel destination)
      (· = ·) := by
  have hupstream := h.establishUpstreamTunnel destination
  have hresolve : proxy'.resolveDirectAddresses destination =
      proxy.resolveDirectAddresses destination := by
    simp only [Proxy.resolveDirectAddresses, h.config]
  unfold Proxy.establishTunnel
  rw [h.config, hresolve]
  split
  · refine indistinct_bind fun addresses => ?_
    cases addresses with
    | none => exact hupstream
    | some addresses =>
        simp only [Proxy.connectDirect, h.config]
        exact indistinct_refl _
  · exact hupstream

/-! ## The client -/

theorem Twins.acceptClient (h : Twins R proxy proxy') (client : Socket) :
    Indistinct (proxy.acceptClient client) (proxy'.acceptClient client) (· = ·) := by
  unfold Proxy.acceptClient
  rw [h.config, h.httparse]
  split
  · exact indistinct_refl _
  · split
    · exact indistinct_refl _
    · split
      · split
        · exact indistinct_refl _
        · next destination _ =>
            refine (h.establishTunnel destination).attempt.bind fun r r' hr => ?_
            cases hr with
            | ok hconnection =>
                rw [hconnection]
                exact indistinct_refl _
            | error hfailure =>
                exact indistinct_bind fun _ => Effect.coupled_fail hfailure
      · exact indistinct_refl _

/-- Runs which an observer at the client cannot tell apart. -/
structure SameRun (run run' : ClientRun) : Prop where
  received : run.clientReceived = run'.clientReceived
  tunnel : run.tunnel = run'.tunnel
  result : Option.Rel (OutcomeRel SameFailure (· = ·)) run.result run'.result
  events : List.Forall₂ Hides run.log run'.log

/-- What the client is answered is not hidden. -/
theorem answers_of_hides {log log' : List Event} (h : List.Forall₂ Hides log log') :
    answers log = answers log' := by
  induction h with
  | nil => rfl
  | cons hfirst _ ih =>
      unfold answers at ih ⊢
      cases hfirst <;> simp only [List.filterMap_cons, ih]

theorem outcome_refl (r : Option (Except ProxyError Unit)) :
    Option.Rel (OutcomeRel SameFailure (· = ·)) r r := by
  rcases r with _ | e | _
  · exact .none
  · exact .some (.error (.same e))
  · exact .some (.ok rfl)

/-- **Nothing that a client sees depends on credentials.**  Replace the provider
of a proxy by one which succeeds and fails in the same steps, with any other
tokens and reports.  Then for every client, every network and every course of
the tunnel the run is possible for both or for neither; the client gets the same
bytes, the tunnel is in the same state, the runs return alike, and the events
differ only in what is written to the upstream. -/
theorem credentials_hidden (h : Twins R proxy proxy') (client : Socket) (now : Nat)
    (actions : List TunnelAction) (w : World) :
    Option.Rel SameRun (proxy.handleClient client now actions w)
      (proxy'.handleClient client now actions w) := by
  obtain ⟨houtcome, -, hlog⟩ := h.acceptClient client w
  unfold Proxy.handleClient
  rw [h.config]
  generalize proxy.acceptClient client w = accepted at houtcome hlog
  generalize proxy'.acceptClient client w = accepted' at houtcome hlog
  obtain ⟨r, w₁, log⟩ := accepted
  obtain ⟨r', w₂, log'⟩ := accepted'
  have hanswers := answers_of_hides hlog
  cases houtcome with
  | error hfailure =>
      exact .some ⟨by simp [ClientRun.clientReceived, hanswers], rfl, .some (.error hfailure), hlog⟩
  | @ok opened _ heq =>
      obtain rfl := heq
      cases opened with
      | none =>
          exact .some ⟨by simp [ClientRun.clientReceived, hanswers], rfl, outcome_refl _, hlog⟩
      | some opened =>
          dsimp only
          cases (Tunnel.machine proxy.config.idleTimeout).run (opened.start now) actions with
          | none => exact .none
          | some t =>
              exact .some ⟨by simp [ClientRun.clientReceived, hanswers], rfl, outcome_refl _, hlog⟩

/-! Two tokens, for an upstream which refuses once and then accepts. -/

private def hiddenRequest : Bytes := utf8 "CONNECT c:443 HTTP/1.1\r\n\r\n".toList

private def hiddenRefusal : Bytes :=
  utf8 ("HTTP/1.1 407 Who\r\nProxy-Authenticate: NTLM\r\n" ++ "Content-Length: 0\r\n\r\n").toList

private def hiddenAcceptance : Bytes := utf8 "HTTP/1.1 200 Fine\r\n\r\n".toList

private def hiddenProxy (token : Bytes) : Proxy Unit where
  config := ⟨.v4 0x7f000001#32 3128, ⟨"up".toList, 3128⟩, .ntlm, .proxyOnly, [], 5, 10, none, 1024,
    16⟩
  authFactory := ⟨fun _ _ => .ok (), fun _ _ => (.ok token, ())⟩
  httparse := .ofTables
    [(hiddenRequest, .complete 26, ⟨some "CONNECT".toList, some "c:443".toList⟩)]
    [(hiddenRefusal, .complete 66, ⟨some 1, some 407,
        [⟨"Proxy-Authenticate".toList, utf8 "NTLM".toList⟩,
          ⟨"Content-Length".toList, utf8 "0".toList⟩]⟩),
      (hiddenAcceptance, .complete 21, ⟨some 1, some 200, []⟩)]
  base64 := .ofTable [([5], "BQ==".toList), ([6], "Bg==".toList)]

private theorem hiddenClient_ne_nil : hiddenRequest ≠ [] := by decide

private theorem hiddenReply_ne_nil : hiddenRefusal ++ hiddenAcceptance ≠ [] := by decide

private def hiddenClient : Socket := ⟨⟨[⟨hiddenRequest, hiddenClient_ne_nil⟩], none⟩, none, []⟩

private def hiddenWorld : World :=
  ⟨[], [some (0, .ok
    ⟨⟨[⟨hiddenRefusal ++ hiddenAcceptance, hiddenReply_ne_nil⟩], none⟩, none, []⟩)], 0⟩

private theorem hidden_twins : Twins (fun _ _ => True) (hiddenProxy [5]) (hiddenProxy [6]) where
  config := rfl
  httparse := rfl
  decode := rfl
  providers := ⟨fun _ _ => .ok trivial, fun _ _ _ _ => ⟨.ok trivial, trivial⟩⟩

/-- The tokens are not the same, but what the client gets is. -/
theorem credentials_hidden_sample : ∃ run run',
    (hiddenProxy [5]).handleClient hiddenClient 0 [.write 39] hiddenWorld = some run ∧
      (hiddenProxy [6]).handleClient hiddenClient 0 [.write 39] hiddenWorld = some run' ∧
      run.log ≠ run'.log ∧ run.clientReceived = run'.clientReceived := by
  have hlog : ((hiddenProxy [5]).handleClient hiddenClient 0 [.write 39] hiddenWorld).map
      (fun run => decide (Event.step none (.ok [5]) ∈ run.log)) = some true := by
    decide +kernel
  have hlog' : ((hiddenProxy [6]).handleClient hiddenClient 0 [.write 39] hiddenWorld).map
      (fun run => decide (Event.step none (.ok [5]) ∈ run.log)) = some false := by
    decide +kernel
  obtain ⟨run, hrun, hmem⟩ := Option.map_eq_some_iff.mp hlog
  obtain ⟨run', hrun', hmem'⟩ := Option.map_eq_some_iff.mp hlog'
  have hsame := credentials_hidden hidden_twins hiddenClient 0 [.write 39] hiddenWorld
  rw [hrun, hrun'] at hsame
  cases hsame with
  | some hsame =>
      refine ⟨run, run', hrun, hrun', fun heq => ?_, hsame.received⟩
      rw [heq] at hmem
      exact Bool.noConfusion (hmem.symm.trans hmem')

end Server
end Fastpx
