import Fastpx.Server.History

/-!
# Authentication with the upstream proxy

Two properties of every handshake, whatever the upstream and the
authentication provider do.

* Authentication is bound to one connection (`authentication_bound`): all
  authorized requests, all challenges and the returned tunnel belong to it.
* Credentials are accounted for (`credentials_accounted`): one context, at most
  four steps, every token is sent once and answers the challenge just received.
-/

namespace Fastpx
namespace Server

open StreamKit Config Http1

/-! ## The connection of a session -/

/-- The connection on which a handshake authenticates. -/
def Phase.session : Phase → Option Nat
  | .asking c (some _) _ => some c
  | .waiting c (some _) => some c
  | .answered c (some _) _ => some c
  | .ready c _ _ _ => some c
  | .stepped c _ _ _ => some c
  | .failed c _ => some c
  | _ => none

theorem session_step {terms : Terms} {s s' : Phase} {event : Event} {c : Nat}
    (hc : s.session = some c) (h : Step terms s event s') : s'.session = some c := by
  cases h with
  | @write _ round _ _ _ => cases round <;> exact hc
  | @receive _ round _ => cases round <;> exact hc
  | token => exact hc
  | refuse => exact hc
  | authorize => exact hc
  | reuse _ _ _ => exact hc
  | _ => cases hc

/-- A handshake never changes the connection on which it authenticates. -/
theorem session_run {terms : Terms} {s s' : Phase} {log : List Event} {c : Nat}
    (h : Runs (Step terms) s log s') (hc : s.session = some c) : s'.session = some c :=
  Runs.invariant (fun phase => phase.session = some c) session_step hc h

/-- After an authorized request, a step or an acceptance the session is that of
its connection. -/
theorem session_of_request {terms : Terms} {s s' : Phase} {c : Nat} {destination : Endpoint}
    {value : Text} (h : Step terms s (.request c destination (some value)) s') :
    s'.session = some c := by
  cases h with
  | authorize => rfl

/-- The context is asked in a phase which is ready for it. -/
theorem ready_of_step {terms : Terms} {s s' : Phase} {challenge : Option Bytes}
    {outcome : Except AuthError Bytes} (h : Step terms s (.step challenge outcome) s') :
    ∃ c scheme left, s = .ready c scheme challenge left := by
  cases h <;> exact ⟨_, _, _, rfl⟩

theorem session_of_accepted {s : Phase} {c c' : Nat} (hc : s.session = some c)
    (h : s.accepted = some c') : c' = c := by
  cases s with
  | answered d round response =>
      have hd : d = c' := by simpa [Phase.accepted] using (Option.ite_none_right_eq_some.mp h).2
      cases round with
      | none => cases hc
      | some round => exact hd.symm.trans (Option.some.inj hc)
  | _ => cases h

theorem token_none_of_decode {base64 : Base64} {challenge : Challenge}
    (h : decodeChallenge base64 challenge = .ok none) : challenge.token = none := by
  unfold decodeChallenge at h
  split at h
  · assumption
  · split at h <;> cases h

/-- Every event of a handshake is a step of the protocol from a phase which
summarises its past, and does not change the session of the handshake. -/
theorem step_at {terms : Terms} {log past future : List Event} {event : Event} {final : Phase}
    (hrun : Runs (Step terms) .start log final) (hlog : log = past ++ event :: future) :
    ∃ before after, History terms past before ∧ Step terms before event after ∧
      ∀ c, after.session = some c → final.session = some c := by
  rw [hlog] at hrun
  obtain ⟨before, after, hbefore, hstep, hafter⟩ := hrun.split
  exact ⟨before, after, history_run hbefore, hstep, fun c hc => session_run hafter hc⟩

/-- A handshake opens at most two connections. -/
theorem History.connections {terms : Terms} {past : List Event} {s : Phase}
    (h : History terms past s) : (upstreamDials past).length ≤ 2 ∧ (opens past).length ≤ 2 := by
  rcases h.opening_or_session with ⟨c, bytes, response, scheme, hbegins⟩ |
    ⟨c, scheme, sent, unsent, count, hsession, -⟩
  · have hopens : (opens past).length ≤ 1 := (hbegins.filterMap _).length_le
    exact ⟨(hbegins.filterMap _).length_le, hopens.trans (by decide)⟩
  · exact ⟨hsession.dialed, hsession.opened⟩

/-! ## Authentication is bound to one connection -/

variable {κ : Type}

/-- In every handshake there is one connection `C` for everything that belongs
to the authentication: authorized requests are sent on it, the tunnel is it,
and each challenge stands in the response received last, on it.  A second
connection is opened only after a probe whose refusal closes the connection and
carries no token, and no request follows a response that announced a close. -/
theorem authentication_bound (proxy : Proxy κ) (destination : Endpoint) (w : World) :
    let outcome := proxy.establishUpstreamTunnel destination w
    let log := outcome.2.2
    (∃ C : Nat,
      (∀ c d value, Event.request c d (some value) ∈ log → c = C) ∧
      (∀ c d value upstream, Event.request c d (some value) ∈ log → outcome.1 = .ok upstream →
        upstream.id = C) ∧
      (∀ past bytes result future, log = past ++ .step (some bytes) result :: future →
        ∃ scheme response challenge, creations past = [(scheme, targetName proxy.config.upstream)] ∧
          latestResponse past = some (C, response) ∧
          findChallenge response scheme = some challenge ∧
          decodeChallenge proxy.base64 challenge = .ok (some bytes))) ∧
    ((upstreamDials log).length ≤ 2 ∧ (opens log).length ≤ 2 ∧
      ∀ past upstream future, log = past ++ .dialUpstream upstream :: future →
        upstreamDials past ≠ [] →
        ∃ c response scheme challenge, requests past = [(c, destination, none)] ∧
          latestResponse past = some (c, response) ∧ response.status = 407 ∧
          response.connectionClose = true ∧
          chooseScheme response proxy.config.auth = .ok (scheme, challenge) ∧
          challenge.token = none) ∧
    (∀ past c d value future, log = past ++ .request c d value :: future →
      ∀ response, latestResponseOn c past = some response →
        response.connectionClose = false) := by
  intro outcome log
  obtain ⟨final, hrun, houtcome⟩ := establish_guided proxy destination w
  have hrequest : ∀ c d value, Event.request c d (some value) ∈ log →
      final.session = some c := by
    intro c d value hmem
    obtain ⟨past, future, hlog⟩ := List.append_of_mem hmem
    obtain ⟨before, after, -, hstep, hafter⟩ := step_at hrun hlog
    exact hafter c (session_of_request hstep)
  refine ⟨⟨final.session.getD 0, ?_, ?_, ?_⟩, ?_, ?_⟩
  · intro c d value hmem
    rw [hrequest c d value hmem]
    rfl
  · intro c d value upstream hmem hok
    have haccepted : final.accepted = some upstream.id := by
      rw [show final.accepted = outcome.1.toOption.map Connection.id from houtcome, hok]
      rfl
    rw [hrequest c d value hmem]
    exact session_of_accepted (hrequest c d value hmem) haccepted
  · intro past bytes result future hlog
    obtain ⟨before, after, hhistory, hstep, hafter⟩ := step_at hrun hlog
    obtain ⟨c, scheme, left, rfl⟩ := ready_of_step hstep
    have hfinal : final.session = some c := hafter c (session_step rfl hstep)
    obtain ⟨sent, count, hsession, -, hsource⟩ := hhistory
    cases hsource with
    | answered hlatest _ hfound hdecode =>
        exact ⟨scheme, _, _, hsession.created, by rw [hfinal]; exact hlatest, hfound, hdecode⟩
  · obtain ⟨hdials, hopens⟩ := (history_run hrun).connections
    refine ⟨hdials, hopens, fun past upstream future hlog hpast => ?_⟩
    obtain ⟨before, after, hhistory, hstep, -⟩ := step_at hrun hlog
    cases hstep with
    | dial =>
        rw [show past = [] from hhistory] at hpast
        exact absurd rfl hpast
    | redial hclose htoken =>
        obtain ⟨hstatus, hchosen, bytes, rfl⟩ := hhistory
        exact ⟨_, _, _, _, rfl, rfl, hstatus, hclose, hchosen, token_none_of_decode htoken⟩
  · intro past c d value future hlog response hlatest
    obtain ⟨before, after, hhistory, hstep, -⟩ := step_at hrun hlog
    cases hstep with
    | probe =>
        rw [show past = _ from hhistory] at hlatest
        cases hlatest
    | authorize =>
        obtain ⟨sent, count, -, -, hreusable⟩ := hhistory
        exact (hreusable response hlatest).keepsOpen

/-! ## Credentials are accounted for -/

/-- The values of the `Proxy-Authorization` headers sent. -/
def authorizations (log : List Event) : List Text :=
  (requests log).filterMap fun request => request.2.2

/-- The requests of a session: the probe, then one for each token sent. -/
theorem Session.authorizations_eq {terms : Terms} {past : List Event} {c : Nat}
    {scheme : AuthScheme} {sent unsent : List Bytes} {count : Nat}
    (h : Session terms past c scheme sent unsent count) :
    authorizations past = sent.map (authorization terms.base64 scheme) := by
  obtain ⟨probe, -, hrequests⟩ := h.requested
  rw [authorizations, hrequests, List.filterMap_cons_none rfl, List.filterMap_map,
    List.filterMap_eq_map_iff_forall_eq_some]
  exact fun token _ => rfl

/-- The requests of a handshake: first one without authorization on the first
connection, then authorized ones, all for the destination. -/
structure RequestsInOrder (destination : Endpoint) (log : List Event) : Prop where
  destinations : ∀ request ∈ requests log, request.2.1 = destination
  probe : ∀ first ∈ (requests log).head?, first.2.2 = none ∧ (opens log).head? = some first.1
  authorized : ∀ request ∈ (requests log).tail, request.2.2.isSome = true

theorem Session.requestsInOrder {terms : Terms} {past : List Event} {c : Nat}
    {scheme : AuthScheme} {sent unsent : List Bytes} {count : Nat}
    (h : Session terms past c scheme sent unsent count) :
    RequestsInOrder terms.destination past := by
  obtain ⟨probe, hopen, hrequests⟩ := h.requested
  refine ⟨?_, ?_, ?_⟩
  · rw [hrequests]
    intro request hmem
    rcases List.mem_cons.mp hmem with rfl | hmem
    · rfl
    · obtain ⟨token, -, rfl⟩ := List.mem_map.mp hmem
      rfl
  · rw [hrequests]
    intro first hfirst
    obtain rfl := Option.some.inj hfirst
    exact ⟨rfl, hopen⟩
  · rw [hrequests]
    intro request hmem
    obtain ⟨token, -, rfl⟩ := List.mem_map.mp hmem
    rfl

/-- Before the session only the probe can have been sent. -/
theorem requestsInOrder_of_opening {terms : Terms} {past : List Event} {c : Nat} {bytes : Bytes}
    {response : ResponseHead} {scheme : AuthScheme}
    (h : past <+: openingLog terms c bytes response scheme) :
    RequestsInOrder terms.destination past := by
  have hrequests : requests past <+: [(c, terms.destination, none)] := h.filterMap _
  have hprobe : ∀ request ∈ requests past, request = (c, terms.destination, none) :=
    fun request hmem => List.mem_singleton.mp (hrequests.subset hmem)
  refine ⟨fun request hmem => by rw [hprobe request hmem], fun first hfirst => ?_, ?_⟩
  · rw [hprobe first (List.mem_of_mem_head? hfirst)]
    -- a past with a request has the connection before it
    rcases past with _ | ⟨dial, _ | ⟨opened, rest⟩⟩
    · cases hfirst
    · obtain ⟨rfl, -⟩ := List.cons_prefix_cons.mp h
      cases hfirst
    · obtain ⟨rfl, hrest⟩ := List.cons_prefix_cons.mp h
      obtain ⟨rfl, -⟩ := List.cons_prefix_cons.mp hrest
      exact ⟨rfl, rfl⟩
  · have htail : (requests past).tail = [] := by
      have hlength : (requests past).length ≤ 1 := hrequests.length_le
      rw [← List.length_eq_zero_iff, List.length_tail]
      omega
    simp [htail]

/-- The account of a handshake: what it created, how often it asked the context
and the upstream, and what it sent of the tokens it got. -/
structure Account (terms : Terms) (log : List Event) : Prop where
  created : (creations log).length ≤ 1
  stepped : (steps log).length ≤ maxAuthRounds
  requested : (requests log).length ≤ maxAuthRounds + 1
  ordered : RequestsInOrder terms.destination log
  /-- The `i`-th authorized request carries the `i`-th token. -/
  spent : authorizations log = [] ∨
    ∃ scheme, creations log = [(scheme, targetName terms.upstream)] ∧
      authorizations log <+: (tokens log).map (authorization terms.base64 scheme)

/-- A session has not sent more tokens than the context made steps. -/
theorem Session.sent_le {terms : Terms} {past : List Event} {c : Nat}
    {scheme : AuthScheme} {sent unsent : List Bytes} {count : Nat}
    (h : Session terms past c scheme sent unsent count) : sent.length ≤ count := by
  calc sent.length ≤ (sent ++ unsent).length := by simp
    _ = (tokens past).length := by rw [h.produced]
    _ ≤ (steps past).length := List.length_filterMap_le _ _
    _ = count := h.stepped

theorem Session.account {terms : Terms} {past : List Event} {c : Nat}
    {scheme : AuthScheme} {sent unsent : List Bytes} {count : Nat}
    (h : Session terms past c scheme sent unsent count) (hcount : count ≤ maxAuthRounds) :
    Account terms past where
  created := by simp [h.created]
  stepped := by rw [h.stepped]; exact hcount
  requested := by
    obtain ⟨probe, -, hrequests⟩ := h.requested
    rw [hrequests, List.length_cons, List.length_map]
    exact Nat.succ_le_succ (h.sent_le.trans hcount)
  ordered := h.requestsInOrder
  spent := by
    refine Or.inr ⟨scheme, h.created, ?_⟩
    rw [h.authorizations_eq, h.produced, List.map_append]
    exact List.prefix_append _ _

theorem account_of_opening {terms : Terms} {past : List Event} {c : Nat} {bytes : Bytes}
    {response : ResponseHead} {scheme : AuthScheme}
    (h : past <+: openingLog terms c bytes response scheme) : Account terms past where
  created := (h.filterMap _).length_le
  stepped := (h.filterMap _).length_le.trans (Nat.zero_le _)
  requested := (h.filterMap _).length_le.trans (Nat.succ_le_succ (Nat.zero_le _))
  ordered := requestsInOrder_of_opening h
  spent := Or.inl (List.prefix_nil.mp ((h.filterMap _).filterMap _))

theorem History.account {terms : Terms} {past : List Event} {s : Phase}
    (h : History terms past s) : Account terms past := by
  rcases h.opening_or_session with ⟨c, bytes, response, scheme, hbegins⟩ |
    ⟨c, scheme, sent, unsent, count, hsession, hcount⟩
  · exact account_of_opening hbegins
  · exact hsession.account hcount

/-- In every handshake one context at most is created, right after a 407 and for
a scheme which the mode permits and the 407 offers; it makes at most four
steps; at most five requests are sent, all for the destination and only the
first without authorization; the authorized ones carry the tokens in order; and
every step but the first answers the challenge of the 407 just received. -/
theorem credentials_accounted (proxy : Proxy κ) (destination : Endpoint) (w : World) :
    let log := (proxy.establishUpstreamTunnel destination w).2.2
    Account (proxy.terms destination) log ∧
    (∀ past scheme name future, log = past ++ .create scheme name :: future →
      ∃ c response challenge, latestResponse past = some (c, response) ∧
        response.status = 407 ∧ Chosen response proxy.config.auth scheme challenge) ∧
    (∀ past challenge result future, log = past ++ .step challenge result :: future →
      steps past ≠ [] →
      ∃ scheme c response found, creations past = [(scheme, targetName proxy.config.upstream)] ∧
        latestResponse past = some (c, response) ∧ response.status = 407 ∧
        findChallenge response scheme = some found ∧
        decodeChallenge proxy.base64 found = .ok challenge) := by
  intro log
  obtain ⟨final, hrun, -⟩ := establish_guided proxy destination w
  refine ⟨(history_run hrun).account, ?_, ?_⟩
  · intro past scheme name future hlog
    obtain ⟨before, after, hhistory, hstep, -⟩ := step_at hrun hlog
    cases hstep with
    | create hstatus hchosen =>
        obtain ⟨bytes, rfl⟩ := hhistory
        exact ⟨_, _, _, rfl, hstatus, chooseScheme_ok hchosen⟩
  · intro past challenge result future hlog hpast
    obtain ⟨before, after, hhistory, hstep, -⟩ := step_at hrun hlog
    obtain ⟨c, scheme, left, rfl⟩ := ready_of_step hstep
    obtain ⟨sent, count, hsession, -, hsource⟩ := hhistory
    cases hsource with
    | fresh hsteps _ => exact absurd hsteps hpast
    | answered hlatest hreusable hfound hdecode =>
        exact ⟨scheme, c, _, _, hsession.created, hlatest, hreusable.status, hfound, hdecode⟩

end Server
end Fastpx
