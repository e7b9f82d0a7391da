import Fastpx.Server.Protocol

/-!
# What a handshake has done so far

`History terms past phase` summarises the events `past` which lead to a phase
of the handshake protocol.  Up to the choice of a scheme the past is a fixed
list of events.  Afterwards it is summarised by a `Session`: the requests, the
tokens and the rounds, all for one connection and one scheme.

`history_step` carries the summary over one transition, `history_run` over a
whole handshake; the properties of all handshakes are read off from it.
-/

namespace Fastpx
namespace Server

open StreamKit Config Http1

/-! ## Views of a log -/

/-- The `CONNECT` requests, with their connection and authorization. -/
def requests (log : List Event) : List (Nat × Endpoint × Option Text) :=
  log.filterMap fun
    | .request c destination value => some (c, destination, value)
    | _ => none

/-- The responses received, with their connection. -/
def responses (log : List Event) : List (Nat × ResponseHead) :=
  log.filterMap fun
    | .response c response => some (c, response)
    | _ => none

theorem mem_responses {log : List Event} {c : Nat} {response : ResponseHead} :
    (c, response) ∈ responses log ↔ Event.response c response ∈ log := by
  constructor
  · intro h
    obtain ⟨event, hmem, hevent⟩ := List.mem_filterMap.mp h
    cases event with
    | response c' response' =>
        obtain ⟨rfl, rfl⟩ := Prod.mk.inj (Option.some.inj hevent)
        exact hmem
    | _ => cases hevent
  · exact fun h => List.mem_filterMap.mpr ⟨_, h, rfl⟩

/-- The security contexts created. -/
def creations (log : List Event) : List (AuthScheme × Text) :=
  log.filterMap fun
    | .create scheme name => some (scheme, name)
    | _ => none

/-- The steps of the security context. -/
def steps (log : List Event) : List (Option Bytes × Except AuthError Bytes) :=
  log.filterMap fun
    | .step challenge outcome => some (challenge, outcome)
    | _ => none

/-- The tokens which the steps returned. -/
def tokens (log : List Event) : List Bytes :=
  (steps log).filterMap fun step => step.2.toOption

/-- The attempts to connect to the upstream proxy. -/
def upstreamDials (log : List Event) : List Endpoint :=
  log.filterMap fun
    | .dialUpstream upstream => some upstream
    | _ => none

/-- The connections opened. -/
def opens (log : List Event) : List Nat :=
  log.filterMap fun
    | .opened c => some c
    | _ => none

/-- The last response received. -/
def latestResponse (log : List Event) : Option (Nat × ResponseHead) :=
  (responses log).getLast?

/-- The last response received on a connection. -/
def latestResponseOn (c : Nat) (log : List Event) : Option ResponseHead :=
  (((responses log).filter fun response => response.1 = c).map Prod.snd).getLast?

/-- The response to the request in flight is the last one of its connection. -/
theorem latestResponseOn_of_latestResponse {c : Nat} {response : ResponseHead}
    {log : List Event} (h : latestResponse log = some (c, response)) :
    latestResponseOn c log = some response := by
  obtain ⟨before, hbefore⟩ := List.getLast?_eq_some_iff.mp h
  simp [latestResponseOn, hbefore]

/-! ## The past of a phase -/

/-- The events up to the response to the probe. -/
def probeLog (terms : Terms) (c : Nat) (bytes : Bytes) (response : ResponseHead) : List Event :=
  [.dialUpstream terms.upstream, .opened c, .request c terms.destination none, .wrote c bytes,
    .response c response]

/-- The longest past without a security context in use. -/
def openingLog (terms : Terms) (c : Nat) (bytes : Bytes) (response : ResponseHead)
    (scheme : AuthScheme) : List Event :=
  probeLog terms c bytes response ++
    [.create scheme (targetName terms.upstream), .dialUpstream terms.upstream]

/-- The past of a handshake with a security context: `sent` are the tokens for
which a request was made on `c`, `unsent` those not yet used, and `count` is the
number of steps taken. -/
structure Session (terms : Terms) (past : List Event) (c : Nat) (scheme : AuthScheme)
    (sent unsent : List Bytes) (count : Nat) : Prop where
  requested : ∃ probe, (opens past).head? = some probe ∧
    requests past = (probe, terms.destination, none) :: sent.map fun token =>
      (c, terms.destination, some (authorization terms.base64 scheme token))
  created : creations past = [(scheme, targetName terms.upstream)]
  dialed : (upstreamDials past).length ≤ 2
  opened : (opens past).length ≤ 2
  produced : tokens past = sent ++ unsent
  stepped : (steps past).length = count

/-- Where the challenge for the next step comes from: there is none on a fresh
connection, and otherwise it stands in the response received last. -/
inductive Provenance (terms : Terms) (past : List Event) (c : Nat) (scheme : AuthScheme) :
    Option Bytes → Prop
  | fresh (hsteps : steps past = []) (hnone : latestResponseOn c past = none) :
      Provenance terms past c scheme none
  | answered {response : ResponseHead} {challenge : Challenge} {bytes : Option Bytes}
      (hlatest : latestResponse past = some (c, response)) (hreusable : Reusable response)
      (hfound : findChallenge response scheme = some challenge)
      (hdecode : decodeChallenge terms.base64 challenge = .ok bytes) :
      Provenance terms past c scheme bytes

/-- Responses on the connection in use allow its reuse. -/
theorem Provenance.reusable {terms : Terms} {past : List Event} {c : Nat} {scheme : AuthScheme}
    {challenge : Option Bytes} (h : Provenance terms past c scheme challenge)
    {response : ResponseHead} (hlatest : latestResponseOn c past = some response) :
    Reusable response := by
  cases h with
  | fresh _ hnone =>
      rw [hnone] at hlatest
      cases hlatest
  | answered hlast hreusable _ _ =>
      rw [latestResponseOn_of_latestResponse hlast] at hlatest
      obtain rfl := Option.some.inj hlatest
      exact hreusable

/-- What the past looks like in each phase. -/
def History (terms : Terms) (past : List Event) : Phase → Prop
  | .start => past = []
  | .dialing => past = [.dialUpstream terms.upstream]
  | .fresh c => past = [.dialUpstream terms.upstream, .opened c]
  | .asking c none value => value = none ∧
      past = [.dialUpstream terms.upstream, .opened c, .request c terms.destination none]
  | .waiting c none => ∃ bytes,
      past = [.dialUpstream terms.upstream, .opened c, .request c terms.destination none,
        .wrote c bytes]
  | .answered c none response => ∃ bytes, past = probeLog terms c bytes response
  | .created c response scheme challenge => response.status = 407 ∧
      chooseScheme response terms.mode = .ok (scheme, challenge) ∧
      ∃ bytes, past = probeLog terms c bytes response ++
        [.create scheme (targetName terms.upstream)]
  | .redialing c scheme => ∃ bytes response, past = openingLog terms c bytes response scheme
  | .ready c scheme challenge left => ∃ sent count,
      Session terms past c scheme sent [] count ∧ count + left = maxAuthRounds ∧
        Provenance terms past c scheme challenge
  | .stepped c scheme token left => ∃ sent count,
      Session terms past c scheme sent [token] count ∧ count + left = maxAuthRounds ∧
        ∀ response, latestResponseOn c past = some response → Reusable response
  | .asking c (some (scheme, left)) _ => ∃ sent count,
      Session terms past c scheme sent [] count ∧ count + left = maxAuthRounds
  | .waiting c (some (scheme, left)) => ∃ sent count,
      Session terms past c scheme sent [] count ∧ count + left = maxAuthRounds
  | .answered c (some (scheme, left)) response => ∃ sent count,
      Session terms past c scheme sent [] count ∧ count + left = maxAuthRounds ∧
        latestResponse past = some (c, response)
  | .failed c scheme => ∃ sent count,
      Session terms past c scheme sent [] count ∧ count ≤ maxAuthRounds

/-- Events other than requests, creations, steps and connections leave a
session as it is. -/
theorem Session.snoc {terms : Terms} {past : List Event} {c : Nat} {scheme : AuthScheme}
    {sent unsent : List Bytes} {count : Nat} (h : Session terms past c scheme sent unsent count)
    {event : Event} (hrequests : requests [event] = []) (hcreations : creations [event] = [])
    (hsteps : steps [event] = []) (hdials : upstreamDials [event] = [])
    (hopens : opens [event] = []) :
    Session terms (past ++ [event]) c scheme sent unsent count := by
  have happend : ∀ {β : Type} (f : Event → Option β), [event].filterMap f = [] →
      (past ++ [event]).filterMap f = past.filterMap f := by
    intro β f hnil
    rw [List.filterMap_append, hnil, List.append_nil]
  have hsame : steps (past ++ [event]) = steps past := happend _ hsteps
  refine ⟨?_, (happend _ hcreations).trans h.created, ?_, ?_, ?_, ?_⟩
  · obtain ⟨probe, hopen, hprobe⟩ := h.requested
    exact ⟨probe, (congrArg List.head? (happend _ hopens)).trans hopen,
      (happend _ hrequests).trans hprobe⟩
  · exact (congrArg List.length (happend _ hdials)).trans_le h.dialed
  · exact (congrArg List.length (happend _ hopens)).trans_le h.opened
  · rw [tokens, hsame]
    exact h.produced
  · rw [hsame, h.stepped]

/-- A step of the context: the token, if it returned one, is not yet used. -/
theorem Session.step {terms : Terms} {past : List Event} {c : Nat} {scheme : AuthScheme}
    {sent : List Bytes} {count : Nat} (h : Session terms past c scheme sent [] count)
    (challenge : Option Bytes) (outcome : Except AuthError Bytes) :
    Session terms (past ++ [.step challenge outcome]) c scheme sent outcome.toOption.toList
      (count + 1) where
  requested := by simpa [requests, opens] using h.requested
  created := by simpa [creations] using h.created
  dialed := by simpa [upstreamDials] using h.dialed
  opened := by simpa [opens] using h.opened
  produced := by
    have hproduced := h.produced
    simp only [tokens, steps, List.filterMap_append, List.append_nil] at hproduced ⊢
    rw [hproduced]
    cases outcome <;> rfl
  stepped := by
    have hstepped := h.stepped
    simp only [steps, List.filterMap_append, List.length_append] at hstepped ⊢
    rw [hstepped]
    rfl

/-- The request for the token at hand. -/
theorem Session.authorize {terms : Terms} {past : List Event} {c : Nat} {scheme : AuthScheme}
    {sent : List Bytes} {token : Bytes} {count : Nat}
    (h : Session terms past c scheme sent [token] count) :
    Session terms (past ++ [.request c terms.destination
      (some (authorization terms.base64 scheme token))]) c scheme (sent ++ [token]) [] count where
  requested := by
    obtain ⟨probe, hopen, hprobe⟩ := h.requested
    refine ⟨probe, by simpa [opens] using hopen, ?_⟩
    simp only [requests, List.filterMap_append] at hprobe ⊢
    rw [hprobe, List.map_append]
    rfl
  created := by simpa [creations] using h.created
  dialed := by simpa [upstreamDials] using h.dialed
  opened := by simpa [opens] using h.opened
  produced := by simpa [tokens, steps] using h.produced
  stepped := by simpa [steps] using h.stepped

/-- The session starts with the probe and the creation behind it. -/
theorem session_start {terms : Terms} {past : List Event} {probe c : Nat} {scheme : AuthScheme}
    (hopen : (opens past).head? = some probe)
    (hrequests : requests past = [(probe, terms.destination, none)])
    (hcreations : creations past = [(scheme, targetName terms.upstream)])
    (hdials : (upstreamDials past).length ≤ 2) (hopens : (opens past).length ≤ 2)
    (hsteps : steps past = []) : Session terms past c scheme [] [] 0 where
  requested := ⟨probe, hopen, hrequests⟩
  created := hcreations
  dialed := hdials
  opened := hopens
  produced := by simp [tokens, hsteps]
  stepped := by simp [hsteps]

theorem latestResponse_snoc {past : List Event} {c : Nat} {response : ResponseHead} :
    latestResponse (past ++ [.response c response]) = some (c, response) := by
  simp [latestResponse, responses]

/-- Every transition of the protocol keeps the summary of the past. -/
theorem history_step {terms : Terms} {past : List Event} {s s' : Phase} {event : Event}
    (h : History terms past s) (hstep : Step terms s event s') :
    History terms (past ++ [event]) s' := by
  cases hstep with
  | dial => rw [show past = [] from h]; rfl
  | openProbe => rw [show past = _ from h]; rfl
  | probe => rw [show past = _ from h]; exact ⟨rfl, rfl⟩
  | @write c round value bytes hbytes =>
      cases round with
      | none =>
          obtain ⟨-, rfl⟩ := h
          exact ⟨bytes, rfl⟩
      | some round =>
          obtain ⟨sent, count, hsession, hcount⟩ := h
          exact ⟨sent, count, hsession.snoc rfl rfl rfl rfl rfl, hcount⟩
  | @receive c round response =>
      cases round with
      | none =>
          obtain ⟨bytes, rfl⟩ := h
          exact ⟨bytes, rfl⟩
      | some round =>
          obtain ⟨sent, count, hsession, hcount⟩ := h
          exact ⟨sent, count, hsession.snoc rfl rfl rfl rfl rfl, hcount, latestResponse_snoc⟩
  | create hstatus hchosen =>
      obtain ⟨bytes, rfl⟩ := h
      exact ⟨hstatus, hchosen, bytes, rfl⟩
  | redial hclose htoken =>
      obtain ⟨-, -, bytes, rfl⟩ := h
      exact ⟨bytes, _, rfl⟩
  | @reopen c c' scheme hne =>
      obtain ⟨bytes, response, rfl⟩ := h
      refine ⟨[], 0, session_start rfl rfl rfl (Nat.le_refl _) (Nat.le_refl _) rfl, rfl, ?_⟩
      refine Provenance.fresh rfl ?_
      -- the only response so far came on the probe's connection, which is another one
      simp [latestResponseOn, responses, openingLog, probeLog, Ne.symm hne]
  | @reuseProbe c response scheme challenge bytes hreusable hdecode =>
      obtain ⟨-, hchosen, written, rfl⟩ := h
      refine ⟨[], 0, session_start rfl rfl rfl ?_ ?_ rfl, rfl, ?_⟩
      · exact Nat.le_succ 1
      · exact Nat.le_succ 1
      · exact Provenance.answered rfl hreusable (chooseScheme_ok hchosen).offered hdecode
  | token =>
      obtain ⟨sent, count, hsession, hcount, hsource⟩ := h
      refine ⟨sent, count + 1, hsession.step _ _, by omega, fun response hlatest => ?_⟩
      -- a step of the context is no response, so the last one is still the last one
      apply hsource.reusable
      simpa [latestResponseOn, responses] using hlatest
  | refuse =>
      obtain ⟨sent, count, hsession, hcount, -⟩ := h
      exact ⟨sent, count + 1, hsession.step _ _, by omega⟩
  | authorize =>
      obtain ⟨sent, count, hsession, hcount, -⟩ := h
      exact ⟨_, count, hsession.authorize, hcount⟩
  | reuse hreusable hfound hdecode =>
      obtain ⟨sent, count, hsession, hcount, hlatest⟩ := h
      refine ⟨sent, count, hsession.snoc rfl rfl rfl rfl rfl, hcount, ?_⟩
      refine Provenance.answered ?_ hreusable hfound hdecode
      simpa [latestResponse, responses] using hlatest

/-- The past of a run is summarised by its last phase. -/
theorem history_run {terms : Terms} {log : List Event} {s : Phase}
    (h : Runs (Step terms) .start log s) : History terms log s := by
  have hstart : History terms [] .start := rfl
  exact Runs.history (History terms) history_step hstart h

/-- A past is a beginning of the opening, or there is a session. -/
theorem History.opening_or_session {terms : Terms} {past : List Event} {s : Phase}
    (h : History terms past s) :
    (∃ c bytes response scheme, past <+: openingLog terms c bytes response scheme) ∨
      ∃ c scheme sent unsent count,
        Session terms past c scheme sent unsent count ∧ count ≤ maxAuthRounds := by
  -- before the first response any response will do
  let response : ResponseHead := ⟨1, 200, []⟩
  cases s with
  | start =>
      obtain rfl : past = _ := h
      exact Or.inl ⟨0, [], response, .ntlm, List.nil_prefix⟩
  | dialing =>
      obtain rfl : past = _ := h
      exact Or.inl ⟨0, [], response, .ntlm, ⟨_, rfl⟩⟩
  | fresh c =>
      obtain rfl : past = _ := h
      exact Or.inl ⟨c, [], response, .ntlm, ⟨_, rfl⟩⟩
  | asking c round value =>
      rcases round with _ | ⟨scheme, left⟩
      · obtain ⟨-, rfl⟩ := h
        exact Or.inl ⟨c, [], response, .ntlm, ⟨_, rfl⟩⟩
      · obtain ⟨sent, count, hsession, hcount⟩ := h
        exact Or.inr ⟨c, scheme, sent, [], count, hsession, by omega⟩
  | waiting c round =>
      rcases round with _ | ⟨scheme, left⟩
      · obtain ⟨bytes, rfl⟩ := h
        exact Or.inl ⟨c, bytes, response, .ntlm, ⟨_, rfl⟩⟩
      · obtain ⟨sent, count, hsession, hcount⟩ := h
        exact Or.inr ⟨c, scheme, sent, [], count, hsession, by omega⟩
  | answered c round response =>
      rcases round with _ | ⟨scheme, left⟩
      · obtain ⟨bytes, rfl⟩ := h
        exact Or.inl ⟨c, bytes, response, .ntlm, ⟨_, rfl⟩⟩
      · obtain ⟨sent, count, hsession, hcount, -⟩ := h
        exact Or.inr ⟨c, scheme, sent, [], count, hsession, by omega⟩
  | created c response scheme challenge =>
      obtain ⟨-, -, bytes, rfl⟩ := h
      exact Or.inl ⟨c, bytes, response, scheme, ⟨_, rfl⟩⟩
  | redialing c scheme =>
      obtain ⟨bytes, response, rfl⟩ := h
      exact Or.inl ⟨c, bytes, response, scheme, List.prefix_refl _⟩
  | ready c scheme challenge left =>
      obtain ⟨sent, count, hsession, hcount, -⟩ := h
      exact Or.inr ⟨c, scheme, sent, [], count, hsession, by omega⟩
  | stepped c scheme token left =>
      obtain ⟨sent, count, hsession, hcount, -⟩ := h
      exact Or.inr ⟨c, scheme, sent, [token], count, hsession, by omega⟩
  | failed c scheme =>
      obtain ⟨sent, count, hsession, hcount⟩ := h
      exact Or.inr ⟨c, scheme, sent, [], count, hsession, hcount⟩

end Server
end Fastpx
