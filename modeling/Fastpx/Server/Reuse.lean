import Fastpx.Http1.SelfDelimited
import Fastpx.Server.History

/-!
# When a connection is used again

A handshake sends another request on a connection only after responses which
keep it open and whose body the drain code believes to have consumed
(`reusable_of_request`).  For a body whose end the head does not tell, that
belief is wrong: the code takes a response without framing headers to have no
body, and looks for `chunked` anywhere in the transfer codings.  So the rest of
such a body is read as the next response head (`body_taken_for_response`).

`reuse_self_delimited` is the positive statement: connections are used again
only after self-delimited responses, as soon as the upstream frames the
challenges it keeps a connection open for in the plain way.
-/

namespace Fastpx
namespace Server

open StreamKit Config Http1

/-! ## Responses before a request -/

/-- All responses on a connection allow its reuse. -/
def AllReusable (c : Nat) (received : List (Nat × ResponseHead)) : Prop :=
  ∀ response, (c, response) ∈ received → Reusable response

/-- The responses behind each phase.  Before the rounds there is at most the one
to the probe; in the rounds all those on the connection in use allow its reuse,
apart from one to which the handshake has not reacted yet. -/
def Kept (past : List Event) : Phase → Prop
  | .start => responses past = []
  | .dialing => responses past = []
  | .fresh _ => responses past = []
  | .asking _ none _ => responses past = []
  | .waiting _ none => responses past = []
  | .answered c none response => responses past = [(c, response)]
  | .created c response _ _ => responses past = [(c, response)]
  | .redialing c _ => ∃ response, responses past = [(c, response)]
  | .ready c _ _ _ => AllReusable c (responses past)
  | .stepped c _ _ _ => AllReusable c (responses past)
  | .asking c (some _) _ => AllReusable c (responses past)
  | .waiting c (some _) => AllReusable c (responses past)
  | .answered c (some _) response => ∃ before, responses past = before ++ [(c, response)] ∧
      AllReusable c before
  | .failed _ _ => True

theorem AllReusable.snoc {c : Nat} {before : List (Nat × ResponseHead)} {response : ResponseHead}
    (h : AllReusable c before) (hreusable : Reusable response) :
    AllReusable c (before ++ [(c, response)]) := by
  intro other hmem
  rcases List.mem_append.mp hmem with hmem | hmem
  · exact h other hmem
  · obtain rfl : other = response := by simpa using hmem
    exact hreusable

/-- Only responses change the responses received. -/
theorem responses_snoc {past : List Event} {event : Event} (h : responses [event] = []) :
    responses (past ++ [event]) = responses past := by
  rw [responses, List.filterMap_append, ← responses, ← responses, h, List.append_nil]

theorem responses_snoc_response {past : List Event} {c : Nat} {response : ResponseHead} :
    responses (past ++ [.response c response]) = responses past ++ [(c, response)] := by
  simp [responses]

theorem kept_step {terms : Terms} {past : List Event} {s s' : Phase} {event : Event}
    (h : Kept past s) (hstep : Step terms s event s') : Kept (past ++ [event]) s' := by
  cases hstep with
  | dial => exact (responses_snoc rfl).trans h
  | openProbe => exact (responses_snoc rfl).trans h
  | probe => exact (responses_snoc rfl).trans h
  | @write c round value bytes _ =>
      have hsame : responses (past ++ [.wrote c bytes]) = responses past := responses_snoc rfl
      cases round with
      | none => exact hsame.trans h
      | some round => exact (congrArg (AllReusable c) hsame).mpr h
  | @receive c round response =>
      cases round with
      | none =>
          exact responses_snoc_response.trans (congrArg (· ++ _) (show responses past = [] from h))
      | some round => exact ⟨_, responses_snoc_response, h⟩
  | create _ _ => exact (responses_snoc rfl).trans h
  | redial _ _ => exact ⟨_, (responses_snoc rfl).trans h⟩
  | @reopen c c' scheme hne =>
      obtain ⟨response, hresponse⟩ := h
      intro other hmem
      rw [responses_snoc rfl, hresponse] at hmem
      simp [hne] at hmem
  | @reuseProbe c response scheme challenge bytes hreusable _ =>
      have hresponse : responses (past ++ [.drained c]) = [] ++ [(c, response)] :=
        (responses_snoc rfl).trans h
      refine (congrArg (AllReusable c) hresponse).mpr (AllReusable.snoc ?_ hreusable)
      exact fun _ hmem => by cases hmem
  | token => exact (congrArg (AllReusable _) (responses_snoc rfl)).mpr h
  | refuse => trivial
  | authorize => exact (congrArg (AllReusable _) (responses_snoc rfl)).mpr h
  | @reuse c left scheme response challenge bytes hreusable _ _ =>
      obtain ⟨before, hbefore, hall⟩ := h
      have hresponse : responses (past ++ [.drained c]) = before ++ [(c, response)] :=
        (responses_snoc rfl).trans hbefore
      exact (congrArg (AllReusable c) hresponse).mpr (hall.snoc hreusable)

/-- A request is sent on a connection only if every response received on it
before allowed its reuse. -/
theorem reusable_of_request {terms : Terms} {log past future : List Event} {final : Phase}
    {c : Nat} {destination : Endpoint} {value : Option Text}
    (hrun : Runs (Step terms) .start log final)
    (hlog : log = past ++ .request c destination value :: future) :
    AllReusable c (responses past) := by
  rw [hlog] at hrun
  obtain ⟨before, after, hbefore, hstep, -⟩ := hrun.split
  have hstart : Kept [] .start := rfl
  have hkept : Kept past before := Runs.history Kept kept_step hstart hbefore
  cases hstep with
  | probe =>
      rw [show responses past = [] from hkept]
      exact fun _ hmem => by cases hmem
  | authorize => exact hkept

/-! ## Self-delimited responses -/

/-- Framing which leaves nothing to interpretation: `chunked` comes last, or
there are only lengths, and they are plain digits. -/
def PlainlyFramed (response : ResponseHead) : Prop :=
  response.EndsChunked ∨ response.headerValues transferEncodingField = [] ∧
    response.headerValues contentLengthField ≠ [] ∧
    ∀ value ∈ response.headerValues contentLengthField, ResponseHead.PlainLength value

/-- Among the responses whose body the code claims to have consumed, the
self-delimited ones are those which are plainly framed. -/
theorem selfDelimited_iff {response : ResponseHead} (h : Drainable response) :
    response.SelfDelimited ↔ PlainlyFramed response := by
  refine or_congr_right (and_congr_right fun hcodings => ?_)
  have hchunked : response.isChunked = false := by
    simp [ResponseHead.isChunked, ResponseHead.hasToken, hcodings]
  obtain ⟨length, hlength⟩ := h.resolve_left (by simp [hchunked])
  exact ResponseHead.validLength_iff hlength

variable {κ : Type}

/-- If the upstream frames plainly what it keeps a connection open for, then
every response on a connection that is used again was self-delimited. -/
theorem reuse_self_delimited (proxy : Proxy κ) (destination : Endpoint) (w : World)
    (hframed : ∀ c response,
      Event.response c response ∈ (proxy.establishUpstreamTunnel destination w).2.2 →
      Reusable response → PlainlyFramed response) :
    ∀ past c d value future,
      (proxy.establishUpstreamTunnel destination w).2.2 = past ++ .request c d value :: future →
      ∀ response, Event.response c response ∈ past → response.SelfDelimited := by
  intro past c d value future hlog response hmem
  obtain ⟨final, hrun, -⟩ := establish_guided proxy destination w
  have hreusable : Reusable response :=
    reusable_of_request hrun hlog response (mem_responses.mpr hmem)
  apply (selfDelimited_iff hreusable.drainable).mpr
  exact hframed c response (by rw [hlog]; exact List.mem_append_left _ hmem) hreusable

/-! ## Two handshakes -/

/-- A proxy whose authentication provider has one token, linked with a head
parser that knows one challenge and the acceptance. -/
private def reuseProxy (raw : Bytes) (challenge : ResponseHead) : Proxy Unit where
  config := ⟨.v4 0x7f000001#32 3128, ⟨"proxy".toList, 3128⟩, .auto, .proxyOnly, [], 5, 10, none,
    1024, 16⟩
  authFactory := ⟨fun _ _ => .ok (), fun _ _ => (.ok [1], ())⟩
  httparse := .ofTables []
    [(raw, .complete raw.length,
        ⟨some challenge.version, some challenge.status, challenge.headers⟩),
      (utf8 "HTTP/1.1 200 OK\r\n\r\n".toList, .complete 19, ⟨some 1, some 200, []⟩)]
  base64 := .ofTable [([1], "AQ==".toList)]

private def reuseDestination : Endpoint := ⟨"a".toList, 443⟩

/-- An upstream which sends these bytes at once on its only connection. -/
private def reuseWorld (bytes : Bytes) (h : bytes ≠ []) : World :=
  ⟨[], [some (0, .ok ⟨⟨[⟨bytes, h⟩], none⟩, none, []⟩)], 0⟩

/-- A challenge without framing headers: its body ends where the connection
does. -/
private def endlessHead : ResponseHead :=
  ⟨1, 407, [⟨"Proxy-Authenticate".toList, utf8 "NTLM".toList⟩]⟩

private def endlessRaw : Bytes :=
  utf8 "HTTP/1.1 407 Denied\r\nProxy-Authenticate: NTLM\r\n\r\n".toList

/-- The upstream refuses, and explains it in a body which looks like a response
head.  The handshake sends its token on the same connection and takes the body
for the acceptance. -/
theorem body_taken_for_response :
    let body := utf8 "HTTP/1.1 200 OK\r\n\r\n".toList
    let outcome := (reuseProxy endlessRaw endlessHead).establishUpstreamTunnel reuseDestination
      (reuseWorld (endlessRaw ++ body) (by decide))
    ¬ endlessHead.SelfDelimited ∧
      requests outcome.2.2 = [(0, reuseDestination, none),
        (0, reuseDestination, some "NTLM AQ==".toList)] ∧
      responses outcome.2.2 = [(0, endlessHead), (0, ⟨1, 200, []⟩)] ∧
      outcome.1.toOption.map (fun upstream => upstream.stream.pending) = some [] := by
  have hcodings : endlessHead.headerValues transferEncodingField = [] := by decide +kernel
  have hlengths : endlessHead.headerValues contentLengthField = [] := by decide +kernel
  refine ⟨?_, by decide +kernel⟩
  rintro (⟨coding, hcoding, -⟩ | ⟨-, hne, -⟩)
  · simp [ResponseHead.transferCodings, hcodings] at hcoding
  · exact hne (by simp [ResponseHead.announcedLengths, hlengths])

/-- A challenge with a body of two bytes. -/
private def measuredHead : ResponseHead :=
  ⟨1, 407, [⟨"Proxy-Authenticate".toList, utf8 "NTLM".toList⟩,
    ⟨"Content-Length".toList, utf8 "2".toList⟩]⟩

private def measuredRaw : Bytes :=
  utf8 ("HTTP/1.1 407 Denied\r\nProxy-Authenticate: NTLM\r\n" ++
    "Content-Length: 2\r\n\r\n").toList

private def measuredRun : Except ProxyError Connection × World × List Event :=
  (reuseProxy measuredRaw measuredHead).establishUpstreamTunnel reuseDestination
    (reuseWorld (measuredRaw ++ utf8 "noHTTP/1.1 200 OK\r\n\r\n".toList) (by decide))

theorem reuse_self_delimited_measured :
    measuredRun.2.2 = measuredRun.2.2.take 8 ++
        .request 0 reuseDestination (some "NTLM AQ==".toList) :: measuredRun.2.2.drop 9 ∧
      Event.response 0 measuredHead ∈ measuredRun.2.2.take 8 ∧ measuredHead.SelfDelimited := by
  have hlog : measuredRun.2.2 = measuredRun.2.2.take 8 ++
      .request 0 reuseDestination (some "NTLM AQ==".toList) :: measuredRun.2.2.drop 9 := by
    decide +kernel
  have hmem : Event.response 0 measuredHead ∈ measuredRun.2.2.take 8 := by decide +kernel
  refine ⟨hlog, hmem, reuse_self_delimited _ _ _ ?_ _ _ _ _ _ hlog _ hmem⟩
  intro c response hresponse hreusable
  have hreceived : (c, response) ∈ responses measuredRun.2.2 := mem_responses.mpr hresponse
  rw [show responses measuredRun.2.2 = [(0, measuredHead), (0, ⟨1, 200, []⟩)] by
    decide +kernel] at hreceived
  rcases List.mem_cons.mp hreceived with hfirst | hsecond
  · obtain ⟨rfl, rfl⟩ := Prod.mk.inj hfirst
    exact Or.inr (by decide)
  · obtain ⟨rfl, rfl⟩ := Prod.mk.inj (List.mem_singleton.mp hsecond)
    exact absurd hreusable.status (by decide)

end Server
end Fastpx
