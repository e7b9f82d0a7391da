import Fastpx.Http1.Limits
import Fastpx.Http1.Taken
import Fastpx.Server.History

/-!
# The bytes of a handshake

What a successful handshake with the upstream proxy has taken from the
connection which it returns, byte by byte: the heads and bodies of the refused
rounds, the head of the acceptance, and nothing after it
(`handshake_transcript`).  The responses are those in the log, and every request
was written whole.  So the tunnel begins exactly behind the head of the
acceptance, at a place which the bytes alone decide (`tunnel_start_determined`).

The success paths of the server are taken apart with `Effect.bind_eq_ok`; for
each piece there is one lemma that says what a success means.
-/

namespace Fastpx
namespace Server

open StreamKit Config Http1

/-! ## Views of one connection -/

/-- The responses received on a connection. -/
def responsesOn (c : Nat) (log : List Event) : List ResponseHead :=
  log.filterMap fun
    | .response c' response => if c' = c then some response else none
    | _ => none

/-- The authorization of each request made on a connection. -/
def requestsOn (c : Nat) (log : List Event) : List (Option Text) :=
  log.filterMap fun
    | .request c' _ value => if c' = c then some value else none
    | _ => none

/-- What each write on a connection has sent. -/
def sentOn (c : Nat) (log : List Event) : List Bytes :=
  log.filterMap fun
    | .wrote c' bytes => if c' = c then some bytes else none
    | _ => none

@[simp] theorem responsesOn_append (c : Nat) (past more : List Event) :
    responsesOn c (past ++ more) = responsesOn c past ++ responsesOn c more :=
  List.filterMap_append

@[simp] theorem requestsOn_append (c : Nat) (past more : List Event) :
    requestsOn c (past ++ more) = requestsOn c past ++ requestsOn c more :=
  List.filterMap_append

@[simp] theorem sentOn_append (c : Nat) (past more : List Event) :
    sentOn c (past ++ more) = sentOn c past ++ sentOn c more :=
  List.filterMap_append

/-! ## What a success means -/

/-- A connection which the script of the world provides within the limit. -/
def Provided (w : World) (limit : Nat) (socket : Socket) : Prop :=
  ∃ elapsed ≤ limit, some (elapsed, .ok socket) ∈ w.dials

theorem OpenedOn.provided {w : World} {limit c : Nat} {socket : Socket}
    (h : OpenedOn w limit c socket) : Provided w limit socket := by
  obtain ⟨k, -, hk⟩ := h
  obtain ⟨dial, hmem, hdial⟩ := List.mem_filterMap.mp (List.mem_of_getElem? hk)
  obtain ⟨outcome, htimeout, hok⟩ := Option.bind_eq_some_iff.mp hdial
  cases outcome with
  | error e => cases hok
  | ok socket' =>
      obtain rfl := Option.some.inj hok
      -- the entry of the script is there in time
      unfold withTimeout at htimeout
      split at htimeout
      · split at htimeout
        · next elapsed outcome hle =>
            obtain rfl := Option.some.inj htimeout
            exact ⟨elapsed, hle, hmem⟩
        · cases htimeout
      · cases htimeout

theorem connect_ok {attempt : Event} {limit : Nat} {timeoutError : ProxyError} {w w' : World}
    {c : Connection} {log : List Event}
    (h : connect attempt limit timeoutError w = (.ok c, w', log)) :
    ∃ socket, OpenedOn w limit w.nextConnection socket ∧
      c = ⟨w.nextConnection, BufferedStream.new socket.incoming, socket.writes⟩ ∧
      log = [attempt, .opened w.nextConnection] ∧
      w'.nextConnection = w.nextConnection + 1 ∧ Follows limit w w' := by
  have houtcome := connect_outcome attempt limit timeoutError w
  rw [h] at houtcome
  cases houtcome with
  | connected hsocket hfollows hnext => exact ⟨_, hsocket, rfl, rfl, hnext, hfollows⟩

/-- A request was sent: it was written whole. -/
theorem sendConnectRequest_ok {c c' : Connection} {destination : Endpoint} {value : Option Text}
    {w w' : World} {log : List Event}
    (h : sendConnectRequest c destination value w = (.ok c', w', log)) :
    w' = w ∧ (∃ writes, c' = { c with writes := writes }) ∧
      log = [.request c.id destination value,
        .wrote c.id (utf8 (connectRequest destination value))] := by
  obtain ⟨more, hsend, rfl⟩ := Effect.emit_bind_eq_ok h
  rcases hwrite : writeAll c.writes (utf8 (connectRequest destination value)) with
    ⟨e | writes, accepted⟩
  · simp only [hwrite] at hsend
    obtain ⟨later, hfinal, -⟩ := Effect.emit_bind_eq_ok hsend
    cases (Prod.mk.inj hfinal).1
  · simp only [hwrite] at hsend
    obtain ⟨later, hfinal, rfl⟩ := Effect.emit_bind_eq_ok hsend
    obtain ⟨rfl, rfl, rfl⟩ := Effect.pure_eq_ok hfinal
    obtain rfl := writeAll_ok hwrite
    exact ⟨rfl, ⟨writes, rfl⟩, rfl⟩

theorem readResponse_ok {httparse : Httparse} {maxHeaderBytes : Nat} {c c' : Connection}
    {head : ResponseHead} {w w' : World} {log : List Event}
    (h : readResponse httparse maxHeaderBytes c w = (.ok (head, c'), w', log)) :
    w' = w ∧ log = [.response c.id head] ∧
      ∃ stream, c.stream.readResponseHead httparse maxHeaderBytes = (.ok head, stream) ∧
        c' = { c with stream := stream } := by
  unfold readResponse at h
  rcases hread : c.stream.readResponseHead httparse maxHeaderBytes with ⟨e | head', stream⟩
  · simp only [hread] at h
    cases (Prod.mk.inj h).1
  · simp only [hread] at h
    obtain ⟨more, hfinal, rfl⟩ := Effect.emit_bind_eq_ok h
    obtain ⟨hvalue, rfl, rfl⟩ := Effect.pure_eq_ok hfinal
    obtain ⟨rfl, rfl⟩ := Prod.mk.inj hvalue
    exact ⟨rfl, rfl, stream, rfl, rfl⟩

theorem drainResponse_ok {response : ResponseHead} {c c' : Connection} {w w' : World}
    {log : List Event} (h : drainResponse response c w = (.ok c', w', log)) :
    w' = w ∧ log = [.drained c.id] ∧
      ∃ stream, c.stream.drainResponseBody response = (.ok (), stream) ∧
        c' = { c with stream := stream } := by
  unfold drainResponse at h
  rcases hdrain : c.stream.drainResponseBody response with ⟨e | _, stream⟩
  · simp only [hdrain] at h
    cases (Prod.mk.inj h).1
  · simp only [hdrain] at h
    obtain ⟨more, hfinal, rfl⟩ := Effect.emit_bind_eq_ok h
    obtain ⟨rfl, rfl, rfl⟩ := Effect.pure_eq_ok hfinal
    exact ⟨rfl, rfl, stream, rfl, rfl⟩

variable {κ : Type}

theorem stepContext_ok {proxy : Proxy κ} {context context' : κ} {challenge : Option Bytes}
    {token : Bytes} {w w' : World} {log : List Event}
    (h : proxy.stepContext context challenge w = (.ok (token, context'), w', log)) :
    w' = w ∧ log = [.step challenge (.ok token)] ∧
      proxy.authFactory.step context challenge = (.ok token, context') := by
  unfold Proxy.stepContext at h
  rcases hstep : proxy.authFactory.step context challenge with ⟨e | token', context₁⟩
  · simp only [hstep] at h
    obtain ⟨more, hfinal, -⟩ := Effect.emit_bind_eq_ok h
    cases (Prod.mk.inj hfinal).1
  · simp only [hstep] at h
    obtain ⟨more, hfinal, rfl⟩ := Effect.emit_bind_eq_ok h
    obtain ⟨hvalue, rfl, rfl⟩ := Effect.pure_eq_ok hfinal
    obtain ⟨rfl, rfl⟩ := Prod.mk.inj hvalue
    exact ⟨rfl, rfl, rfl⟩

theorem createContext_ok {proxy : Proxy κ} {scheme : AuthScheme} {context : κ} {w w' : World}
    {log : List Event} (h : proxy.createContext scheme w = (.ok context, w', log)) :
    w' = w ∧ log = [.create scheme (targetName proxy.config.upstream)] ∧
      proxy.authFactory.create scheme (targetName proxy.config.upstream) = .ok context := by
  obtain ⟨more, hfinal, rfl⟩ := Effect.emit_bind_eq_ok h
  cases hcreate : proxy.authFactory.create scheme (targetName proxy.config.upstream) with
  | error e =>
      simp only [hcreate] at hfinal
      cases (Prod.mk.inj hfinal).1
  | ok context' =>
      simp only [hcreate] at hfinal
      obtain ⟨rfl, rfl, rfl⟩ := Effect.pure_eq_ok hfinal
      exact ⟨rfl, rfl, rfl⟩

/-! ## The connection in use -/

/-- The bytes of a request. -/
def requestBytes (destination : Endpoint) (value : Option Text) : Bytes :=
  utf8 (connectRequest destination value)

/-- The connection of a handshake after the events `past`: of what arrives on it
the bytes `consumed` are taken, and every request on it was written whole. -/
structure InUse (proxy : Proxy κ) (destination : Endpoint) (incoming : Incoming)
    (past : List Event) (c : Connection) (consumed : Bytes) : Prop where
  bytes : incoming.unread = consumed ++ c.stream.pending
  ending : c.stream.stream.ending = incoming.ending
  reading : Conversation proxy.httparse proxy.config.maxHeaderBytes c.stream
  sent : sentOn c.id past = (requestsOn c.id past).map (requestBytes destination)

/-- Every request was answered, and the responses are consumed. -/
structure Idle (proxy : Proxy κ) (destination : Endpoint) (incoming : Incoming)
    (past : List Event) (c : Connection) (taken : List (TakenResponse proxy.httparse)) : Prop where
  inUse : InUse proxy destination incoming past c (taken.flatMap TakenResponse.wire)
  heard : responsesOn c.id past = taken.map TakenResponse.head
  requested : (requestsOn c.id past).length = taken.length

/-- Every request was answered, and of the last response the head was read. -/
structure Answered (proxy : Proxy κ) (destination : Endpoint) (incoming : Incoming)
    (past : List Event) (c : Connection) (taken : List (TakenResponse proxy.httparse))
    (raw : Bytes) (head : ResponseHead) : Prop where
  inUse : InUse proxy destination incoming past c (taken.flatMap TakenResponse.wire ++ raw)
  heard : responsesOn c.id past = taken.map TakenResponse.head ++ [head]
  requested : (requestsOn c.id past).length = taken.length + 1
  ends : findHeaderEnd raw = some raw.length
  parsed : parseResponseHead proxy.httparse raw = .ok head

section

variable {proxy : Proxy κ} {destination : Endpoint} {incoming : Incoming} {past : List Event}
  {c : Connection} {taken : List (TakenResponse proxy.httparse)}

/-- A connection on which nothing has happened. -/
theorem idle_fresh {id : Nat} {writes : List WriteOutcome} (hresponses : responsesOn id past = [])
    (hrequests : requestsOn id past = []) (hsent : sentOn id past = []) :
    Idle proxy destination incoming past ⟨id, BufferedStream.new incoming, writes⟩ [] where
  inUse := ⟨rfl, rfl, .start incoming, by rw [hsent, hrequests]; rfl⟩
  heard := hresponses
  requested := by rw [hrequests]; rfl

/-- Events which are not about the connection leave its state alone. -/
theorem Idle.skip {log : List Event} (h : Idle proxy destination incoming past c taken)
    (hresponses : responsesOn c.id log = []) (hrequests : requestsOn c.id log = [])
    (hsent : sentOn c.id log = []) : Idle proxy destination incoming (past ++ log) c taken where
  inUse := ⟨h.inUse.bytes, h.inUse.ending, h.inUse.reading, by
    simp only [sentOn_append, requestsOn_append, hrequests, hsent, List.append_nil, h.inUse.sent]⟩
  heard := by rw [responsesOn_append, hresponses, List.append_nil, h.heard]
  requested := by rw [requestsOn_append, hrequests, List.append_nil, h.requested]

theorem Answered.skip {raw : Bytes} {head : ResponseHead} {log : List Event}
    (h : Answered proxy destination incoming past c taken raw head)
    (hresponses : responsesOn c.id log = []) (hrequests : requestsOn c.id log = [])
    (hsent : sentOn c.id log = []) :
    Answered proxy destination incoming (past ++ log) c taken raw head where
  inUse := ⟨h.inUse.bytes, h.inUse.ending, h.inUse.reading, by
    simp only [sentOn_append, requestsOn_append, hrequests, hsent, List.append_nil, h.inUse.sent]⟩
  heard := by rw [responsesOn_append, hresponses, List.append_nil, h.heard]
  requested := by rw [requestsOn_append, hrequests, List.append_nil, h.requested]
  ends := h.ends
  parsed := h.parsed

/-- A request and the head of its response. -/
theorem Idle.exchange {value : Option Text} {c₁ c₂ : Connection} {head : ResponseHead}
    {w w₁ w₂ : World} {log₁ log₂ : List Event}
    (h : Idle proxy destination incoming past c taken)
    (hsend : sendConnectRequest c destination value w = (.ok c₁, w₁, log₁))
    (hread : readResponse proxy.httparse proxy.config.maxHeaderBytes c₁ w₁ =
      (.ok (head, c₂), w₂, log₂)) :
    ∃ raw, Answered proxy destination incoming (past ++ (log₁ ++ log₂)) c₂ taken raw head ∧
      c₂.id = c.id ∧ w₂ = w := by
  obtain ⟨rfl, ⟨writes, rfl⟩, rfl⟩ := sendConnectRequest_ok hsend
  obtain ⟨rfl, rfl, stream, hhead, rfl⟩ := readResponse_ok hread
  obtain ⟨raw, hpending, hends, hparsed, hending⟩ := readResponseHead_ok hhead
  refine ⟨raw, ⟨⟨?_, hending.trans h.inUse.ending, .head h.inUse.reading hhead, ?_⟩, ?_, ?_, hends,
    hparsed⟩, rfl, rfl⟩
  · rw [h.inUse.bytes, hpending, List.append_assoc]
  · rw [sentOn_append, requestsOn_append, h.inUse.sent]
    simp [sentOn, requestsOn, requestBytes]
  · rw [responsesOn_append, h.heard]
    simp [responsesOn]
  · rw [requestsOn_append, List.length_append, h.requested]
    simp [requestsOn]

/-- The body of the last response. -/
theorem Answered.drain {raw : Bytes} {head : ResponseHead} {c' : Connection} {w w' : World}
    {log : List Event} (h : Answered proxy destination incoming past c taken raw head)
    (hdrain : drainResponse head c w = (.ok c', w', log)) :
    ∃ response : TakenResponse proxy.httparse, response.head = head ∧
      Idle proxy destination incoming (past ++ log) c' (taken ++ [response]) ∧ c'.id = c.id ∧
      w' = w := by
  obtain ⟨rfl, rfl, stream, hbody, rfl⟩ := drainResponse_ok hdrain
  obtain ⟨body, hpending, hdrained, hending⟩ := drainResponseBody_ok hbody
  let response : TakenResponse proxy.httparse := ⟨raw, head, body, h.ends, h.parsed, hdrained⟩
  refine ⟨response, rfl, ⟨⟨?_, hending.trans h.inUse.ending, .drained h.inUse.reading hbody, ?_⟩,
    ?_, ?_⟩, rfl, rfl⟩
  · rw [h.inUse.bytes, hpending]
    simp [response, TakenResponse.wire]
  · rw [sentOn_append, requestsOn_append, h.inUse.sent]
    simp [sentOn, requestsOn]
  · rw [responsesOn_append, h.heard]
    simp [responsesOn, response]
  · rw [requestsOn_append, List.length_append, h.requested]
    simp [requestsOn]

/-- A request with a token, and the head of its response. -/
theorem Idle.exchangeToken {scheme : AuthScheme} {token : Bytes} {c' : Connection}
    {head : ResponseHead} {w w' : World} {log : List Event}
    (h : Idle proxy destination incoming past c taken)
    (hexchange : proxy.exchange destination scheme token c w = (.ok (head, c'), w', log)) :
    ∃ raw, Answered proxy destination incoming (past ++ log) c' taken raw head ∧
      c'.id = c.id ∧ w' = w := by
  obtain ⟨c₁, w₁, log₁, log₂, hsend, hread, rfl⟩ := Effect.bind_eq_ok hexchange
  exact h.exchange hsend hread

/-- The connection at the start of a round: fresh, or with a refusal whose body is
still to be consumed. -/
structure RoundStart (proxy : Proxy κ) (destination : Endpoint) (incoming : Incoming)
    (past : List Event) (c : Connection) (taken : List (TakenResponse proxy.httparse))
    (response : ResponseHead) (mustDrain : Bool) : Prop where
  fresh : mustDrain = false → Idle proxy destination incoming past c taken
  answered : mustDrain = true → response.status = 407 ∧
    ∃ raw, Answered proxy destination incoming past c taken raw response
  refused : ∀ earlier ∈ taken, earlier.head.status = 407

/-- The start of a round leaves the connection idle. -/
theorem RoundStart.prepare {mustDrain : Bool} {response : ResponseHead} {c' : Connection}
    {w w' : World} {log : List Event}
    (h : RoundStart proxy destination incoming past c taken response mustDrain)
    (hprepare : Proxy.prepareRound mustDrain response c w = (.ok c', w', log)) :
    ∃ taken', Idle proxy destination incoming (past ++ log) c' taken' ∧
      (∀ earlier ∈ taken', earlier.head.status = 407) ∧ c'.id = c.id ∧ w' = w := by
  cases mustDrain with
  | false =>
      obtain ⟨rfl, rfl, rfl⟩ := Effect.pure_eq_ok hprepare
      exact ⟨taken, (h.fresh rfl).skip rfl rfl rfl, h.refused, rfl, rfl⟩
  | true =>
      obtain ⟨hstatus, raw, hanswered⟩ := h.answered rfl
      simp only [Proxy.prepareRound, if_true] at hprepare
      cases hclose : response.connectionClose with
      | true =>
          simp only [hclose, if_true] at hprepare
          cases (Prod.mk.inj hprepare).1
      | false =>
          simp only [hclose, Bool.false_eq_true, if_false] at hprepare
          obtain ⟨last, hlast, hidle, hid, hworld⟩ := hanswered.drain hprepare
          refine ⟨taken ++ [last], hidle, fun earlier hmem => ?_, hid, hworld⟩
          rcases List.mem_append.mp hmem with hmem | hmem
          · exact h.refused earlier hmem
          · rw [List.mem_singleton.mp hmem, hlast, hstatus]

/-- What the rounds have taken from the connection, if they return it: the
refusals with their bodies, and the head of the acceptance. -/
def Accepted (proxy : Proxy κ) (destination : Endpoint) (incoming : Incoming) (past : List Event)
    (c : Connection) : Prop :=
  ∃ (taken : List (TakenResponse proxy.httparse)) (raw : Bytes) (final : ResponseHead),
    Answered proxy destination incoming past c taken raw final ∧ isConnectSuccess final = true ∧
      ∀ earlier ∈ taken, earlier.head.status = 407

theorem authRounds_ok {scheme : AuthScheme} {rounds : Nat} {response : ResponseHead} {context : κ}
    {challenge : Option Bytes} {mustDrain : Bool} {upstream : Connection} {w w' : World}
    {log : List Event}
    (h : proxy.authRounds destination scheme rounds c response context challenge mustDrain w =
      (.ok upstream, w', log))
    (hstart : RoundStart proxy destination incoming past c taken response mustDrain) :
    Accepted proxy destination incoming (past ++ log) upstream ∧ upstream.id = c.id := by
  induction rounds generalizing c response context challenge mustDrain w log past taken with
  | zero => cases (Prod.mk.inj h).1
  | succ left ih =>
      obtain ⟨c₁, w₁, log₁, more₁, hprepare, h₁, rfl⟩ := Effect.bind_eq_ok h
      obtain ⟨taken₁, hidle, hrefused, hid₁, rfl⟩ := hstart.prepare hprepare
      obtain ⟨⟨token, context₂⟩, w₂, log₂, more₂, hstep, h₂, rfl⟩ := Effect.bind_eq_ok h₁
      obtain ⟨rfl, rfl, -⟩ := stepContext_ok hstep
      have hidle₂ : Idle proxy destination incoming
          (past ++ log₁ ++ [.step challenge (.ok token)]) c₁ taken₁ := hidle.skip rfl rfl rfl
      obtain ⟨⟨head, c₃⟩, w₃, log₃, more₃, hexchange, h₃, rfl⟩ := Effect.bind_eq_ok h₂
      obtain ⟨raw, hanswered, hid₃, rfl⟩ := hidle₂.exchangeToken hexchange
      dsimp only at h₃
      by_cases hsuccess : isConnectSuccess head = true
      · simp only [hsuccess, if_true] at h₃
        obtain ⟨rfl, rfl, rfl⟩ := Effect.pure_eq_ok h₃
        refine ⟨⟨taken₁, raw, head, ?_, hsuccess, hrefused⟩, hid₃.trans hid₁⟩
        simpa only [List.append_assoc, List.append_nil] using hanswered
      simp only [hsuccess] at h₃
      by_cases hstatus : head.status = 407
      · simp only [hstatus, ne_eq, not_true, if_false] at h₃
        obtain ⟨challenge', -, h₄⟩ := Effect.ofExcept_bind_eq_ok h₃
        obtain ⟨haccepted, hid₄⟩ := ih h₄ ⟨by simp, fun _ => ⟨hstatus, raw, hanswered⟩, hrefused⟩
        refine ⟨?_, hid₄.trans (hid₃.trans hid₁)⟩
        simpa only [List.append_assoc] using haccepted
      · simp only [hstatus, ne_eq, not_false_eq_true, if_true] at h₃
        cases (Prod.mk.inj h₃).1

/-- The events are about this connection only. -/
def OnlyOn (c : Nat) (log : List Event) : Prop :=
  ∀ other ≠ c, responsesOn other log = [] ∧ requestsOn other log = [] ∧ sentOn other log = []

end

/-! ## The probe -/

/-- From the world `w₀` the connection of the probe was opened, and its request was
answered. -/
structure Probed (proxy : Proxy κ) (destination : Endpoint) (w₀ : World) (past : List Event)
    (w : World) (socket : Socket) (c : Connection) (raw : Bytes) (head : ResponseHead) :
    Prop where
  opened : OpenedOn w₀ proxy.config.connectTimeout c.id socket
  logged : c.id ∈ opens past
  answered : Answered proxy destination socket.incoming past c [] raw head
  only : OnlyOn c.id past
  follows : Follows proxy.config.connectTimeout w₀ w
  below : c.id < w.nextConnection

section

variable {proxy : Proxy κ} {destination : Endpoint}

theorem probe_ok {c c₁ c₂ : Connection} {head : ResponseHead} {w w₁ w₂ w₃ : World}
    {log₁ log₂ log₃ : List Event} (hconnect : proxy.connectUpstream w = (.ok c, w₁, log₁))
    (hsend : sendConnectRequest c destination none w₁ = (.ok c₁, w₂, log₂))
    (hread : readResponse proxy.httparse proxy.config.maxHeaderBytes c₁ w₂ =
      (.ok (head, c₂), w₃, log₃)) :
    ∃ socket raw, Probed proxy destination w (log₁ ++ (log₂ ++ log₃)) w₃ socket c₂ raw head := by
  obtain ⟨socket, hsocket, rfl, rfl, hnext, hfollows⟩ := connect_ok hconnect
  have hfresh : Idle proxy destination socket.incoming
      [.dialUpstream proxy.config.upstream, .opened w.nextConnection]
      ⟨w.nextConnection, BufferedStream.new socket.incoming, socket.writes⟩ [] :=
    idle_fresh rfl rfl rfl
  obtain ⟨raw, hanswered, hid, rfl⟩ := hfresh.exchange hsend hread
  dsimp only at hid
  refine ⟨socket, raw, hid ▸ hsocket, ?_, hanswered, ?_, hfollows, by omega⟩
  · simp [hid, opens]
  · obtain ⟨-, ⟨writes, rfl⟩, rfl⟩ := sendConnectRequest_ok hsend
    obtain ⟨-, rfl, stream, -, rfl⟩ := readResponse_ok hread
    intro other hother
    have hne : w.nextConnection ≠ other := Ne.symm hother
    simp [responsesOn, requestsOn, sentOn, hne]

variable {w₀ w : World} {past : List Event} {socket : Socket} {c : Connection} {raw : Bytes}
  {response : ResponseHead}

/-- The rounds go on with the connection of the probe. -/
theorem Probed.reuse (h : Probed proxy destination w₀ past w socket c raw response)
    (hstatus : response.status = 407) (scheme : AuthScheme) (name : Text) :
    RoundStart proxy destination socket.incoming (past ++ [.create scheme name]) c [] response
      true :=
  ⟨by simp, fun _ => ⟨hstatus, raw, h.answered.skip rfl rfl rfl⟩, by simp⟩

/-- The rounds are made on another connection, on which nothing has happened yet. -/
theorem Probed.reconnect {c' : Connection} {w' : World} {log : List Event}
    (h : Probed proxy destination w₀ past w socket c raw response)
    (hconnect : proxy.connectUpstream w = (.ok c', w', log)) (scheme : AuthScheme) (name : Text) :
    ∃ socket', OpenedOn w₀ proxy.config.connectTimeout c'.id socket' ∧ c'.id ∈ opens log ∧
      RoundStart proxy destination socket'.incoming (past ++ [.create scheme name] ++ log) c' []
        response false := by
  obtain ⟨socket', hsocket, rfl, rfl, -, -⟩ := connect_ok hconnect
  obtain ⟨hresponses, hrequests, hsent⟩ := h.only w.nextConnection (Nat.ne_of_gt h.below)
  refine ⟨socket', h.follows.openedOn hsocket, by simp [opens], fun _ => idle_fresh ?_ ?_ ?_,
    by simp, by simp⟩
  · rw [responsesOn_append, responsesOn_append, hresponses]
    rfl
  · rw [requestsOn_append, requestsOn_append, hrequests]
    rfl
  · rw [sentOn_append, sentOn_append, hsent]
    rfl

/-- The connection which the authentication returns is the probe's, or one that was
opened for the rounds. -/
theorem Probed.authenticate {upstream : Connection} {w' : World} {log : List Event}
    (hprobed : Probed proxy destination w₀ past w socket c raw response)
    (hstatus : response.status = 407)
    (h : proxy.authenticate destination c response w = (.ok upstream, w', log)) :
    ∃ socket', OpenedOn w₀ proxy.config.connectTimeout upstream.id socket' ∧
      Accepted proxy destination socket'.incoming (past ++ log) upstream ∧
      upstream.id ∈ opens (past ++ log) := by
  obtain ⟨⟨scheme, firstChallenge⟩, -, h₁⟩ := Effect.ofExcept_bind_eq_ok h
  obtain ⟨context, w₂, log₂, more₂, hcreate, h₂, rfl⟩ := Effect.bind_eq_ok h₁
  obtain ⟨rfl, rfl, -⟩ := createContext_ok hcreate
  obtain ⟨challenge, -, h₃⟩ := Effect.ofExcept_bind_eq_ok h₂
  cases hclose : response.connectionClose with
  | false =>
      simp only [hclose, Bool.false_eq_true, if_false] at h₃
      obtain ⟨haccepted, hsame⟩ := authRounds_ok h₃ (hprobed.reuse hstatus scheme _)
      refine ⟨socket, hsame ▸ hprobed.opened, ?_, ?_⟩
      · simpa only [List.append_assoc] using haccepted
      · rw [hsame, opens, List.filterMap_append]
        exact List.mem_append_left _ hprobed.logged
  | true =>
      simp only [hclose, if_true] at h₃
      cases challenge with
      | some bytes => cases (Prod.mk.inj h₃).1
      | none =>
          obtain ⟨c', w₄, log₄, more₄, hconnect, h₄, rfl⟩ := Effect.bind_eq_ok h₃
          obtain ⟨socket', hopened, hlogged, hstart⟩ := hprobed.reconnect hconnect scheme
            (targetName proxy.config.upstream)
          obtain ⟨haccepted, hsame⟩ := authRounds_ok h₄ hstart
          refine ⟨socket', hsame ▸ hopened, ?_, ?_⟩
          · simpa only [List.append_assoc] using haccepted
          · rw [hsame]
            simp only [opens, List.filterMap_append, List.mem_append] at hlogged ⊢
            exact .inr (.inr (.inl hlogged))

theorem establishUpstreamTunnel_ok {upstream : Connection} {w w' : World} {log : List Event}
    (h : proxy.establishUpstreamTunnel destination w = (.ok upstream, w', log)) :
    ∃ socket, OpenedOn w proxy.config.connectTimeout upstream.id socket ∧
      Accepted proxy destination socket.incoming log upstream ∧ upstream.id ∈ opens log := by
  obtain ⟨c, w₁, log₁, more₁, hconnect, h₁, rfl⟩ := Effect.bind_eq_ok h
  obtain ⟨c₂, w₂, log₂, more₂, hsend, h₂, rfl⟩ := Effect.bind_eq_ok h₁
  obtain ⟨⟨head, c₃⟩, w₃, log₃, more₃, hread, h₃, rfl⟩ := Effect.bind_eq_ok h₂
  obtain ⟨socket, raw, hprobed⟩ := probe_ok hconnect hsend hread
  have hlog : log₁ ++ (log₂ ++ (log₃ ++ more₃)) = log₁ ++ (log₂ ++ log₃) ++ more₃ := by
    simp only [List.append_assoc]
  rw [hlog]
  dsimp only at h₃
  by_cases hsuccess : isConnectSuccess head = true
  · simp only [hsuccess, if_true] at h₃
    obtain ⟨rfl, rfl, rfl⟩ := Effect.pure_eq_ok h₃
    rw [List.append_nil]
    exact ⟨socket, hprobed.opened, ⟨[], raw, head, hprobed.answered, hsuccess, by simp⟩,
      hprobed.logged⟩
  simp only [hsuccess] at h₃
  by_cases hstatus : head.status = 407
  swap
  · simp only [hstatus, ne_eq, not_false_eq_true, if_true] at h₃
    cases (Prod.mk.inj h₃).1
  simp only [hstatus, ne_eq, not_true, if_false] at h₃
  by_cases hmode : proxy.config.auth = .none
  · simp only [hmode, if_true] at h₃
    cases (Prod.mk.inj h₃).1
  simp only [hmode, if_false] at h₃
  exact hprobed.authenticate hstatus h₃

end

/-! ## The transcript -/

/-- **The bytes of a handshake are accounted for.**  The tunnel's connection is
one that the world provided in time.  What arrived on it are the refusals, each
a head and the body that was drained, then the head of the acceptance, and then
exactly the bytes which the tunnel will carry.  The heads are the responses in
the log, one for each request, and every request was written whole. -/
theorem handshake_transcript {proxy : Proxy κ} {destination : Endpoint} {upstream : Connection}
    {w w' : World} {log : List Event}
    (h : proxy.establishUpstreamTunnel destination w = (.ok upstream, w', log)) :
    ∃ (socket : Socket) (taken : List (TakenResponse proxy.httparse)) (raw : Bytes)
        (final : ResponseHead),
      Provided w proxy.config.connectTimeout socket ∧
      socket.incoming.unread =
        taken.flatMap TakenResponse.wire ++ (raw ++ upstream.stream.pending) ∧
      findHeaderEnd raw = some raw.length ∧
      parseResponseHead proxy.httparse raw = .ok final ∧ isConnectSuccess final = true ∧
      (∀ earlier ∈ taken, earlier.head.status = 407) ∧
      responsesOn upstream.id log = taken.map TakenResponse.head ++ [final] ∧
      (requestsOn upstream.id log).length = taken.length + 1 ∧
      sentOn upstream.id log = (requestsOn upstream.id log).map (requestBytes destination) := by
  obtain ⟨socket, hsocket, ⟨taken, raw, final, hanswered, hsuccess, hrefused⟩, -⟩ :=
    establishUpstreamTunnel_ok h
  refine ⟨socket, taken, raw, final, hsocket.provided, ?_, hanswered.ends, hanswered.parsed,
    hsuccess, hrefused, hanswered.heard, hanswered.requested, hanswered.inUse.sent⟩
  rw [hanswered.inUse.bytes, List.append_assoc]

/-! An upstream which refuses once, with a body of two bytes, then accepts and
sends three bytes of the tunnel. -/

private def refusalRaw : Bytes :=
  utf8 ("HTTP/1.1 407 Denied\r\nProxy-Authenticate: NTLM\r\n" ++
    "Content-Length: 2\r\n\r\n").toList

private def acceptanceRaw : Bytes := utf8 "HTTP/1.1 200 OK\r\n\r\n".toList

/-- A refusal after which the connection is closed. -/
private def closingRaw : Bytes :=
  utf8 ("HTTP/1.1 407 Denied\r\nProxy-Authenticate: NTLM\r\n" ++
    "Connection: close\r\n\r\n").toList

private def transcriptProxy : Proxy Unit where
  config := ⟨.v4 0x7f000001#32 3128, ⟨"proxy".toList, 3128⟩, .auto, .proxyOnly, [], 5, 10, none,
    1024, 16⟩
  authFactory := ⟨fun _ _ => .ok (), fun _ _ => (.ok [1], ())⟩
  httparse := .ofTables []
    [(refusalRaw, .complete 69, ⟨some 1, some 407,
        [⟨"Proxy-Authenticate".toList, utf8 "NTLM".toList⟩,
          ⟨"Content-Length".toList, utf8 "2".toList⟩]⟩),
      (closingRaw, .complete 69, ⟨some 1, some 407,
        [⟨"Proxy-Authenticate".toList, utf8 "NTLM".toList⟩,
          ⟨"Connection".toList, utf8 "close".toList⟩]⟩),
      (acceptanceRaw, .complete 19, ⟨some 1, some 200, []⟩)]
  base64 := .ofTable [([1], "AQ==".toList)]

private def transcriptBytes : Bytes := refusalRaw ++ utf8 "no".toList ++ acceptanceRaw ++ [1, 2, 3]

private theorem transcriptBytes_ne_nil : transcriptBytes ≠ [] := by simp [transcriptBytes]

private def transcriptSocket : Socket :=
  ⟨⟨[⟨transcriptBytes, transcriptBytes_ne_nil⟩], none⟩, none, []⟩

private def transcriptWorld : World := ⟨[], [some (0, .ok transcriptSocket)], 0⟩

private def transcriptRun : Except ProxyError Connection × World × List Event :=
  transcriptProxy.establishUpstreamTunnel ⟨"a".toList, 443⟩ transcriptWorld

private theorem exists_of_ok {r : Except ProxyError Connection × World × List Event} {c : Nat}
    (h : r.1.toOption.map Connection.id = some c) :
    ∃ upstream, r = (.ok upstream, r.2.1, r.2.2) ∧ upstream.id = c := by
  rcases r with ⟨e | upstream, w, log⟩
  · cases h
  · exact ⟨upstream, rfl, Option.some.inj h⟩

private theorem transcript_run :
    ∃ upstream, transcriptRun = (.ok upstream, transcriptRun.2.1, transcriptRun.2.2) ∧
      upstream.id = 0 :=
  exists_of_ok (by decide +kernel)

/-- Two requests were made, and the first was refused. -/
theorem handshake_transcript_sample :
    ∃ upstream, transcriptRun.1 = .ok upstream ∧
      ∃ taken : List (TakenResponse transcriptProxy.httparse),
        (requestsOn upstream.id transcriptRun.2.2).length = taken.length + 1 ∧
        ∀ earlier ∈ taken, earlier.head.status = 407 := by
  obtain ⟨upstream, hrun, -⟩ := transcript_run
  obtain ⟨-, taken, -, -, -, -, -, -, -, hrefused, -, hrequests, -⟩ := handshake_transcript hrun
  exact ⟨upstream, congrArg Prod.fst hrun, taken, hrequests, hrefused⟩

/-- **The start of the tunnel does not depend on how the bytes arrive.**  Take two
successful handshakes, each on the connection of its probe or on one opened
later.  If the two connections which they return carry the same bytes, cut in any
two ways, then the handshakes have seen the same responses on them, and their
tunnels carry the same bytes. -/
theorem tunnel_start_determined {proxy : Proxy κ} {destination₁ destination₂ : Endpoint}
    {upstream₁ upstream₂ : Connection} {w₁ w₂ w₁' w₂' : World} {log₁ log₂ : List Event}
    {bytes : Bytes}
    (h₁ : proxy.establishUpstreamTunnel destination₁ w₁ = (.ok upstream₁, w₁', log₁))
    (h₂ : proxy.establishUpstreamTunnel destination₂ w₂ = (.ok upstream₂, w₂', log₂))
    (hbytes₁ : ∀ socket, OpenedOn w₁ proxy.config.connectTimeout upstream₁.id socket →
      socket.incoming.unread = bytes)
    (hbytes₂ : ∀ socket, OpenedOn w₂ proxy.config.connectTimeout upstream₂.id socket →
      socket.incoming.unread = bytes) :
    responsesOn upstream₁.id log₁ = responsesOn upstream₂.id log₂ ∧
      upstream₁.stream.pending = upstream₂.stream.pending := by
  obtain ⟨socket₁, hsocket₁, ⟨taken₁, raw₁, final₁, hanswered₁, hsuccess₁, hrefused₁⟩, -⟩ :=
    establishUpstreamTunnel_ok h₁
  obtain ⟨socket₂, hsocket₂, ⟨taken₂, raw₂, final₂, hanswered₂, hsuccess₂, hrefused₂⟩, -⟩ :=
    establishUpstreamTunnel_ok h₂
  have hsame : taken₁.flatMap TakenResponse.wire ++ (raw₁ ++ upstream₁.stream.pending) =
      taken₂.flatMap TakenResponse.wire ++ (raw₂ ++ upstream₂.stream.pending) := by
    rw [← List.append_assoc, ← List.append_assoc, ← hanswered₁.inUse.bytes,
      ← hanswered₂.inUse.bytes, hbytes₁ socket₁ hsocket₁, hbytes₂ socket₂ hsocket₂]
  -- a refusal is not a success, so the last head is the first success
  have hrefusal : ∀ head : ResponseHead, head.status = 407 → isConnectSuccess head = false := by
    intro head hstatus
    simp [isConnectSuccess, hstatus]
  obtain ⟨hheads, hfinal, hpending⟩ := taken_unique hsame hanswered₁.ends hanswered₂.ends
    hanswered₁.parsed hanswered₂.parsed hsuccess₁ hsuccess₂
    (fun earlier hmem => hrefusal _ (hrefused₁ earlier hmem))
    (fun earlier hmem => hrefusal _ (hrefused₂ earlier hmem))
  exact ⟨by rw [hanswered₁.heard, hanswered₂.heard, hheads, hfinal], hpending⟩

private theorem cutBefore_ne_nil : refusalRaw ++ [110] ≠ [] := by simp

private theorem cutAfter_ne_nil : 111 :: acceptanceRaw ++ [1, 2, 3] ≠ [] := by simp

/-- The same bytes, cut inside the body of the refusal. -/
private def cutSocket : Socket :=
  ⟨⟨[⟨refusalRaw ++ [110], cutBefore_ne_nil⟩,
    ⟨111 :: acceptanceRaw ++ [1, 2, 3], cutAfter_ne_nil⟩], none⟩, none, []⟩

private theorem closingRaw_ne_nil : closingRaw ≠ [] := by decide

/-- They arrive on the second connection. -/
private def cutWorld : World :=
  ⟨[], [some (0, .ok ⟨⟨[⟨closingRaw, closingRaw_ne_nil⟩], none⟩, none, []⟩),
    some (0, .ok cutSocket)], 0⟩

private def cutRun : Except ProxyError Connection × World × List Event :=
  transcriptProxy.establishUpstreamTunnel ⟨"a".toList, 443⟩ cutWorld

private theorem cut_run :
    ∃ upstream, cutRun = (.ok upstream, cutRun.2.1, cutRun.2.2) ∧ upstream.id = 1 :=
  exists_of_ok (by decide +kernel)

/-- The first handshake stays on the connection of its probe, the second one
reconnects. -/
theorem tunnel_start_determined_sample :
    ∃ upstream₁ upstream₂, transcriptRun.1 = .ok upstream₁ ∧ cutRun.1 = .ok upstream₂ ∧
      upstream₁.id = 0 ∧ upstream₂.id = 1 ∧
      upstream₁.stream.pending = upstream₂.stream.pending := by
  obtain ⟨upstream₁, h₁, hid₁⟩ := transcript_run
  obtain ⟨upstream₂, h₂, hid₂⟩ := cut_run
  have hbytes₁ : ∀ socket,
      OpenedOn transcriptWorld transcriptProxy.config.connectTimeout upstream₁.id socket →
        socket.incoming.unread = transcriptBytes := by
    rintro socket ⟨k, hk, hsocket⟩
    obtain rfl : k = 0 := by simpa [hid₁, transcriptWorld] using hk.symm
    obtain rfl : transcriptSocket = socket := Option.some.inj hsocket
    simp [transcriptSocket, Source.unread]
  have hbytes₂ : ∀ socket,
      OpenedOn cutWorld transcriptProxy.config.connectTimeout upstream₂.id socket →
        socket.incoming.unread = transcriptBytes := by
    rintro socket ⟨k, hk, hsocket⟩
    obtain rfl : k = 1 := by simpa [hid₂, cutWorld] using hk.symm
    obtain rfl : cutSocket = socket := Option.some.inj hsocket
    have hbody : utf8 "no".toList = [110, 111] := by decide
    rw [transcriptBytes, hbody]
    simp [cutSocket, Source.unread]
  exact ⟨upstream₁, upstream₂, congrArg Prod.fst h₁, congrArg Prod.fst h₂, hid₁, hid₂,
    (tunnel_start_determined h₁ h₂ hbytes₁ hbytes₂).2⟩

end Server
end Fastpx
