import Fastpx.Server.Completeness

/-!
# A proxy behind a proxy

The upstream of a proxy may be another one of its kind.  The request which the
front one writes is read by the back one as a request for the same destination,
and the head with which the back one greets its client is what the front one
takes for its acceptance.  So the two tunnels are joined into one, and the chain
is as transparent as a single proxy (`chain_transparent`).

The wire between the two is not modelled as a party of its own.  At any moment
each side has read a left factor of what the other has written; that is all the
theorem needs.
-/

namespace Fastpx
namespace Server

open StreamKit Config Http1 Relay

variable {κ κ' : Type}

theorem findHeaderEnd_establishedHead :
    findHeaderEnd establishedHead = some establishedHead.length := by
  decide

/-- The head of a request ends where its bytes end. -/
theorem findHeaderEnd_requestBytes {destination : Endpoint}
    (hclean : Endpoint.CleanHost destination.host) :
    findHeaderEnd (requestBytes destination none) =
      some (requestBytes destination none).length := by
  have hlines : requestBytes destination none = joinLines 13 10
      ((requestLine destination :: requestHeaders destination none).map utf8) ++ crlf := by
    rw [requestBytes, connectRequest_eq_joinLines, utf8_append, utf8_joinLines]
    rfl
  rw [hlines]
  exact findHeaderEnd_joinLines (by simp) fun line hmem =>
    requestLines_inLine hclean (by simp) hmem

/-- A head which begins the stream of another head is that head. -/
theorem head_of_isPrefix {raw raw' rest bytes : Bytes} (hraw : findHeaderEnd raw = some raw.length)
    (hraw' : findHeaderEnd raw' = some raw'.length) (h : raw ++ rest <+: raw' ++ bytes) :
    raw = raw' ∧ rest <+: bytes := by
  obtain ⟨later, hlater⟩ := h
  rw [List.append_assoc] at hlater
  obtain ⟨rfl, hrest⟩ := head_unique hlater hraw hraw'
  exact ⟨rfl, later, hrest⟩

/-! ## What a proxy writes -/

/-- What each write on an outgoing connection has sent. -/
def outgoing (log : List Event) : List Bytes :=
  log.filterMap fun
    | .wrote _ bytes => some bytes
    | _ => none

/-- All bytes which the other side has received. -/
def ClientRun.upstreamReceived (run : ClientRun) : Bytes :=
  (outgoing run.log).flatten ++ (run.tunnel.map fun t => (t.pipe .up).sink).getD []

/-- The head of an error response. -/
def errorHead (status : UInt16) (reason : Text) : Text :=
  statusLine status reason ++ lineEnd ++
    (closeLine ++ lineEnd) ++
    (contentTypeLine ++ lineEnd) ++
    (lengthLine (utf8 (errorBody status reason)).length ++ lineEnd) ++
    lineEnd

theorem utf8_errorResponse (status : UInt16) (reason : Text) :
    utf8 (errorResponse status reason) =
      utf8 (errorHead status reason) ++ utf8 (errorBody status reason) := by
  rw [errorResponse, errorHead, utf8_append]

theorem findHeaderEnd_errorHead {status : UInt16} {reason : Text}
    (hreason : ∀ c ∈ reason, InLine c) :
    findHeaderEnd (utf8 (errorHead status reason)) =
      some (utf8 (errorHead status reason)).length := by
  let lines := [statusLine status reason, closeLine, contentTypeLine,
    lengthLine (utf8 (errorBody status reason)).length]
  have hbytes : utf8 (errorHead status reason) = joinLines 13 10 (lines.map utf8) ++ crlf := by
    have hlines : errorHead status reason = joinLines '\r' '\n' lines ++ lineEnd := by
      simp [errorHead, lines, lineEnd]
    rw [hlines, utf8_append, utf8_joinLines]
    rfl
  rw [hbytes]
  exact findHeaderEnd_joinLines (List.cons_ne_nil _ _) (errorLines_inLine hreason _)

/-- The reasons of the refusals do not end their lines. -/
theorem reason_of_refusal : ∀ refusal ∈ refusals, ∀ c ∈ refusal.2, InLine c := by
  decide

/-- No refusal looks like an acceptance or like a challenge. -/
theorem status_of_refusal : ∀ refusal ∈ refusals, 300 ≤ refusal.1 ∧ refusal.1 ≠ 407 := by
  decide

/-- The client is sent a left factor of the response, and nothing more if the
error response is the end. -/
theorem answers_sendError_bind {α : Type} (writes : List WriteOutcome) (status : UInt16)
    (reason : Text) (next : Unit → Run α) (hnext : ∀ w, (next () w).2.2 = []) (w : World) :
    (answers ((sendError writes status reason >>= next) w).2.2).flatten <+:
      utf8 (errorResponse status reason) := by
  have hwritten := writeAll_isPrefix writes (utf8 (errorResponse status reason))
  rcases hwrite : writeAll writes (utf8 (errorResponse status reason)) with ⟨e | rest, accepted⟩
  · have hsend : sendError writes status reason w = (.error (.io e), w, [.answered accepted]) := by
      simp only [sendError, hwrite]
      rfl
    rw [Effect.bind_apply, hsend]
    simpa [answers, hwrite] using hwritten
  · have hsend : sendError writes status reason w = (.ok (), w, [.answered accepted]) := by
      simp only [sendError, hwrite]
      rfl
    rw [Effect.bind_of_ok hsend, hnext]
    simpa [answers, hwrite] using hwritten

/-- A client without a tunnel has at most a refusal. -/
theorem acceptClient_refused (proxy : Proxy κ) (client : Socket) (w : World)
    (h : ∀ opened, (proxy.acceptClient client w).1 ≠ .ok (some opened)) :
    ∃ refusal ∈ refusals, (answers (proxy.acceptClient client w).2.2).flatten <+:
      utf8 (errorResponse refusal.1 refusal.2) := by
  unfold Proxy.acceptClient at h ⊢
  cases hnodelay : client.nodelay with
  | some e => exact ⟨(400, badRequest), by simp [refusals], List.nil_prefix⟩
  | none =>
  rcases hread : readRequestHead proxy.httparse client.incoming proxy.config.maxHeaderBytes with
    ⟨e | ⟨request, prefetched⟩, incoming⟩
  · exact ⟨(400, badRequest), by simp [refusals], answers_sendError_bind _ _ _ _ (fun _ => rfl) w⟩
  simp only [hnodelay, hread] at h ⊢
  by_cases hmethod : eqIgnoreAsciiCase request.method connectMethod = true
  swap
  · rw [if_neg hmethod]
    exact ⟨(405, connectRequired), by simp [refusals],
      answers_sendError_bind _ _ _ _ (fun _ => rfl) w⟩
  rw [if_pos hmethod] at h ⊢
  cases htarget : Endpoint.fromStr request.target with
  | error e => exact ⟨(400, invalidTarget), by simp [refusals],
      answers_sendError_bind _ _ _ _ (fun _ => rfl) w⟩
  | ok destination =>
      simp only [htarget] at h ⊢
      have hquiet := answers_establishTunnel proxy destination w
      rcases houtcome : proxy.establishTunnel destination w with ⟨outcome, w', log⟩
      have hattempt : Effect.attempt (proxy.establishTunnel destination) w =
          (.ok outcome, w', log) := by
        rw [Effect.attempt, houtcome]
      rw [houtcome] at hquiet
      rw [Effect.bind_of_ok hattempt] at h ⊢
      cases outcome with
      | error e =>
          refine ⟨(502, badGateway), by simp [refusals], ?_⟩
          have hlater := answers_sendError_bind client.writes 502 badGateway
            (fun _ => (Effect.fail e : Run (Option OpenTunnel))) (fun _ => rfl) w'
          unfold answers at hquiet hlater ⊢
          rw [List.filterMap_append, hquiet, List.nil_append]
          exact hlater
      | ok upstream => exact absurd rfl (h _)

/-- A run without a tunnel has sent the client at most a refusal. -/
theorem clientReceived_of_refused {proxy : Proxy κ} {client : Socket} {now : Nat}
    {actions : List TunnelAction} {w : World} {run : ClientRun}
    (h : proxy.handleClient client now actions w = some run) (ht : run.tunnel = none) :
    ∃ refusal ∈ refusals, run.clientReceived <+: utf8 (errorResponse refusal.1 refusal.2) := by
  have hrefused := acceptClient_refused proxy client w
  cases handles_of_run h with
  | failed haccept => simpa [ClientRun.clientReceived, haccept] using hrefused
  | refused haccept => simpa [ClientRun.clientReceived, haccept] using hrefused
  | tunnelled _ _ => cases ht

/-! ## What a proxy reads -/

/-- If every connection begins with the same head, and that head is not a
challenge, a successful handshake consists of the probe alone. -/
theorem establish_at_once {proxy : Proxy κ} {destination : Endpoint} {upstream : Connection}
    {w w' : World} {log : List Event} {raw : Bytes} {head : ResponseHead} {bytes : Bytes}
    (h : proxy.establishUpstreamTunnel destination w = (.ok upstream, w', log))
    (hends : findHeaderEnd raw = some raw.length)
    (hparsed : parseResponseHead proxy.httparse raw = .ok head) (hstatus : head.status ≠ 407)
    (hwire : ∀ socket, Provided w proxy.config.connectTimeout socket →
      socket.incoming.unread <+: raw ++ bytes) :
    isConnectSuccess head = true ∧ outgoing log = [requestBytes destination none] ∧
      ∃ socket, Provided w proxy.config.connectTimeout socket ∧
        socket.incoming.unread = raw ++ upstream.stream.pending ∧
        upstream.stream.pending <+: bytes := by
  obtain ⟨c, w₁, log₁, more₁, hconnect, h₁, rfl⟩ := Effect.bind_eq_ok h
  obtain ⟨c₂, w₂, log₂, more₂, hsend, h₂, rfl⟩ := Effect.bind_eq_ok h₁
  obtain ⟨⟨head', c₃⟩, w₃, log₃, more₃, hread, h₃, rfl⟩ := Effect.bind_eq_ok h₂
  obtain ⟨socket, raw', hprobed⟩ := probe_ok hconnect hsend hread
  have hprovided := hprobed.opened.provided
  have hunread : socket.incoming.unread = raw' ++ c₃.stream.pending := hprobed.answered.inUse.bytes
  have hfactor := hwire socket hprovided
  rw [hunread] at hfactor
  obtain ⟨rfl, hpending⟩ := head_of_isPrefix hprobed.answered.ends hends hfactor
  obtain rfl := Except.ok.inj (hparsed.symm.trans hprobed.answered.parsed)
  by_cases hsuccess : isConnectSuccess head = true
  swap
  · simp only [hsuccess, Bool.false_eq_true, if_false, ne_eq, hstatus, not_false_eq_true,
      if_true] at h₃
    cases (Prod.mk.inj h₃).1
  simp only [hsuccess, if_true] at h₃
  obtain ⟨rfl, rfl, rfl⟩ := Effect.pure_eq_ok h₃
  refine ⟨hsuccess, ?_, socket, hprovided, hunread, hpending⟩
  obtain ⟨-, -, -, rfl, -, -⟩ := connect_ok hconnect
  obtain ⟨-, ⟨writes, rfl⟩, rfl⟩ := sendConnectRequest_ok hsend
  obtain ⟨-, rfl, stream, -, rfl⟩ := readResponse_ok hread
  simp [outgoing, requestBytes]

/-- What went to the upstream before a tunnel through it was open. -/
theorem establishTunnel_at_once {proxy : Proxy κ} {destination : Endpoint} {upstream : Connection}
    {w w' : World} {log : List Event} {raw : Bytes} {head : ResponseHead} {bytes : Bytes}
    (h : proxy.establishTunnel destination w = (.ok upstream, w', log))
    (hrouted : RoutedUpstream proxy w) (hends : findHeaderEnd raw = some raw.length)
    (hparsed : parseResponseHead proxy.httparse raw = .ok head) (hstatus : head.status ≠ 407)
    (hwire : ∀ socket, Provided w proxy.config.connectTimeout socket →
      socket.incoming.unread <+: raw ++ bytes) :
    isConnectSuccess head = true ∧ outgoing log = [requestBytes destination none] ∧
      ∃ socket, Provided w proxy.config.connectTimeout socket ∧
        socket.incoming.unread = raw ++ upstream.stream.pending ∧
        upstream.stream.pending <+: bytes := by
  have hroute := establishTunnel_route proxy destination w
  rw [h] at hroute
  generalize hresult : (Except.ok upstream, w', log) = result at hroute
  cases hroute with
  | configured _ => exact establish_at_once hresult.symm hends hparsed hstatus hwire
  | direct hmode hanswer hdirect _ _ => exact absurd hdirect (hrouted hmode _ hanswer)
  | @fallback outcome _ _ houtcome =>
      obtain ⟨hvalue, hrest⟩ := Prod.mk.inj hresult
      obtain ⟨-, rfl⟩ := Prod.mk.inj hrest
      rcases outcome with ⟨r, w₁, log₁⟩
      obtain rfl : r = .ok upstream := hvalue.symm
      obtain ⟨hsuccess, hlog, hsocket⟩ := establish_at_once houtcome hends hparsed hstatus hwire
      exact ⟨hsuccess, hlog, hsocket⟩

/-! ## Two proxies -/

/-- The front proxy, whose upstream begins with a head which is no challenge. -/
theorem carries_of_front {proxy : Proxy κ} {client : Socket} {destination : Endpoint} {now : Nat}
    {actions : List TunnelAction} {w : World} {run : ClientRun} {t : Tunnel}
    {raw bytes : Bytes} {head : ResponseHead}
    (h : proxy.handleClient client now actions w = some run) (ht : run.tunnel = some t)
    (hrouted : RoutedUpstream proxy w) (hasked : Asked proxy client destination)
    (hends : findHeaderEnd raw = some raw.length)
    (hparsed : parseResponseHead proxy.httparse raw = .ok head) (hstatus : head.status ≠ 407)
    (hwire : ∀ socket, Provided w proxy.config.connectTimeout socket →
      socket.incoming.unread <+: raw ++ bytes) :
    isConnectSuccess head = true ∧
      run.upstreamReceived = requestBytes destination none ++ (t.pipe .up).sink ∧
      ∃ asking clientBytes socket upstreamBytes,
        client.incoming.unread = asking ++ clientBytes ∧
        findHeaderEnd asking = some asking.length ∧
        Provided w proxy.config.connectTimeout socket ∧
        socket.incoming.unread = raw ++ upstreamBytes ∧ upstreamBytes <+: bytes ∧
        Carries run t clientBytes upstreamBytes := by
  obtain ⟨opened, w', haccept, hrun, hresult⟩ := opened_of_tunnel h ht
  obtain ⟨⟨request, hrequest⟩, destination', hasked', htunnel⟩ := acceptClient_opened haccept
  obtain rfl := hasked'.unique hasked
  obtain ⟨asking, hclient, hasking, -, -⟩ := readRequestHead_ok hrequest
  obtain ⟨hsuccess, hlog, socket, hprovided, hunread, hfactor⟩ :=
    establishTunnel_at_once htunnel hrouted hends hparsed hstatus hwire
  refine ⟨hsuccess, by simp [ClientRun.upstreamReceived, hlog, ht], asking, _, socket, _, hclient,
    hasking, hprovided, hunread, hfactor, carries_of_opened htunnel hrun ht hresult⟩

/-- The back proxy, whatever its client asked for. -/
theorem carries_of_back {proxy : Proxy κ} {client : Socket} {now : Nat}
    {actions : List TunnelAction} {w : World} {run : ClientRun} {t : Tunnel}
    (h : proxy.handleClient client now actions w = some run) (ht : run.tunnel = some t) :
    ∃ raw head destination clientBytes c socket upstreamBytes,
      client.incoming.unread = raw ++ clientBytes ∧ findHeaderEnd raw = some raw.length ∧
        parseRequestHead proxy.httparse raw = .ok head ∧
        Endpoint.fromStr head.target = .ok destination ∧ Asked proxy client destination ∧
        OpenedOn w proxy.config.connectTimeout c socket ∧
        TunnelSource proxy run.log c socket upstreamBytes ∧
        Carries run t clientBytes upstreamBytes := by
  obtain ⟨opened, w', haccept, hrun, hresult⟩ := opened_of_tunnel h ht
  obtain ⟨⟨head, hrequest⟩, destination, hasked, htunnel⟩ := acceptClient_opened haccept
  obtain ⟨raw, hclient, hends, hparsed, -⟩ := readRequestHead_ok hrequest
  obtain ⟨socket, hleads⟩ := establishTunnel_leads htunnel
  have htarget : Endpoint.fromStr head.target = .ok destination := by
    obtain ⟨request, _, _, hread, -, htarget⟩ := hasked
    rw [hrequest] at hread
    obtain ⟨rfl, -⟩ := Prod.mk.inj (Except.ok.inj (Prod.mk.inj hread).1)
    exact htarget
  exact ⟨raw, head, destination, _, _, socket, _, hclient, hends, hparsed, htarget, hasked,
    hleads.opened, hleads.source, carries_of_opened htunnel hrun ht hresult⟩

/-- A moment in the life of two proxies of which one is the other's upstream:
a client of the front one is served by `run`, and the back one serves the
connection `link` by `run'`.  On either side of the wire there has arrived a left
factor of what was written on the other. -/
structure Chain (front : Proxy κ) (back : Proxy κ') (client link : Socket) (w w' : World)
    (run run' : ClientRun) : Prop where
  served : ∃ now actions, front.handleClient client now actions w = some run
  linked : ∃ now actions, back.handleClient link now actions w' = some run'
  routed : RoutedUpstream front w
  forth : link.incoming.unread <+: run.upstreamReceived
  reply : ∀ socket, Provided w front.config.connectTimeout socket →
    socket.incoming.unread <+: run'.clientReceived

/-- Everything which was written on the wire has arrived. -/
structure Chain.Settled (front : Proxy κ) (link : Socket) (w : World)
    (run run' : ClientRun) : Prop where
  forth : link.incoming.unread = run.upstreamReceived
  reply : ∀ socket, Provided w front.config.connectTimeout socket →
    socket.incoming.unread = run'.clientReceived

/-- `httparse` understands the fixed texts which the proxies send each other. -/
structure Understood (front : Proxy κ) (back : Proxy κ') (destination : Endpoint) : Prop where
  established : ∃ head, parseResponseHead front.httparse establishedHead = .ok head ∧
    isConnectSuccess head = true
  refused : ∀ refusal ∈ refusals, ∃ head,
    parseResponseHead front.httparse (utf8 (errorHead refusal.1 refusal.2)) = .ok head ∧
      head.status = refusal.1
  request : parseRequestHead back.httparse (requestBytes destination none) =
    .ok ⟨connectMethod, destination.display⟩

theorem isConnectSuccess_status {head : ResponseHead} (h : isConnectSuccess head = true) :
    head.status < 300 := by
  simp only [isConnectSuccess, Bool.and_eq_true, decide_eq_true_eq] at h
  exact h.2

/-- A tunnel of the front proxy needs one of the back proxy. -/
theorem Chain.exists_tunnel {front : Proxy κ} {back : Proxy κ'} {client link : Socket}
    {w w' : World} {run run' : ClientRun} {t : Tunnel} {destination : Endpoint}
    (hchain : Chain front back client link w w' run run') (ht : run.tunnel = some t)
    (hasked : Asked front client destination) (hunderstood : Understood front back destination) :
    ∃ t', run'.tunnel = some t' := by
  obtain ⟨now, actions, hfront⟩ := hchain.served
  obtain ⟨now', actions', hback⟩ := hchain.linked
  refine Option.ne_none_iff_exists'.mp fun hnone => ?_
  obtain ⟨refusal, hrefusal, hreceived⟩ := clientReceived_of_refused hback hnone
  obtain ⟨head, hparsed, hstatus⟩ := hunderstood.refused refusal hrefusal
  obtain ⟨hlarge, hunauthorized⟩ := status_of_refusal refusal hrefusal
  rw [utf8_errorResponse] at hreceived
  -- the front proxy would have taken the refusal for an acceptance
  obtain ⟨hsuccess, -⟩ := carries_of_front hfront ht hchain.routed hasked
    (findHeaderEnd_errorHead (reason_of_refusal refusal hrefusal)) hparsed (hstatus ▸ hunauthorized)
    fun socket hprovided => (hchain.reply socket hprovided).trans hreceived
  have hsmall := isConnectSuccess_status hsuccess
  rw [hstatus] at hsmall
  exact absurd hlarge (UInt16.not_le.mpr hsmall)

/-- **A chain of proxies is transparent.**  If the front proxy has opened a
tunnel for its client, so has the back proxy, to the destination which the
front one wrote into its request, and there is a connection of the back one's
run, over a socket provided to it, whose stream leads up to `serverBytes` on the
route that was taken, such that at every moment

* the socket has a left factor of what the client sent behind its request;
* the client has a left factor of one established head and `serverBytes`;
* if both runs have returned successfully and the wire between them is empty,
  both have everything. -/
theorem chain_transparent {front : Proxy κ} {back : Proxy κ'} {client link : Socket}
    {w w' : World} {run run' : ClientRun} {t : Tunnel} {destination : Endpoint}
    (hchain : Chain front back client link w w' run run') (ht : run.tunnel = some t)
    (hasked : Asked front client destination) (hunderstood : Understood front back destination) :
    ∃ (t' : Tunnel) (destination' : Endpoint) (c : Nat) (socket : Socket)
        (raw clientBytes serverBytes : Bytes),
      run'.tunnel = some t' ∧ Asked back link destination' ∧
      Endpoint.fromStr destination.display = .ok destination' ∧
      client.incoming.unread = raw ++ clientBytes ∧ findHeaderEnd raw = some raw.length ∧
      OpenedOn w' back.config.connectTimeout c socket ∧
      TunnelSource back run'.log c socket serverBytes ∧
      (t'.pipe .up).sink <+: clientBytes ∧
      run.clientReceived <+: establishedHead ++ serverBytes ∧
      (run.result = some (.ok ()) → run'.result = some (.ok ()) →
        Chain.Settled front link w run run' →
        (t'.pipe .up).sink = clientBytes ∧
          run.clientReceived = establishedHead ++ serverBytes) := by
  obtain ⟨t', ht'⟩ := hchain.exists_tunnel ht hasked hunderstood
  obtain ⟨now, actions, hfront⟩ := hchain.served
  obtain ⟨now', actions', hback⟩ := hchain.linked
  obtain ⟨head, hparsed, hsuccess⟩ := hunderstood.established
  have hstatus : head.status ≠ 407 := by
    intro heq
    have hsmall := isConnectSuccess_status hsuccess
    rw [heq] at hsmall
    exact absurd hsmall (by decide)
  have hclean : Endpoint.CleanHost destination.host := by
    obtain ⟨_, _, _, -, -, htarget⟩ := hasked
    obtain ⟨_, -, hclean, -, -⟩ := Endpoint.fromStr_eq_ok_iff.mp htarget
    exact hclean
  obtain ⟨raw', head', destination', linkBytes, c, socket', serverBytes, hlink, hends', hparsed',
    htarget, hasked', hsocket', hsource, hcarries'⟩ := carries_of_back hback ht'
  obtain ⟨-, hreceived, raw, clientBytes, socket, replyBytes, hclient, hends, hprovided, hunread,
    hreply, hcarries⟩ := carries_of_front hfront ht hchain.routed hasked
      findHeaderEnd_establishedHead hparsed hstatus
      fun socket hprovided => (hchain.reply socket hprovided).trans hcarries'.down
  -- the request which the back proxy read is the one which the front one wrote
  have hforth := hchain.forth
  rw [hlink, hreceived] at hforth
  obtain ⟨rfl, hsent⟩ := head_of_isPrefix hends' (findHeaderEnd_requestBytes hclean) hforth
  obtain rfl := Except.ok.inj (hunderstood.request.symm.trans hparsed')
  refine ⟨t', destination', c, socket', raw, clientBytes, serverBytes, ht', hasked', htarget,
    hclient, hends, hsocket', hsource, (hcarries'.up.trans hsent).trans hcarries.up,
    hcarries.down.trans ((List.prefix_append_right_inj _).mpr hreply), ?_⟩
  intro hok hok' hsettled
  obtain ⟨hup, hdown⟩ := hcarries.returned hok
  obtain ⟨hup', hdown'⟩ := hcarries'.returned hok'
  have hlinkBytes : linkBytes = (t.pipe .up).sink := by
    have hforth := hsettled.forth
    rw [hlink, hreceived] at hforth
    exact List.append_cancel_left hforth
  have hreplyBytes : replyBytes = serverBytes := by
    have hreply := hsettled.reply socket hprovided
    rw [hunread, hdown'] at hreply
    exact List.append_cancel_left hreply
  exact ⟨by rw [hup', hlinkBytes, hup], by rw [hdown, hreplyBytes]⟩

/-! A client which sends one byte behind its request, and a host which the back
proxy reaches directly and which answers with another. -/

private def chainRequest : Bytes := utf8 "CONNECT c:443 HTTP/1.1\r\n\r\n".toList

private def chainDestination : Endpoint := ⟨"c".toList, 443⟩

private def chainFront : Proxy Unit where
  config := ⟨.v4 0x7f000001#32 3128, ⟨"b".toList, 3128⟩, .none, .proxyOnly, [], 5, 10, none, 2048,
    16⟩
  authFactory := ⟨fun _ _ => .ok (), fun _ _ => (.ok [], ())⟩
  httparse := .ofTables
    [(chainRequest, .complete 26, ⟨some "CONNECT".toList, some "c:443".toList⟩)]
    ((establishedHead, .complete 39, ⟨some 1, some 200, []⟩) ::
      refusals.map fun refusal =>
        (utf8 (errorHead refusal.1 refusal.2),
          .complete (utf8 (errorHead refusal.1 refusal.2)).length, ⟨some 1, some refusal.1, []⟩))
  base64 := .ofTable []

private def chainBack : Proxy Unit where
  config := ⟨.v4 0x7f000001#32 3128, ⟨"up".toList, 3128⟩, .none, .auto, [], 5, 10, none, 2048, 16⟩
  authFactory := ⟨fun _ _ => .ok (), fun _ _ => (.ok [], ())⟩
  httparse := .ofTables
    [(requestBytes chainDestination none, .complete (requestBytes chainDestination none).length,
      ⟨some "CONNECT".toList, some "c:443".toList⟩)] []
  base64 := .ofTable []

private theorem chain_understood : Understood chainFront chainBack chainDestination where
  established := ⟨⟨1, 200, []⟩, by decide, by decide⟩
  refused := by
    have hall : ∀ refusal ∈ refusals,
        parseResponseHead chainFront.httparse (utf8 (errorHead refusal.1 refusal.2)) =
          .ok ⟨1, refusal.1, []⟩ := by
      decide
    exact fun refusal hrefusal => ⟨_, hall refusal hrefusal, rfl⟩
  request := by decide

private theorem chainClient_ne_nil : chainRequest ++ [23] ≠ [] := by simp

private theorem chainAsking_ne_nil : requestBytes chainDestination none ≠ [] := by decide

private theorem chainByte_ne_nil : ([23] : Bytes) ≠ [] := by decide

private theorem chainReply_ne_nil : establishedHead ++ [13] ≠ [] := by simp

private theorem chainHost_ne_nil : ([13] : Bytes) ≠ [] := by decide

private def chainClient : Socket :=
  ⟨⟨[⟨chainRequest ++ [23], chainClient_ne_nil⟩], none⟩, none, []⟩

private def chainAsking : Socket :=
  ⟨⟨[⟨requestBytes chainDestination none, chainAsking_ne_nil⟩], none⟩, none, []⟩

private def chainLink : Socket :=
  ⟨⟨[⟨requestBytes chainDestination none, chainAsking_ne_nil⟩, ⟨[23], chainByte_ne_nil⟩], none⟩,
    none, []⟩

private def chainWorld (reply : Incoming) : World := ⟨[], [some (0, .ok ⟨reply, none, []⟩)], 0⟩

private def chainReply : Incoming := ⟨[⟨establishedHead ++ [13], chainReply_ne_nil⟩], none⟩

private def chainHost : World :=
  ⟨[some (1, .ok [.v4 0x7f000001#32 443])],
    [some (2, .ok ⟨⟨[⟨[13], chainHost_ne_nil⟩], none⟩, none, []⟩)], 0⟩

private def frontActions : List TunnelAction :=
  [.write 39, .write 1, .write 1, .relay (.pump .down .read), .relay (.pump .up .read),
    .relay (.pump .up (.shutdown (.ok ()))), .relay (.pump .down (.shutdown (.ok ())))]

private def backActions : List TunnelAction :=
  [.write 39, .relay (.pump .down .read), .relay (.pump .up .read),
    .relay (.pump .down (.write 1)), .relay (.pump .up (.write 1)),
    .relay (.pump .down .stamp), .relay (.pump .up .stamp),
    .relay (.pump .down .read), .relay (.pump .up .read),
    .relay (.pump .up (.shutdown (.ok ()))), .relay (.pump .down (.shutdown (.ok ())))]

private theorem reply_of_provided {reply : Incoming} {socket : Socket}
    (h : Provided (chainWorld reply) chainFront.config.connectTimeout socket) :
    socket.incoming = reply := by
  obtain ⟨elapsed, -, hmem⟩ := h
  rw [Except.ok.inj (Prod.mk.inj (Option.some.inj (List.mem_singleton.mp hmem))).2]

private theorem chain_run : Asked chainFront chainClient chainDestination ∧ ∃ run t run',
    chainFront.handleClient chainClient 0 frontActions (chainWorld chainReply) = some run ∧
      chainBack.handleClient chainLink 0 backActions chainHost = some run' ∧
      run.tunnel = some t ∧ run.result = some (.ok ()) ∧ run'.result = some (.ok ()) ∧
      run.upstreamReceived = requestBytes chainDestination none ++ [23] ∧
      run'.clientReceived = establishedHead ++ [13] := by
  have hasked : Asked chainFront chainClient chainDestination :=
    ⟨⟨"CONNECT".toList, "c:443".toList⟩, [23], ⟨[], none⟩, by decide +kernel, by decide,
      by decide⟩
  have hrun : (chainFront.handleClient chainClient 0 frontActions (chainWorld chainReply)).map
      (fun run => (run.tunnel.isSome, run.result, run.upstreamReceived)) =
        some (true, some (.ok ()), requestBytes chainDestination none ++ [23]) := by
    decide +kernel
  have hrun' : (chainBack.handleClient chainLink 0 backActions chainHost).map
      (fun run => (run.result, run.clientReceived)) =
        some (some (.ok ()), establishedHead ++ [13]) := by
    decide +kernel
  obtain ⟨run, hrun, heq⟩ := Option.map_eq_some_iff.mp hrun
  obtain ⟨run', hrun', heq'⟩ := Option.map_eq_some_iff.mp hrun'
  obtain ⟨htunnel, heq⟩ := Prod.mk.inj heq
  obtain ⟨hresult, hsent⟩ := Prod.mk.inj heq
  obtain ⟨hresult', hreceived⟩ := Prod.mk.inj heq'
  obtain ⟨t, ht⟩ := Option.isSome_iff_exists.mp htunnel
  exact ⟨hasked, run, t, run', hrun, hrun', ht, hresult, hresult', hsent, hreceived⟩

/-- The host got the client's byte, and the client one head and the byte of the
host. -/
theorem chain_transparent_sample : ∃ run run' t',
    chainFront.handleClient chainClient 0 frontActions (chainWorld chainReply) = some run ∧
      chainBack.handleClient chainLink 0 backActions chainHost = some run' ∧
      run'.tunnel = some t' ∧ (t'.pipe .up).sink = [23] ∧
      ∃ bytes, run.clientReceived = establishedHead ++ bytes := by
  obtain ⟨hasked, run, t, run', hrun, hrun', ht, hresult, hresult', hsent, hreceived⟩ := chain_run
  have hreply : ∀ socket,
      Provided (chainWorld chainReply) chainFront.config.connectTimeout socket →
        socket.incoming.unread = run'.clientReceived := by
    intro socket hprovided
    rw [reply_of_provided hprovided, hreceived]
    simp [chainReply, Source.unread]
  have hforth : chainLink.incoming.unread = run.upstreamReceived := by
    rw [hsent]
    simp [chainLink, Source.unread]
  have hchain : Chain chainFront chainBack chainClient chainLink (chainWorld chainReply) chainHost
      run run' :=
    ⟨⟨0, frontActions, hrun⟩, ⟨0, backActions, hrun'⟩, fun hauto => absurd hauto (by decide),
      hforth ▸ List.prefix_refl _,
      fun socket hprovided => hreply socket hprovided ▸ List.prefix_refl _⟩
  obtain ⟨t', _, _, _, raw, clientBytes, bytes, ht', -, -, hclient, hends, -, -, -, -, hall⟩ :=
    chain_transparent hchain ht hasked chain_understood
  obtain ⟨hup, hdown⟩ := hall hresult hresult' ⟨hforth, hreply⟩
  have hunread : chainRequest ++ [23] = raw ++ clientBytes := by
    rw [← hclient]
    simp [chainClient, Source.unread]
  obtain ⟨-, rfl⟩ := head_unique hunread (by decide) hends
  exact ⟨run, run', t', hrun, hrun', ht', hup, bytes, hdown⟩

/-! ## Refusals -/

/-- **Refusals are passed on.**  If the back proxy opens no tunnel, neither does
the front one for a client which asked for one.  If that client can be written
to, it gets a 502, and its run returns an error. -/
theorem chain_refused {front : Proxy κ} {back : Proxy κ'} {client link : Socket}
    {w w' : World} {run run' : ClientRun} {destination : Endpoint}
    (hchain : Chain front back client link w w' run run') (hnone : run'.tunnel = none)
    (hasked : Asked front client destination)
    (hunderstood : Understood front back destination) :
    run.tunnel = none ∧
      (client.nodelay = none → Writable client.writes →
        run.clientReceived = utf8 (errorResponse 502 badGateway) ∧
          ∃ e, run.result = some (.error e)) := by
  have hclosed : run.tunnel = none := by
    by_contra hopen
    obtain ⟨t, ht⟩ := Option.ne_none_iff_exists'.mp hopen
    obtain ⟨t', ht'⟩ := hchain.exists_tunnel ht hasked hunderstood
    rw [hnone] at ht'
    cases ht'
  refine ⟨hclosed, fun hnodelay hwrites => ?_⟩
  obtain ⟨now, actions, hrun⟩ := hchain.served
  have haccepts := acceptClient_accepts front client w hnodelay hwrites
  unfold Proxy.handleClient at hrun
  rcases haccept : front.acceptClient client w with ⟨r, w₁, log⟩
  rw [haccept] at haccepts
  simp only [haccept] at hrun
  cases haccepts with
  | refused _ hnever _ => exact absurd hasked (hnever destination)
  | @unreached target e _ log' _ hfailed =>
      obtain rfl := Option.some.inj hrun
      have hquiet := answers_establishTunnel front target w
      rw [hfailed] at hquiet
      unfold answers at hquiet
      refine ⟨?_, e, rfl⟩
      simp [ClientRun.clientReceived, answers, hquiet]
  | opened _ _ =>
      obtain ⟨t, -, rfl⟩ := Option.map_eq_some_iff.mp hrun
      cases hclosed

/-! The host of the same client cannot be reached. -/

private def chainGateway : Bytes := utf8 (errorResponse 502 badGateway)

private theorem chainGateway_ne_nil : chainGateway ≠ [] := by decide

private def chainRefusal : Incoming := ⟨[⟨chainGateway, chainGateway_ne_nil⟩], none⟩

private def chainUnreached : World := ⟨[some (1, .ok [.v4 0x7f000001#32 443])], [], 0⟩

/-- The client learns of it. -/
theorem chain_refused_sample : ∃ run,
    chainFront.handleClient chainClient 0 [] (chainWorld chainRefusal) = some run ∧
      run.tunnel = none ∧ run.clientReceived = chainGateway := by
  have hfront : (chainFront.handleClient chainClient 0 [] (chainWorld chainRefusal)).map
      ClientRun.upstreamReceived = some (requestBytes chainDestination none) := by
    decide +kernel
  have hback : (chainBack.handleClient chainAsking 0 [] chainUnreached).map
      (fun run => (run.tunnel.isNone, run.clientReceived)) = some (true, chainGateway) := by
    decide +kernel
  obtain ⟨run, hrun, hsent⟩ := Option.map_eq_some_iff.mp hfront
  obtain ⟨run', hrun', heq⟩ := Option.map_eq_some_iff.mp hback
  obtain ⟨hnone, hreceived⟩ := Prod.mk.inj heq
  have hreply : ∀ socket,
      Provided (chainWorld chainRefusal) chainFront.config.connectTimeout socket →
        socket.incoming.unread <+: run'.clientReceived := by
    intro socket hprovided
    rw [reply_of_provided hprovided, hreceived]
    exact ⟨[], by simp [chainRefusal, Source.unread]⟩
  have hforth : chainAsking.incoming.unread <+: run.upstreamReceived := by
    rw [hsent]
    exact ⟨[], by simp [chainAsking, Source.unread]⟩
  obtain ⟨hclosed, hrefused⟩ := chain_refused
    ⟨⟨0, [], hrun⟩, ⟨0, [], hrun'⟩, fun hauto => absurd hauto (by decide), hforth, hreply⟩
    (Option.isNone_iff_eq_none.mp hnone) chain_run.1 chain_understood
  exact ⟨run, hrun, hclosed, (hrefused rfl (by simp [Writable, chainClient])).1⟩

end Server
end Fastpx
