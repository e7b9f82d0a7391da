import Fastpx.Server.Client

/-!
# One answer for every client

What a client receives is either one complete error response, or the head which
says that the tunnel is open, followed by bytes of the tunnel and nothing else
(`one_honest_answer`).  The head is sent exactly if the client asked for a
tunnel to a destination that could be parsed, and the tunnel is there.
-/

namespace Fastpx
namespace Server

open StreamKit Config Http1 Relay

variable {κ : Type}

/-! ## When a tunnel is established -/

/-- After an acceptance the handshake is over. -/
theorem accepted_final {terms : Terms} {s final : Phase} {log : List Event} {c : Nat}
    (hs : s.accepted = some c) (hrun : Runs (Step terms) s log final) :
    final.accepted = some c := by
  cases hrun with
  | nil => exact hs
  | cons hstep _ =>
      have hsuccess : ∀ {c' : Nat} {round : Option (AuthScheme × Nat)} {response : ResponseHead},
          (Phase.answered c' round response).accepted = some c → response.status ≠ 407 := by
        intro c' round response h hstatus
        have hnot : isConnectSuccess response = false := by simp [isConnectSuccess, hstatus]
        simp [Phase.accepted, hnot] at h
      cases hstep with
      | create hstatus _ => exact absurd hstatus (hsuccess hs)
      | reuse hreusable _ _ => exact absurd hreusable.status (hsuccess hs)
      | _ => cases hs

/-- A handshake ends with an acceptance exactly if it received one. -/
theorem accepted_iff {terms : Terms} {log : List Event} {final : Phase}
    (hrun : Runs (Step terms) .start log final) (c : Nat) :
    final.accepted = some c ↔
      ∃ response, Event.response c response ∈ log ∧ isConnectSuccess response = true := by
  constructor
  · intro h
    have hhistory := history_run hrun
    cases final with
    | answered d round response =>
        obtain ⟨hsuccess, hd⟩ := Option.ite_none_right_eq_some.mp h
        obtain rfl := Option.some.inj hd
        refine ⟨response, ?_, hsuccess⟩
        rcases round with _ | ⟨scheme, left⟩
        · obtain ⟨bytes, rfl⟩ := hhistory
          simp [probeLog]
        · obtain ⟨-, -, -, -, hlatest⟩ := hhistory
          exact mem_responses.mp (List.mem_of_getLast? hlatest)
    | _ => cases h
  · rintro ⟨response, hmem, hsuccess⟩
    obtain ⟨past, future, rfl⟩ := List.append_of_mem hmem
    obtain ⟨before, after, -, hstep, hafter⟩ := hrun.split
    cases hstep with
    | receive => exact accepted_final (by simp [Phase.accepted, hsuccess]) hafter

/-- The upstream answered with a success on this connection. -/
def UpstreamAccepted (log : List Event) (c : Nat) : Prop :=
  ∃ response, Event.response c response ∈ log ∧ isConnectSuccess response = true

theorem establishUpstreamTunnel_ok_iff (proxy : Proxy κ) (destination : Endpoint) (w : World)
    (c : Nat) :
    (∃ upstream, (proxy.establishUpstreamTunnel destination w).1 = .ok upstream ∧
        upstream.id = c) ↔
      UpstreamAccepted (proxy.establishUpstreamTunnel destination w).2.2 c := by
  obtain ⟨final, hrun, houtcome⟩ := establish_guided proxy destination w
  rw [UpstreamAccepted, ← accepted_iff hrun c, show final.accepted = _ from houtcome]
  cases (proxy.establishUpstreamTunnel destination w).1 with
  | error e => simp [Except.toOption]
  | ok upstream => simp [Except.toOption]

/-- The destination was reached on this connection: directly, or the upstream
accepted on it. -/
inductive Reached (proxy : Proxy κ) (destination : Endpoint) (w : World) (c : Nat) : Prop
  | direct {addresses : List SocketAddr} {upstream : Connection}
      (hdial : addresses ∈ directDials (proxy.establishTunnel destination w).2.2)
      (hconnect : (proxy.connectDirect destination addresses w.afterLookup).1 = .ok upstream)
      (hid : upstream.id = c)
  | accepted (hupstream : UpstreamAccepted (proxy.establishTunnel destination w).2.2 c)

/-- What a direct attempt leaves in the log. -/
theorem connectDirect_event (proxy : Proxy κ) (destination : Endpoint)
    {addresses : List SocketAddr} {w : World} {event : Event}
    (h : event ∈ (proxy.connectDirect destination addresses w).2.2) :
    event = .dialDirect addresses ∨ event = .opened w.nextConnection := by
  have houtcome := connect_outcome (.dialDirect addresses) proxy.config.connectTimeout
    (.directConnectTimeout destination) w
  unfold Proxy.connectDirect at h
  generalize connect _ _ _ w = outcome at houtcome h
  cases houtcome with
  | unopened => exact Or.inl (List.mem_singleton.mp h)
  | refused => simpa using h
  | connected => simpa using h

/-- What establishing a tunnel leaves in the log. -/
inductive TunnelEvent (terms : Terms) : Event → Prop
  | lookup : TunnelEvent terms (.lookup terms.destination)
  | dialDirect {addresses : List SocketAddr} : TunnelEvent terms (.dialDirect addresses)
  | opened {c : Nat} : TunnelEvent terms (.opened c)
  | handshake {before after : Phase} {event : Event} (hstep : Step terms before event after) :
      TunnelEvent terms event

theorem establishTunnel_event (proxy : Proxy κ) (destination : Endpoint) (w : World)
    {event : Event} (h : event ∈ (proxy.establishTunnel destination w).2.2) :
    TunnelEvent (proxy.terms destination) event := by
  have hupstream : ∀ {w' : World}, event ∈ (proxy.establishUpstreamTunnel destination w').2.2 →
      TunnelEvent (proxy.terms destination) event := by
    intro w' hmem
    obtain ⟨final, hrun, -⟩ := establish_guided proxy destination w'
    obtain ⟨before, after, hstep⟩ := step_of_mem hrun hmem
    exact TunnelEvent.handshake hstep
  have hroute := establishTunnel_route proxy destination w
  generalize proxy.establishTunnel destination w = outcome at hroute h
  cases hroute with
  | configured _ => exact hupstream h
  | direct _ _ _ _ houtcome =>
      rcases List.mem_cons.mp h with rfl | h
      · exact TunnelEvent.lookup
      · rw [← houtcome] at h
        rcases connectDirect_event proxy destination h with rfl | rfl
        · exact TunnelEvent.dialDirect
        · exact TunnelEvent.opened
  | fallback _ _ houtcome =>
      rcases List.mem_cons.mp h with rfl | h
      · exact TunnelEvent.lookup
      · rw [← houtcome] at h
        exact hupstream h

/-- A tunnel is established exactly when the destination was reached. -/
theorem establishTunnel_ok_iff (proxy : Proxy κ) (destination : Endpoint) (w : World) (c : Nat) :
    (∃ upstream, (proxy.establishTunnel destination w).1 = .ok upstream ∧ upstream.id = c) ↔
      Reached proxy destination w c := by
  have hroute := establishTunnel_route proxy destination w
  generalize houtcome : proxy.establishTunnel destination w = outcome at hroute
  cases hroute with
  | configured _ =>
      have hnone := (upstream_only proxy destination w).2
      rw [establishUpstreamTunnel_ok_iff]
      constructor
      · exact fun h => Reached.accepted (by rwa [houtcome])
      · rintro (⟨hdial, -, -⟩ | h)
        · simp [houtcome, hnone] at hdial
        · rwa [houtcome] at h
  | @direct answers addresses result _ _ _ _ hresult =>
      obtain ⟨hdials, -, -, hresponses⟩ :=
        connectDirect_log proxy destination addresses w.afterLookup
      rw [hresult] at hdials hresponses
      have hlog : directDials (proxy.establishTunnel destination w).2.2 = [addresses] := by
        rw [houtcome]
        exact hdials
      constructor
      · rintro ⟨upstream, hok, hid⟩
        exact Reached.direct (by rw [hlog]; exact List.mem_singleton_self _)
          (by rw [hresult]; exact hok) hid
      · rintro (⟨hdial, hconnect, hid⟩ | ⟨response, hmem, -⟩)
        · rw [hlog, List.mem_singleton] at hdial
          subst hdial
          rw [hresult] at hconnect
          exact ⟨_, hconnect, hid⟩
        · rw [houtcome, ← mem_responses] at hmem
          rw [show responses (.lookup destination :: result.2.2) = [] from hresponses] at hmem
          cases hmem
  | @fallback result _ _ hresult =>
      have hnone := (upstream_only proxy destination w.afterLookup).2
      have hiff := establishUpstreamTunnel_ok_iff proxy destination w.afterLookup c
      rw [hresult] at hnone hiff
      have hmore : UpstreamAccepted (.lookup destination :: result.2.2) c ↔
          UpstreamAccepted result.2.2 c := by simp [UpstreamAccepted]
      rw [hiff, ← hmore]
      constructor
      · exact fun h => Reached.accepted (by rwa [houtcome])
      · rintro (⟨hdial, -, -⟩ | h)
        · rw [houtcome, show directDials (.lookup destination :: result.2.2) = [] from hnone]
            at hdial
          cases hdial
        · rwa [houtcome] at h

/-! ## The two ways to serve a client -/

/-- The client has sent a `CONNECT` request for the destination. -/
def Asked (proxy : Proxy κ) (client : Socket) (destination : Endpoint) : Prop :=
  ∃ request prefetched incoming,
    readRequestHead proxy.httparse client.incoming proxy.config.maxHeaderBytes =
      (.ok (request, prefetched), incoming) ∧
    eqIgnoreAsciiCase request.method connectMethod = true ∧
    Endpoint.fromStr request.target = .ok destination

/-- The error responses which the proxy sends. -/
def refusals : List (UInt16 × Text) :=
  [(400, badRequest), (405, connectRequired), (400, invalidTarget), (502, badGateway)]

/-- What happens before there is a tunnel, for a client which can be written
to: it is refused at once, it is refused because the destination could not be
reached, or the tunnel is open and nothing was written. -/
inductive Accepts (proxy : Proxy κ) (client : Socket) (w : World) :
    Except ProxyError (Option OpenTunnel) × World × List Event → Prop
  | refused {r : Except ProxyError (Option OpenTunnel)} {status : UInt16} {reason : Text}
      (hrefusal : (status, reason) ∈ refusals)
      (hasked : ∀ destination, ¬ Asked proxy client destination)
      (hr : ∀ opened, r ≠ .ok (some opened)) :
      Accepts proxy client w (r, w, [.answered (utf8 (errorResponse status reason))])
  | unreached {destination : Endpoint} {e : ProxyError} {w' : World} {log : List Event}
      (hasked : Asked proxy client destination)
      (hfailed : proxy.establishTunnel destination w = (.error e, w', log)) :
      Accepts proxy client w
        (.error e, w', log ++ [.answered (utf8 (errorResponse 502 badGateway))])
  | opened {destination : Endpoint} {upstream : Connection} {w' : World} {log : List Event}
      {prefetched : Bytes} {incoming : Incoming} (hasked : Asked proxy client destination)
      (hok : proxy.establishTunnel destination w = (.ok upstream, w', log)) :
      Accepts proxy client w (.ok (some ⟨prefetched, incoming, upstream⟩), w', log)

theorem acceptClient_accepts (proxy : Proxy κ) (client : Socket) (w : World)
    (hnodelay : client.nodelay = none) (hwrites : Writable client.writes) :
    Accepts proxy client w (proxy.acceptClient client w) := by
  have hsend := sendError_of_writable hwrites
  unfold Proxy.acceptClient
  simp only [hnodelay]
  cases hread : readRequestHead proxy.httparse client.incoming proxy.config.maxHeaderBytes with
  | mk result incoming =>
  cases result with
  | error e =>
      dsimp only
      rw [Effect.bind_of_ok (hsend 400 badRequest w)]
      refine Accepts.refused (by simp [refusals]) ?_ (by simp [Effect.fail])
      rintro destination ⟨request, prefetched, incoming', hread', -, -⟩
      rw [hread] at hread'
      cases (Prod.mk.inj hread').1
  | ok parsed =>
      obtain ⟨request, prefetched⟩ := parsed
      -- the client's destination, if any, is the target of this request
      have hparsed : ∀ destination, Asked proxy client destination →
          eqIgnoreAsciiCase request.method connectMethod = true ∧
            Endpoint.fromStr request.target = .ok destination := by
        rintro destination ⟨request', prefetched', incoming', hread', hmethod, htarget⟩
        rw [hread] at hread'
        obtain ⟨rfl, rfl⟩ := Prod.mk.inj (Except.ok.inj (Prod.mk.inj hread').1)
        exact ⟨hmethod, htarget⟩
      dsimp only
      split
      · next hmethod =>
          cases htarget : Endpoint.fromStr request.target with
          | error e =>
              dsimp only
              rw [Effect.bind_of_ok (hsend 400 invalidTarget w)]
              refine Accepts.refused (by simp [refusals]) (fun destination hasked => ?_)
                (by simp [Effect.fail])
              rw [(hparsed destination hasked).2] at htarget
              cases htarget
          | ok destination =>
              have hasked : Asked proxy client destination :=
                ⟨request, prefetched, incoming, hread, hmethod, htarget⟩
              dsimp only
              rw [Effect.bind_of_ok (show Effect.attempt (proxy.establishTunnel destination) w =
                (.ok (proxy.establishTunnel destination w).1,
                  (proxy.establishTunnel destination w).2) from rfl)]
              rcases houtcome : proxy.establishTunnel destination w with ⟨r, w', log⟩
              cases r with
              | error e =>
                  dsimp only
                  rw [Effect.bind_of_ok (hsend 502 badGateway w')]
                  exact Accepts.unreached hasked houtcome
              | ok upstream =>
                  have hopened : Accepts proxy client w
                      (.ok (some ⟨prefetched, incoming, upstream⟩), w', log ++ []) := by
                    rw [List.append_nil]
                    exact Accepts.opened hasked houtcome
                  exact hopened
      · next hmethod =>
          rw [Effect.bind_of_ok (hsend 405 connectRequired w)]
          refine Accepts.refused (by simp [refusals]) (fun destination hasked => ?_) ?_
          · exact hmethod (hparsed destination hasked).1
          · intro opened h
            cases h

/-! ## The head comes first and whole -/

/-- A tunnel which failed before the relay had greeted the client. -/
def Greets : Tunnel → Prop
  | .failed _ greeted _ _ => greeted = establishedHead
  | _ => True

theorem greets_afterGreeting (idleTimeout : Option Nat) (up down : Pipe UInt8 IoError) (now : Nat) :
    Greets (Tunnel.afterGreeting idleTimeout up down now) := by
  unfold Tunnel.afterGreeting
  split
  · trivial
  · split <;> trivial

theorem greets_step {stream ahead : Direction → Bytes} {idleTimeout : Option Nat}
    {t t' : Tunnel} {a : TunnelAction} (hinv : Tunnel.Inv stream ahead t)
    (hwrite : clientWriteFails t a = false) (h : t.step idleTimeout a = some t') : Greets t' := by
  cases Tunnel.moves_of_step h with
  | @writeFailed stage _ _ _ _ _ =>
      -- a write failed, but not that of the head
      cases hinv with
      | opening _ _ _ _ hstage =>
          cases stage with
          | greeting rest => cases hwrite
          | toUpstream => exact hstage.1
          | toClient => exact hstage.1
  | head _ => exact greets_afterGreeting _ _ _ _
  | up _ => exact greets_afterGreeting _ _ _ _
  | down _ => exact greets_afterGreeting _ _ _ _
  | ticked => trivial
  | headPart _ _ => trivial
  | upPart _ _ => trivial
  | downPart _ _ => trivial
  | relayed _ => trivial

theorem greets_run {stream ahead : Direction → Bytes} {idleTimeout : Option Nat}
    {t t' : Tunnel} {actions : List TunnelAction} (hinv : Tunnel.Inv stream ahead t)
    (hgreets : Greets t) (hwrites : tunnelWritesSucceed idleTimeout t actions = true)
    (hrun : (Tunnel.machine idleTimeout).run t actions = some t') : Greets t' := by
  induction actions generalizing t with
  | nil =>
      obtain rfl := Option.some.inj hrun
      exact hgreets
  | cons a rest ih =>
      rw [Machine.run_cons] at hrun
      obtain ⟨s, hstep, hrest⟩ := Option.bind_eq_some_iff.mp hrun
      rw [tunnelWritesSucceed, show t.step idleTimeout a = some s from hstep] at hwrites
      obtain ⟨hwrite, hmore⟩ := Bool.and_eq_true_iff.mp hwrites
      exact ih (hinv.step hstep) (greets_step hinv (by simpa using hwrite) hstep) hmore hrest

/-- A tunnel which has returned has greeted the client, and what the client got
besides is a left factor of what the other side sent. -/
theorem tunnel_answer {idleTimeout : Option Nat} {opened : OpenTunnel} {now : Nat}
    {actions : List TunnelAction} {t : Tunnel}
    (hwrites : tunnelWritesSucceed idleTimeout (opened.start now) actions = true)
    (hrun : (Tunnel.machine idleTimeout).run (opened.start now) actions = some t)
    (hreturned : t.result ≠ none) :
    ∃ bytes, bytes <+: opened.upstream.stream.pending ∧
      t.clientReceived = establishedHead ++ bytes := by
  have hstart := Tunnel.inv_start opened.prefetched opened.client opened.upstream.stream now
  obtain ⟨hsinks, -, -⟩ := (hstart.run hrun).sinks
  refine ⟨(t.pipe .down).sink, hsinks .down, congrArg (· ++ _) ?_⟩
  have hgreets : Greets t := greets_run hstart trivial hwrites hrun
  cases t with
  | opening stage greeted up down now => exact absurd rfl hreturned
  | relaying r => rfl
  | failed e greeted up down => exact hgreets

/-! ## The answer -/

/-- Every refusal is one complete response, and is not the head of a tunnel. -/
theorem refusal_complete : ∀ refusal ∈ refusals,
    (refusal.1 = 400 ∨ refusal.1 = 405 ∨ refusal.1 = 502) ∧
      CompleteResponse refusal.1 (utf8 (errorResponse refusal.1 refusal.2)) ∧
      ¬ establishedHead <+: utf8 (errorResponse refusal.1 refusal.2) := by
  simp only [refusals, List.forall_mem_cons]
  refine ⟨⟨by decide, ?_, by decide⟩, ⟨by decide, ?_, by decide⟩,
    ⟨by decide, ?_, by decide⟩, ⟨by decide, ?_, by decide⟩, by simp⟩ <;>
  exact errorResponse_complete (by decide)

/-- Establishing a tunnel does not write to the client. -/
theorem answers_establishTunnel (proxy : Proxy κ) (destination : Endpoint) (w : World) :
    answers (proxy.establishTunnel destination w).2.2 = [] := by
  apply List.filterMap_eq_nil_iff.mpr
  intro event hmem
  cases establishTunnel_event proxy destination w hmem with
  | handshake hstep => cases hstep <;> rfl
  | _ => rfl

/-- Everything written while a tunnel is established belongs to a request for
its destination. -/
theorem wrote_establishTunnel (proxy : Proxy κ) (destination : Endpoint) (w : World) {c : Nat}
    {bytes : Bytes} (h : Event.wrote c bytes ∈ (proxy.establishTunnel destination w).2.2) :
    ∃ value, bytes <+: utf8 (connectRequest destination value) := by
  cases establishTunnel_event proxy destination w h with
  | handshake hstep =>
      cases hstep with
      | write hbytes => exact ⟨_, hbytes⟩

/-- A client asks for one destination. -/
theorem Asked.unique {proxy : Proxy κ} {client : Socket} {destination destination' : Endpoint}
    (h : Asked proxy client destination) (h' : Asked proxy client destination') :
    destination = destination' := by
  obtain ⟨request, prefetched, incoming, hread, -, htarget⟩ := h
  obtain ⟨request', prefetched', incoming', hread', -, htarget'⟩ := h'
  rw [hread] at hread'
  obtain ⟨rfl, rfl⟩ := Prod.mk.inj (Except.ok.inj (Prod.mk.inj hread').1)
  exact Except.ok.inj (htarget.symm.trans htarget')

/-- A client which is answered once, without a tunnel, has this answer. -/
theorem clientReceived_answered {run : ClientRun} {log : List Event} {bytes : Bytes}
    (hlog : run.log = log ++ [.answered bytes]) (hanswers : answers log = [])
    (htunnel : run.tunnel = none) : run.clientReceived = bytes := by
  have hone : answers run.log = [bytes] := by
    rw [hlog, answers, List.filterMap_append, ← answers, hanswers]
    rfl
  simp [ClientRun.clientReceived, hone, htunnel]

/-- Does the event reach out for a name or another host? -/
def Event.reachesOut : Event → Bool
  | .lookup _ => true
  | .dialDirect _ => true
  | .dialUpstream _ => true
  | .opened _ => true
  | _ => false

private def answerHead : Bytes := utf8 "CONNECT a:443 HTTP/1.1\r\n\r\n".toList

private def answerDestination : Endpoint := ⟨"a".toList, 443⟩

private def answerProxy : Proxy Unit where
  config := ⟨.v4 0x7f000001#32 3128, ⟨"proxy".toList, 3128⟩, .auto, .auto, [], 5, 10, some 60, 1024,
    16⟩
  authFactory := ⟨fun _ _ => .ok (), fun _ _ => (.ok [], ())⟩
  httparse := .ofTables
    [(answerHead, .complete 26, ⟨some "CONNECT".toList, some "a:443".toList⟩)] []
  base64 := .ofTable []

/-- The client sends one byte together with its request. -/
private def answerClient : Socket :=
  ⟨⟨[⟨answerHead ++ [1], by decide⟩], none⟩, none, []⟩

private def answerAddress : SocketAddr := .v4 0x7f000001#32 443

private theorem answerBytes_ne_nil : ([5, 6] : Bytes) ≠ [] := by decide

/-- The destination is the local host and sends two bytes. -/
private def answerWorld : World :=
  ⟨[some (1, .ok [answerAddress])],
    [some (1, .ok ⟨⟨[⟨[5, 6], answerBytes_ne_nil⟩], none⟩, none, []⟩)], 0⟩

private def answerTunnel : OpenTunnel :=
  ⟨[1], ⟨[], none⟩, ⟨0, BufferedStream.new ⟨[⟨[5, 6], answerBytes_ne_nil⟩], none⟩, []⟩⟩

private def answerActions : List TunnelAction :=
  [.write 39, .write 1,
    .relay (.pump .up .read), .relay (.pump .up (.shutdown (.ok ()))),
    .relay (.pump .down .read), .relay (.pump .down (.write 2)), .relay (.pump .down .stamp),
    .relay (.pump .down .read), .relay (.pump .down (.shutdown (.ok ())))]

end Server
end Fastpx
