import Fastpx.Relay.Work
import Fastpx.Server.Answer
import Fastpx.Server.Transcript

/-!
# From the client's socket to the other side

The parts of `handle_client` put together.  Whatever the client and the network
do, a tunnel joins two byte streams which are named by the sockets and the route:
what the client sends behind its request, and what the other side sends, on a
connection through the upstream proxy from the end of its acceptance on
(`TunnelSource`).  Every byte goes through unchanged and in order
(`tunnel_end_to_end`), and little of it is held on the way
(`handleClient_holds`).
-/

namespace Fastpx
namespace Server

open StreamKit Config Http1 Relay

variable {κ : Type}

/-! ## The other side of a tunnel -/

/-- The bytes which the other side sends into a tunnel over the connection `c`,
if `log` happened until the tunnel was open.  After a direct dial, which opened
this connection and no other, it is everything.  Without one the tunnel goes
through the upstream proxy; then it is what follows the head of the acceptance,
the last response in the log, before which there are only refusals. -/
inductive TunnelSource (proxy : Proxy κ) (log : List Event) (c : Nat) (socket : Socket) :
    Bytes → Prop
  | direct {addresses : List SocketAddr} (hdial : directDials log = [addresses])
      (hopened : opens log = [c]) :
      TunnelSource proxy log c socket socket.incoming.unread
  | accepted {taken : List (TakenResponse proxy.httparse)} {raw bytes : Bytes}
      {final : ResponseHead} (hroute : directDials log = []) (hopened : c ∈ opens log)
      (hheard : responsesOn c log = taken.map TakenResponse.head ++ [final])
      (hbytes : socket.incoming.unread = taken.flatMap TakenResponse.wire ++ (raw ++ bytes))
      (hends : findHeaderEnd raw = some raw.length)
      (hparsed : parseResponseHead proxy.httparse raw = .ok final)
      (hsuccess : isConnectSuccess final = true)
      (hrefused : ∀ earlier ∈ taken, earlier.head.status = 407) :
      TunnelSource proxy log c socket bytes

theorem TunnelSource.mem_opens {proxy : Proxy κ} {log : List Event} {c : Nat} {socket : Socket}
    {bytes : Bytes} (h : TunnelSource proxy log c socket bytes) : c ∈ opens log := by
  cases h with
  | direct _ hopened =>
      rw [hopened]
      exact List.mem_singleton_self c
  | accepted _ hopened => exact hopened

/-- The connection of a tunnel has read from a socket of the world up to where
the tunnel begins. -/
structure Leads (proxy : Proxy κ) (w : World) (log : List Event) (socket : Socket)
    (upstream : Connection) : Prop where
  opened : OpenedOn w proxy.config.connectTimeout upstream.id socket
  source : TunnelSource proxy log upstream.id socket upstream.stream.pending
  ending : upstream.stream.stream.ending = socket.incoming.ending
  reading : Conversation proxy.httparse proxy.config.maxHeaderBytes upstream.stream

theorem establishUpstreamTunnel_leads {proxy : Proxy κ} {destination : Endpoint}
    {upstream : Connection} {w w' : World} {log : List Event}
    (h : proxy.establishUpstreamTunnel destination w = (.ok upstream, w', log)) :
    ∃ socket, Leads proxy w log socket upstream := by
  obtain ⟨socket, hsocket, ⟨taken, raw, final, hanswered, hsuccess, hrefused⟩, hopened⟩ :=
    establishUpstreamTunnel_ok h
  have hroute := (upstream_only proxy destination w).2
  rw [h] at hroute
  have hbytes := hanswered.inUse.bytes
  rw [List.append_assoc] at hbytes
  exact ⟨socket, hsocket, .accepted hroute hopened hanswered.heard hbytes hanswered.ends
    hanswered.parsed hsuccess hrefused, hanswered.inUse.ending, hanswered.inUse.reading⟩

theorem establishTunnel_leads {proxy : Proxy κ} {destination : Endpoint} {upstream : Connection}
    {w w' : World} {log : List Event}
    (h : proxy.establishTunnel destination w = (.ok upstream, w', log)) :
    ∃ socket, Leads proxy w log socket upstream := by
  have hroute := establishTunnel_route proxy destination w
  rw [h] at hroute
  generalize hresult : (Except.ok upstream, w', log) = result at hroute
  cases hroute with
  | configured _ => exact establishUpstreamTunnel_leads hresult.symm
  | @direct answers addresses outcome _ _ _ _ houtcome =>
      obtain ⟨hvalue, hstate⟩ := Prod.mk.inj hresult
      obtain ⟨-, rfl⟩ := Prod.mk.inj hstate
      rcases outcome with ⟨r, w₁, log₁⟩
      obtain rfl : r = .ok upstream := hvalue.symm
      obtain ⟨socket, hsocket, rfl, rfl, -⟩ := connect_ok houtcome
      exact ⟨socket, hsocket, .direct rfl rfl, rfl, .start _⟩
  | @fallback outcome _ _ houtcome =>
      obtain ⟨hvalue, hstate⟩ := Prod.mk.inj hresult
      obtain ⟨-, rfl⟩ := Prod.mk.inj hstate
      rcases outcome with ⟨r, w₁, log₁⟩
      obtain rfl : r = .ok upstream := hvalue.symm
      obtain ⟨socket, hsocket, hsource, hending, hreading⟩ :=
        establishUpstreamTunnel_leads houtcome
      refine ⟨socket, hsocket, ?_, hending, hreading⟩
      -- the lookup before the handshake is no dial and no response
      generalize upstream.stream.pending = bytes at hsource
      cases hsource with
      | direct hdial hopened => exact .direct hdial hopened
      | accepted hroute hopened hheard hbytes hends hparsed hsuccess hrefused =>
          exact .accepted hroute hopened hheard hbytes hends hparsed hsuccess hrefused

/-! ## The client's side -/

/-- A tunnel is opened for a client whose request was read and whose destination
was reached. -/
theorem acceptClient_opened {proxy : Proxy κ} {client : Socket} {w w' : World}
    {opened : OpenTunnel} {log : List Event}
    (h : proxy.acceptClient client w = (.ok (some opened), w', log)) :
    (∃ request, readRequestHead proxy.httparse client.incoming proxy.config.maxHeaderBytes =
      (.ok (request, opened.prefetched), opened.client)) ∧
    ∃ destination, Asked proxy client destination ∧
      proxy.establishTunnel destination w = (.ok opened.upstream, w', log) := by
  unfold Proxy.acceptClient at h
  cases hnodelay : client.nodelay with
  | some e =>
      simp only [hnodelay] at h
      cases (Prod.mk.inj h).1
  | none =>
  rcases hread : readRequestHead proxy.httparse client.incoming proxy.config.maxHeaderBytes with
    ⟨e | ⟨request, prefetched⟩, incoming⟩
  · simp only [hnodelay, hread] at h
    obtain ⟨_, _, _, _, -, hfail, -⟩ := Effect.bind_eq_ok h
    cases (Prod.mk.inj hfail).1
  simp only [hnodelay, hread] at h
  by_cases hmethod : eqIgnoreAsciiCase request.method connectMethod = true
  swap
  · simp only [hmethod] at h
    obtain ⟨_, _, _, _, -, hnone, -⟩ := Effect.bind_eq_ok h
    cases (Effect.pure_eq_ok hnone).1
  simp only [hmethod, if_true] at h
  cases htarget : Endpoint.fromStr request.target with
  | error e =>
      simp only [htarget] at h
      obtain ⟨_, _, _, _, -, hfail, -⟩ := Effect.bind_eq_ok h
      cases (Prod.mk.inj hfail).1
  | ok destination =>
      simp only [htarget] at h
      obtain ⟨tunnel, w₁, log₁, more, hattempt, hfinal, rfl⟩ := Effect.bind_eq_ok h
      obtain ⟨hvalue, hstate⟩ := Prod.mk.inj hattempt
      obtain rfl := Except.ok.inj hvalue
      rcases houtcome : proxy.establishTunnel destination w with ⟨e | upstream, w₂, log₂⟩
      · simp only [houtcome] at hfinal
        obtain ⟨_, _, _, _, -, hfail, -⟩ := Effect.bind_eq_ok hfinal
        cases (Prod.mk.inj hfail).1
      · simp only [houtcome] at hfinal hstate
        obtain ⟨hopened, rfl, rfl⟩ := Effect.pure_eq_ok hfinal
        obtain ⟨rfl, rfl⟩ := Prod.mk.inj hstate
        obtain rfl := Option.some.inj hopened
        refine ⟨⟨request, rfl⟩, destination,
          ⟨request, prefetched, incoming, hread, hmethod, htarget⟩, ?_⟩
        rw [List.append_nil]
        exact houtcome

/-- A run with a tunnel consists of the opening of the tunnel and of a run of
the tunnel machine. -/
theorem opened_of_tunnel {proxy : Proxy κ} {client : Socket} {now : Nat}
    {actions : List TunnelAction} {w : World} {run : ClientRun} {t : Tunnel}
    (h : proxy.handleClient client now actions w = some run) (ht : run.tunnel = some t) :
    ∃ opened w', proxy.acceptClient client w = (.ok (some opened), w', run.log) ∧
      (Tunnel.machine proxy.config.idleTimeout).run (opened.start now) actions = some t ∧
      run.result = tunnelResult t := by
  cases handles_of_run h with
  | failed _ => cases ht
  | refused _ => cases ht
  | tunnelled haccept hrun =>
      obtain rfl := Option.some.inj ht
      exact ⟨_, _, haccept, hrun, rfl⟩

/-! ## The two streams of a tunnel -/

/-- A run returned successfully if its tunnel did. -/
theorem tunnelResult_eq_ok {t : Tunnel} :
    tunnelResult t = some (.ok ()) ↔ ∃ counts, t.result = some (.ok counts) := by
  unfold tunnelResult
  cases t.result with
  | none => simp
  | some r => cases r <;> simp

/-- Longer runs are runs which go on. -/
theorem handleClient_append {proxy : Proxy κ} {client : Socket} {now : Nat}
    {actions more : List TunnelAction} {w w' : World} {opened : OpenTunnel} {log : List Event}
    {t t' : Tunnel} (haccept : proxy.acceptClient client w = (.ok (some opened), w', log))
    (hrun : (Tunnel.machine proxy.config.idleTimeout).run (opened.start now) actions = some t)
    (hmore : (Tunnel.machine proxy.config.idleTimeout).run t more = some t') :
    proxy.handleClient client now (actions ++ more) w = some ⟨tunnelResult t', log, some t'⟩ := by
  simp only [Proxy.handleClient, haccept, Machine.run_trans hrun hmore]
  rfl

/-- What an opened tunnel delivers: in the course of every run left factors of
the two streams, all of them at a successful end, and such an end can be reached
as long as the tunnel has not returned. -/
theorem tunnel_delivers {idleTimeout : Option Nat} {opened : OpenTunnel} {now : Nat}
    {actions : List TunnelAction} {t : Tunnel}
    (hrun : (Tunnel.machine idleTimeout).run (opened.start now) actions = some t) :
    (t.pipe .up).sink <+: opened.prefetched ++ opened.client.unread ∧
      t.clientReceived <+: establishedHead ++ opened.upstream.stream.pending ∧
      ((∃ counts, t.result = some (.ok counts)) →
        (t.pipe .up).sink = opened.prefetched ++ opened.client.unread ∧
        t.clientReceived = establishedHead ++ opened.upstream.stream.pending) ∧
      (opened.client.ending = none → opened.upstream.stream.stream.ending = none →
        t.result = none → ∃ more t' counts, (Tunnel.machine idleTimeout).run t more = some t' ∧
          t'.result = some (.ok counts)) := by
  have hstart := Tunnel.inv_start opened.prefetched opened.client opened.upstream.stream now
  have hinv := hstart.run hrun
  refine ⟨hinv.sinks.1 .up, hinv.received, ?_, ?_⟩
  · rintro ⟨counts, hcounts⟩
    obtain ⟨-, -, -, -, hdelivered, hreceived⟩ := hinv.delivered hcounts
    exact ⟨hdelivered .up, hreceived⟩
  · intro hclient hupstream hresult
    have hclean : (opened.start now).EndsCleanly := by
      rintro (_ | _)
      · exact hclient
      · exact hupstream
    exact Tunnel.can_complete hinv (hclean.run hrun) hresult

/-- A client with a tunnel has only what came through it. -/
theorem clientReceived_of_tunnel {proxy : Proxy κ} {destination : Endpoint} {w w' : World}
    {upstream : Connection} {run : ClientRun} {t : Tunnel}
    (h : proxy.establishTunnel destination w = (.ok upstream, w', run.log))
    (ht : run.tunnel = some t) : run.clientReceived = t.clientReceived := by
  have hanswers := answers_establishTunnel proxy destination w
  rw [h] at hanswers
  simp [ClientRun.clientReceived, hanswers, ht]

/-- What comes in at one end of a run and goes out at the other: the client sends
`clientBytes` behind its request, and the other side `upstreamBytes` behind what
belongs to the handshake. -/
structure Carries (run : ClientRun) (t : Tunnel) (clientBytes upstreamBytes : Bytes) : Prop where
  up : (t.pipe .up).sink <+: clientBytes
  down : run.clientReceived <+: establishedHead ++ upstreamBytes
  returned : run.result = some (.ok ()) → (t.pipe .up).sink = clientBytes ∧
    run.clientReceived = establishedHead ++ upstreamBytes

theorem carries_of_opened {proxy : Proxy κ} {destination : Endpoint} {opened : OpenTunnel}
    {now : Nat} {actions : List TunnelAction} {w w' : World} {run : ClientRun} {t : Tunnel}
    (htunnel : proxy.establishTunnel destination w = (.ok opened.upstream, w', run.log))
    (hrun : (Tunnel.machine proxy.config.idleTimeout).run (opened.start now) actions = some t)
    (ht : run.tunnel = some t) (hresult : run.result = tunnelResult t) :
    Carries run t (opened.prefetched ++ opened.client.unread) opened.upstream.stream.pending := by
  obtain ⟨hup, hdown, hall, -⟩ := tunnel_delivers hrun
  rw [← clientReceived_of_tunnel htunnel ht] at hdown hall
  exact ⟨hup, hdown, fun hok => hall (tunnelResult_eq_ok.mp (hresult.symm.trans hok))⟩

/-- A tunnel joins what the client sends behind its request to what the other side
sends on a connection of the run, and it can be completed if both streams end
cleanly. -/
theorem tunnel_joins {proxy : Proxy κ} {client : Socket} {now : Nat}
    {actions : List TunnelAction} {w : World} {run : ClientRun} {t : Tunnel}
    (h : proxy.handleClient client now actions w = some run) (ht : run.tunnel = some t) :
    ∃ (c : Nat) (socket : Socket) (raw clientBytes upstreamBytes : Bytes),
      client.incoming.unread = raw ++ clientBytes ∧ findHeaderEnd raw = some raw.length ∧
      OpenedOn w proxy.config.connectTimeout c socket ∧
      TunnelSource proxy run.log c socket upstreamBytes ∧
      Carries run t clientBytes upstreamBytes ∧
      (client.incoming.ending = none → socket.incoming.ending = none → run.result = none →
        ∃ more t' counts, (Tunnel.machine proxy.config.idleTimeout).run t more = some t' ∧
          t'.result = some (.ok counts)) := by
  obtain ⟨opened, w', haccept, hrun, hresult⟩ := opened_of_tunnel h ht
  obtain ⟨⟨request, hrequest⟩, destination, -, htunnel⟩ := acceptClient_opened haccept
  obtain ⟨raw, hclient, hends, -, hending⟩ := readRequestHead_ok hrequest
  obtain ⟨socket, hleads⟩ := establishTunnel_leads htunnel
  obtain ⟨-, -, -, hcomplete⟩ := tunnel_delivers hrun
  refine ⟨_, socket, raw, _, _, hclient, hends, hleads.opened, hleads.source,
    carries_of_opened htunnel hrun ht hresult, ?_⟩
  intro hclean hsocket hnone
  rw [hresult] at hnone
  exact hcomplete (hending.trans hclean) (hleads.ending.trans hsocket)
    (Option.map_eq_none_iff.mp hnone)

/-- **Tunnels are transparent from socket to socket.**  In every run of
`handle_client` which has opened a tunnel, the client's stream is a head and
then `clientBytes`, and there is a connection of this run, over a socket provided
by the network, whose stream leads up to `upstreamBytes` on the route that was
taken, such that at every moment

* the other side has a left factor of `clientBytes`;
* the client has a left factor of the established head and `upstreamBytes`;
* if the run has returned successfully, both have everything;
* if it has not returned and both streams end cleanly, it still can. -/
theorem tunnel_end_to_end {proxy : Proxy κ} {client : Socket} {now : Nat}
    {actions : List TunnelAction} {w : World} {run : ClientRun} {t : Tunnel}
    (h : proxy.handleClient client now actions w = some run) (ht : run.tunnel = some t) :
    ∃ (c : Nat) (socket : Socket) (raw clientBytes upstreamBytes : Bytes),
      client.incoming.unread = raw ++ clientBytes ∧ findHeaderEnd raw = some raw.length ∧
      OpenedOn w proxy.config.connectTimeout c socket ∧
      TunnelSource proxy run.log c socket upstreamBytes ∧
      (t.pipe .up).sink <+: clientBytes ∧
      run.clientReceived <+: establishedHead ++ upstreamBytes ∧
      (run.result = some (.ok ()) → (t.pipe .up).sink = clientBytes ∧
        run.clientReceived = establishedHead ++ upstreamBytes) ∧
      (client.incoming.ending = none → socket.incoming.ending = none → run.result = none →
        ∃ more run', proxy.handleClient client now (actions ++ more) w = some run' ∧
          run'.result = some (.ok ())) := by
  obtain ⟨c, socket, raw, clientBytes, upstreamBytes, hclient, hends, hopened, hsource, hcarries,
    hcomplete⟩ := tunnel_joins h ht
  refine ⟨c, socket, raw, clientBytes, upstreamBytes, hclient, hends, hopened, hsource,
    hcarries.up, hcarries.down, hcarries.returned, ?_⟩
  intro hclean hsocket hnone
  obtain ⟨more, t', counts, hmore, hcounts⟩ := hcomplete hclean hsocket hnone
  obtain ⟨opened, w', haccept, hrun, -⟩ := opened_of_tunnel h ht
  exact ⟨more, _, handleClient_append haccept hrun hmore,
    tunnelResult_eq_ok.mpr ⟨counts, hcounts⟩⟩

/-! A client which sends two bytes behind its request, to a host in the loopback
network which answers with one. -/

private def joinedHead : Bytes := utf8 "CONNECT b:443 HTTP/1.1\r\n\r\n".toList

private def joinedProxy : Proxy Unit where
  config := ⟨.v4 0x7f000001#32 3128, ⟨"proxy".toList, 3128⟩, .auto, .auto, [], 5, 10, none, 2048,
    16⟩
  authFactory := ⟨fun _ _ => .ok (), fun _ _ => (.ok [], ())⟩
  httparse := .ofTables
    [(joinedHead, .complete 26, ⟨some "CONNECT".toList, some "b:443".toList⟩)] []
  base64 := .ofTable []

private theorem joinedBytes_ne_nil : joinedHead ++ [11, 12] ≠ [] := by simp

private theorem joinedReply_ne_nil : ([13] : Bytes) ≠ [] := by decide

private def joinedClient : Socket :=
  ⟨⟨[⟨joinedHead ++ [11, 12], joinedBytes_ne_nil⟩], none⟩, none, []⟩

private def joinedWorld : World :=
  ⟨[some (1, .ok [.v4 0x7f000001#32 443])],
    [some (2, .ok ⟨⟨[⟨[13], joinedReply_ne_nil⟩], none⟩, none, []⟩)], 0⟩

private def joinedActions : List TunnelAction :=
  [.write 39, .write 2, .relay (.pump .down .read), .relay (.pump .up .read),
    .relay (.pump .down (.write 1)), .relay (.pump .up (.shutdown (.ok ()))),
    .relay (.pump .down .stamp), .relay (.pump .down .read),
    .relay (.pump .down (.shutdown (.ok ())))]

private theorem joined_run : ∃ run t,
    joinedProxy.handleClient joinedClient 0 joinedActions joinedWorld = some run ∧
      run.tunnel = some t ∧ run.result = some (.ok ()) := by
  have hrun : (joinedProxy.handleClient joinedClient 0 joinedActions joinedWorld).map
      (fun run => (run.tunnel.isSome, run.result)) = some (true, some (.ok ())) := by
    decide +kernel
  obtain ⟨run, hrun, heq⟩ := Option.map_eq_some_iff.mp hrun
  obtain ⟨htunnel, hresult⟩ := Prod.mk.inj heq
  obtain ⟨t, ht⟩ := Option.isSome_iff_exists.mp htunnel
  exact ⟨run, t, hrun, ht, hresult⟩

/-- The host got the two bytes. -/
theorem tunnel_end_to_end_sample : ∃ run t,
    joinedProxy.handleClient joinedClient 0 joinedActions joinedWorld = some run ∧
      run.tunnel = some t ∧ run.result = some (.ok ()) ∧ (t.pipe .up).sink = [11, 12] := by
  obtain ⟨run, t, hrun, ht, hresult⟩ := joined_run
  obtain ⟨_, _, raw, clientBytes, _, hclient, hends, -, -, -, -, hok, -⟩ :=
    tunnel_end_to_end hrun ht
  have hunread : joinedHead ++ [11, 12] = raw ++ clientBytes := by
    rw [← hclient]
    simp [joinedClient, Source.unread]
  obtain ⟨-, rfl⟩ := head_unique hunread (by decide) hends
  exact ⟨run, t, hrun, ht, hresult, (hok hresult).1⟩

/-! ## What a tunnel holds -/

/-- At most a head's worth of bytes is read ahead of the client's request. -/
theorem readRequestHead_length_le {httparse : Httparse} {maxHeaderBytes : Nat}
    {reader reader' : Incoming} {head : RequestHead} {rest : Bytes}
    (h : readRequestHead httparse reader maxHeaderBytes = (.ok (head, rest), reader')) :
    rest.length ≤ maxHeaderBytes := by
  have hlength : (Buffered.fill findHeaderEnd maxHeaderBytes (headRoom maxHeaderBytes)
      ⟨reader, []⟩).2.buffer.length ≤ maxHeaderBytes :=
    Buffered.fill_length_le findHeaderEnd headRoom_pos headRoom_le (Nat.zero_le _)
  unfold readRequestHead readHeadBytes at h
  rcases hfill : Buffered.fill findHeaderEnd maxHeaderBytes (headRoom maxHeaderBytes)
    ⟨reader, []⟩ with ⟨e | stop, b⟩
  · simp only [hfill] at h
    cases (Prod.mk.inj h).1
  · simp only [hfill] at h hlength
    split at h
    · cases (Prod.mk.inj h).1
    · split at h
      · cases (Prod.mk.inj h).1
      · obtain ⟨-, rfl⟩ := Prod.mk.inj (Except.ok.inj (Prod.mk.inj h).1)
        rw [List.length_drop]
        omega

/-- With a header limit as the command line demands it, neither direction of a
tunnel ever has more bytes in its buffer than the header limit or one relay
buffer. -/
theorem handleClient_holds {proxy : Proxy κ} {client : Socket} {now : Nat}
    {actions : List TunnelAction} {w : World} {run : ClientRun} {t : Tunnel}
    (h : proxy.handleClient client now actions w = some run) (ht : run.tunnel = some t)
    (hmax : 1024 ≤ proxy.config.maxHeaderBytes) :
    t.Holds (max proxy.config.maxHeaderBytes bufferSize) := by
  obtain ⟨opened, w', haccept, hrun, -⟩ := opened_of_tunnel h ht
  obtain ⟨⟨request, hrequest⟩, destination, -, htunnel⟩ := acceptClient_opened haccept
  obtain ⟨socket, hleads⟩ := establishTunnel_leads htunnel
  have hstart : (opened.start now).Holds (max proxy.config.maxHeaderBytes bufferSize) := by
    rintro (_ | _)
    · exact (readRequestHead_length_le hrequest).trans (le_max_left _ _)
    · exact (hleads.reading.length_le hmax).trans (le_max_left _ _)
  exact Tunnel.Holds.run (le_max_right _ _) hstart hrun

end Server
end Fastpx
