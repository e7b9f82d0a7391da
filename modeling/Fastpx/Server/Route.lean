import Fastpx.Routing
import Fastpx.StreamKit.Select
import Fastpx.Server.History

/-!
# Direct or through the upstream proxy

`establish_tunnel` of `server.rs`: in automatic mode the destination is looked
up, and the internal addresses of the answer, if there are any, are connected
to directly; everything else goes through the upstream proxy.

`routing_policy` states the policy for every configuration and every world.
-/

namespace Fastpx
namespace Server

open StreamKit Config Http1 Routing

/-- What the next lookup of the script gives within the limit: nothing if it
takes too long. -/
def World.answer (w : World) (limit : Nat) : Option (Except IoError (List SocketAddr)) :=
  w.lookups.head?.bind (withTimeout limit)

/-- Take the next lookup of the script. -/
def nextLookup (limit : Nat) : Run (Option (Except IoError (List SocketAddr))) := fun w =>
  (.ok (w.answer limit), { w with lookups := w.lookups.tail }, [])

/-- The test of the filter in `resolve_direct_addresses`, without the part about
repetitions. -/
def isDirect (config : ProxyConfig) (address : SocketAddr) : Bool :=
  isDirectAddress address.ip config.directCidrs

namespace Proxy

variable {κ : Type}

/-- The internal addresses of the destination, if it has any. -/
def resolveDirectAddresses (proxy : Proxy κ) (destination : Endpoint) :
    Run (Option (List SocketAddr)) := do
  Effect.emit (.lookup destination)
  let answer ← nextLookup proxy.config.dnsTimeout
  match answer with
  | none => pure none
  -- a lookup that fails or takes too long is no error: the upstream proxy may know the name
  | some (.error _) => pure none
  | some (.ok answers) =>
      let addresses := selectNew (isDirect proxy.config) [] answers
      pure (if addresses = [] then none else some addresses)

/-- Connect to one of the addresses. -/
def connectDirect (proxy : Proxy κ) (destination : Endpoint) (addresses : List SocketAddr) :
    Run Connection :=
  connect (.dialDirect addresses) proxy.config.connectTimeout (.directConnectTimeout destination)

/-- Establish a tunnel to the destination. -/
def establishTunnel (proxy : Proxy κ) (destination : Endpoint) : Run Connection :=
  if proxy.config.routing = .auto then do
    let addresses ← proxy.resolveDirectAddresses destination
    match addresses with
    | some addresses => proxy.connectDirect destination addresses
    | none => proxy.establishUpstreamTunnel destination
  else proxy.establishUpstreamTunnel destination

end Proxy

/-! ## Views of a log -/

/-- The names looked up. -/
def nameLookups (log : List Event) : List Endpoint :=
  log.filterMap fun
    | .lookup destination => some destination
    | _ => none

/-- The address lists which were connected to directly. -/
def directDials (log : List Event) : List (List SocketAddr) :=
  log.filterMap fun
    | .dialDirect addresses => some addresses
    | _ => none

variable {κ : Type}

/-- Every event of a handshake is a step of the protocol. -/
theorem step_of_mem {terms : Terms} {log : List Event} {s final : Phase} {event : Event}
    (hrun : Runs (Step terms) s log final) (hmem : event ∈ log) :
    ∃ before after, Step terms before event after := by
  obtain ⟨past, future, rfl⟩ := List.append_of_mem hmem
  obtain ⟨before, after, -, hstep, -⟩ := hrun.split
  exact ⟨before, after, hstep⟩

/-- A handshake neither looks up names nor connects directly. -/
theorem upstream_only (proxy : Proxy κ) (destination : Endpoint) (w : World) :
    nameLookups (proxy.establishUpstreamTunnel destination w).2.2 = [] ∧
      directDials (proxy.establishUpstreamTunnel destination w).2.2 = [] := by
  obtain ⟨final, hrun, -⟩ := establish_guided proxy destination w
  constructor <;>
  · apply List.filterMap_eq_nil_iff.mpr
    intro event hmem
    obtain ⟨before, after, hstep⟩ := step_of_mem hrun hmem
    cases hstep <;> rfl

/-! ## The two routes -/

/-- The answer has an internal address. -/
def HasDirect (config : ProxyConfig) (answers : List SocketAddr) : Prop :=
  ∃ address ∈ answers, isDirect config address = true

/-- What a lookup returns for the route. -/
theorem resolveDirectAddresses_apply (proxy : Proxy κ) (destination : Endpoint) (w : World) :
    proxy.resolveDirectAddresses destination w =
      (.ok (match w.answer proxy.config.dnsTimeout with
        | some (.ok answers) =>
            if selectNew (isDirect proxy.config) [] answers = [] then none
            else some (selectNew (isDirect proxy.config) [] answers)
        | _ => none), { w with lookups := w.lookups.tail }, [.lookup destination]) := by
  unfold Proxy.resolveDirectAddresses
  rw [Effect.bind_of_ok (show Effect.emit (Event.lookup destination) w = (.ok (), w, _) from rfl),
    Effect.bind_of_ok (show nextLookup proxy.config.dnsTimeout w = _ from rfl)]
  cases w.answer proxy.config.dnsTimeout with
  | none => rfl
  | some answer =>
      cases answer with
      | error e => rfl
      | ok answers => rfl

theorem selectNew_eq_nil_iff {config : ProxyConfig} {answers : List SocketAddr} :
    selectNew (isDirect config) [] answers = [] ↔ ¬ HasDirect config answers := by
  simp [List.eq_nil_iff_forall_not_mem, mem_selectNew, HasDirect]

/-- The world after the lookup. -/
def World.afterLookup (w : World) : World := { w with lookups := w.lookups.tail }

/-- The three ways in which a tunnel is established, and when each is taken. -/
inductive RouteTaken (proxy : Proxy κ) (destination : Endpoint) (w : World) :
    Except ProxyError Connection × World × List Event → Prop
  | configured (hmode : proxy.config.routing ≠ .auto) :
      RouteTaken proxy destination w (proxy.establishUpstreamTunnel destination w)
  | direct {answers addresses : List SocketAddr}
      {outcome : Except ProxyError Connection × World × List Event}
      (hmode : proxy.config.routing = .auto)
      (hanswer : w.answer proxy.config.dnsTimeout = some (.ok answers))
      (hdirect : HasDirect proxy.config answers)
      (haddresses : FirstOccurrences (isDirect proxy.config) answers addresses)
      (houtcome : proxy.connectDirect destination addresses w.afterLookup = outcome) :
      RouteTaken proxy destination w (outcome.1, outcome.2.1, .lookup destination :: outcome.2.2)
  | fallback {outcome : Except ProxyError Connection × World × List Event}
      (hmode : proxy.config.routing = .auto)
      (hnone : ∀ answers, w.answer proxy.config.dnsTimeout = some (.ok answers) →
        ¬ HasDirect proxy.config answers)
      (houtcome : proxy.establishUpstreamTunnel destination w.afterLookup = outcome) :
      RouteTaken proxy destination w (outcome.1, outcome.2.1, .lookup destination :: outcome.2.2)

theorem establishTunnel_route (proxy : Proxy κ) (destination : Endpoint) (w : World) :
    RouteTaken proxy destination w (proxy.establishTunnel destination w) := by
  unfold Proxy.establishTunnel
  split
  · next hmode =>
      rw [Effect.bind_of_ok (resolveDirectAddresses_apply proxy destination w)]
      -- only a lookup which returned an internal address leads to the direct route
      cases hanswer : w.answer proxy.config.dnsTimeout with
      | none => exact RouteTaken.fallback hmode (by simp [hanswer]) rfl
      | some answer =>
          cases answer with
          | error e => exact RouteTaken.fallback hmode (by simp [hanswer]) rfl
          | ok answers =>
              by_cases hdirect : HasDirect proxy.config answers
              · simp only [if_neg (mt selectNew_eq_nil_iff.mp (not_not.mpr hdirect))]
                exact RouteTaken.direct hmode hanswer hdirect
                  (firstOccurrences_selectNew _ answers) rfl
              · simp only [if_pos (selectNew_eq_nil_iff.mpr hdirect)]
                refine RouteTaken.fallback hmode ?_ rfl
                rintro answers' hanswer'
                rw [hanswer] at hanswer'
                obtain rfl := Except.ok.inj (Option.some.inj hanswer')
                exact hdirect
  · next hmode => exact RouteTaken.configured hmode

/-- A direct attempt dials the addresses once and nothing else. -/
theorem connectDirect_log (proxy : Proxy κ) (destination : Endpoint)
    (addresses : List SocketAddr) (w : World) :
    directDials (proxy.connectDirect destination addresses w).2.2 = [addresses] ∧
      upstreamDials (proxy.connectDirect destination addresses w).2.2 = [] ∧
      requests (proxy.connectDirect destination addresses w).2.2 = [] ∧
      responses (proxy.connectDirect destination addresses w).2.2 = [] := by
  have houtcome := connect_outcome (.dialDirect addresses) proxy.config.connectTimeout
    (.directConnectTimeout destination) w
  unfold Proxy.connectDirect
  generalize connect _ _ _ w = outcome at houtcome
  cases houtcome <;> exact ⟨rfl, rfl, rfl, rfl⟩

/-- The routing policy.  With `ProxyOnly` nothing is looked up or dialled
directly.  In automatic mode the direct route is taken exactly if the lookup
succeeded with an internal address; then the internal addresses are dialled,
each once and in the order in which they first occur, and the upstream is left
alone whatever comes of it.  Otherwise the tunnel goes through the upstream.
No address outside the internal ones is ever dialled directly. -/
theorem routing_policy (proxy : Proxy κ) (destination : Endpoint) (w : World) :
    let answer := w.answer proxy.config.dnsTimeout
    let outcome := proxy.establishTunnel destination w
    let log := outcome.2.2
    let throughUpstream := proxy.establishUpstreamTunnel destination w.afterLookup
    (proxy.config.routing = .proxyOnly →
      outcome = proxy.establishUpstreamTunnel destination w ∧
        nameLookups log = [] ∧ directDials log = []) ∧
    (proxy.config.routing = .auto →
      (directDials log ≠ [] ↔
        ∃ answers, answer = some (.ok answers) ∧ HasDirect proxy.config answers) ∧
      (∀ answers, answer = some (.ok answers) → HasDirect proxy.config answers →
        ∃ addresses, directDials log = [addresses] ∧
          FirstOccurrences (isDirect proxy.config) answers addresses ∧ addresses.Nodup ∧
          outcome.1 = (proxy.connectDirect destination addresses w.afterLookup).1 ∧
          upstreamDials log = [] ∧ requests log = []) ∧
      ((¬ ∃ answers, answer = some (.ok answers) ∧ HasDirect proxy.config answers) →
        outcome = (throughUpstream.1, throughUpstream.2.1,
          .lookup destination :: throughUpstream.2.2))) ∧
    (∀ addresses ∈ directDials log, ∀ address ∈ addresses,
      isDirectAddress address.ip proxy.config.directCidrs = true) := by
  have hroute := establishTunnel_route proxy destination w
  dsimp only
  generalize proxy.establishTunnel destination w = outcome at hroute ⊢
  cases hroute with
  | configured hmode =>
      obtain ⟨hlookups, hdials⟩ := upstream_only proxy destination w
      exact ⟨fun _ => ⟨rfl, hlookups, hdials⟩, fun hauto => absurd hauto hmode, by simp [hdials]⟩
  | @direct answers addresses result hmode hanswer hdirect haddresses houtcome =>
      obtain ⟨hdials, hupstream, hrequests, -⟩ :=
        connectDirect_log proxy destination addresses w.afterLookup
      rw [houtcome] at hdials hupstream hrequests
      have hlog : directDials (.lookup destination :: result.2.2) = [addresses] := hdials
      refine ⟨fun honly => ?_, fun _ => ⟨?_, ?_, ?_⟩, ?_⟩
      · rw [hmode] at honly
        cases honly
      · rw [hlog]
        exact iff_of_true (by simp) ⟨answers, hanswer, hdirect⟩
      · intro answers' hanswer' _
        obtain rfl := Except.ok.inj (Option.some.inj (hanswer.symm.trans hanswer'))
        exact ⟨addresses, hlog, haddresses, haddresses.nodup, by rw [houtcome], hupstream,
          hrequests⟩
      · exact fun hnot => absurd ⟨answers, hanswer, hdirect⟩ hnot
      · rw [hlog]
        rintro _ hmem address haddress
        obtain rfl := List.mem_singleton.mp hmem
        exact ((haddresses.mem_iff address).mp haddress).2
  | @fallback result hmode hnone houtcome =>
      have hdials := (upstream_only proxy destination w.afterLookup).2
      rw [houtcome] at hdials
      have hlog : directDials (.lookup destination :: result.2.2) = [] := hdials
      refine ⟨fun honly => ?_, fun _ => ⟨?_, ?_, ?_⟩, by simp [hlog]⟩
      · rw [hmode] at honly
        cases honly
      · rw [hlog]
        refine iff_of_false (by simp) ?_
        exact fun ⟨answers, hanswer, hdirect⟩ => hnone answers hanswer hdirect
      · exact fun answers hanswer hdirect => absurd hdirect (hnone answers hanswer)
      · exact fun _ => by rw [houtcome]

end Server
end Fastpx
