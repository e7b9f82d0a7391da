import Fastpx.Server.Client

/-!
# The numbers of connections

Everything which the server does before a tunnel follows the script of the
network, and gives each connection it opens the next number: the numbers in the
log are those from the one at which it started up to the one at which it ended,
each once (`acceptClient_numbered`).  So clients which are served one after the
other from one script never have a connection in common.
-/

namespace Fastpx
namespace Server

open StreamKit Config Http1 Effect

/-- The script was followed, and the connections opened on the way are numbered
through. -/
structure Numbered (limit : Nat) (w : World) (log : List Event) (w' : World) : Prop where
  follows : Follows limit w w'
  opened : opens log =
    List.range' w.nextConnection (w'.nextConnection - w.nextConnection)

theorem opens_append (past more : List Event) :
    opens (past ++ more) = opens past ++ opens more :=
  List.filterMap_append

variable {limit : Nat}

theorem Numbered.still {w : World} {log : List Event} (h : opens log = []) :
    Numbered limit w log w :=
  ⟨.refl limit w, by simp [h]⟩

theorem numbered_composes (limit : Nat) : Composes (Numbered limit) where
  nil w := .still rfl
  append {w w' w'' past more} h h' := by
    refine ⟨h.follows.trans h'.follows, ?_⟩
    have hle := h.follows.next_le
    have hle' := h'.follows.next_le
    have hstart : w'.nextConnection =
        w.nextConnection + (w'.nextConnection - w.nextConnection) := by omega
    have hlength : w''.nextConnection - w.nextConnection =
        (w'.nextConnection - w.nextConnection) + (w''.nextConnection - w'.nextConnection) := by
      omega
    rw [opens_append, h.opened, h'.opened, hlength, ← List.range'_append_1, ← hstart]

/-- The numbers in a log are new ones. -/
theorem Numbered.mem_opens {w w' : World} {log : List Event} (h : Numbered limit w log w')
    {c : Nat} (hc : c ∈ opens log) : w.nextConnection ≤ c ∧ c < w'.nextConnection := by
  rw [h.opened, List.mem_range'_1] at hc
  omega

theorem Numbered.nodup {w w' : World} {log : List Event} (h : Numbered limit w log w') :
    (opens log).Nodup := by
  rw [h.opened]
  exact List.nodup_range'

/-! ## The pieces -/

theorem numbered_allows (limit : Nat) : Allows (Numbered limit) where
  toComposes := numbered_composes limit
  request _ _ _ _ := .still rfl
  wrote _ _ _ := .still rfl
  response _ _ _ := .still rfl
  drained _ _ := .still rfl
  create _ _ _ := .still rfl

theorem numbered_emit {event : Event} (h : opens [event] = []) :
    Within (Numbered limit) (emit event : Run Unit) :=
  fun _ => .still h

theorem connect_numbered {attempt : Event} (h : opens [attempt] = []) (limit : Nat)
    (timeoutError : ProxyError) :
    Within (Numbered limit) (connect attempt limit timeoutError) := by
  intro w
  have hopens : opens [attempt, .opened w.nextConnection] = [w.nextConnection] := by
    rw [← List.singleton_append, opens_append, h]
    rfl
  have houtcome := connect_outcome attempt limit timeoutError w
  generalize connect attempt limit timeoutError w = outcome at houtcome
  cases houtcome with
  | unopened hfollows hnext => exact ⟨hfollows, by simp [h, hnext]⟩
  | refused hfollows hnext => exact ⟨hfollows, by simp [hopens, hnext]⟩
  | connected _ hfollows hnext => exact ⟨hfollows, by simp [hopens, hnext]⟩

theorem sendError_numbered (writes : List WriteOutcome) (status : UInt16) (reason : Text) :
    Within (Numbered limit) (sendError writes status reason) := by
  refine (numbered_composes limit).within_bind (numbered_emit rfl) fun _ => ?_
  split
  · exact (numbered_composes limit).within_fail _
  · exact (numbered_composes limit).within_pure _

variable {κ : Type}

theorem stepContext_numbered (proxy : Proxy κ) (context : κ) (challenge : Option Bytes) :
    Within (Numbered limit) (proxy.stepContext context challenge) := by
  refine (numbered_composes limit).within_bind (numbered_emit rfl) fun _ => ?_
  split
  · exact (numbered_composes limit).within_fail _
  · exact (numbered_composes limit).within_pure _

/-! ## The handshake -/

theorem authRounds_numbered (proxy : Proxy κ) (destination : Endpoint) (scheme : AuthScheme)
    (rounds : Nat) (c : Connection) (response : ResponseHead) (context : κ)
    (challenge : Option Bytes) (mustDrain : Bool) :
    Within (Numbered limit)
      (proxy.authRounds destination scheme rounds c response context challenge mustDrain) := by
  have hR := numbered_allows limit
  induction rounds generalizing c response context challenge mustDrain with
  | zero => exact hR.within_fail _
  | succ left ih =>
      refine hR.within_bind (hR.prepareRound mustDrain response c) fun c₁ =>
        hR.within_bind (stepContext_numbered proxy context challenge) fun stepped =>
        hR.within_bind (hR.exchange _ _ _ _ _) fun answer => ?_
      dsimp only
      split
      · exact hR.within_pure _
      split
      · exact hR.within_fail _
      exact hR.within_bind (hR.within_ofExcept _) fun challenge' => ih _ _ _ _ _

theorem authenticate_numbered (proxy : Proxy κ) (destination : Endpoint) (c : Connection)
    (response : ResponseHead) :
    Within (Numbered proxy.config.connectTimeout)
      (proxy.authenticate destination c response) := by
  have hR := numbered_allows proxy.config.connectTimeout
  refine hR.within_bind (hR.within_ofExcept _) fun chosen =>
    hR.within_bind (hR.createContext proxy chosen.1) fun context =>
    hR.within_bind (hR.within_ofExcept _) fun challenge => ?_
  split
  · split
    · exact hR.within_fail _
    · exact hR.within_bind (connect_numbered rfl _ _) fun _ =>
        authRounds_numbered proxy _ _ _ _ _ _ _ _
  · exact authRounds_numbered proxy _ _ _ _ _ _ _ _

theorem establishUpstreamTunnel_numbered (proxy : Proxy κ) (destination : Endpoint) :
    Within (Numbered proxy.config.connectTimeout)
      (proxy.establishUpstreamTunnel destination) := by
  have hR := numbered_allows proxy.config.connectTimeout
  refine hR.within_bind (connect_numbered rfl _ _) fun c =>
    hR.within_bind (hR.sendConnectRequest _ _ _) fun c' =>
    hR.within_bind (hR.readResponse _ _ _) fun answer => ?_
  dsimp only
  split
  · exact hR.within_pure _
  split
  · exact hR.within_fail _
  split
  · exact hR.within_fail _
  · exact authenticate_numbered proxy _ _ _

theorem establishTunnel_numbered (proxy : Proxy κ) (destination : Endpoint) :
    Within (Numbered proxy.config.connectTimeout) (proxy.establishTunnel destination) := by
  have hR := numbered_composes proxy.config.connectTimeout
  unfold Proxy.establishTunnel
  split
  · refine hR.within_bind ?_ fun addresses => ?_
    · intro w
      -- the lookup uses the script of the resolver only
      rw [resolveDirectAddresses_apply]
      exact ⟨⟨[], rfl, rfl⟩, by simp [opens]⟩
    · split
      · exact connect_numbered rfl _ _
      · exact establishUpstreamTunnel_numbered proxy destination
  · exact establishUpstreamTunnel_numbered proxy destination

/-- What happens before a tunnel numbers the connections through. -/
theorem acceptClient_numbered (proxy : Proxy κ) (client : Socket) :
    Within (Numbered proxy.config.connectTimeout) (proxy.acceptClient client) := by
  have hR := numbered_composes proxy.config.connectTimeout
  unfold Proxy.acceptClient
  split
  · exact hR.within_fail _
  split
  · exact hR.within_bind (sendError_numbered _ _ _) fun _ => hR.within_fail _
  split
  · split
    · exact hR.within_bind (sendError_numbered _ _ _) fun _ => hR.within_fail _
    · next destination _ =>
        refine hR.within_bind (establishTunnel_numbered proxy destination).attempt
          fun tunnel => ?_
        split
        · exact hR.within_bind (sendError_numbered _ _ _) fun _ => hR.within_fail _
        · exact hR.within_pure _
  · exact hR.within_bind (sendError_numbered _ _ _) fun _ => hR.within_pure _

end Server
end Fastpx
