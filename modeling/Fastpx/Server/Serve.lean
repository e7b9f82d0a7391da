import Fastpx.StreamKit.Holding
import Fastpx.StreamKit.Machine
import Fastpx.Config.Proxy
import Fastpx.Server.Challenge

/-!
# Accepting clients

Any number of `serve_until` loops on clones of one proxy.  The clones share a
semaphore with `max_connections` permits; a loop takes a permit, waits for a
client and hands the permit to the task which serves that client.  A permit is
dropped, and is free again, when its loop returns or its task ends.

Of the semaphore it is assumed that it hands out each permit to one holder; the
permits are numbered here to say so.  The `select` statements choose between the
shutdown and the other event, and each list of actions is one interleaving of
all loops and tasks.
-/

namespace Fastpx
namespace Server

open StreamKit Config Http1

abbrev Permit := Nat

/-- Where a `serve_until` loop stands. -/
inductive ServeLoop where
  /-- in the first `select`, waiting for a permit -/
  | acquiring
  /-- in the second `select`, waiting for a client -/
  | accepting (permit : Permit)
  | returned (result : Except IoError Unit)
  deriving DecidableEq

/-- The permit which a loop holds. -/
def ServeLoop.permits : ServeLoop → List Permit
  | .accepting permit => [permit]
  | _ => []

/-- The task of one client. -/
structure Handler where
  peer : SocketAddr
  permit : Permit
  deriving DecidableEq

/-- How a handler can end; its task drops the permit in any case. -/
inductive HandlerEnd where
  | done
  | failed (error : ProxyError)
  | panicked
  deriving DecidableEq

/-- All loops and tasks of a proxy and its clones. -/
structure ServeState where
  free : List Permit
  loops : List ServeLoop
  handlers : List Handler
  deriving DecidableEq

/-- What can happen to them; a loop or handler is given by its position. -/
inductive ServeAction where
  /-- `serve_until` is called on a clone -/
  | serve
  | acquired (loop : Nat)
  /-- the semaphore is closed -/
  | closed (loop : Nat)
  | shutdown (loop : Nat)
  | accepted (loop : Nat) (peer : SocketAddr)
  | acceptError (loop : Nat) (error : IoError)
  | ended (handler : Nat) (how : HandlerEnd)
  deriving DecidableEq

/-- The largest number of permits which `Semaphore::new` takes. -/
def maxPermits : Nat := usizeMax >>> 3

namespace ServeState

/-- `Proxy::with_auth_factory`; there is no proxy if the semaphore panics. -/
def start (config : ProxyConfig) : Option ServeState :=
  if config.maxConnections ≤ maxPermits then some ⟨List.range config.maxConnections, [], []⟩
  else none

/-- The loop at this position goes on as `next`. -/
def setLoop (s : ServeState) (i : Nat) (next : ServeLoop) : ServeState :=
  { s with loops := s.loops.set i next }

/-- A permit is dropped. -/
def release (s : ServeState) (permit : Permit) : ServeState :=
  { s with free := s.free ++ [permit] }

/-- One action of the loops and tasks. -/
def step (s : ServeState) : ServeAction → Option ServeState
  | .serve => some { s with loops := s.loops ++ [.acquiring] }
  | .acquired i =>
      match s.loops[i]?, s.free with
      | some .acquiring, permit :: rest =>
          some ({ s with free := rest }.setLoop i (.accepting permit))
      | _, _ => none
  | .closed i =>
      match s.loops[i]? with
      | some .acquiring => some (s.setLoop i (.returned (.ok ())))
      | _ => none
  | .shutdown i =>
      match s.loops[i]? with
      | some .acquiring => some (s.setLoop i (.returned (.ok ())))
      -- the permit is a local variable of the loop, so it is dropped with it
      | some (.accepting permit) => some ((s.setLoop i (.returned (.ok ()))).release permit)
      | _ => none
  | .accepted i peer =>
      match s.loops[i]? with
      | some (.accepting permit) =>
          some { s.setLoop i .acquiring with handlers := ⟨peer, permit⟩ :: s.handlers }
      | _ => none
  | .acceptError i e =>
      match s.loops[i]? with
      | some (.accepting permit) => some ((s.setLoop i (.returned (.error e))).release permit)
      | _ => none
  | .ended j _ =>
      match s.handlers[j]? with
      | some handler => some ({ s with handlers := s.handlers.eraseIdx j }.release handler.permit)
      | none => none

def machine : Machine ServeState ServeAction := ⟨step⟩

/-- The transitions of the loops and tasks. -/
inductive Moves (s : ServeState) : ServeAction → ServeState → Prop
  | served : Moves s .serve { s with loops := s.loops ++ [.acquiring] }
  | acquires {i : Nat} {permit : Permit} {rest : List Permit}
      (hloop : s.loops[i]? = some .acquiring) (hfree : s.free = permit :: rest) :
      Moves s (.acquired i) ({ s with free := rest }.setLoop i (.accepting permit))
  | closes {i : Nat} (hloop : s.loops[i]? = some .acquiring) :
      Moves s (.closed i) (s.setLoop i (.returned (.ok ())))
  | stops {i : Nat} (hloop : s.loops[i]? = some .acquiring) :
      Moves s (.shutdown i) (s.setLoop i (.returned (.ok ())))
  | stopsAccepting {i : Nat} {permit : Permit} (hloop : s.loops[i]? = some (.accepting permit)) :
      Moves s (.shutdown i) ((s.setLoop i (.returned (.ok ()))).release permit)
  | accepts {i : Nat} {permit : Permit} {peer : SocketAddr}
      (hloop : s.loops[i]? = some (.accepting permit)) :
      Moves s (.accepted i peer)
        { s.setLoop i .acquiring with handlers := ⟨peer, permit⟩ :: s.handlers }
  | failsAccept {i : Nat} {permit : Permit} {e : IoError}
      (hloop : s.loops[i]? = some (.accepting permit)) :
      Moves s (.acceptError i e) ((s.setLoop i (.returned (.error e))).release permit)
  | ends {j : Nat} {handler : Handler} {how : HandlerEnd}
      (hhandler : s.handlers[j]? = some handler) :
      Moves s (.ended j how)
        ({ s with handlers := s.handlers.eraseIdx j }.release handler.permit)

/-- A step is one of the transitions. -/
theorem moves_of_step {s s' : ServeState} {a : ServeAction} (h : s.step a = some s') :
    s.Moves a s' := by
  cases a with
  | serve =>
      obtain rfl := Option.some.inj h
      exact .served
  | acquired i =>
      simp only [step] at h
      split at h
      · next permit rest hloop hfree =>
          obtain rfl := Option.some.inj h
          exact .acquires hloop hfree
      · cases h
  | closed i =>
      simp only [step] at h
      split at h
      · next hloop =>
          obtain rfl := Option.some.inj h
          exact .closes hloop
      · cases h
  | shutdown i =>
      simp only [step] at h
      split at h
      · next hloop =>
          obtain rfl := Option.some.inj h
          exact .stops hloop
      · next permit hloop =>
          obtain rfl := Option.some.inj h
          exact .stopsAccepting hloop
      · cases h
  | accepted i peer =>
      simp only [step] at h
      split at h
      · next permit hloop =>
          obtain rfl := Option.some.inj h
          exact .accepts hloop
      · cases h
  | acceptError i e =>
      simp only [step] at h
      split at h
      · next permit hloop =>
          obtain rfl := Option.some.inj h
          exact .failsAccept hloop
      · cases h
  | ended j how =>
      simp only [step] at h
      split at h
      · next handler hhandler =>
          obtain rfl := Option.some.inj h
          exact .ends hhandler
      · cases h

/-- All permits, wherever they are. -/
def permits (s : ServeState) : List Permit :=
  s.free ++ s.loops.flatMap ServeLoop.permits ++ s.handlers.map Handler.permit

theorem count_permits (s : ServeState) (permit : Permit) :
    s.permits.count permit = s.free.count permit +
      (s.loops.flatMap ServeLoop.permits).count permit +
        (s.handlers.map Handler.permit).count permit := by
  rw [permits, List.count_append, List.count_append]

theorem count_permits_setLoop {s : ServeState} {i : Nat} {old : ServeLoop}
    (h : s.loops[i]? = some old) (next : ServeLoop) (permit : Permit) :
    (s.setLoop i next).permits.count permit + old.permits.count permit =
      s.permits.count permit + next.permits.count permit := by
  have hset := @count_flatMap_set _ _ _ ServeLoop.permits _ _ _ h next permit
  simp only [count_permits, setLoop]
  omega

theorem count_permits_release (s : ServeState) (dropped permit : Permit) :
    (s.release dropped).permits.count permit =
      s.permits.count permit + [dropped].count permit := by
  simp only [count_permits, release, List.count_append]
  omega

/-! ## Conservation -/

/-- No action loses or copies a permit. -/
theorem step_permits {s s' : ServeState} {a : ServeAction} (h : s.step a = some s') :
    s'.permits.Perm s.permits := by
  refine List.perm_iff_count.mpr fun permit => ?_
  cases moves_of_step h with
  -- a new loop starts without a permit
  | served => simp [count_permits, ServeLoop.permits]
  | @acquires i first rest hloop hfree =>
      have hset := count_permits_setLoop (s := { s with free := rest }) hloop
        (.accepting first) permit
      rw [count_permits s, hfree, List.count_cons]
      simp only [count_permits { s with free := rest }, ServeLoop.permits, List.count_cons,
        List.count_nil] at hset
      omega
  | closes hloop =>
      simpa [ServeLoop.permits] using count_permits_setLoop hloop (.returned (.ok ())) permit
  | stops hloop =>
      simpa [ServeLoop.permits] using count_permits_setLoop hloop (.returned (.ok ())) permit
  | stopsAccepting hloop =>
      rw [count_permits_release]
      exact count_permits_setLoop hloop (.returned (.ok ())) permit
  | accepts hloop =>
      have hset := count_permits_setLoop hloop .acquiring permit
      simp only [count_permits, setLoop, ServeLoop.permits, List.map_cons, List.count_cons,
        List.count_nil] at hset ⊢
      omega
  | @failsAccept i held e hloop =>
      rw [count_permits_release]
      exact count_permits_setLoop hloop (.returned (.error e)) permit
  | ends hhandler =>
      have herase := @count_map_eraseIdx _ _ _ Handler.permit _ _ _ hhandler permit
      rw [count_permits_release]
      simp only [count_permits]
      omega

/-- The permits of a proxy with these settings, each in one place. -/
def Conserves (config : ProxyConfig) (s : ServeState) : Prop :=
  s.permits.Perm (List.range config.maxConnections)

/-- Every run of a proxy conserves its permits. -/
theorem run_conserves {config : ProxyConfig} {s₀ s : ServeState} {actions : List ServeAction}
    (hstart : start config = some s₀) (hrun : machine.run s₀ actions = some s) :
    s.Conserves config := by
  have hstep : ∀ {s a s'}, Conserves config s → machine.step s a = some s' →
      Conserves config s' := fun hinv hstep => (step_permits hstep).trans hinv
  refine Machine.run_invariant hstep ?_ hrun
  unfold start at hstart
  split at hstart
  · obtain rfl := Option.some.inj hstart
    simp [Conserves, permits]
  · cases hstart

/-- A connection is accepted by a loop which holds a permit, and the permit goes
to the handler. -/
theorem accepted_of_step {s s' : ServeState} {i : Nat} {peer : SocketAddr}
    (h : s.step (.accepted i peer) = some s') :
    ∃ permit, s.loops[i]? = some (.accepting permit) ∧
      s'.loops = s.loops.set i .acquiring ∧ s'.handlers = ⟨peer, permit⟩ :: s.handlers := by
  cases moves_of_step h with
  | @accepts _ permit _ hloop => exact ⟨permit, hloop, rfl, rfl⟩

/-- The permit of a loop is in one place only. -/
theorem permit_exclusive {s : ServeState} (h : s.permits.Nodup) {i : Nat} {permit : Permit}
    (hloop : s.loops[i]? = some (.accepting permit)) :
    permit ∉ s.free ∧ (∀ handler ∈ s.handlers, handler.permit ≠ permit) ∧
      ∀ j, j ≠ i → s.loops[j]? ≠ some (.accepting permit) := by
  obtain ⟨hfirst, -, hhandlers⟩ := List.nodup_append.mp h
  obtain ⟨-, hloops, hfree⟩ := List.nodup_append.mp hfirst
  have hheld : permit ∈ s.loops.flatMap ServeLoop.permits :=
    List.mem_flatMap.mpr ⟨_, List.mem_of_getElem? hloop, List.mem_singleton_self permit⟩
  refine ⟨fun hmem => hfree permit hmem permit hheld rfl, ?_, ?_⟩
  · intro handler hmem heq
    exact hhandlers permit (List.mem_append_right _ hheld) handler.permit
      (List.mem_map_of_mem hmem) heq.symm
  · intro j hij hother
    exact not_mem_of_nodup_flatMap hloops hij.symm hloop hother (List.mem_singleton_self permit)
      (List.mem_singleton_self permit)

end ServeState

/-- **The connection limit.**  In every reachable state of any number of loops:

* no more handlers run than `max_connections`;
* a connection is accepted only by a loop whose permit is held by no other loop
  or handler and is not free, and its handler gets that permit;
* the free permits, those of the loops and the handlers add up to
  `max_connections`;
* all permits are free when every loop has returned and every handler has
  ended. -/
theorem connection_limit {config : ProxyConfig} {s₀ s : ServeState}
    {actions : List ServeAction} (hstart : ServeState.start config = some s₀)
    (hrun : ServeState.machine.run s₀ actions = some s) :
    s.handlers.length ≤ config.maxConnections ∧
    (∀ i peer s', s.step (.accepted i peer) = some s' →
      ∃ permit, s.loops[i]? = some (.accepting permit) ∧
        s'.handlers = ⟨peer, permit⟩ :: s.handlers ∧ permit ∉ s.free ∧
        (∀ handler ∈ s.handlers, handler.permit ≠ permit) ∧
        ∀ j, j ≠ i → s.loops[j]? ≠ some (.accepting permit)) ∧
    s.free.length + (s.loops.flatMap ServeLoop.permits).length + s.handlers.length =
      config.maxConnections ∧
    ((∀ loop ∈ s.loops, ∃ result, loop = .returned result) → s.handlers = [] →
      s.free.Perm (List.range config.maxConnections)) := by
  have hperm : s.permits.Perm (List.range config.maxConnections) :=
    ServeState.run_conserves hstart hrun
  have hsum : s.free.length + (s.loops.flatMap ServeLoop.permits).length + s.handlers.length =
      config.maxConnections := by
    have hlength := hperm.length_eq
    rwa [ServeState.permits, List.length_append, List.length_append, List.length_map,
      List.length_range] at hlength
  refine ⟨by omega, ?_, hsum, ?_⟩
  · intro i peer s' hstep
    obtain ⟨permit, hloop, -, hhandlers⟩ := ServeState.accepted_of_step hstep
    have hnodup : s.permits.Nodup := hperm.nodup_iff.mpr List.nodup_range
    exact ⟨permit, hloop, hhandlers, ServeState.permit_exclusive hnodup hloop⟩
  · intro hreturned hnone
    have hloops : s.loops.flatMap ServeLoop.permits = [] := by
      refine List.flatMap_eq_nil_iff.mpr fun loop hmem => ?_
      obtain ⟨result, rfl⟩ := hreturned loop hmem
      rfl
    simpa [ServeState.permits, hloops, hnone] using hperm

/-! Two loops and two permits: both loops hold one, and one client is being
served. -/

private def serveConfig : ProxyConfig :=
  ⟨.v4 0x7f000001#32 3128, ⟨"proxy".toList, 3128⟩, .none, .proxyOnly, [], 5, 10, none, 1024, 2⟩

private def serveActions : List ServeAction :=
  [.serve, .serve, .acquired 0, .accepted 0 (.v4 0x7f000001#32 5000), .acquired 1]

private def serveFull : ServeState :=
  ⟨[], [.acquiring, .accepting 1], [⟨.v4 0x7f000001#32 5000, 0⟩]⟩

/-- The second loop may accept a client with its own permit. -/
theorem connection_limit_full :
    ∃ s₀, ServeState.start serveConfig = some s₀ ∧
      ServeState.machine.run s₀ serveActions = some serveFull ∧
      ∃ permit, serveFull.loops[1]? = some (.accepting permit) ∧
        ∀ handler ∈ serveFull.handlers, handler.permit ≠ permit := by
  have hstart : ServeState.start serveConfig = some ⟨[0, 1], [], []⟩ := by decide
  have hrun : ServeState.machine.run ⟨[0, 1], [], []⟩ serveActions = some serveFull := rfl
  have hlimit := connection_limit hstart hrun
  obtain ⟨permit, hloop, -, -, hhandlers, -⟩ :=
    hlimit.2.1 1 (.v4 0x7f000001#32 5001) _ rfl
  exact ⟨_, hstart, hrun, permit, hloop, hhandlers⟩

end Server
end Fastpx
