import Fastpx.Main
import Fastpx.Server.EndToEnd
import Fastpx.Server.Numbering

/-!
# The whole service

The accept loops of `serve_until` together with the tasks they spawn, over one
network.  A task holds the client's socket and a permit, and runs
`handle_client`: first the part which ends with an open tunnel or without one,
then the tunnel, action by action.  The actions of all loops and tasks are
interleaved in any way.

The part before the tunnel is one action.  Tasks share nothing but the permits
and the network, so parts which overlap differ from parts one after the other
only in the order in which they use the script of the network, and that order is
arbitrary here.

The loops and permits are those of `ServeState` (`serve_run_of_run`).  Every
connection belongs to one task, and what goes through it is what that task's
client and its own other side send (`service_isolated`).  From there the
properties of single clients carry over to the service.
-/

namespace Fastpx
namespace Server

open StreamKit Config Http1 Relay

variable {κ : Type}

/-- A spawned task: its permit and peer, the socket it was given, and its run of
`handle_client` once it has connected. -/
structure Task where
  handler : Handler
  client : Socket
  run : Option ClientRun

/-- The connections which a task has opened. -/
def Task.connections (task : Task) : List Nat :=
  (task.run.map fun run => opens run.log).getD []

/-- All loops and tasks of a proxy and its clones, and what the network will
still do. -/
structure Service where
  free : List Permit
  loops : List ServeLoop
  tasks : List Task
  world : World

/-- What can happen to them; a loop or task is given by its position. -/
inductive ServiceAction where
  /-- an action of the loops which concerns no task -/
  | loop (a : ServeAction)
  | accept (loop : Nat) (peer : SocketAddr) (client : Socket)
  /-- the task runs up to its tunnel, if there is one -/
  | connect (task : Nat) (now : Nat)
  | relay (task : Nat) (a : TunnelAction)
  /-- the task has returned -/
  | finish (task : Nat)
  | panic (task : Nat)

/-- The actions of a service which is shut down: the loops return, and the tasks
run to their end.  There are no new clients, and no task panics. -/
def ServiceAction.Drains : ServiceAction → Prop
  | .loop (.shutdown _) => True
  | .connect _ _ => True
  | .relay _ _ => True
  | .finish _ => True
  | _ => False

/-- One action of the tunnel in a run of `handle_client`. -/
def Proxy.advance (proxy : Proxy κ) (run : ClientRun) (a : TunnelAction) : Option ClientRun :=
  run.tunnel.bind fun t =>
    (t.step proxy.config.idleTimeout a).map fun t' => ⟨tunnelResult t', run.log, some t'⟩

namespace Service

/-- The loops and permits without what the tasks do. -/
def serve (s : Service) : ServeState := ⟨s.free, s.loops, s.tasks.map Task.handler⟩

/-- `Proxy::with_auth_factory`; there is no service if the semaphore panics. -/
def start (config : ProxyConfig) (w : World) : Option Service :=
  (ServeState.start config).map fun s => ⟨s.free, s.loops, [], w⟩

/-- The task at this position goes on as `next`. -/
def setTask (s : Service) (j : Nat) (next : Task) : Service :=
  { s with tasks := s.tasks.set j next }

/-- The task at this position ends and drops its permit. -/
def endTask (s : Service) (j : Nat) (task : Task) : Service :=
  { s with free := s.free ++ [task.handler.permit], tasks := s.tasks.eraseIdx j }

/-- One action of the service. -/
def step (proxy : Proxy κ) (s : Service) : ServiceAction → Option Service
  | .loop (.accepted _ _) => none
  | .loop (.ended _ _) => none
  | .loop a => (s.serve.step a).map fun next => { s with free := next.free, loops := next.loops }
  | .accept i peer client =>
      match s.loops[i]? with
      | some (.accepting permit) =>
          some { s with
            loops := s.loops.set i .acquiring
            tasks := ⟨⟨peer, permit⟩, client, none⟩ :: s.tasks }
      | _ => none
  | .connect j now =>
      match s.tasks[j]? with
      | some ⟨handler, client, none⟩ =>
          (proxy.handleClient client now [] s.world).map fun run =>
            { s.setTask j ⟨handler, client, some run⟩ with
              world := (proxy.acceptClient client s.world).2.1 }
      | _ => none
  | .relay j a =>
      match s.tasks[j]? with
      | some ⟨handler, client, some run⟩ =>
          (proxy.advance run a).map fun run' => s.setTask j ⟨handler, client, some run'⟩
      | _ => none
  | .finish j =>
      match s.tasks[j]? with
      | some task =>
          if task.run.any fun run => run.result.isSome then some (s.endTask j task) else none
      | none => none
  | .panic j => s.tasks[j]?.map (s.endTask j)

def machine (proxy : Proxy κ) : Machine Service ServiceAction := ⟨step proxy⟩

/-- The transitions of the service. -/
inductive Moves (proxy : Proxy κ) (s : Service) : Service → Prop
  | loops {a : ServeAction} {next : ServeState} (hstep : s.serve.step a = some next)
      (hhandlers : next.handlers = s.serve.handlers) :
      Moves proxy s { s with free := next.free, loops := next.loops }
  | accepts {i : Nat} {permit : Permit} {peer : SocketAddr} {client : Socket}
      (hloop : s.loops[i]? = some (.accepting permit)) :
      Moves proxy s { s with
        loops := s.loops.set i .acquiring
        tasks := ⟨⟨peer, permit⟩, client, none⟩ :: s.tasks }
  | connects {j now : Nat} {task : Task} {run : ClientRun}
      (htask : s.tasks[j]? = some task) (hnew : task.run = none)
      (hrun : proxy.handleClient task.client now [] s.world = some run) :
      Moves proxy s { s.setTask j { task with run := some run } with
        world := (proxy.acceptClient task.client s.world).2.1 }
  | relays {j : Nat} {a : TunnelAction} {task : Task} {run run' : ClientRun}
      (htask : s.tasks[j]? = some task) (hold : task.run = some run)
      (hrun : proxy.advance run a = some run') :
      Moves proxy s (s.setTask j { task with run := some run' })
  | ends {j : Nat} {task : Task} (htask : s.tasks[j]? = some task) :
      Moves proxy s (s.endTask j task)

/-- Only an accept and the end of a handler change the handlers. -/
theorem handlers_of_step {s s' : ServeState} {a : ServeAction} (h : s.step a = some s')
    (haccept : ∀ i peer, a ≠ .accepted i peer) (hend : ∀ j how, a ≠ .ended j how) :
    s'.handlers = s.handlers := by
  cases ServeState.moves_of_step h with
  | accepts => exact absurd rfl (haccept _ _)
  | ends => exact absurd rfl (hend _ _)
  | _ => rfl

theorem moves_of_step {proxy : Proxy κ} {s s' : Service} {a : ServiceAction}
    (h : s.step proxy a = some s') : Moves proxy s s' := by
  unfold step at h
  split at h
  · cases h
  · cases h
  · next a haccept hend =>
      obtain ⟨next, hstep, rfl⟩ := Option.map_eq_some_iff.mp h
      exact .loops hstep (handlers_of_step hstep haccept hend)
  · split at h
    · next hloop =>
        obtain rfl := Option.some.inj h
        exact .accepts hloop
    · cases h
  · split at h
    · next handler client htask =>
        obtain ⟨run, hrun, rfl⟩ := Option.map_eq_some_iff.mp h
        exact .connects htask rfl hrun
    · cases h
  · split at h
    · next handler client run htask =>
        obtain ⟨run', hrun, rfl⟩ := Option.map_eq_some_iff.mp h
        exact .relays htask rfl hrun
    · cases h
  · split at h
    · next task htask =>
        split at h
        · obtain rfl := Option.some.inj h
          exact .ends htask
        · cases h
    · cases h
  · obtain ⟨task, htask, rfl⟩ := Option.map_eq_some_iff.mp h
    exact .ends htask

/-! ## The loops and permits -/

/-- The loops do not see how far a task has come. -/
theorem serve_setTask {s : Service} {j : Nat} {task : Task} (htask : s.tasks[j]? = some task)
    (run : ClientRun) : (s.setTask j { task with run := some run }).serve = s.serve := by
  obtain ⟨hj, rfl⟩ := List.getElem?_eq_some_iff.mp htask
  have hsame : (s.tasks.set j { s.tasks[j] with run := some run }).map Task.handler =
      s.tasks.map Task.handler := by
    rw [List.map_set, ← List.getElem_map Task.handler, List.set_getElem_self]
    rwa [List.length_map]
  simp only [serve, setTask, hsame]

/-- What a move does to the loops and permits is a run of `ServeState`. -/
theorem serve_run_of_moves {proxy : Proxy κ} {s s' : Service} (h : Moves proxy s s') :
    ∃ actions, ServeState.machine.run s.serve actions = some s'.serve := by
  cases h with
  | @loops a next hstep hhandlers =>
      have hserve : s.serve.step a = some ⟨next.free, next.loops, s.serve.handlers⟩ := by
        rw [hstep, ← hhandlers]
      exact ⟨[a], Machine.run_cons_of_step hserve []⟩
  | @accepts i permit peer client hloop =>
      refine ⟨[.accepted i peer], Machine.run_cons_of_step ?_ []⟩
      change ServeState.step s.serve (.accepted i peer) = _
      simp only [ServeState.step, serve, hloop]
      rfl
  | connects htask _ _ => exact ⟨[], congrArg some (serve_setTask htask _).symm⟩
  | relays htask _ _ => exact ⟨[], congrArg some (serve_setTask htask _).symm⟩
  | @ends j task htask =>
      refine ⟨[.ended j .done], Machine.run_cons_of_step ?_ []⟩
      change ServeState.step s.serve (.ended j .done) = _
      simp only [ServeState.step, serve, List.getElem?_map, htask, Option.map_some]
      simp only [ServeState.release, endTask, List.eraseIdx_map]

/-- Every run of the service is a run of its loops and permits. -/
theorem serve_run_of_run {proxy : Proxy κ} {s s' : Service} {actions : List ServiceAction}
    (h : (machine proxy).run s actions = some s') :
    ∃ abstract, ServeState.machine.run s.serve abstract = some s'.serve :=
  Machine.run_simulation (fun hstep => serve_run_of_moves (moves_of_step hstep)) h

theorem serve_start {config : ProxyConfig} {w : World} {s : Service}
    (h : start config w = some s) :
    ServeState.start config = some s.serve ∧ s.tasks = [] ∧ s.world = w := by
  obtain ⟨s₀, hs₀, rfl⟩ := Option.map_eq_some_iff.mp h
  refine ⟨?_, rfl, rfl⟩
  rw [hs₀]
  unfold ServeState.start at hs₀
  split at hs₀
  · obtain rfl := Option.some.inj hs₀
    rfl
  · cases hs₀

/-- Every reachable state has all its permits. -/
theorem run_conserves {proxy : Proxy κ} {w : World} {s₀ s : Service}
    {actions : List ServiceAction} (hstart : start proxy.config w = some s₀)
    (hrun : (machine proxy).run s₀ actions = some s) :
    s.serve.Conserves proxy.config := by
  obtain ⟨abstract, habstract⟩ := serve_run_of_run hrun
  exact ServeState.run_conserves (serve_start hstart).1 habstract

/-! ## The tasks -/

/-- The tasks are served from one script of the network, each from where it
stood when the task connected, and no two have a connection in common. -/
structure Apart (proxy : Proxy κ) (w₀ : World) (s : Service) : Prop where
  follows : Follows proxy.config.connectTimeout w₀ s.world
  served : ∀ task ∈ s.tasks, ∀ run, task.run = some run →
    ∃ now actions w, Follows proxy.config.connectTimeout w₀ w ∧
      proxy.handleClient task.client now actions w = some run
  below : ∀ task ∈ s.tasks, ∀ c ∈ task.connections, c < s.world.nextConnection
  nodup : (s.tasks.flatMap Task.connections).Nodup

/-- The log of a run is made before its tunnel. -/
theorem handleClient_log {proxy : Proxy κ} {client : Socket} {now : Nat}
    {actions : List TunnelAction} {w : World} {run : ClientRun}
    (h : proxy.handleClient client now actions w = some run) :
    run.log = (proxy.acceptClient client w).2.2 := by
  cases handles_of_run h with
  | failed haccept => rw [haccept]
  | refused haccept => rw [haccept]
  | tunnelled haccept _ => rw [haccept]

/-- An action of the tunnel makes the run of `handle_client` longer. -/
theorem handleClient_advance {proxy : Proxy κ} {client : Socket} {now : Nat}
    {actions : List TunnelAction} {a : TunnelAction} {w : World} {run run' : ClientRun}
    (h : proxy.handleClient client now actions w = some run)
    (hadvance : proxy.advance run a = some run') :
    proxy.handleClient client now (actions ++ [a]) w = some run' := by
  obtain ⟨t, ht, hmap⟩ := Option.bind_eq_some_iff.mp hadvance
  obtain ⟨t', hstep, rfl⟩ := Option.map_eq_some_iff.mp hmap
  obtain ⟨opened, w', haccept, hrun, -⟩ := opened_of_tunnel h ht
  exact handleClient_append haccept hrun (Machine.run_cons_of_step hstep [])

theorem connections_advance {proxy : Proxy κ} {task : Task} {run run' : ClientRun}
    {a : TunnelAction} (hold : task.run = some run) (h : proxy.advance run a = some run') :
    ({ task with run := some run' } : Task).connections = task.connections := by
  obtain ⟨t, -, hmap⟩ := Option.bind_eq_some_iff.mp h
  obtain ⟨t', -, rfl⟩ := Option.map_eq_some_iff.mp hmap
  simp [Task.connections, hold]

/-- A task may go on as one with a run of its own, which keeps its connections or
opens new ones. -/
theorem Apart.set {proxy : Proxy κ} {w₀ w : World} {s : Service} {j : Nat} {task next : Task}
    (hinv : s.Apart proxy w₀) (htask : s.tasks[j]? = some task)
    (hfollows : Follows proxy.config.connectTimeout s.world w)
    (hserved : ∀ run, next.run = some run →
      ∃ now actions w', Follows proxy.config.connectTimeout w₀ w' ∧
        proxy.handleClient next.client now actions w' = some run)
    (hnodup : next.connections.Nodup)
    (hnew : ∀ c ∈ next.connections, c ∈ task.connections ∨
      s.world.nextConnection ≤ c ∧ c < w.nextConnection) :
    Apart proxy w₀ { s.setTask j next with world := w } := by
  have hbelow : ∀ task ∈ s.tasks, ∀ c ∈ task.connections, c < w.nextConnection :=
    fun task hmem c hc => (hinv.below task hmem c hc).trans_le hfollows.next_le
  refine ⟨hinv.follows.trans hfollows, ?_, ?_, ?_⟩
  · intro task' hmem
    rcases List.mem_or_eq_of_mem_set hmem with hother | rfl
    · exact hinv.served task' hother
    · exact hserved
  · intro task' hmem c hc
    rcases List.mem_or_eq_of_mem_set hmem with hother | rfl
    · exact hbelow task' hother c hc
    · rcases hnew c hc with hold | hopened
      · exact hbelow task (List.mem_of_getElem? htask) c hold
      · exact hopened.2
  · refine nodup_flatMap_set htask hinv.nodup hnodup fun c hc => (hnew c hc).imp_right ?_
    intro hopened hmem
    obtain ⟨task', htask', hc'⟩ := List.mem_flatMap.mp hmem
    exact absurd (hinv.below task' htask' c hc') (Nat.not_lt.mpr hopened.1)

/-- A task which connects opens new connections. -/
theorem Apart.connects {proxy : Proxy κ} {w₀ : World} {s : Service} {j now : Nat} {task : Task}
    {run : ClientRun} (hinv : s.Apart proxy w₀) (htask : s.tasks[j]? = some task)
    (hrun : proxy.handleClient task.client now [] s.world = some run) :
    Apart proxy w₀ { s.setTask j { task with run := some run } with
      world := (proxy.acceptClient task.client s.world).2.1 } := by
  have hnumbered := acceptClient_numbered proxy task.client s.world
  rw [← handleClient_log hrun] at hnumbered
  refine hinv.set htask hnumbered.follows ?_ hnumbered.nodup
    fun c hc => .inr (hnumbered.mem_opens hc)
  intro run' hrun'
  obtain rfl := Option.some.inj hrun'
  exact ⟨now, [], s.world, hinv.follows, hrun⟩

/-- An action of a tunnel leaves the connections alone. -/
theorem Apart.relays {proxy : Proxy κ} {w₀ : World} {s : Service} {j : Nat} {a : TunnelAction}
    {task : Task} {run run' : ClientRun} (hinv : s.Apart proxy w₀)
    (htask : s.tasks[j]? = some task) (hold : task.run = some run)
    (hrun : proxy.advance run a = some run') :
    (s.setTask j { task with run := some run' }).Apart proxy w₀ := by
  have hsame := connections_advance hold hrun
  have hmem := List.mem_of_getElem? htask
  refine hinv.set htask (.refl _ _) ?_ ?_ fun c hc => .inl (hsame ▸ hc)
  · intro run₂ hrun₂
    obtain rfl := Option.some.inj hrun₂
    obtain ⟨now, actions, w, hfollows, hclient⟩ := hinv.served task hmem run hold
    exact ⟨now, actions ++ [a], w, hfollows, handleClient_advance hclient hrun⟩
  · rw [hsame]
    exact (List.nodup_flatMap.mp hinv.nodup).1 task hmem

theorem Apart.moves {proxy : Proxy κ} {w₀ : World} {s s' : Service} (hinv : s.Apart proxy w₀)
    (h : Moves proxy s s') : s'.Apart proxy w₀ := by
  cases h with
  | loops _ _ => exact ⟨hinv.follows, hinv.served, hinv.below, hinv.nodup⟩
  | accepts _ =>
      -- a new task has no run, and no connections
      refine ⟨hinv.follows, ?_, ?_, hinv.nodup⟩
      · intro task hmem run hrun
        rcases List.mem_cons.mp hmem with rfl | hold
        · cases hrun
        · exact hinv.served task hold run hrun
      · intro task hmem c hc
        rcases List.mem_cons.mp hmem with rfl | hold
        · cases hc
        · exact hinv.below task hold c hc
  | connects htask _ hrun => exact hinv.connects htask hrun
  | relays htask hold hrun => exact hinv.relays htask hold hrun
  | @ends j task _ =>
      refine ⟨hinv.follows, fun task hmem => hinv.served task (List.mem_of_mem_eraseIdx hmem),
        fun task hmem => hinv.below task (List.mem_of_mem_eraseIdx hmem), ?_⟩
      exact hinv.nodup.sublist ((List.eraseIdx_sublist _ _).flatMap _)

theorem Apart.run {proxy : Proxy κ} {w₀ : World} {s s' : Service} {actions : List ServiceAction}
    (hinv : s.Apart proxy w₀) (h : (machine proxy).run s actions = some s') :
    s'.Apart proxy w₀ :=
  Machine.run_invariant (fun hinv hstep => Apart.moves hinv (moves_of_step hstep)) hinv h

/-- Every reachable state. -/
theorem run_apart {proxy : Proxy κ} {w₀ : World} {s₀ s : Service} {actions : List ServiceAction}
    (hstart : start proxy.config w₀ = some s₀)
    (hrun : (machine proxy).run s₀ actions = some s) : s.Apart proxy w₀ := by
  obtain ⟨-, htasks, hworld⟩ := serve_start hstart
  refine Apart.run ⟨?_, ?_, ?_, ?_⟩ hrun
  · rw [hworld]
    exact .refl _ _
  all_goals simp [htasks]

/-! ## Runs of one task -/

theorem setTask_self {s : Service} {j : Nat} {task : Task} (h : s.tasks[j]? = some task) :
    s.setTask j task = s := by
  obtain ⟨hj, rfl⟩ := List.getElem?_eq_some_iff.mp h
  simp only [setTask, List.set_getElem_self]

theorem getElem?_setTask {s : Service} {j : Nat} {task next : Task}
    (h : s.tasks[j]? = some task) : (s.setTask j next).tasks[j]? = some next :=
  List.getElem?_set_self (List.getElem?_eq_some_iff.mp h).1

/-- A run of the tunnel machine can be made by the task of the tunnel. -/
theorem run_relay {proxy : Proxy κ} {s : Service} {j : Nat} {handler : Handler} {client : Socket}
    {log : List Event} {t t' : Tunnel} {actions : List TunnelAction}
    (htask : s.tasks[j]? = some ⟨handler, client, some ⟨tunnelResult t, log, some t⟩⟩)
    (hrun : (Tunnel.machine proxy.config.idleTimeout).run t actions = some t') :
    (machine proxy).run s (actions.map (.relay j)) =
      some (s.setTask j ⟨handler, client, some ⟨tunnelResult t', log, some t'⟩⟩) := by
  induction actions generalizing s t with
  | nil =>
      obtain rfl := Option.some.inj hrun
      rw [setTask_self htask]
      rfl
  | cons a rest ih =>
      obtain ⟨t₁, hstep, hrest⟩ := Option.bind_eq_some_iff.mp hrun
      let next : Task := ⟨handler, client, some ⟨tunnelResult t₁, log, some t₁⟩⟩
      have hfirst : (machine proxy).step s (.relay j a) = some (s.setTask j next) := by
        have hadvance : proxy.advance ⟨tunnelResult t, log, some t⟩ a =
            some ⟨tunnelResult t₁, log, some t₁⟩ := by
          show Option.map _ (t.step proxy.config.idleTimeout a) = _
          rw [show t.step proxy.config.idleTimeout a = some t₁ from hstep]
          rfl
        simp only [machine, step, htask, hadvance]
        rfl
      rw [List.map_cons, Machine.run_cons_of_step hfirst, ih (getElem?_setTask htask) hrest]
      simp only [setTask, List.set_set]

/-! ## The end of a task -/

/-- A tunnel can always be brought to its return, without a writer that fails. -/
theorem tunnel_can_return {idleTimeout : Option Nat} {opened : OpenTunnel} {now : Nat}
    {actions : List TunnelAction} {t : Tunnel}
    (hrun : (Tunnel.machine idleTimeout).run (opened.start now) actions = some t) :
    ∃ more t', (Tunnel.machine idleTimeout).run t more = some t' ∧
      (∀ a ∈ more, a.accepted = true) ∧ t'.result ≠ none := by
  let stream := Direction.both (opened.prefetched ++ opened.client.unread)
    opened.upstream.stream.pending
  let ahead := Direction.both opened.prefetched opened.upstream.stream.buffer
  have hstart : (opened.start now).Inv stream ahead :=
    Tunnel.inv_start opened.prefetched opened.client opened.upstream.stream now
  have hdated : t.Dated idleTimeout := Machine.run_invariant
    (fun hinv h => (Tunnel.fuel_step hinv h).2)
    (show (opened.start now).Dated idleTimeout from trivial) hrun
  have hlower : ∀ {t}, (t.Inv stream ahead ∧ t.Dated idleTimeout) → ¬ t.result ≠ none →
      ∃ actions t', (Tunnel.machine idleTimeout).run t actions = some t' ∧
        (∀ a ∈ actions, a.accepted = true) ∧
        (t'.Inv stream ahead ∧ t'.Dated idleTimeout) ∧ t'.fuel < t.fuel := by
    intro t hinv hresult
    obtain ⟨a, t', hcost, haccepted, hstep⟩ :=
      hinv.1.exists_step idleTimeout (not_not.mp hresult)
    obtain ⟨hfuel, hnext⟩ := Tunnel.fuel_step hinv.2 hstep
    exact ⟨[a], t', Machine.run_cons_of_step hstep [], by simpa using haccepted,
      ⟨hinv.1.step hstep, hnext⟩, by omega⟩
  obtain ⟨more, t', hmore, haccepted, -, hdone⟩ :=
    Machine.exists_run hlower ⟨hstart.run hrun, hdated⟩
  exact ⟨more, t', hmore, haccepted, hdone⟩

/-- A run which has not returned has a tunnel. -/
theorem exists_tunnel {proxy : Proxy κ} {client : Socket} {now : Nat}
    {actions : List TunnelAction} {w : World} {run : ClientRun}
    (h : proxy.handleClient client now actions w = some run) (hnone : run.result = none) :
    ∃ t, run.tunnel = some t := by
  cases handles_of_run h with
  | failed _ => cases hnone
  | refused _ => cases hnone
  | @tunnelled _ _ _ t _ _ => exact ⟨t, rfl⟩

/-- A task which has returned can end. -/
theorem step_finish {proxy : Proxy κ} {s : Service} {j : Nat} {task : Task} {run : ClientRun}
    (htask : s.tasks[j]? = some task) (hrun : task.run = some run) (hdone : run.result ≠ none) :
    (machine proxy).step s (.finish j) = some (s.endTask j task) := by
  have hreturned : (task.run.any fun run => run.result.isSome) = true := by
    rw [hrun]
    exact Option.isSome_iff_ne_none.mpr hdone
  simp only [machine, step, htask, hreturned, if_true]

/-- A task which has connected can be brought to its end. -/
theorem run_connected {proxy : Proxy κ} {w₀ : World} {s : Service} {task : Task}
    {rest : List Task} {run : ClientRun} (hinv : s.Apart proxy w₀)
    (htasks : s.tasks = task :: rest) (hrun : task.run = some run) :
    ∃ actions, (machine proxy).run s actions = some (s.endTask 0 task) ∧
      ∀ a ∈ actions, a.Drains := by
  have htask : s.tasks[0]? = some task := by
    rw [htasks]
    rfl
  obtain ⟨now, actions, w, -, hclient⟩ := hinv.served task (List.mem_of_getElem? htask) run hrun
  by_cases hdone : run.result = none
  swap
  · exact ⟨[.finish 0], Machine.run_cons_of_step (step_finish htask hrun hdone) [], by
      simp [ServiceAction.Drains]⟩
  -- first the tunnel is brought to its return
  obtain ⟨handler, client, _⟩ := task
  obtain rfl := hrun
  obtain ⟨t, ht⟩ := exists_tunnel hclient hdone
  obtain ⟨opened, w', -, htunnel, hresult⟩ := opened_of_tunnel hclient ht
  obtain ⟨result, log, tunnel⟩ := run
  obtain rfl := ht
  obtain rfl := hresult
  obtain ⟨more, t', hmore, -, hreturned⟩ := tunnel_can_return htunnel
  let last : Task := ⟨handler, client, some ⟨tunnelResult t', log, some t'⟩⟩
  have hfinish : (machine proxy).step (s.setTask 0 last) (.finish 0) =
      some ((s.setTask 0 last).endTask 0 last) :=
    step_finish (getElem?_setTask htask) rfl (by simpa [tunnelResult] using hreturned)
  refine ⟨more.map (.relay 0) ++ [.finish 0], Machine.run_trans (run_relay htask hmore) ?_, ?_⟩
  · rw [Machine.run_cons_of_step hfinish, Machine.run_nil]
    simp [endTask, setTask, htasks, last]
  · intro a hmem
    rcases List.mem_append.mp hmem with hold | hlast
    · obtain ⟨b, -, rfl⟩ := List.mem_map.mp hold
      trivial
    · obtain rfl := List.mem_singleton.mp hlast
      trivial

/-- The first task can be brought to its end. -/
theorem run_first {proxy : Proxy κ} {w₀ : World} {s : Service} {task : Task}
    {rest : List Task} (hinv : s.Apart proxy w₀) (htasks : s.tasks = task :: rest) :
    ∃ actions s', (machine proxy).run s actions = some s' ∧ (∀ a ∈ actions, a.Drains) ∧
      s'.tasks = rest ∧ s'.loops = s.loops := by
  cases hstate : task.run with
  | some run =>
      obtain ⟨actions, hrun, hdrains⟩ := run_connected hinv htasks hstate
      exact ⟨actions, _, hrun, hdrains, by simp [endTask, htasks], rfl⟩
  | none =>
      obtain ⟨handler, client, _⟩ := task
      obtain rfl := hstate
      have htask : s.tasks[0]? = some ⟨handler, client, none⟩ := by
        rw [htasks]
        rfl
      -- it connects, whatever the network does, and is then as above
      obtain ⟨run, hclient⟩ : ∃ run, proxy.handleClient client 0 [] s.world = some run := by
        unfold Proxy.handleClient
        split <;> exact ⟨_, rfl⟩
      have hstep : (machine proxy).step s (.connect 0 0) =
          some { s.setTask 0 ⟨handler, client, some run⟩ with
            world := (proxy.acceptClient client s.world).2.1 } := by
        simp only [machine, step, htask, hclient]
        rfl
      have hnext : (s.setTask 0 ⟨handler, client, some run⟩).tasks =
          ⟨handler, client, some run⟩ :: rest := by
        simp [setTask, htasks]
      obtain ⟨actions, hrun, hdrains⟩ := run_connected (hinv.connects htask hclient) hnext rfl
      refine ⟨.connect 0 0 :: actions, _, (Machine.run_cons_of_step hstep _).trans hrun, ?_, ?_,
        rfl⟩
      · intro a hmem
        rcases List.mem_cons.mp hmem with rfl | hlater
        · trivial
        · exact hdrains a hlater
      · simp [endTask, setTask, htasks]

/-- A loop can be shut down wherever it stands. -/
theorem step_shutdown (proxy : Proxy κ) {s : Service} {i : Nat} {loop : ServeLoop}
    (hloop : s.loops[i]? = some loop) (hreturned : ∀ result, loop ≠ .returned result) :
    ∃ s', (machine proxy).step s (.loop (.shutdown i)) = some s' ∧
      s'.loops = s.loops.set i (.returned (.ok ())) ∧ s'.tasks = s.tasks := by
  cases loop with
  | acquiring =>
      refine ⟨{ s with loops := s.loops.set i (.returned (.ok ())) }, ?_, rfl, rfl⟩
      simp only [machine, step, ServeState.step, serve, hloop]
      rfl
  | accepting permit =>
      refine ⟨{ s with
        free := s.free ++ [permit]
        loops := s.loops.set i (.returned (.ok ())) }, ?_, rfl, rfl⟩
      simp only [machine, step, ServeState.step, serve, hloop]
      rfl
  | returned result => exact absurd rfl (hreturned result)

/-- Has the loop returned? -/
def hasReturned : ServeLoop → Bool
  | .returned _ => true
  | _ => false

theorem hasReturned_iff {loop : ServeLoop} :
    hasReturned loop = true ↔ ∃ result, loop = .returned result := by
  cases loop <;> simp [hasReturned]

/-- The loops and tasks which are still there. -/
def running (s : Service) : Nat := s.loops.countP (! hasReturned ·) + s.tasks.length

/-- There are no tasks, and all loops have returned. -/
def Drained (s : Service) : Prop :=
  s.tasks = [] ∧ ∀ loop ∈ s.loops, ∃ result, loop = .returned result

/-- As long as something is running, it can be stopped. -/
theorem running_lower {proxy : Proxy κ} {w₀ : World} {s : Service} (hinv : s.Apart proxy w₀)
    (h : ¬ s.Drained) :
    ∃ actions s', (machine proxy).run s actions = some s' ∧ (∀ a ∈ actions, a.Drains) ∧
      s'.Apart proxy w₀ ∧ s'.running < s.running := by
  by_cases hloops : ∀ loop ∈ s.loops, ∃ result, loop = .returned result
  · cases htasks : s.tasks with
    | nil => exact absurd ⟨htasks, hloops⟩ h
    | cons task rest =>
        obtain ⟨actions, s', hrun, hdrains, hrest, hsame⟩ := run_first hinv htasks
        refine ⟨actions, s', hrun, hdrains, hinv.run hrun, ?_⟩
        simp [running, hrest, hsame, htasks]
  · obtain ⟨loop, hmem, hnot⟩ : ∃ loop ∈ s.loops, ¬ ∃ result, loop = .returned result := by
      simpa only [not_forall, exists_prop] using hloops
    obtain ⟨i, hi, rfl⟩ := List.mem_iff_getElem.mp hmem
    obtain ⟨s', hstep, hset, htasks⟩ := step_shutdown proxy (List.getElem?_eq_getElem hi)
      (fun result heq => hnot ⟨result, heq⟩)
    have hrun : (machine proxy).run s [.loop (.shutdown i)] = some s' :=
      Machine.run_cons_of_step hstep []
    refine ⟨[.loop (.shutdown i)], s', hrun, by simp [ServiceAction.Drains], hinv.run hrun, ?_⟩
    have hcounted : (! hasReturned s.loops[i]) = true := by
      rw [Bool.not_eq_true', ← Bool.not_eq_true, hasReturned_iff]
      exact hnot
    have hpos : 0 < s.loops.countP (! hasReturned ·) := List.countP_pos_iff.mpr ⟨_, hmem, hcounted⟩
    have hless : (s.loops.set i (.returned (.ok ()))).countP (! hasReturned ·) =
        s.loops.countP (! hasReturned ·) - 1 := by
      rw [List.countP_set hi, if_pos hcounted]
      exact Nat.add_zero _
    rw [running, running, hset, htasks, hless]
    omega

end Service

/-! ## Properties of the service -/

/-- **Clients do not disturb each other.**  Start the service over any network and
let its tasks run in any order.  In every reachable state no connection belongs
to two tasks.  A task with a tunnel has a connection of its own, over a socket of
the network, and its tunnel carries what its client sends behind the request and
what the other side sends on that connection, on the route which this task took:
both sides have left factors of these streams, and all of them if the run has
returned successfully.  If it has not returned and both streams end cleanly, it
still can, by actions of this task alone. -/
theorem service_isolated {proxy : Proxy κ} {w₀ : World} {s₀ s : Service}
    {actions : List ServiceAction} (hstart : Service.start proxy.config w₀ = some s₀)
    (hrun : (Service.machine proxy).run s₀ actions = some s) :
    (s.tasks.flatMap Task.connections).Nodup ∧
    ∀ (j : Nat) (task : Task) (run : ClientRun) (t : Tunnel),
      s.tasks[j]? = some task → task.run = some run → run.tunnel = some t →
      ∃ c ∈ task.connections, ∃ (socket : Socket) (raw clientBytes upstreamBytes : Bytes),
        OpenedOn w₀ proxy.config.connectTimeout c socket ∧
        TunnelSource proxy run.log c socket upstreamBytes ∧
        task.client.incoming.unread = raw ++ clientBytes ∧
        findHeaderEnd raw = some raw.length ∧ Carries run t clientBytes upstreamBytes ∧
        (task.client.incoming.ending = none → socket.incoming.ending = none →
          run.result = none →
          ∃ (more : List TunnelAction) (run' : ClientRun),
            (Service.machine proxy).run s (more.map (.relay j)) =
              some (s.setTask j { task with run := some run' }) ∧
            run'.result = some (.ok ())) := by
  have hinv := Service.run_apart hstart hrun
  refine ⟨hinv.nodup, ?_⟩
  intro j task run t htask hstate ht
  obtain ⟨now, actions, w, hfollows, hclient⟩ :=
    hinv.served task (List.mem_of_getElem? htask) run hstate
  obtain ⟨c, socket, raw, clientBytes, upstreamBytes, hunread, hends, hopened, hsource, hcarries,
    hcomplete⟩ := tunnel_joins hclient ht
  have hmem : c ∈ task.connections := by
    simpa [Task.connections, hstate] using hsource.mem_opens
  refine ⟨c, hmem, socket, raw, clientBytes, upstreamBytes, hfollows.openedOn hopened, hsource,
    hunread, hends, hcarries, ?_⟩
  intro hclean hsocket hnone
  obtain ⟨more, t', counts, hmore, hcounts⟩ := hcomplete hclean hsocket hnone
  obtain ⟨-, -, -, -, hresult⟩ := opened_of_tunnel hclient ht
  obtain ⟨handler, client, _⟩ := task
  obtain ⟨result, log, tunnel⟩ := run
  obtain rfl := hstate
  obtain rfl := ht
  obtain rfl := hresult
  exact ⟨more, _, Service.run_relay htask hmore, tunnelResult_eq_ok.mpr ⟨counts, hcounts⟩⟩

/-! A service with two permits and two clients, both for a host in the loopback
network.  The first one is in its tunnel, where a byte is pending, before the
second one has connected. -/

private def serviceCli : Cli :=
  { Cli.ofUpstream ⟨"proxy".toList, 3128⟩ with auth := .none, maxConnections := 2 }

private def serviceHead : Bytes := utf8 "CONNECT b:443 HTTP/1.1\r\n\r\n".toList

private def serviceProxy : Proxy Unit where
  config := ⟨.v4 0x7f000001#32 3128, ⟨"proxy".toList, 3128⟩, .none, .auto, [], 2 * second,
    10 * second, some (300 * second), 32768, 2⟩
  authFactory := ⟨fun _ _ => .ok (), fun _ _ => (.ok [], ())⟩
  httparse := .ofTables
    [(serviceHead, .complete 26, ⟨some "CONNECT".toList, some "b:443".toList⟩)] []
  base64 := .ofTable []

private theorem firstBytes_ne_nil : serviceHead ++ [11, 12] ≠ [] := by simp

private theorem secondBytes_ne_nil : serviceHead ++ [21] ≠ [] := by simp

private theorem firstReply_ne_nil : ([13] : Bytes) ≠ [] := by decide

private theorem secondReply_ne_nil : ([22, 23] : Bytes) ≠ [] := by decide

private def firstClient : Socket :=
  ⟨⟨[⟨serviceHead ++ [11, 12], firstBytes_ne_nil⟩], none⟩, none, []⟩

private def secondClient : Socket :=
  ⟨⟨[⟨serviceHead ++ [21], secondBytes_ne_nil⟩], none⟩, none, []⟩

private def serviceWorld : World :=
  ⟨[some (1, .ok [.v4 0x7f000001#32 443]), some (1, .ok [.v4 0x7f000001#32 443])],
    [some (2, .ok ⟨⟨[⟨[13], firstReply_ne_nil⟩], none⟩, none, []⟩),
      some (2, .ok ⟨⟨[⟨[22, 23], secondReply_ne_nil⟩], none⟩, none, []⟩)], 0⟩

private def serviceActions : List ServiceAction :=
  [.loop .serve, .loop (.acquired 0), .accept 0 (.v4 0x7f000001#32 6000) firstClient,
    .loop (.acquired 0), .connect 0 0, .accept 0 (.v4 0x7f000001#32 6001) secondClient,
    .relay 1 (.write 39), .relay 1 (.write 1)]

/-- From there on the two tunnels are served in turn. -/
private def interleavedActions : List ServiceAction :=
  serviceActions ++ [.connect 0 5, .relay 0 (.write 20), .relay 1 (.write 1),
    .relay 0 (.write 19), .relay 1 (.relay (.pump .down .read)), .relay 0 (.write 1)]

private theorem service_started :
    Service.start serviceProxy.config serviceWorld = some ⟨[0, 1], [], [], serviceWorld⟩ := rfl

private theorem interleaved_run : ∃ s,
    (Service.machine serviceProxy).run ⟨[0, 1], [], [], serviceWorld⟩ interleavedActions = some s ∧
      s.tasks.map (fun task =>
        (task.client, task.connections, (task.run.bind ClientRun.tunnel).isSome)) =
          [(secondClient, [1], true), (firstClient, [0], true)] := by
  have hrun : ((Service.machine serviceProxy).run ⟨[0, 1], [], [], serviceWorld⟩
      interleavedActions).map (fun s => s.tasks.map fun task =>
        (task.client, task.connections, (task.run.bind ClientRun.tunnel).isSome)) =
      some [(secondClient, [1], true), (firstClient, [0], true)] := by
    decide +kernel
  exact Option.map_eq_some_iff.mp hrun

/-- The tunnel of the first client is over the first connection, and carries the
bytes of the first client. -/
theorem service_isolated_sample : ∃ s task run t,
    (Service.machine serviceProxy).run ⟨[0, 1], [], [], serviceWorld⟩ interleavedActions =
        some s ∧
      s.tasks.map Task.connections = [[1], [0]] ∧ s.tasks[1]? = some task ∧
      task.client = firstClient ∧ task.run = some run ∧ run.tunnel = some t ∧
      (t.pipe .up).sink <+: [11, 12] := by
  obtain ⟨s, hrun, hmap⟩ := interleaved_run
  obtain ⟨other, rest, htasks, hother, hrest⟩ := List.map_eq_cons_iff.mp hmap
  obtain ⟨task, rfl, htask⟩ := List.map_eq_singleton_iff.mp hrest
  obtain ⟨hclient, hstate⟩ := Prod.mk.inj htask
  obtain ⟨hconnections, hsome⟩ := Prod.mk.inj hstate
  obtain ⟨t, ht⟩ := Option.isSome_iff_exists.mp hsome
  obtain ⟨run, hstate, htunnel⟩ := Option.bind_eq_some_iff.mp ht
  have hat : s.tasks[1]? = some task := by
    rw [htasks]
    rfl
  obtain ⟨c, -, socket, raw, clientBytes, upstreamBytes, -, -, hunread, hends, hcarries, -⟩ :=
    (service_isolated service_started hrun).2 1 task run t hat hstate htunnel
  have hbytes : serviceHead ++ [11, 12] = raw ++ clientBytes := by
    rw [← hunread, hclient]
    simp [firstClient, Source.unread]
  obtain ⟨-, rfl⟩ := head_unique hbytes (by decide) hends
  refine ⟨s, task, run, t, hrun, ?_, hat, hclient, hstate, htunnel, hcarries.up⟩
  simp [htasks, hconnections, (Prod.mk.inj (Prod.mk.inj hother).2).1]

/-- The bytes which the tunnel of a task has in its buffers. -/
def Task.held (task : Task) : Nat :=
  match task.run.bind ClientRun.tunnel with
  | some t => (t.pipe .up).pending.length + (t.pipe .down).pending.length
  | none => 0

private theorem service_run : ∃ s,
    (Service.machine serviceProxy).run ⟨[0, 1], [], [], serviceWorld⟩ serviceActions = some s ∧
      s.tasks.map (fun task => (task.run.isSome, task.held)) = [(false, 0), (true, 1)] := by
  have hrun : ((Service.machine serviceProxy).run ⟨[0, 1], [], [], serviceWorld⟩
      serviceActions).map (fun s => s.tasks.map fun task => (task.run.isSome, task.held)) =
        some [(false, 0), (true, 1)] := by
    decide +kernel
  exact Option.map_eq_some_iff.mp hrun

end Server
end Fastpx
