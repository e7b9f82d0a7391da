import Mathlib.Data.List.Sort
import Fastpx.StreamKit.Holding
import Fastpx.StreamKit.Machine
import Fastpx.Http1.Head

/-!
# The load generator

The worker pool of `fastpx-bench`.  A number of workers share one counter; each
of them takes the next number from it and opens a connection, as long as the
number is below the number of connections.  The workers are tasks, so their
steps are interleaved in every possible way, also with the loops which spawn
and join them.

Every connection is opened once whatever the order is (`bench_each_once`), the
pool comes to an end (`bench_ends`), and what is reported as a percentile is one
(`bench_percentiles`).  The numbers a worker measures are arbitrary here; the
client of a connection is not modelled.
-/

namespace Fastpx
namespace Bench

open StreamKit Http1

/-! ## The pool -/

/-- The command line. -/
structure Cli where
  connections : Nat
  concurrency : Nat

/-- A worker: before it takes a number, with a connection open, at its end, and
after it was joined.  It carries the latencies of its connections. -/
inductive Worker where
  | claiming (latencies : List Nat)
  | running (latencies : List Nat)
  | returned (result : Except IoError (List Nat))
  | joined
  deriving DecidableEq

/-- The state of `main` with its workers. -/
structure Pool where
  /-- the counter -/
  next : Nat
  /-- the workers spawned so far -/
  workers : List Worker
  /-- the latencies of the workers joined so far -/
  latencies : List Nat
  /-- how `main` left the pool: with the sorted latencies, or with the error of a
  worker -/
  result : Option (Except IoError (List Nat))
  deriving DecidableEq

inductive Action where
  | spawn
  /-- a worker takes a number from the counter -/
  | claim (worker : Nat)
  /-- its connection is done, after this long -/
  | served (worker : Nat) (latency : Nat)
  | failed (worker : Nat) (error : IoError)
  | join (worker : Nat)
  /-- all workers are joined -/
  | finish
  deriving DecidableEq

namespace Pool

/-- The pool before the first worker, if the command line is accepted. -/
def start (cli : Cli) : Option Pool :=
  if cli.connections = 0 ∨ cli.concurrency = 0 then none else some ⟨0, [], [], none⟩

def setWorker (s : Pool) (i : Nat) (worker : Worker) : Pool :=
  { s with workers := s.workers.set i worker }

def step (cli : Cli) (s : Pool) (a : Action) : Option Pool :=
  match s.result with
  | some _ => none
  | none =>
      match a with
      | .spawn =>
          if s.workers.length < cli.concurrency then
            some { s with workers := s.workers ++ [.claiming []] }
          else none
      | .claim i =>
          match s.workers[i]? with
          | some (.claiming latencies) =>
              -- `fetch_add` wraps around
              let s' := { s with next := (s.next + 1) % (usizeMax + 1) }
              if cli.connections ≤ s.next then some (s'.setWorker i (.returned (.ok latencies)))
              else some (s'.setWorker i (.running latencies))
          | _ => none
      | .served i latency =>
          match s.workers[i]? with
          | some (.running latencies) => some (s.setWorker i (.claiming (latencies ++ [latency])))
          | _ => none
      | .failed i e =>
          match s.workers[i]? with
          | some (.running _) => some (s.setWorker i (.returned (.error e)))
          | _ => none
      | .join i =>
          -- `main` joins when it has spawned all
          if s.workers.length = cli.concurrency then
            match s.workers[i]? with
            | some (.returned (.ok latencies)) =>
                some { s.setWorker i .joined with latencies := s.latencies ++ latencies }
            | some (.returned (.error e)) => some { s with result := some (.error e) }
            | _ => none
          else none
      | .finish =>
          if s.workers.length = cli.concurrency ∧ ∀ worker ∈ s.workers, worker = .joined then
            some { s with result := some (.ok (s.latencies.insertionSort (· ≤ ·))) }
          else none

def machine (cli : Cli) : Machine Pool Action := ⟨step cli⟩

end Pool

/-! ## What a step does -/

/-- The steps of the pool. -/
inductive Moves (cli : Cli) (s : Pool) : Action → Pool → Prop
  | spawn (h : s.workers.length < cli.concurrency) :
      Moves cli s .spawn { s with workers := s.workers ++ [.claiming []] }
  | exhausted {i : Nat} {latencies : List Nat} (h : s.workers[i]? = some (.claiming latencies))
      (hnext : cli.connections ≤ s.next) :
      Moves cli s (.claim i)
        { s with next := (s.next + 1) % (usizeMax + 1),
                 workers := s.workers.set i (.returned (.ok latencies)) }
  | claim {i : Nat} {latencies : List Nat} (h : s.workers[i]? = some (.claiming latencies))
      (hnext : s.next < cli.connections) :
      Moves cli s (.claim i)
        { s with next := (s.next + 1) % (usizeMax + 1),
                 workers := s.workers.set i (.running latencies) }
  | served {i latency : Nat} {latencies : List Nat}
      (h : s.workers[i]? = some (.running latencies)) :
      Moves cli s (.served i latency)
        { s with workers := s.workers.set i (.claiming (latencies ++ [latency])) }
  | failed {i : Nat} {latencies : List Nat} {e : IoError}
      (h : s.workers[i]? = some (.running latencies)) :
      Moves cli s (.failed i e) { s with workers := s.workers.set i (.returned (.error e)) }
  | joined {i : Nat} {latencies : List Nat} (hspawned : s.workers.length = cli.concurrency)
      (h : s.workers[i]? = some (.returned (.ok latencies))) :
      Moves cli s (.join i)
        { s with workers := s.workers.set i .joined, latencies := s.latencies ++ latencies }
  | broken {i : Nat} {e : IoError} (hspawned : s.workers.length = cli.concurrency)
      (h : s.workers[i]? = some (.returned (.error e))) :
      Moves cli s (.join i) { s with result := some (.error e) }
  | finish (hspawned : s.workers.length = cli.concurrency)
      (h : ∀ worker ∈ s.workers, worker = .joined) :
      Moves cli s .finish { s with result := some (.ok (s.latencies.insertionSort (· ≤ ·))) }

theorem step_eq_some_iff {cli : Cli} {s s' : Pool} {a : Action} :
    s.step cli a = some s' ↔ s.result = none ∧ Moves cli s a s' := by
  constructor
  · intro h
    unfold Pool.step at h
    split at h
    · cases h
    · next hresult =>
        refine ⟨hresult, ?_⟩
        split at h
        · split at h
          · next hspawn =>
              obtain rfl := Option.some.inj h
              exact .spawn hspawn
          · cases h
        · split at h
          · next hworker =>
              split at h
              · next hnext =>
                  obtain rfl := Option.some.inj h
                  exact .exhausted hworker hnext
              · next hnext =>
                  obtain rfl := Option.some.inj h
                  exact .claim hworker (Nat.lt_of_not_le hnext)
          · cases h
        · split at h
          · next hworker =>
              obtain rfl := Option.some.inj h
              exact .served hworker
          · cases h
        · split at h
          · next hworker =>
              obtain rfl := Option.some.inj h
              exact .failed hworker
          · cases h
        · split at h
          · next hspawned =>
              split at h
              · next hworker =>
                  obtain rfl := Option.some.inj h
                  exact .joined hspawned hworker
              · next hworker =>
                  obtain rfl := Option.some.inj h
                  exact .broken hspawned hworker
              · cases h
          · cases h
        · split at h
          · next hall =>
              obtain rfl := Option.some.inj h
              exact .finish hall.1 hall.2
          · cases h
  · rintro ⟨hresult, hmoves⟩
    unfold Pool.step
    cases hmoves with
    | spawn h => simp [hresult, h]
    | exhausted h hnext => simp [hresult, h, hnext, Pool.setWorker]
    | claim h hnext => simp [hresult, h, Nat.not_le.mpr hnext, Pool.setWorker]
    | served h => simp [hresult, h, Pool.setWorker]
    | failed h => simp [hresult, h, Pool.setWorker]
    | joined hspawned h => simp [hresult, hspawned, h, Pool.setWorker]
    | broken hspawned h => simp [hresult, hspawned, h]
    | finish hspawned h =>
        simp only [hresult, hspawned, true_and]
        exact if_pos h

/-! ## Bookkeeping -/

/-- What can be seen of the connections: one with this number was opened, or one
was done after this long. -/
inductive Progress where
  | opened (index : Nat)
  | done (latency : Nat)

def observe (cli : Cli) (s : Pool) : Action → List Progress
  | .claim _ => if s.next < cli.connections then [.opened s.next] else []
  | .served _ latency => [.done latency]
  | _ => []

/-- The numbers of the connections opened, in order. -/
def opened (log : List Progress) : List Nat :=
  log.filterMap fun
    | .opened index => some index
    | .done _ => none

/-- The latencies measured, in order. -/
def measured (log : List Progress) : List Nat :=
  log.filterMap fun
    | .done latency => some latency
    | .opened _ => none

/-- The latencies which a worker carries. -/
def Worker.latencies : Worker → List Nat
  | .claiming latencies => latencies
  | .running latencies => latencies
  | .returned (.ok latencies) => latencies
  | .returned (.error _) => []
  | .joined => []

def Worker.isRunning : Worker → Bool
  | .running _ => true
  | _ => false

def Worker.hasFailed : Worker → Bool
  | .returned (.error _) => true
  | _ => false

/-- Has the worker found the counter exhausted? -/
def Worker.isThrough : Worker → Bool
  | .returned (.ok _) => true
  | .joined => true
  | _ => false

/-- The books of a run.  The connections opened are the first ones; each of them
is done, open or failed; the counter is as far beyond the last number as there
are workers which saw that; and unless a worker failed, no latency is lost. -/
structure Accounts (cli : Cli) (log : List Progress) (s : Pool) : Prop where
  spawned : s.workers.length ≤ cli.concurrency
  opened : opened log = List.range (min s.next cli.connections)
  open_or_done : (Bench.opened log).length =
    (measured log).length + s.workers.countP Worker.isRunning + s.workers.countP Worker.hasFailed
  through : s.next - cli.connections = s.workers.countP Worker.isThrough
  kept : s.workers.countP Worker.hasFailed = 0 →
    (s.latencies ++ s.workers.flatMap Worker.latencies).Perm (measured log)
  finished : ∀ latencies, s.result = some (.ok latencies) →
    s.workers.length = cli.concurrency ∧ (∀ worker ∈ s.workers, worker = .joined) ∧
      latencies = s.latencies.insertionSort (· ≤ ·)

theorem accounts_start {cli : Cli} {s : Pool} (h : Pool.start cli = some s) :
    Accounts cli [] s := by
  unfold Pool.start at h
  split at h
  · cases h
  · obtain rfl := Option.some.inj h
    exact ⟨Nat.zero_le _, by simp [Bench.opened], by simp [Bench.opened, measured], by simp,
      by simp [measured], by simp⟩

/-- The counter does not wrap around. -/
theorem next_lt {cli : Cli} {log : List Progress} {s : Pool} {i : Nat} {latencies : List Nat}
    (hfits : cli.connections + cli.concurrency ≤ usizeMax) (h : Accounts cli log s)
    (hworker : s.workers[i]? = some (.claiming latencies)) :
    (s.next + 1) % (usizeMax + 1) = s.next + 1 := by
  have hcount := countP_set_of_getElem? Worker.isThrough hworker .joined
  have hlength := List.countP_le_length (p := Worker.isThrough) (l := s.workers.set i .joined)
  have hthrough := h.through
  have hspawned := h.spawned
  simp only [List.length_set, Worker.isThrough, Bool.toNat_true, Bool.toNat_false] at hcount hlength
  apply Nat.mod_eq_of_lt
  omega

/-- One worker takes a step. -/
theorem Accounts.turn {cli : Cli} {log new : List Progress} {s : Pool} {i next : Nat}
    {worker worker' : Worker} {latencies : List Nat} (h : Accounts cli log s)
    (hresult : s.result = none) (hworker : s.workers[i]? = some worker)
    (hfailed : worker.hasFailed = false)
    (hopened : Bench.opened (log ++ new) = List.range (min next cli.connections))
    (hopen : (Bench.opened new).length + worker.isRunning.toNat =
      (measured new).length + worker'.isRunning.toNat + worker'.hasFailed.toNat)
    (hthrough : next - cli.connections + worker.isThrough.toNat =
      s.next - cli.connections + worker'.isThrough.toNat)
    (hkept : worker'.hasFailed = false →
      (latencies ++ worker'.latencies).Perm (s.latencies ++ worker.latencies ++ measured new)) :
    Accounts cli (log ++ new)
      { s with next := next, workers := s.workers.set i worker', latencies := latencies } := by
  have hlog : measured (log ++ new) = measured log ++ measured new := List.filterMap_append
  have hcountRunning := countP_set_of_getElem? Worker.isRunning hworker worker'
  have hcountFailed := countP_set_of_getElem? Worker.hasFailed hworker worker'
  have hcountThrough := countP_set_of_getElem? Worker.isThrough hworker worker'
  rw [hfailed, Bool.toNat_false, Nat.add_zero] at hcountFailed
  have hbefore := h.open_or_done
  have hthroughBefore := h.through
  refine ⟨by simpa using h.spawned, hopened, ?_, ?_, ?_, fun _ hok => ?_⟩
  · have hlength : (Bench.opened (log ++ new)).length =
        (Bench.opened log).length + (Bench.opened new).length := by
      simp [Bench.opened]
    rw [hlength, hlog, List.length_append]
    dsimp only
    omega
  · dsimp only
    omega
  · intro hnone
    dsimp only at hnone ⊢
    have hfailed' : worker'.hasFailed = false := by
      rcases hworker' : worker'.hasFailed with _ | _
      · rfl
      · rw [hworker', Bool.toNat_true] at hcountFailed
        omega
    rw [hfailed', Bool.toNat_false] at hcountFailed
    -- a latency which the worker hands on is not lost
    refine List.perm_iff_count.mpr fun x => ?_
    have hset : _ = (s.workers.flatMap Worker.latencies).count x + _ :=
      count_flatMap_set hworker worker' x
    have hlatencies := (h.kept (by omega)).count_eq x
    have hnew := (hkept hfailed').count_eq x
    simp only [hlog, List.count_append] at hset hlatencies hnew ⊢
    omega
  · cases hresult.symm.trans hok

theorem accounts_step {cli : Cli} {log : List Progress} {s s' : Pool} {a : Action}
    (hfits : cli.connections + cli.concurrency ≤ usizeMax) (h : Accounts cli log s)
    (hstep : s.step cli a = some s') : Accounts cli (log ++ observe cli s a) s' := by
  obtain ⟨hresult, hmoves⟩ := step_eq_some_iff.mp hstep
  cases hmoves with
  | spawn hspawn =>
      have hlog : log ++ observe cli s .spawn = log := List.append_nil log
      rw [hlog]
      refine ⟨?_, h.opened, ?_, ?_, ?_, fun _ hok => ?_⟩
      · simpa using hspawn
      · simpa [Worker.isRunning, Worker.hasFailed] using h.open_or_done
      · simpa [Worker.isThrough] using h.through
      · simpa [Worker.latencies, Worker.hasFailed] using h.kept
      · cases hresult.symm.trans hok
  | @exhausted i _ hworker hnext =>
      have hwrap := next_lt hfits h hworker
      have hnew : observe cli s (.claim i) = [] := if_neg (Nat.not_lt.mpr hnext)
      rw [hwrap, hnew]
      refine h.turn hresult hworker rfl ?_ rfl ?_ (fun _ => by simp [measured, Worker.latencies])
      · rw [List.append_nil, h.opened, Nat.min_eq_right hnext, Nat.min_eq_right (by omega)]
      · simp only [Worker.isThrough, Bool.toNat_true, Bool.toNat_false]
        omega
  | @claim i _ hworker hnext =>
      have hwrap := next_lt hfits h hworker
      have hnew : observe cli s (.claim i) = [.opened s.next] := if_pos hnext
      rw [hwrap, hnew]
      refine h.turn hresult hworker rfl ?_ rfl ?_ (fun _ => by simp [measured, Worker.latencies])
      · have hopened := h.opened
        rw [Nat.min_eq_left hnext.le] at hopened
        rw [Nat.min_eq_left hnext, List.range_succ, ← hopened]
        simp [Bench.opened]
      · simp only [Worker.isThrough, Bool.toNat_false]
        omega
  | served hworker =>
      refine h.turn hresult hworker rfl ?_ rfl rfl (fun _ => ?_)
      · simpa [Bench.opened, observe] using h.opened
      · simp [Worker.latencies, measured, observe]
  | @failed i _ e hworker =>
      refine h.turn hresult hworker rfl ?_ rfl rfl (fun hnone => by cases hnone)
      simpa [Bench.opened, observe] using h.opened
  | @joined i _ hspawned hworker =>
      refine h.turn hresult hworker rfl ?_ rfl rfl (fun _ => ?_)
      · simpa [Bench.opened, observe] using h.opened
      · simp [Worker.latencies, measured, observe]
  | @broken i e hspawned hworker =>
      have hlog : log ++ observe cli s (.join i) = log := List.append_nil log
      rw [hlog]
      exact ⟨h.spawned, h.opened, h.open_or_done, h.through, h.kept, nofun⟩
  | finish hspawned hall =>
      have hlog : log ++ observe cli s .finish = log := List.append_nil log
      rw [hlog]
      refine ⟨h.spawned, h.opened, h.open_or_done, h.through, h.kept, fun latencies hok => ?_⟩
      obtain rfl := Except.ok.inj (Option.some.inj hok)
      exact ⟨hspawned, hall, rfl⟩

theorem accounts_run {cli : Cli} {s s' : Pool} {actions : List Action}
    (hfits : cli.connections + cli.concurrency ≤ usizeMax) (hstart : Pool.start cli = some s)
    (hrun : (Pool.machine cli).run s actions = some s') :
    Accounts cli ((Pool.machine cli).collect (observe cli) s actions) s' :=
  Machine.collect_invariant (accounts_step hfits) (accounts_start hstart) hrun

/-- When `main` has all latencies, every connection was opened and none is left. -/
theorem Accounts.complete {cli : Cli} {log : List Progress} {s : Pool} {latencies : List Nat}
    (h : Accounts cli log s) (hworkers : 0 < cli.concurrency)
    (hok : s.result = some (.ok latencies)) :
    Bench.opened log = List.range cli.connections ∧ latencies.Perm (measured log) ∧
      latencies.length = cli.connections := by
  obtain ⟨hspawned, hall, rfl⟩ := h.finished latencies hok
  -- all workers are joined, so each has found the counter exhausted
  have hthrough : s.workers.countP Worker.isThrough = s.workers.length :=
    List.countP_eq_length.mpr fun worker hmem => by rw [hall worker hmem]; rfl
  have hrunning : s.workers.countP Worker.isRunning = 0 :=
    List.countP_eq_zero.mpr fun worker hmem => by rw [hall worker hmem]; exact Bool.false_ne_true
  have hfailed : s.workers.countP Worker.hasFailed = 0 :=
    List.countP_eq_zero.mpr fun worker hmem => by rw [hall worker hmem]; exact Bool.false_ne_true
  have hempty : s.workers.flatMap Worker.latencies = [] :=
    List.flatMap_eq_nil_iff.mpr fun worker hmem => by rw [hall worker hmem]; rfl
  have hnext : min s.next cli.connections = cli.connections := by
    have := h.through
    omega
  have hopened := h.opened
  rw [hnext] at hopened
  have hdone := h.open_or_done
  rw [hrunning, hfailed, hopened, List.length_range] at hdone
  have hkept := h.kept hfailed
  rw [hempty, List.append_nil] at hkept
  have hperm := (List.perm_insertionSort (· ≤ ·) s.latencies).trans hkept
  exact ⟨hopened, hperm, hperm.length_eq.trans hdone.symm⟩

theorem concurrency_pos {cli : Cli} {s : Pool} (h : Pool.start cli = some s) :
    0 < cli.connections ∧ 0 < cli.concurrency := by
  unfold Pool.start at h
  split at h
  · cases h
  · omega

/-- **Every connection is opened once.**  Whatever the order in which the workers
take their steps, the connections opened are the first ones, in order and each of
them once; and if `main` gets to its report, all were opened, and it has the
latency of each of them. -/
theorem bench_each_once {cli : Cli} {s s' : Pool} {actions : List Action}
    (hfits : cli.connections + cli.concurrency ≤ usizeMax) (hstart : Pool.start cli = some s)
    (hrun : (Pool.machine cli).run s actions = some s') :
    let log := (Pool.machine cli).collect (observe cli) s actions
    opened log = List.range (min s'.next cli.connections) ∧
      ∀ latencies, s'.result = some (.ok latencies) →
        opened log = List.range cli.connections ∧ latencies.Perm (measured log) ∧
          latencies.length = cli.connections := by
  intro log
  have haccounts := accounts_run hfits hstart hrun
  exact ⟨haccounts.opened, fun _ hok => haccounts.complete (concurrency_pos hstart).2 hok⟩

/-! Two workers for three connections. -/

private def poolCli : Cli := ⟨3, 2⟩

private def poolStart : Pool := ⟨0, [], [], none⟩

private def poolActions : List Action :=
  [.spawn, .claim 0, .spawn, .claim 1, .served 1 20, .claim 1, .served 0 30, .served 1 10, .claim 1,
    .join 1, .claim 0, .join 0, .finish]

private def poolEnd : Pool := ⟨5, [.joined, .joined], [20, 10, 30], some (.ok [10, 20, 30])⟩

private theorem pool_fits : poolCli.connections + poolCli.concurrency ≤ usizeMax := by decide

private theorem pool_start : Pool.start poolCli = some poolStart := rfl

private theorem pool_run : (Pool.machine poolCli).run poolStart poolActions = some poolEnd := by
  decide

/-- The counter was read five times, and three connections were opened. -/
theorem bench_each_once_sample :
    poolEnd.next = 5 ∧
      opened ((Pool.machine poolCli).collect (observe poolCli) poolStart poolActions) =
        [0, 1, 2] := by
  obtain ⟨-, hall⟩ := bench_each_once pool_fits pool_start pool_run
  exact ⟨rfl, (hall [10, 20, 30] rfl).1⟩

/-! ## The end of the pool -/

/-- The number of steps which a worker has before it, without new connections. -/
def Worker.left : Worker → Nat
  | .claiming _ => 2
  | .running _ => 3
  | .returned _ => 1
  | .joined => 0

/-- A bound for the number of steps which are left. -/
def Pool.potential (cli : Cli) (s : Pool) : Nat :=
  3 * (cli.concurrency - s.workers.length) + (s.workers.map Worker.left).sum +
    2 * (cli.connections - s.next) + (if s.result = none then 1 else 0)

theorem potential_step {cli : Cli} {log : List Progress} {s s' : Pool} {a : Action}
    (hfits : cli.connections + cli.concurrency ≤ usizeMax) (h : Accounts cli log s)
    (hstep : s.step cli a = some s') : 1 + s'.potential cli ≤ s.potential cli := by
  obtain ⟨hresult, hmoves⟩ := step_eq_some_iff.mp hstep
  unfold Pool.potential
  cases hmoves with
  | spawn hspawn =>
      simp only [hresult, List.length_append, List.map_append, List.sum_append,
        List.length_singleton, List.map_singleton, List.sum_singleton, Worker.left, if_true]
      omega
  | @exhausted i latencies hworker hnext =>
      have hsum := sum_map_set_of_getElem? Worker.left hworker (.returned (.ok latencies))
      simp only [Worker.left] at hsum
      simp only [next_lt hfits h hworker, hresult, List.length_set, if_true]
      omega
  | @claim i latencies hworker hnext =>
      have hsum := sum_map_set_of_getElem? Worker.left hworker (.running latencies)
      simp only [Worker.left] at hsum
      simp only [next_lt hfits h hworker, hresult, List.length_set, if_true]
      omega
  | @served i latency latencies hworker =>
      have hsum := sum_map_set_of_getElem? Worker.left hworker (.claiming (latencies ++ [latency]))
      simp only [Worker.left] at hsum
      simp only [hresult, List.length_set, if_true]
      omega
  | @failed i latencies e hworker =>
      have hsum := sum_map_set_of_getElem? Worker.left hworker (.returned (.error e))
      simp only [Worker.left] at hsum
      simp only [hresult, List.length_set, if_true]
      omega
  | joined hspawned hworker =>
      have hsum := sum_map_set_of_getElem? Worker.left hworker .joined
      simp only [Worker.left] at hsum
      simp only [hresult, List.length_set, if_true]
      omega
  | broken hspawned hworker =>
      simp only [hresult, if_true, reduceCtorEq, if_false]
      omega
  | finish hspawned hall =>
      simp only [hresult, if_true, reduceCtorEq, if_false]
      omega

/-- The pool is never stuck. -/
theorem exists_step {cli : Cli} {log : List Progress} {s : Pool} (h : Accounts cli log s)
    (hresult : s.result = none) : ∃ a s', s.step cli a = some s' := by
  have hmoves : ∃ a s', Moves cli s a s' := by
    by_cases hspawned : s.workers.length = cli.concurrency
    swap
    · exact ⟨_, _, .spawn (Nat.lt_of_le_of_ne h.spawned hspawned)⟩
    by_cases hall : ∀ worker ∈ s.workers, worker = .joined
    · exact ⟨_, _, .finish hspawned hall⟩
    · -- a worker which is not joined has a step before it
      obtain ⟨worker, hmem, hjoined⟩ : ∃ worker ∈ s.workers, worker ≠ .joined := by
        simpa using hall
      obtain ⟨i, hworker⟩ := List.mem_iff_getElem?.mp hmem
      match worker with
      | .claiming latencies =>
          rcases Nat.lt_or_ge s.next cli.connections with hnext | hnext
          · exact ⟨_, _, .claim hworker hnext⟩
          · exact ⟨_, _, .exhausted hworker hnext⟩
      | .running latencies => exact ⟨.served i 0, _, .served hworker⟩
      | .returned (.ok latencies) => exact ⟨_, _, .joined hspawned hworker⟩
      | .returned (.error e) => exact ⟨_, _, .broken hspawned hworker⟩
      | .joined => exact absurd rfl hjoined
  obtain ⟨a, s', hmoves⟩ := hmoves
  exact ⟨a, s', step_eq_some_iff.mpr ⟨hresult, hmoves⟩⟩

/-- **The pool comes to an end.**  If the counter cannot overflow, a run has at most
two steps for every connection, three for every worker and one for `main`, which
leaves the pool, and a run which has not left the pool can go on. -/
theorem bench_ends {cli : Cli} {s s' : Pool} {actions : List Action}
    (hfits : cli.connections + cli.concurrency ≤ usizeMax) (hstart : Pool.start cli = some s)
    (hrun : (Pool.machine cli).run s actions = some s') :
    actions.length ≤ 2 * cli.connections + 3 * cli.concurrency + 1 ∧
      (s'.result = none → ∃ a s'', s'.step cli a = some s'') := by
  refine ⟨?_, exists_step (accounts_run hfits hstart hrun)⟩
  have hkeeps : ∀ {s a s'}, (∃ log, Accounts cli log s) → (Pool.machine cli).step s a = some s' →
      ∃ log, Accounts cli log s' := by
    rintro s a s' ⟨log, h⟩ hstep
    exact ⟨_, accounts_step hfits h hstep⟩
  have hpays : ∀ {s a s'}, (∃ log, Accounts cli log s) → (Pool.machine cli).step s a = some s' →
      (fun _ : Action => 1) a + s'.potential cli ≤ s.potential cli := by
    rintro s a s' ⟨log, h⟩ hstep
    exact potential_step hfits h hstep
  have hcost := Machine.run_cost hkeeps hpays ⟨[], accounts_start hstart⟩ hrun
  have hpotential : s.potential cli = 2 * cli.connections + 3 * cli.concurrency + 1 := by
    unfold Pool.start at hstart
    split at hstart
    · cases hstart
    · obtain rfl := Option.some.inj hstart
      simp only [Pool.potential, List.length_nil, List.map_nil, List.sum_nil, if_true]
      omega
  rw [hpotential, List.map_const', List.sum_replicate, smul_eq_mul, Nat.mul_one] at hcost
  omega

/-- The run has thirteen of at most thirteen steps. -/
theorem bench_ends_sample : poolActions.length ≤ 2 * 3 + 3 * 2 + 1 :=
  (bench_ends pool_fits pool_start pool_run).1

/-! ## The report -/

/-- `percentile`; without values the source panics. -/
def percentile (values : List Nat) (percentile : Nat) : Option Nat :=
  values[(values.length - 1) * percentile / 100]?

/-- The rank of a value in a sorted list. -/
theorem rank_of_sorted {values : List Nat} (hsorted : values.Pairwise (· ≤ ·)) {i v : Nat}
    (h : values[i]? = some v) :
    i + 1 ≤ values.countP (· ≤ v) ∧ values.length ≤ values.countP (v ≤ ·) + i := by
  induction values generalizing i with
  | nil => cases h
  | cons c values ih =>
      obtain ⟨hfirst, hrest⟩ := List.pairwise_cons.mp hsorted
      cases i with
      | zero =>
          obtain rfl := Option.some.inj h
          have hall : values.countP (fun x => decide (c ≤ x)) = values.length :=
            List.countP_eq_length.mpr fun x hmem => decide_eq_true (hfirst x hmem)
          constructor
          · simp
          · simp [hall]
      | succ i =>
          have hvalue : values[i]? = some v := by simpa using h
          have hle : c ≤ v := hfirst v (List.mem_of_getElem? hvalue)
          obtain ⟨hbelow, habove⟩ := ih hrest hvalue
          simp only [List.countP_cons, List.length_cons, decide_eq_true hle, if_true]
          omega

/-- **Percentiles are percentiles.**  If the counter cannot overflow and `main` gets
to its report, every percentile it prints exists and is a measured latency; in proportion to the
number of the other latencies, more than `p` percent are not above it, and more
than the rest are not below it. -/
theorem bench_percentiles {cli : Cli} {s s' : Pool} {actions : List Action} {latencies : List Nat}
    {p : Nat} (hfits : cli.connections + cli.concurrency ≤ usizeMax)
    (hstart : Pool.start cli = some s) (hrun : (Pool.machine cli).run s actions = some s')
    (hok : s'.result = some (.ok latencies)) (hp : p ≤ 100) :
    let measured := measured ((Pool.machine cli).collect (observe cli) s actions)
    ∃ v, percentile latencies p = some v ∧ v ∈ measured ∧
      p * (measured.length - 1) < 100 * measured.countP (· ≤ v) ∧
      (100 - p) * (measured.length - 1) < 100 * measured.countP (v ≤ ·) := by
  intro measured
  have haccounts := accounts_run hfits hstart hrun
  obtain ⟨hconnections, hworkers⟩ := concurrency_pos hstart
  obtain ⟨-, hperm, hlength⟩ := haccounts.complete hworkers hok
  have hsorted : latencies.Pairwise (· ≤ ·) := by
    obtain ⟨-, -, rfl⟩ := haccounts.finished latencies hok
    exact List.pairwise_insertionSort (· ≤ ·) _
  have hindex : (latencies.length - 1) * p / 100 ≤ latencies.length - 1 := by
    refine Nat.div_le_of_le_mul ?_
    rw [Nat.mul_comm 100]
    exact Nat.mul_le_mul_left _ hp
  obtain ⟨v, hv⟩ : ∃ v, percentile latencies p = some v :=
    ⟨_, List.getElem?_eq_getElem (by omega)⟩
  obtain ⟨hbelow, habove⟩ := rank_of_sorted hsorted hv
  refine ⟨v, hv, hperm.subset (List.mem_of_getElem? hv), ?_⟩
  rw [← hperm.length_eq, ← hperm.countP_eq, ← hperm.countP_eq]
  -- the two bounds of a division with remainder
  have hlow : (latencies.length - 1) * p < 100 * ((latencies.length - 1) * p / 100 + 1) :=
    Nat.lt_mul_div_succ _ (by decide)
  have hhigh : 100 * ((latencies.length - 1) * p / 100) ≤ (latencies.length - 1) * p :=
    Nat.mul_div_le _ _
  have hsplit : (100 - p) * (latencies.length - 1) + (latencies.length - 1) * p =
      100 * (latencies.length - 1) := by
    rw [Nat.mul_comm _ p, ← Nat.add_mul, Nat.sub_add_cancel hp]
  rw [Nat.mul_comm p]
  omega

/-- The median of three. -/
theorem bench_percentiles_sample :
    (∃ v, percentile [10, 20, 30] 50 = some v ∧
      v ∈ measured ((Pool.machine poolCli).collect (observe poolCli) poolStart poolActions)) := by
  obtain ⟨v, hv, hmem, -, -⟩ := bench_percentiles (p := 50) pool_fits pool_start pool_run
    (show poolEnd.result = some (.ok [10, 20, 30]) from rfl) (by decide)
  exact ⟨v, hv, hmem⟩

end Bench
end Fastpx
