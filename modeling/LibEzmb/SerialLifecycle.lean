import LibEzmb.BaseRun

/-! The two worker threads of the serial manager under `e_serial_manager_start`,
`e_serial_manager_stop` and `e_serial_manager_destroy`: one flag stands for both of them, and a stop
joins both of them. -/

open Runs

namespace LibEzmb

/-- A `pthread_t`. -/
abbrev PthreadT := Nat

/-- The function a worker runs. -/
inductive WorkerFunc where
  | readThread
  | monitorThread
  deriving DecidableEq, Repr

/-- A thread that was created and has not been joined; the number counts the threads created. -/
structure WorkerThread where
  number : Nat
  tid : PthreadT
  func : WorkerFunc
  deriving DecidableEq, Repr

/-- Whether a `pthread_create` succeeds, and what it leaves in the handle in either case. -/
structure PthreadCreate where
  ok : Bool
  tid : PthreadT
  deriving DecidableEq, Repr

/-- The flag and the handles of `serial_manager_t`, whether it has been freed, the threads there are,
how many were created, and for each `pthread_join` the number of the thread it was for, if any. -/
structure ManagerThreads where
  running : Bool
  readTid : PthreadT
  monitorTid : PthreadT
  freed : Bool
  threads : List WorkerThread
  created : Nat
  joins : List (Option Nat)
  deriving DecidableEq, Repr

namespace ManagerThreads

/-- `e_serial_manager_create`: all zero. -/
def create : ManagerThreads := ⟨false, 0, 0, false, [], 0, []⟩

def pthreadCreate (s : ManagerThreads) (func : WorkerFunc) (r : PthreadCreate) : ManagerThreads :=
  if r.ok then
    { s with threads := s.threads ++ [⟨s.created, r.tid, func⟩], created := s.created + 1 }
  else s

def pthreadJoin (s : ManagerThreads) (tid : PthreadT) : ManagerThreads :=
  { s with
    threads := s.threads.eraseP fun w => w.tid = tid
    joins := s.joins ++ [(s.threads.find? fun w => w.tid = tid).map WorkerThread.number] }

/-- `e_serial_manager_start`, given what its two `pthread_create` calls do. -/
def eSerialManagerStart (s : ManagerThreads) (read monitor : PthreadCreate) : ManagerThreads :=
  if s.running then s
  else
    let s := { s with running := true }
    let s := { s.pthreadCreate .readThread read with readTid := read.tid }
    { s.pthreadCreate .monitorThread monitor with monitorTid := monitor.tid }

def eSerialManagerStop (s : ManagerThreads) : ManagerThreads :=
  if !s.running then s
  else
    let s := { s with running := false }
    (s.pthreadJoin s.readTid).pthreadJoin s.monitorTid

/-- `e_serial_manager_destroy`, as far as the threads are concerned. -/
def eSerialManagerDestroy (s : ManagerThreads) : ManagerThreads :=
  { s.eSerialManagerStop with freed := true }

end ManagerThreads

/-- The calls that start and end the threads. -/
inductive LifeLabel where
  | start (read monitor : PthreadCreate)
  | stop
  | destroy
  deriving DecidableEq, Repr

namespace ManagerThreads

/-- A created thread gets a handle that no other thread has. -/
def Fresh (s : ManagerThreads) (read monitor : PthreadCreate) : Prop :=
  (read.ok = true → ∀ w ∈ s.threads, w.tid ≠ read.tid) ∧
    (monitor.ok = true → (∀ w ∈ s.threads, w.tid ≠ monitor.tid) ∧
      (read.ok = true → monitor.tid ≠ read.tid))

/-- One call after another, none of them on a freed manager. -/
def Step (s : ManagerThreads) : LifeLabel → ManagerThreads → Prop
  | .start read monitor, t => s.freed = false ∧ s.Fresh read monitor ∧
      t = s.eSerialManagerStart read monitor
  | .stop, t => s.freed = false ∧ t = s.eSerialManagerStop
  | .destroy, t => s.freed = false ∧ t = s.eSerialManagerDestroy

/-- A worker of this kind exists. -/
def Exists (s : ManagerThreads) (func : WorkerFunc) : Prop := ∃ w ∈ s.threads, w.func = func

/-- How often the thread of this number was joined. -/
def timesJoined (s : ManagerThreads) (n : Nat) : Nat := s.joins.count (some n)

/-- The flag is set exactly when both workers exist, every join is for a thread that was created and
not joined before, all are joined at the end, and a start that can create its threads does. -/
structure InStep (s : ManagerThreads) : Prop where
  flag : s.running = true ↔ s.Exists .readThread ∧ s.Exists .monitorThread
  joins : none ∉ s.joins
  once : ∀ n < s.created,
    s.timesJoined n = if n ∈ s.threads.map WorkerThread.number then 0 else 1
  destroyed : s.freed = true → ∀ n < s.created, s.timesJoined n = 1
  starts : ∀ (read monitor : PthreadCreate) (t : ManagerThreads), read.ok = true →
    monitor.ok = true → s.Step (.start read monitor) t →
      t.running = true ∧ t.Exists .readThread ∧ t.Exists .monitorThread

/-- Every `pthread_create` of a start that finds the flag down succeeds. -/
def Creates (s : ManagerThreads) : LifeLabel → Prop
  | .start read monitor => s.running = false → read.ok = true ∧ monitor.ok = true
  | _ => True

def InStepStep (s : ManagerThreads) (l : LifeLabel) (t : ManagerThreads) : Prop :=
  Step s l t ∧ t.InStep

def CreatesStep (s : ManagerThreads) (l : LifeLabel) (t : ManagerThreads) : Prop :=
  s.Creates l ∧ Step s l t

/-! ### The invariant -/

/-- With the flag up the two threads are those of the handles, with the flag down there is none. -/
structure Kept (s : ManagerThreads) : Prop where
  workers : (s.running = true ∧ s.freed = false ∧ ∃ n m, n ≠ m ∧
      s.threads = [⟨n, s.readTid, .readThread⟩, ⟨m, s.monitorTid, .monitorThread⟩]) ∨
    (s.running = false ∧ s.threads = [])
  joins : none ∉ s.joins
  once : ∀ n, s.timesJoined n + (s.threads.map WorkerThread.number).count n =
    if n < s.created then 1 else 0

variable {s t : ManagerThreads} {l : LifeLabel} {ls : List LifeLabel}

theorem Kept.create : Kept create :=
  ⟨Or.inr ⟨rfl, rfl⟩, List.not_mem_nil, fun n => by simp [timesJoined, ManagerThreads.create]⟩

theorem start_created (hdown : s.running = false) {read monitor : PthreadCreate}
    (hread : read.ok = true) (hmonitor : monitor.ok = true) :
    s.eSerialManagerStart read monitor = { s with
      running := true
      readTid := read.tid
      monitorTid := monitor.tid
      threads := s.threads ++ [⟨s.created, read.tid, .readThread⟩,
        ⟨s.created + 1, monitor.tid, .monitorThread⟩]
      created := s.created + 2 } := by
  simp [eSerialManagerStart, hdown, pthreadCreate, hread, hmonitor]

/-- A stop with both threads there joins both of them. -/
theorem stop_joined (hup : s.running = true) {n m : Nat} (hthreads : s.threads =
      [⟨n, s.readTid, .readThread⟩, ⟨m, s.monitorTid, .monitorThread⟩]) :
    s.eSerialManagerStop = { s with
      running := false
      threads := []
      joins := s.joins ++ [some n, some m] } := by
  simp [eSerialManagerStop, hup, pthreadJoin, hthreads]

theorem stop_down (hdown : s.running = false) : s.eSerialManagerStop = s := by
  simp [eSerialManagerStop, hdown]

theorem start_up (hup : s.running = true) (read monitor : PthreadCreate) :
    s.eSerialManagerStart read monitor = s := by
  simp [eSerialManagerStart, hup]

theorem Kept.stop (hkept : s.Kept) :
    s.eSerialManagerStop.Kept ∧ s.eSerialManagerStop.running = false := by
  rcases hkept.workers with ⟨hup, hfreed, n, m, hne, hthreads⟩ | ⟨hdown, hthreads⟩
  · rw [stop_joined hup hthreads]
    refine ⟨⟨Or.inr ⟨rfl, rfl⟩, ?_, fun k => ?_⟩, rfl⟩
    · simpa using hkept.joins
    · have honce := hkept.once k
      simp only [timesJoined, hthreads, List.map_cons, List.map_nil, List.count_cons,
        List.count_nil, List.count_append, beq_iff_eq, Option.some.injEq] at honce ⊢
      omega
  · rw [stop_down hdown]
    exact ⟨hkept, hdown⟩

theorem Kept.step (hkept : s.Kept) (hstep : CreatesStep s l t) : t.Kept := by
  obtain ⟨hcreates, hstep⟩ := hstep
  cases l with
  | start read monitor =>
      obtain ⟨hfreed, -, rfl⟩ := hstep
      rcases hkept.workers with ⟨hup, -⟩ | ⟨hdown, hthreads⟩
      · rw [start_up hup]
        exact hkept
      · obtain ⟨hread, hmonitor⟩ := hcreates hdown
        rw [start_created hdown hread hmonitor]
        refine ⟨Or.inl ⟨rfl, hfreed, s.created, s.created + 1, by omega, by simp [hthreads]⟩,
          hkept.joins, fun n => ?_⟩
        have honce := hkept.once n
        simp only [timesJoined, hthreads, List.map_nil, List.count_nil, List.nil_append,
          List.map_cons, List.count_cons, beq_iff_eq] at honce ⊢
        split_ifs at honce ⊢ <;> omega
  | stop =>
      obtain ⟨-, rfl⟩ := hstep
      exact hkept.stop.1
  | destroy =>
      obtain ⟨-, rfl⟩ := hstep
      obtain ⟨⟨hworkers, hjoins, honce⟩, hdown⟩ := hkept.stop
      refine ⟨Or.inr ⟨hdown, ?_⟩, hjoins, honce⟩
      rcases hworkers with ⟨hup, -⟩ | ⟨-, hthreads⟩
      · rw [hdown] at hup
        cases hup
      · exact hthreads

theorem exists_of_pair {n m : Nat} {a b : PthreadT}
    (hthreads : s.threads = [⟨n, a, .readThread⟩, ⟨m, b, .monitorThread⟩]) :
    s.Exists .readThread ∧ s.Exists .monitorThread := by
  simp [Exists, hthreads]

theorem Kept.inStep (hkept : s.Kept) : s.InStep := by
  have honce : ∀ n < s.created,
      s.timesJoined n = if n ∈ s.threads.map WorkerThread.number then 0 else 1 := by
    intro n hn
    have hsum := hkept.once n
    rw [if_pos hn] at hsum
    split
    · next hmem =>
        have hpos := List.count_pos_iff.mpr hmem
        omega
    · next hmem =>
        have hzero := List.count_eq_zero.mpr hmem
        omega
  refine ⟨?_, hkept.joins, honce, ?_, ?_⟩
  · rcases hkept.workers with ⟨hup, -, n, m, -, hthreads⟩ | ⟨hdown, hthreads⟩
    · exact ⟨fun _ => exists_of_pair hthreads, fun _ => hup⟩
    · simp [Exists, hdown, hthreads]
  · intro hdestroyed n hn
    rcases hkept.workers with ⟨-, hfreed, -⟩ | ⟨-, hthreads⟩
    · rw [hdestroyed] at hfreed
      cases hfreed
    · rw [honce n hn, hthreads]
      exact if_neg List.not_mem_nil
  · rintro read monitor t hread hmonitor ⟨-, -, rfl⟩
    rcases hkept.workers with ⟨hup, -, n, m, -, hthreads⟩ | ⟨hdown, hthreads⟩
    · rw [start_up hup]
      exact ⟨hup, exists_of_pair hthreads⟩
    · rw [start_created hdown hread hmonitor]
      exact ⟨rfl, exists_of_pair (by rw [hthreads]; rfl)⟩

/-- A start that misses one of its threads leaves the flag up all the same. -/
theorem Kept.creates (hkept : s.Kept) (hstep : Step s l t) (hinStep : t.InStep) : s.Creates l := by
  cases l with
  | start read monitor =>
      obtain ⟨-, -, rfl⟩ := hstep
      intro hdown
      rcases hkept.workers with ⟨hup, -⟩ | ⟨-, hthreads⟩
      · rw [hdown] at hup
        cases hup
      have hboth := hinStep.flag.mp (by
        cases hread : read.ok <;> cases hmonitor : monitor.ok <;>
          simp [eSerialManagerStart, hdown, pthreadCreate, hread, hmonitor])
      cases hread : read.ok <;> cases hmonitor : monitor.ok <;>
        simp [Exists, eSerialManagerStart, hdown, pthreadCreate, hthreads, hread, hmonitor]
          at hboth ⊢
  | stop => trivial
  | destroy => trivial

theorem Kept.inStep_run (hkept : s.Kept) (hrun : Run CreatesStep s ls t) : Run InStepStep s ls t := by
  induction hrun with
  | nil s => exact .nil s
  | cons hstep _ ih =>
      have hkept' := hkept.step hstep
      exact .cons ⟨hstep.2, hkept'.inStep⟩ (ih hkept')

theorem Kept.creates_run (hkept : s.Kept) (hrun : Run InStepStep s ls t) : Run CreatesStep s ls t := by
  induction hrun with
  | nil s => exact .nil s
  | cons hstep _ ih =>
      have hcreates := hkept.creates hstep.1 hstep.2
      exact .cons ⟨hcreates, hstep.1⟩ (ih (hkept.step ⟨hcreates, hstep.1⟩))

/-- **Thread life cycle.** Flag, threads and joins are in step after every call of a run exactly when
no start that finds the flag down fails to create a thread. -/
theorem life_cycle_iff (ls : List LifeLabel) (t : ManagerThreads) :
    Run InStepStep create ls t ↔ Run CreatesStep create ls t :=
  ⟨Kept.create.creates_run, Kept.create.inStep_run⟩

/-- The monitor thread cannot be created; the manager is destroyed all the same. -/
def halfStarted : List LifeLabel := [.start ⟨true, 5⟩ ⟨false, 0⟩, .destroy]

theorem life_cycle_counterexample : ∃ t, Run Step create halfStarted t ∧ none ∈ t.joins := by
  refine ⟨_, .cons ⟨rfl, ⟨nofun, nofun⟩, rfl⟩ (.cons ⟨rfl, rfl⟩ (.nil _)), ?_⟩
  decide

end ManagerThreads

end LibEzmb
