import LibEzmb.SerialManager
import LibEzmb.BaseRun

/-! The serial manager as a whole: its calls and the sections of its threads, one at a time under the
mutex, with what the read thread carries from one of its sections to the next. -/

open CHeap CBytes Runs

namespace LibEzmb

/-- Where the read thread stands: before its first section; with the numbers it has collected; in
`poll`, with what each number stood for when it was entered; back from it, before its second
section. -/
inductive ReaderPhase where
  | idle
  | collected (fds : List Int)
  | polling (entries : List (Int × Option Opening))
  | polled (events : List PollEvent)

/-- The numbers the read thread holds. -/
def ReaderPhase.fds : ReaderPhase → List Int
  | .idle => []
  | .collected fds => fds
  | .polling entries => entries.map Prod.fst
  | .polled events => events.map PollEvent.fd

structure SerialSystem where
  manager : SerialManager
  reader : ReaderPhase
  /-- Until the manager is freed. -/
  alive : Bool

/-- What one step of the read thread gets: memory for the array, the answer of `poll`, which is none
when it fails or times out, and what the handling of each event gets. -/
structure ReaderEnv where
  okPfds : Bool
  answer : Option (Nat → Revents)
  event : Nat → EventEnv

inductive SerialLabel where
  | add (env : AddEnv) (config : Option SerialConfig) (recvCb : Option Addr) (data : Ptr)
  | remove (M : Malloc EQnode) (uid : Option CStr)
  | write (uid : Option CStr) (data : Option Bytes) (ret : Int)
  | size
  | reader (env : ReaderEnv)
  | monitor (env : Addr → OpenEnv)
  | destroy

inductive SerialOut where
  | unit
  | ret (r : Int)
  | written (bytes : Option (Int × Bytes)) (r : Int)
  | touched (touches : List Touch)
  deriving DecidableEq, Repr

def SerialOut.touches : SerialOut → List Touch
  | .touched touches => touches
  | _ => []

/-- The array when `poll` returns: a number that was not open has `POLLNVAL` and nothing else. -/
def pollEvents (revents : Nat → Revents) (entries : List (Int × Option Opening)) : List PollEvent :=
  entries.zipIdx.map fun (entry, i) =>
    ⟨entry.1, entry.2, if entry.2.isSome then revents i else ⟨false, false, false, true⟩⟩

namespace SerialSystem

def start (M : Malloc EQnode) : SerialSystem := ⟨.create M, .idle, true⟩

/-- `read_thread_func`, from one point where it may be interrupted to the next. -/
def readThread (s : SerialSystem) (env : ReaderEnv) : Except Fault (SerialSystem × List Touch) :=
  match s.reader with
  | .idle => do
      let fds ← collectFds env.okPfds s.manager
      .ok ({ s with reader := if fds = [] then .idle else .collected fds }, [])
  | .collected fds =>
      .ok ({ s with reader := .polling (fds.map fun fd => (fd, s.manager.kernel.files fd)) }, [])
  | .polling entries =>
      match env.answer with
      | none => .ok ({ s with reader := .idle }, [])
      | some revents => .ok ({ s with reader := .polled (pollEvents revents entries) }, [])
  | .polled events => do
      let (m, touches) ← handleEvents env.event 0 events s.manager
      .ok ({ s with manager := m, reader := .idle }, touches)

/-- One section while the manager is there. -/
def act (s : SerialSystem) : SerialLabel → Except Fault (SerialSystem × SerialOut)
  | .add env config recvCb data => do
      let (m, r) ← eSerialManagerAddPort env s.manager config recvCb data
      .ok ({ s with manager := m }, .ret r)
  | .remove M uid => do
      let m ← eSerialManagerRemovePort M s.manager uid
      .ok ({ s with manager := m }, .unit)
  | .write uid data ret => do
      let (bytes, r) ← eSerialManagerWrite s.manager uid data ret
      .ok (s, .written bytes r)
  | .size => .ok (s, .ret (eSerialManagerSize s.manager))
  | .reader env => do
      let (s, touches) ← s.readThread env
      .ok (s, .touched touches)
  | .monitor env => do
      let m ← monitorPass env s.manager
      .ok ({ s with manager := m }, .unit)
  | .destroy => do
      let m ← eSerialManagerDestroy s.manager
      .ok ({ s with manager := m, alive := false }, .unit)

/-- Nothing can follow once the manager has been freed. -/
def step (s : SerialSystem) (l : SerialLabel) : Except Fault (SerialSystem × SerialOut) :=
  if s.alive then s.act l else .error .dangling

theorem step_of_alive {s : SerialSystem} (halive : s.alive = true) (l : SerialLabel) :
    s.step l = s.act l := if_pos halive

theorem step_of_gone {s : SerialSystem} (hgone : s.alive = false) (l : SerialLabel) :
    s.step l = .error .dangling := by
  rw [step, hgone]
  rfl

end SerialSystem

end LibEzmb
