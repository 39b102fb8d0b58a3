import LibEzmb.BusListener
import LibEzmb.SerialStream

/-! The serial collector of collector/serial/main.c: its start, which makes a device and a port of each
configuration and starts a listener for each device, and what its threads then do to both. -/

open CHeap CBytes Multipart Runs

namespace LibEzmb

def MAX_THREAD_COUNT : Nat := 10

/-- Where the code of `recv_callback` is. -/
def recvCallbackAddr : Addr := 0

/-- Where the code of `on_client_recv` is. -/
def onClientRecvAddr : Addr := 1

/-! ### The start -/

/-- What the start gets from the system: addresses for queue nodes and devices, and, for each
configuration by its number, what making its device, adding its port and starting its thread give. -/
structure StartEnv where
  node : Malloc EQnode
  portNode : Malloc EQnode
  device : Malloc EDevice
  manager : Bool
  create : Nat → CreateEnv
  add : Nat → AddEnv
  thread : Nat → Bool

/-- `e_collector_create_default`. -/
def eCollectorCreateDefault (M : Malloc EDevice) (env : CreateEnv) (devices : Heap EDevice)
    (uid : Option CStr) (cb : Option Addr) : Heap EDevice × Ptr :=
  match eCommonCreate env uid (some EZMB_DEFAULT_SOUTH_URL) (some EZMB_DEFAULT_NORTH_URL) cb
      .collector with
  | none => (devices, none)
  | some device => (devices.set (M.addr devices) device, some (M.addr devices))

/-- The state of the first loop of `main`, with the number of configurations it has added and whether
it has given up. -/
structure Adding where
  nodes : QHeap
  portQueue : EQueue
  deviceQueue : EQueue
  devices : Heap EDevice
  manager : SerialManager
  added : Nat
  failed : Bool

/-- `while (e_queue_size(&port_queue) > 0)`. -/
def addingMore (s : Adding) : Except Fault Bool :=
  .ok (!s.failed && decide (0 < eQueueSize s.portQueue))

def addingRound (env : StartEnv) (configs : Heap SerialConfig) (s : Adding) :
    Except Fault Adding := do
  let (nodes, portQueue, config) ← eQueuePop s.nodes s.portQueue
  let c ← configs.deref config
  let (devices, device) := eCollectorCreateDefault env.device (env.create s.added) s.devices c.uid
    (some onClientRecvAddr)
  let (manager, r) ← eSerialManagerAddPort (env.add s.added) s.manager (some c)
    (some recvCallbackAddr) device
  if r ≠ 0 then
    let manager ← eSerialManagerDestroy manager
    .ok { s with
      nodes := nodes, portQueue := portQueue, devices := devices, manager := manager, failed := true }
  else
    let (nodes, deviceQueue) ← eQueuePush env.node nodes s.deviceQueue device
    .ok { s with
      nodes := nodes, portQueue := portQueue, deviceQueue := deviceQueue, devices := devices,
      manager := manager, added := s.added + 1 }

/-- The state of the second loop: the threads it has tried to start, and the devices of those that
run. -/
structure Spawning where
  nodes : QHeap
  deviceQueue : EQueue
  threadCount : Nat
  threads : List Ptr

/-- `while (e_queue_size(&g_device_queue) > 0)`. -/
def spawningMore (s : Spawning) : Except Fault Bool := .ok (decide (0 < eQueueSize s.deviceQueue))

def spawningRound (env : StartEnv) (s : Spawning) : Except Fault Spawning := do
  let (nodes, deviceQueue, device) ← eQueuePop s.nodes s.deviceQueue
  -- past the end of `thread`
  if MAX_THREAD_COUNT ≤ s.threadCount then .error .dangling
  else
    .ok {
      nodes := nodes
      deviceQueue := deviceQueue
      threadCount := s.threadCount + 1
      threads := if env.thread s.threadCount then s.threads ++ [device] else s.threads }

/-- The process once it has started: the manager with its threads, the devices, those that have a
listener thread, and the sockets of each device. -/
structure Collector where
  system : SerialSystem
  devices : Heap EDevice
  threads : List Ptr
  north : Addr → OutSocket
  south : Addr → List (Frame Bytes)

inductive MainResult where
  | exits (status : Int)
  | runs (c : Collector)

/-- `main`, once the configurations are in `port_queue`, up to the loop in which it sleeps. -/
def collectorMain (env : StartEnv) (configs : Heap SerialConfig) (nodes : QHeap)
    (portQueue : EQueue) : Except Fault MainResult :=
  if (MAX_THREAD_COUNT : Int) < eQueueSize portQueue then .ok (.exits 1)
  else if !env.manager then .ok (.exits 1)
  else do
    let (nodes, deviceQueue) := eQueueInit env.node nodes 0
    let s ← whileLoop addingMore (addingRound env configs) nodes.bound
      { nodes := nodes
        portQueue := portQueue
        deviceQueue := deviceQueue
        devices := Heap.empty
        manager := .create env.portNode
        added := 0
        failed := false }
    if s.failed then .ok (.exits 1)
    else do
      let t ← whileLoop spawningMore (spawningRound env) s.nodes.bound
        ⟨s.nodes, s.deviceQueue, 0, []⟩
      let _ ← eQueueDestroy t.nodes s.portQueue
      .ok (.runs {
        system := ⟨s.manager, .idle, true⟩
        devices := s.devices
        threads := t.threads
        north := fun _ => ⟨[]⟩
        south := fun _ => [] })

/-! ### The callbacks -/

/-- One call of `recv_callback`: the uid of the port, the chunk, the device it sends by, whether each
of the two sends succeeds, and the messages that leave. -/
structure Received where
  uid : Option CStr
  chunk : Bytes
  device : Addr
  okTopic : Bool
  okPayload : Bool
  sent : List Msg

def recvCallback (ctxs : Heap SerialContext) (devices : Heap EDevice) (ctx : Addr) (data : Bytes)
    (ok : Bool × Bool) (north : Addr → OutSocket) :
    Except Fault ((Addr → OutSocket) × Received) := do
  let port ← ctxs.deref (some ctx)
  match port.data with
  | none => .error .nullDeref
  | some a => do
      let device ← devices.deref (some a)
      let (sock, _, out) := eCommonSend (some device) (some data) ok.1 ok.2 (north a)
      .ok (Function.update north a sock, ⟨port.ser.uid, data, a, ok.1, ok.2, out⟩)

/-- The calls of `recv_callback` among the touches of a section. -/
def receiveCalls (touches : List Touch) : List (Addr × Bytes) :=
  touches.filterMap fun t => match t.called with
    | none => none
    | some (cb, buf) => if cb = recvCallbackAddr then some (t.target, buf) else none

/-- The calls of a section in their order; none of them touches what the section still reads. -/
def recvCallbacks (ctxs : Heap SerialContext) (devices : Heap EDevice) (ok : Nat → Bool × Bool) :
    Nat → List (Addr × Bytes) → (Addr → OutSocket) →
      Except Fault ((Addr → OutSocket) × List Received)
  | _, [], north => .ok (north, [])
  | i, (ctx, data) :: calls, north => do
      let (north, r) ← recvCallback ctxs devices ctx data (ok i) north
      let (north, rs) ← recvCallbacks ctxs devices ok (i + 1) calls north
      .ok (north, r :: rs)

/-- `on_client_recv`. -/
def onClientRecv (manager : SerialManager) (device : EDevice) (payload : Bytes) (ret : Int) :
    Except Fault (Option (Int × Bytes) × Int) :=
  eSerialManagerWrite manager (some device.uid) (some payload) ret

/-! ### Steps -/

/-- A section of one of the manager's threads; frames that reach a device; or one of the threads of
`main`, by its number: `device_listen_thread` hands its device on to a listener, which begins, or makes a
round of its loop. -/
inductive CollectorLabel where
  | reader (env : ReaderEnv) (ok : Nat → Bool × Bool)
  | monitor (env : Addr → OpenEnv)
  | arrive (device : Addr) (m : Msg)
  | begin (thread : Nat)
  | listen (thread : Nat) (env : ListenEnv) (ret : Int)

inductive CollectorOut where
  | quiet
  | received (rs : List Received)
  | heard (device : Addr) (h : Heard) (written : Option (Int × Bytes)) (r : Int)

def CollectorOut.receives : CollectorOut → List Received
  | .received rs => rs
  | _ => []

def Refusal.lift {α : Type} : Except Fault α → Except Refusal α
  | .ok a => .ok a
  | .error f => .error (.fault f)

namespace Collector

def step (c : Collector) : CollectorLabel → Except Refusal (Collector × CollectorOut)
  | .reader env ok => do
      let (system, out) ← Refusal.lift (c.system.step (.reader env))
      let (north, rs) ← Refusal.lift (recvCallbacks c.system.manager.ctxs c.devices ok 0
        (receiveCalls out.touches) c.north)
      .ok ({ c with system := system, north := north }, .received rs)
  | .monitor env => do
      let (system, _) ← Refusal.lift (c.system.step (.monitor env))
      .ok ({ c with system := system }, .quiet)
  | .arrive device m =>
      .ok ({ c with south := Function.update c.south device (c.south device ++ frames m) }, .quiet)
  | .begin i =>
      match c.threads[i]? with
      | none => .error .impossible
      | some p => do
          let device ← Refusal.lift (c.devices.deref p)
          match eDeviceListenStart (some device) with
          | none => .ok (c, .quiet)
          | some device => do
              let devices ← Refusal.lift (c.devices.store p device)
              .ok ({ c with devices := devices }, .quiet)
  | .listen i env ret =>
      match c.threads[i]? with
      | none => .error .impossible
      | some none => .error (.fault .nullDeref)
      | some (some a) => do
          let device ← Refusal.lift (c.devices.deref (some a))
          match eDeviceListenIteration device recvFrame env (c.south a) with
          | none => .error .impossible
          | some (heard, fs) =>
              let c := { c with south := Function.update c.south a fs }
              match heard with
              | none => .ok (c, .quiet)
              | some h =>
                  if device.cb = some onClientRecvAddr then do
                    let (written, r) ← Refusal.lift (onClientRecv c.system.manager device h.payload ret)
                    .ok (c, .heard a h written r)
                  else .ok (c, .quiet)

end Collector

end LibEzmb
