import LibEzmb.QueueModel
import LibEzmb.SerialPort

/-! The serial manager of e_serial_manager.c: its calls, each one section under the manager's mutex,
and the sections of its read and monitor threads. -/

open CHeap CBytes

namespace LibEzmb

/-- `serial_manager_t` with the memory its queue and its contexts live in, and the descriptors. -/
structure SerialManager where
  nodes : QHeap
  ctxs : Heap SerialContext
  ports : EQueue
  kernel : Kernel

/-- `strcmp(s, t) == 0`. -/
def strcmpEq (s t : Option CStr) : Except Fault Bool :=
  match s, t with
  | some s, some t => .ok (decide (s = t))
  | _, _ => .error .nullDeref

namespace SerialManager

/-- `e_serial_manager_create`. -/
def create (M : Malloc EQnode) : SerialManager where
  nodes := (eQueueInit M Heap.empty 0).1
  ctxs := Heap.empty
  ports := (eQueueInit M Heap.empty 0).2
  kernel := Kernel.start

/-- The state of a search along the queue: the index, and the context found with its index. -/
def findBody (ctxs : Heap SerialContext) (test : SerialContext → Except Fault Bool)
    (s : Int × Option (Int × Addr)) (data : Ptr) : Except Fault ((Int × Option (Int × Addr)) × Bool) :=
  match data with
  | none => .ok ((s.1 + 1, none), false)
  | some a => do
      let ctx ← ctxs.deref (some a)
      if ← test ctx then .ok ((s.1, some (s.1, a)), true)
      else .ok ((s.1 + 1, none), false)

/-- The loop of `find_port_index`, `e_serial_manager_write` and the event lookup: the first context
in the queue that passes the test. -/
def findCtx (m : SerialManager) (test : SerialContext → Except Fault Bool) :
    Except Fault (Option (Int × Addr)) := do
  let top ← m.nodes.deref m.ports.top
  let s ← walk m.nodes (findBody m.ctxs test) m.nodes.bound top.next (0, none)
  .ok s.2

end SerialManager

open SerialManager in
def findPortIndex (m : SerialManager) (uid : Option CStr) : Except Fault Int := do
  match ← m.findCtx (fun ctx => strcmpEq ctx.ser.uid uid) with
  | none => .ok (-1)
  | some (index, _) => .ok index

/-! ### The calls -/

/-- The allocations of `e_serial_manager_add_port`, and whether its `calloc` succeeds. -/
structure AddEnv where
  node : Malloc EQnode
  ctx : Malloc SerialContext
  calloc : Bool

def eSerialManagerAddPort (env : AddEnv) (m : SerialManager) (config : Option SerialConfig)
    (recvCb : Option Addr) (data : Ptr) : Except Fault (SerialManager × Int) :=
  match config with
  | none => .ok (m, -1)
  | some config => do
      let index ← findPortIndex m config.uid
      if 0 ≤ index then .ok (m, -1)
      else if !env.calloc then .ok (m, -1)
      else
        let ctx := env.ctx.addr m.ctxs
        let ctxs := m.ctxs.set ctx
          { fd := -1, running := true, recvCb := recvCb, ser := config, data := data }
        let (nodes, ports) ← eQueuePush env.node m.nodes m.ports (some ctx)
        .ok ({ m with nodes := nodes, ports := ports, ctxs := ctxs }, 0)

/-- What removing and destroying do to a context that has left the queue. -/
def releasePort (m : SerialManager) (ctx : Ptr) : Except Fault SerialManager := do
  let c ← m.ctxs.deref ctx
  let ctxs ← m.ctxs.store ctx { c with running := false }
  let kernel := if 0 ≤ c.fd then m.kernel.closeFile c.fd else m.kernel
  let ctxs ← ctxs.release ctx
  .ok { m with ctxs := ctxs, kernel := kernel }

/-- `while (!e_queue_empty(&manager->ports))` of `e_serial_manager_remove_port`: the named context
goes, the others move to `temp`. -/
def removeRound (M : Malloc EQnode) (uid : CStr) (s : SerialManager × EQueue) :
    Except Fault (SerialManager × EQueue) := do
  let (nodes, ports, ctx) ← eQueuePop s.1.nodes s.1.ports
  let m := { s.1 with nodes := nodes, ports := ports }
  let named ← match ctx with
    | none => .ok false
    | some a => do
        let c ← m.ctxs.deref (some a)
        strcmpEq c.ser.uid (some uid)
  if named then
    let m ← releasePort m ctx
    .ok (m, s.2)
  else
    let (nodes, temp) ← eQueuePush M m.nodes s.2 ctx
    .ok ({ m with nodes := nodes }, temp)

/-- `while (!e_queue_empty(&temp))`: what is left moves back. -/
def restoreRound (M : Malloc EQnode) (s : SerialManager × EQueue) :
    Except Fault (SerialManager × EQueue) := do
  let (nodes, temp, ctx) ← eQueuePop s.1.nodes s.2
  let (nodes, ports) ← eQueuePush M nodes s.1.ports ctx
  .ok ({ s.1 with nodes := nodes, ports := ports }, temp)

def portsMore (s : SerialManager × EQueue) : Except Fault Bool := do
  .ok !(← eQueueEmpty s.1.nodes s.1.ports)

def tempMore (s : SerialManager × EQueue) : Except Fault Bool := do
  .ok !(← eQueueEmpty s.1.nodes s.2)

def eSerialManagerRemovePort (M : Malloc EQnode) (m : SerialManager) (uid : Option CStr) :
    Except Fault SerialManager :=
  match uid with
  | none => .ok m
  | some uid => do
      let (nodes, temp) := eQueueInit M m.nodes 0
      let (m, temp) ← whileLoop portsMore (removeRound M uid) nodes.bound
        ({ m with nodes := nodes }, temp)
      let (m, temp) ← whileLoop tempMore (restoreRound M) m.nodes.bound (m, temp)
      let (nodes, _, _) ← eQueueDestroy m.nodes temp
      .ok { m with nodes := nodes }

/-- `e_serial_manager_write`, given what `write` answers: the descriptor and bytes it hands over, if
any, and its result. -/
def eSerialManagerWrite (m : SerialManager) (uid : Option CStr) (data : Option Bytes) (ret : Int) :
    Except Fault (Option (Int × Bytes) × Int) :=
  match uid, data with
  | some uid, some data =>
      if data.length = 0 then .ok (none, -1)
      else do
        match ← m.findCtx (fun ctx => strcmpEq ctx.ser.uid (some uid)) with
        | none => .ok (none, -1)
        | some (_, a) => do
            let ctx ← m.ctxs.deref (some a)
            if ctx.fd < 0 then .ok (none, -1)
            else .ok (some (ctx.fd, data), ret)
  | _, _ => .ok (none, -1)

def eSerialManagerSize (m : SerialManager) : Int := eQueueSize m.ports

def destroyMore (m : SerialManager) : Except Fault Bool := do
  .ok !(← eQueueEmpty m.nodes m.ports)

def destroyRound (m : SerialManager) : Except Fault SerialManager := do
  let (nodes, ports, ctx) ← eQueuePop m.nodes m.ports
  let m := { m with nodes := nodes, ports := ports }
  match ctx with
  | none => .ok m
  | some a => releasePort m (some a)

/-- The locked part of `e_serial_manager_destroy`, once the threads have ended. -/
def eSerialManagerDestroy (m : SerialManager) : Except Fault SerialManager := do
  let m ← whileLoop destroyMore destroyRound m.nodes.bound m
  let (nodes, ports, _) ← eQueueDestroy m.nodes m.ports
  .ok { m with nodes := nodes, ports := ports }

/-! ### The read thread -/

def collectBody (ctxs : Heap SerialContext) (fds : List Int) (data : Ptr) :
    Except Fault (List Int × Bool) :=
  match data with
  | none => .ok (fds, false)
  | some a => do
      let ctx ← ctxs.deref (some a)
      .ok (if ctx.running && decide (0 ≤ ctx.fd) then fds ++ [ctx.fd] else fds, false)

/-- The first section: the descriptors to poll, none of them when there is no memory for the
array. -/
def collectFds (okPfds : Bool) (m : SerialManager) : Except Fault (List Int) :=
  if !okPfds then .ok []
  else do
    let top ← m.nodes.deref m.ports.top
    walk m.nodes (collectBody m.ctxs) m.nodes.bound top.next []

structure Revents where
  err : Bool
  hup : Bool
  inp : Bool
  nval : Bool
  deriving DecidableEq, Repr

def Revents.any (r : Revents) : Bool := r.err || r.hup || r.inp || r.nval

/-- An entry of the poll array, with what its number stood for when `poll` was entered. -/
structure PollEvent where
  fd : Int
  polled : Option Opening
  revents : Revents
  deriving DecidableEq, Repr

/-- What `read` gives: bytes, none at the end of the file, or a failure that is `EAGAIN` or not. -/
inductive ReadResult where
  | data (bytes : Bytes)
  | fails (eagain : Bool)
  deriving DecidableEq, Repr

/-- The `malloc` of the buffer and the `read` for one event. -/
structure EventEnv where
  okBuf : Bool
  read : ReadResult

inductive TouchAction where
  | hangup
  | read (result : ReadResult)
  deriving DecidableEq, Repr

/-- A port an event was applied to: what was polled, the context taken for it, and what the
descriptor of that context stands for. `called` is what `recv_cb` got. -/
structure Touch where
  polled : Option Opening
  target : Addr
  current : Option Opening
  action : TouchAction
  called : Option (Addr × Bytes)
  deriving DecidableEq, Repr

/-- The context loses its descriptor: `close(ctx->fd); ctx->fd = -1;`. -/
def closePort (m : SerialManager) (a : Addr) (c : SerialContext) : Except Fault SerialManager := do
  let ctxs ← m.ctxs.store (some a) { c with fd := -1 }
  .ok { m with ctxs := ctxs, kernel := m.kernel.closeFile c.fd }

/-- The body of the event loop. -/
def handleEvent (env : EventEnv) (m : SerialManager) (e : PollEvent) :
    Except Fault (SerialManager × List Touch) :=
  if !e.revents.any then .ok (m, [])
  else do
    match ← m.findCtx (fun ctx => .ok (decide (ctx.fd = e.fd))) with
    | none => .ok (m, [])
    | some (_, a) => do
        let c ← m.ctxs.deref (some a)
        let touch (action : TouchAction) (called : Option (Addr × Bytes)) : Touch :=
          ⟨e.polled, a, m.kernel.files c.fd, action, called⟩
        if !c.running then .ok (m, [])
        else if e.revents.err || e.revents.hup then do
          let m ← closePort m a c
          .ok (m, [touch .hangup none])
        else if e.revents.inp then
          if !env.okBuf then .ok (m, [])
          else
            match env.read with
            | .fails eagain =>
                if eagain then .ok (m, [touch (.read (.fails eagain)) none])
                else do
                  let m ← closePort m a c
                  .ok (m, [touch (.read (.fails eagain)) none])
            | .data bytes =>
                let buf := bytes.take c.ser.maxlen.toNat
                if buf.length = 0 then .ok (m, [touch (.read (.data buf)) none])
                else .ok (m, [touch (.read (.data buf)) (c.recvCb.map fun cb => (cb, buf))])
        else .ok (m, [])

/-- The second section: the events in the order of the array, from index `i` on. -/
def handleEvents (env : Nat → EventEnv) :
    Nat → List PollEvent → SerialManager → Except Fault (SerialManager × List Touch)
  | _, [], m => .ok (m, [])
  | i, e :: events, m => do
      let (m, touches) ← handleEvent (env i) m e
      let (m, touches') ← handleEvents env (i + 1) events m
      .ok (m, touches ++ touches')

/-! ### The monitor thread -/

def monitorBody (env : Addr → OpenEnv) (s : Heap SerialContext × Kernel) (data : Ptr) :
    Except Fault ((Heap SerialContext × Kernel) × Bool) :=
  match data with
  | none => .ok (s, false)
  | some a => do
      let ctx ← s.1.deref (some a)
      if ctx.running && decide (ctx.fd < 0) && (env a).access then do
        let (kernel, fd) := serialOpen s.2 a (env a) ctx.ser
        let ctxs ← s.1.store (some a) { ctx with fd := fd }
        .ok ((ctxs, kernel), false)
      else .ok (s, false)

/-- The locked part of a round of `monitor_thread_func`. -/
def monitorPass (env : Addr → OpenEnv) (m : SerialManager) : Except Fault SerialManager := do
  let top ← m.nodes.deref m.ports.top
  let s ← walk m.nodes (monitorBody env) m.nodes.bound top.next (m.ctxs, m.kernel)
  .ok { m with ctxs := s.1, kernel := s.2 }

end LibEzmb
