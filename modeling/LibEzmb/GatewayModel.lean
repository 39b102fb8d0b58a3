import Mathlib.Data.List.FinRange
import LibEzmb.BusChannel
import LibEzmb.CollectorRuns
import LibEzmb.TcpBridge

/-! The whole gateway as one system: the serial collector, the proxy and the TCP actuators. The devices
of the collector's pairs and the monitors of the actuators are the devices of one bus; what the callbacks
of the one send is what the listeners of the other hear. -/

open CHeap CBytes Multipart Runs

namespace LibEzmb

variable {α π : Type} [DecidableEq α]

/-- What a gateway is made of: the pairs its collector serves, the bus between their devices and the
monitors of its actuators, and what the actuators run on. -/
structure Site (α π : Type) where
  ps : List Pairing
  bus : Bus (Fin ps.length ⊕ α)
  collects : ∀ i, (bus.device (.inl i)).type = .collector ∧
    (ps.get i).config.uid = some (bus.device (.inl i)).uid
  monitors : ∀ a, (bus.device (.inr a)).type = .monitor
  nodes : Malloc EQnode
  messages : Malloc MessageQueue
  code : α → TransformCode π

namespace Site

/-- A device of the bus: of a pair, or the monitor of an actuator. -/
abbrev Place (site : Site α π) : Type := Fin site.ps.length ⊕ α

/-- The uid of a device of the bus. -/
def uid (site : Site α π) (x : site.Place) : CStr := (site.bus.device x).uid

/-- The uids fit their topics and do not collide. -/
structure Apart (site : Site α π) : Prop where
  room : ∀ x, (site.uid x).bytes.length ≤ directionRoom
  apart : ∀ x y, site.uid x ≠ site.uid y → ¬Collides (site.uid x) (site.uid y)

/-- The pair with this device. -/
def pairOf (site : Site α π) (device : Addr) : Option (Fin site.ps.length) :=
  (List.finRange site.ps.length).find? fun i => (site.ps.get i).device = device

/-- A call of `recv_callback`, which sends its chunk by the device of its pair. -/
def sendChunk (site : Site α π) (bus : BusState site.Place) (r : Received) :
    Option (BusState site.Place) := do
  let i ← site.pairOf r.device
  bus.step site.bus (.send (.inl i) r.chunk)

end Site

/-- The state of every link of the bus, the collector and the actuators. -/
structure Gateway (site : Site α π) where
  bus : BusState site.Place
  collector : Collector
  actuator : α → Bridge π

/-- A section of one of the threads of the collector's manager; the listener of a pair's device begins;
a round of the proxy's loop; a round of the listener of a pair's device, whose callback writes to a port;
a round of the listener of a monitor, whose callback queues a message; a chunk read from a TCP client; a
step of app_main_thread. -/
inductive GatewayLabel (site : Site α π) where
  | reader (env : ReaderEnv)
  | monitor (env : Addr → OpenEnv)
  | begin (i : Fin site.ps.length)
  | forward (pick : site.Place) (poll : Option (Bool × Bool))
  | hearPort (i : Fin site.ps.length) (poll : Option Bool) (ret : Int)
  | hearMonitor (a : α) (poll : Option Bool) (okMsg okPayload : Bool)
  | client (a : α) (okMsg okPayload : Bool) (chunk : Bytes)
  | app (a : α)

/-- What a step shows: calls of `recv_callback`; what was heard for a port and what its descriptor was
handed; what reached an actuator; what an actuator passed on. -/
inductive GatewayOut (site : Site α π) where
  | quiet
  | received (rs : List Received)
  | wrote (i : Fin site.ps.length) (payload : Bytes) (written : Option (Int × Bytes))
  | arrived (a : α) (what : Arrival)
  | passed (a : α) (what : Forward)

/-- What no system does is impossible. -/
def Refusal.expect {β : Type} : Option β → Except Refusal β
  | none => .error .impossible
  | some b => .ok b

/-- What a step of app_main_thread shows. -/
def GatewayOut.ofForward {site : Site α π} (a : α) : Option Forward → GatewayOut site
  | none => .quiet
  | some what => .passed a what

def CollectorOut.written? : CollectorOut → Option (Int × Bytes)
  | .heard _ _ written _ => written
  | _ => none

namespace Gateway

variable {site : Site α π}

/-- A round of the listener of a device of the bus, with the message it has heard. -/
def hear (s : Gateway site) (x : site.Place) (poll : Option Bool) :
    Option (BusState site.Place × Option Heard) := do
  let (heard, _) ← eDeviceListenIteration (site.bus.device x) recvFrame ⟨poll, true, true⟩ (s.bus.down x)
  let bus ← s.bus.step site.bus (.listen x poll)
  some (bus, heard)

/-- A step of an actuator, which sends what it passes on to its monitor. -/
def act (s : Gateway site) (a : α) (l : BridgeLabel) :
    Except Refusal (Gateway site × Option Forward) := do
  let (bridge, out) ← Refusal.lift
    ((s.actuator a).step site.nodes site.messages (site.code a) l)
  let s := { s with actuator := Function.update s.actuator a bridge }
  match out.forward? with
  | some (.monitorSend bytes) => do
      let bus ← Refusal.expect (s.bus.step site.bus (.send (.inr a) bytes))
      .ok ({ s with bus := bus }, some (.monitorSend bytes))
  | what => .ok (s, what)

def step (s : Gateway site) : GatewayLabel site → Except Refusal (Gateway site × GatewayOut site)
  | .reader env => do
      let (collector, out) ← s.collector.step (.reader env fun _ => (true, true))
      let bus ← Refusal.expect (out.receives.foldlM site.sendChunk s.bus)
      .ok ({ s with collector := collector, bus := bus }, .received out.receives)
  | .monitor env => do
      let (collector, _) ← s.collector.step (.monitor env)
      .ok ({ s with collector := collector }, .quiet)
  | .begin i => do
      let (collector, _) ← s.collector.step (.begin i)
      .ok ({ s with collector := collector }, .quiet)
  | .forward pick poll => do
      let bus ← Refusal.expect (s.bus.step site.bus (.forward pick poll))
      .ok ({ s with bus := bus }, .quiet)
  | .hearPort i poll ret => do
      let (bus, heard) ← Refusal.expect (s.hear (.inl i) poll)
      match heard with
      | none => .ok ({ s with bus := bus }, .quiet)
      | some h => do
          let (collector, _) ← s.collector.step (.arrive (site.ps.get i).device h.msg)
          let (collector, out) ← collector.step (.listen i ⟨poll, true, true⟩ ret)
          .ok ({ s with collector := collector, bus := bus }, .wrote i h.payload out.written?)
  | .hearMonitor a poll okMsg okPayload => do
      let (bus, heard) ← Refusal.expect (s.hear (.inr a) poll)
      match heard with
      | none => .ok ({ s with bus := bus }, .quiet)
      | some h => do
          let (s, _) ← act { s with bus := bus } a (.arrive okMsg okPayload (.payload h.payload))
          .ok (s, .arrived a (.payload h.payload))
  | .client a okMsg okPayload chunk => do
      let (s, _) ← s.act a (.arrive okMsg okPayload (.chunk chunk))
      .ok (s, .arrived a (.chunk chunk))
  | .app a => do
      let (s, what) ← s.act a .app
      .ok (s, .ofForward a what)

end Gateway

/-! ### What a run shows -/

namespace GatewayOut

variable {site : Site α π}

/-- The payloads that a step sends by a device of the bus. -/
def sends : GatewayOut site → site.Place → List Bytes
  | .received rs, .inl i =>
      ((rs.filter fun r => site.pairOf r.device = some i).map Received.chunk).filter (· ≠ [])
  | .passed b (.monitorSend bytes), .inr a => if a = b ∧ bytes ≠ [] then [bytes] else []
  | _, _ => []

/-- The payloads that a step hears by a device of the bus. -/
def hears : GatewayOut site → site.Place → List Bytes
  | .wrote j payload _, .inl i => if i = j then [payload] else []
  | .arrived b (.payload bytes), .inr a => if a = b then [bytes] else []
  | _, _ => []

def receives : GatewayOut site → List Received
  | .received rs => rs
  | _ => []

/-- What reaches an actuator. -/
def arrivals (a : α) : GatewayOut site → List Arrival
  | .arrived b what => if a = b then [what] else []
  | _ => []

/-- What an actuator passes on. -/
def forwards (a : α) : GatewayOut site → List Forward
  | .passed b what => if a = b then [what] else []
  | _ => []

/-- What is heard for a port, with what its descriptor was handed of it. -/
def writes (i : Fin site.ps.length) : GatewayOut site → List (Bytes × Option (Int × Bytes))
  | .wrote j payload written => if i = j then [(payload, written)] else []
  | _ => []

end GatewayOut

end LibEzmb
