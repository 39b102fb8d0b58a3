import LibEzmb.BaseBytes
import LibEzmb.BaseRun
import LibEzmb.QueuePair

/-! The bridge of the TCP actuator: the chunks read from TCP clients and the payloads received by the
monitor meet in one queue, from which app_main_thread takes them and passes each on in its direction,
through the transform of the plugin when there is one. -/

open CHeap CBytes Runs

namespace LibEzmb

/-- `message_type_t`. -/
inductive MessageType where
  | toServer
  | toMonitor
  deriving DecidableEq, Repr

/-- `message_queue_t`, with the bytes its payload points to. -/
structure MessageQueue where
  type : MessageType
  payload : Bytes
  deriving DecidableEq, Repr

/-- `e_plugin_driver_t`: two function pointers. -/
structure EPluginDriver where
  northTransform : Option Addr
  southTransform : Option Addr
  deriving DecidableEq, Repr

/-- `e_plugin_context_t`, as far as the bridge looks into it. -/
structure EPluginContext where
  driver : EPluginDriver
  deriving DecidableEq, Repr

/-- `tcp_server_config_t`, as far as it decides about the plugin. -/
structure TcpServerConfig where
  pluginEnable : Bool
  pluginPath : Option CStr

def ePluginCreate (load : CStr → Option EPluginContext) (filename : Option CStr) :
    Option EPluginContext := do
  let filename ← filename
  load filename

def ePluginLoadDriver (ctx : Option EPluginContext) : Option EPluginDriver := do
  let ctx ← ctx
  some ctx.driver

/-- The functions that a transform pointer may point to, by their addresses: what each does to the memory
of the transforms and to its input. No output is the null pointer with size zero. -/
abbrev TransformCode (π : Type) := Addr → Option (π → Bytes → π × Option Bytes)

/-- Where app_main_thread is: before the size test, before the pop, with a message in hand. -/
inductive AppPhase where
  | test
  | pop
  | holding (msg : Ptr)
  deriving DecidableEq, Repr

/-- The globals of the actuator, its messages, and app_main_thread with its driver. -/
structure Bridge (π : Type) where
  nodes : QHeap
  queue : EQueue
  messages : Heap MessageQueue
  driver : Option EPluginDriver
  phase : AppPhase
  memory : π

/-- What reaches the bridge: a chunk read from a TCP client, a payload received by the monitor. -/
inductive Arrival where
  | chunk (bytes : Bytes)
  | payload (bytes : Bytes)
  deriving DecidableEq, Repr

/-- What app_main_thread passes on: to `e_tcp_server_broadcast`, to `e_monitor_send`. -/
inductive Forward where
  | broadcast (bytes : Bytes)
  | monitorSend (bytes : Bytes)
  deriving DecidableEq, Repr

/-- A callback runs, its two `malloc`s answering as given, or app_main_thread takes its next step. -/
inductive BridgeLabel where
  | arrive (okMsg okPayload : Bool) (what : Arrival)
  | app
  deriving DecidableEq, Repr

/-- A step shows nothing, or what it passes on and the transform it called for it. -/
inductive BridgeOut where
  | quiet
  | passed (called : Option Addr) (what : Forward)
  deriving DecidableEq, Repr

/-- The calls of main that may fail before app_main_thread is started, and that thread's `malloc`,
which leaves in the driver whatever was there. -/
structure BridgeStart (π : Type) where
  okConfig : Bool
  okBase : Bool
  okServer : Bool
  load : CStr → Option EPluginContext
  okMonitor : Bool
  fresh : Option EPluginDriver
  memory : π

section Model

variable {π : Type} (M : Malloc EQnode) (K : Malloc MessageQueue) (code : TransformCode π)

/-- The driver app_main_thread works with. -/
def appDriver (config : TcpServerConfig) (fresh : Option EPluginDriver)
    (ctx : Option EPluginContext) : Option EPluginDriver :=
  if config.pluginEnable then ePluginLoadDriver ctx else fresh

/-- `main` up to the start of the threads. -/
def bridgeMain (config : TcpServerConfig) (start : BridgeStart π) : Option (Bridge π) := do
  if !start.okConfig then none
  else if !start.okBase then none
  else
    let (nodes, queue) := eQueueInit M Heap.empty 0
    if !start.okServer then none
    else
      let ctx := if config.pluginEnable then ePluginCreate start.load config.pluginPath else none
      if config.pluginEnable && ctx.isNone then none
      else if !start.okMonitor then none
      else
        some {
          nodes := nodes
          queue := queue
          messages := Heap.empty
          driver := appDriver config start.fresh ctx
          phase := .test
          memory := start.memory }

/-- The body that both callbacks share but for the type of the message. -/
def queueMessage (type : MessageType) (okMsg okPayload : Bool) (payload : Bytes) (s : Bridge π) :
    Except Fault (Bridge π) :=
  if !okMsg then .error .nullDeref
  else if !okPayload && !payload.isEmpty then .error .nullDeref
  else do
    let msg := K.addr s.messages
    let messages := s.messages.set msg { type := type, payload := payload }
    let (nodes, queue) ← eQueuePush M s.nodes s.queue (some msg)
    .ok { s with nodes := nodes, queue := queue, messages := messages }

def tcpServerRecvCallback : Bool → Bool → Bytes → Bridge π → Except Fault (Bridge π) :=
  queueMessage M K .toMonitor

def monitorRecvCallback : Bool → Bool → Bytes → Bridge π → Except Fault (Bridge π) :=
  queueMessage M K .toServer

/-- A call through a transform pointer. Where it points to no function, there is nothing to go on with. -/
def callTransform (transform : Addr) (memory : π) (payload : Bytes) : Except Fault (π × Bytes) :=
  match code transform with
  | none => .error .dangling
  | some f =>
      let (memory, out) := f memory payload
      .ok (memory, out.getD [])

/-- The switch over the message type. -/
def appForward (driver : EPluginDriver) (memory : π) (msg : MessageQueue) :
    Except Fault (π × BridgeOut) :=
  match msg.type with
  | .toServer => match driver.northTransform with
    | some transform => do
        let (memory, out) ← callTransform code transform memory msg.payload
        .ok (memory, .passed (some transform) (.broadcast out))
    | none => .ok (memory, .passed none (.broadcast msg.payload))
  | .toMonitor => match driver.southTransform with
    | some transform => do
        let (memory, out) ← callTransform code transform memory msg.payload
        .ok (memory, .passed (some transform) (.monitorSend out))
    | none => .ok (memory, .passed none (.monitorSend msg.payload))

/-- One step of the loop of app_main_thread. -/
def appMainThread (s : Bridge π) : Except Fault (Bridge π × BridgeOut) :=
  match s.phase with
  | .test => .ok ({ s with phase := if eQueueSize s.queue > 0 then .pop else .test }, .quiet)
  | .pop => do
      let (nodes, queue, msg) ← eQueuePop s.nodes s.queue
      .ok ({ s with nodes := nodes, queue := queue, phase := .holding msg }, .quiet)
  | .holding p => do
      let msg ← s.messages.deref p
      match s.driver with
      | none => .error .nullDeref
      | some driver => do
          let (memory, out) ← appForward code driver s.memory msg
          let messages ← s.messages.release p
          .ok ({ s with messages := messages, phase := .test, memory := memory }, out)

def Bridge.step (s : Bridge π) : BridgeLabel → Except Fault (Bridge π × BridgeOut)
  | .arrive okMsg okPayload (.chunk bytes) => do
      .ok (← tcpServerRecvCallback M K okMsg okPayload bytes s, .quiet)
  | .arrive okMsg okPayload (.payload bytes) => do
      .ok (← monitorRecvCallback M K okMsg okPayload bytes s, .quiet)
  | .app => appMainThread code s

end Model

/-! ### What becomes of the arrivals -/

def Arrival.payload? : Arrival → Option Bytes
  | .chunk _ => none
  | .payload bytes => some bytes

def Arrival.chunk? : Arrival → Option Bytes
  | .chunk bytes => some bytes
  | .payload _ => none

def Forward.broadcast? : Forward → Option Bytes
  | .broadcast bytes => some bytes
  | .monitorSend _ => none

def Forward.monitorSend? : Forward → Option Bytes
  | .broadcast _ => none
  | .monitorSend bytes => some bytes

def BridgeLabel.arrival? : BridgeLabel → Option Arrival
  | .arrive _ _ what => some what
  | .app => none

def BridgeOut.forward? : BridgeOut → Option Forward
  | .quiet => none
  | .passed _ what => some what

def BridgeOut.called? : BridgeOut → Option Addr
  | .quiet => none
  | .passed called _ => called

/-- The payloads the monitor received. -/
def payloads (as : List Arrival) : List Bytes := as.filterMap Arrival.payload?

/-- The chunks read from TCP clients. -/
def chunks (as : List Arrival) : List Bytes := as.filterMap Arrival.chunk?

def broadcasts (fs : List Forward) : List Bytes := fs.filterMap Forward.broadcast?

def monitorSends (fs : List Forward) : List Bytes := fs.filterMap Forward.monitorSend?

def arrivals (ls : List BridgeLabel) : List Arrival := ls.filterMap BridgeLabel.arrival?

def forwards (os : List BridgeOut) : List Forward := os.filterMap BridgeOut.forward?

def transformCalls (os : List BridgeOut) : List Addr := os.filterMap BridgeOut.called?

/-- The transform in whose direction the arrival travels. -/
def EPluginDriver.transformOf (driver : EPluginDriver) : Arrival → Option Addr
  | .chunk _ => driver.southTransform
  | .payload _ => driver.northTransform

def Arrival.bytes : Arrival → Bytes
  | .chunk bytes => bytes
  | .payload bytes => bytes

/-- The bytes passed on in the direction of the arrival. -/
def Arrival.forward : Arrival → Bytes → Forward
  | .chunk _ => .monitorSend
  | .payload _ => .broadcast

def Arrival.message : Arrival → MessageQueue
  | .chunk bytes => ⟨.toMonitor, bytes⟩
  | .payload bytes => ⟨.toServer, bytes⟩

section Relay

variable {π : Type} (code : TransformCode π) (driver : EPluginDriver)

/-- The pointer is null or points to a function. -/
def Callable (pointer : Option Addr) : Prop := ∀ transform, pointer = some transform →
  (code transform).isSome

/-- What a transform makes of its memory and of some bytes. The null pointer leaves them alone; nothing
comes out of a call through a pointer to no function. -/
def transformed (pointer : Option Addr) (memory : π) (bytes : Bytes) : π × Bytes :=
  match pointer with
  | none => (memory, bytes)
  | some transform =>
      match code transform with
      | none => (memory, [])
      | some f =>
          let (memory, out) := f memory bytes
          (memory, out.getD [])

/-- What the bridge is for: each arrival is passed on in its direction through its transform. -/
def relay : π → List Arrival → List Forward
  | _, [] => []
  | memory, a :: as =>
      let (memory, bytes) := transformed code (driver.transformOf a) memory a.bytes
      a.forward bytes :: relay memory as

/-- The transform computes a function of its input alone. -/
def Computes (pointer : Option Addr) (g : Bytes → Bytes) : Prop :=
  ∀ memory bytes, (transformed code pointer memory bytes).2 = g bytes

theorem computes_none : Computes code none id := fun _ _ => rfl

variable {code driver}

theorem callable_none : Callable code none := by
  intro transform hnull
  cases hnull

theorem callTransform_of_callable {transform : Addr} (hcall : Callable code (some transform))
    (memory : π) (bytes : Bytes) :
    callTransform code transform memory bytes =
      .ok (transformed code (some transform) memory bytes) := by
  obtain ⟨f, hf⟩ := Option.isSome_iff_exists.mp (hcall transform rfl)
  simp only [callTransform, transformed, hf]


theorem broadcasts_relay {g : Bytes → Bytes} (hnorth : Computes code driver.northTransform g)
    (memory : π) (as : List Arrival) :
    broadcasts (relay code driver memory as) = (payloads as).map g := by
  induction as generalizing memory with
  | nil => rfl
  | cons a as ih =>
      cases a with
      | chunk bytes => exact ih _
      | payload bytes => exact congrArg₂ List.cons (hnorth memory bytes) (ih _)

theorem monitorSends_relay {g : Bytes → Bytes} (hsouth : Computes code driver.southTransform g)
    (memory : π) (as : List Arrival) :
    monitorSends (relay code driver memory as) = (chunks as).map g := by
  induction as generalizing memory with
  | nil => rfl
  | cons a as ih =>
      cases a with
      | chunk bytes => exact congrArg₂ List.cons (hsouth memory bytes) (ih _)
      | payload bytes => exact ih _

/-- The message goes through its transform, if that is null or a function. -/
theorem appForward_message {a : Arrival} (hcall : Callable code (driver.transformOf a)) (memory : π) :
    appForward code driver memory a.message =
      .ok ((transformed code (driver.transformOf a) memory a.bytes).1,
        .passed (driver.transformOf a)
          (a.forward (transformed code (driver.transformOf a) memory a.bytes).2)) := by
  cases a with
  | chunk bytes =>
      simp only [appForward, Arrival.message, EPluginDriver.transformOf] at hcall ⊢
      cases hsouth : driver.southTransform with
      | none => rfl
      | some transform =>
          rw [hsouth] at hcall
          simp only [callTransform_of_callable hcall, ok_bind]
          rfl
  | payload bytes =>
      simp only [appForward, Arrival.message, EPluginDriver.transformOf] at hcall ⊢
      cases hnorth : driver.northTransform with
      | none => rfl
      | some transform =>
          rw [hnorth] at hcall
          simp only [callTransform_of_callable hcall, ok_bind]
          rfl

/-- It goes wrong where the transform of the message is no function. -/
theorem appForward_wild {a : Arrival} {transform : Addr}
    (hpointer : driver.transformOf a = some transform) (hwild : code transform = none) (memory : π) :
    appForward code driver memory a.message = .error .dangling := by
  cases a with
  | chunk bytes =>
      have hsouth : driver.southTransform = some transform := hpointer
      simp only [appForward, Arrival.message, hsouth, callTransform, hwild, error_bind]
  | payload bytes =>
      have hnorth : driver.northTransform = some transform := hpointer
      simp only [appForward, Arrival.message, hnorth, callTransform, hwild, error_bind]

end Relay

/-! ### What is still to be passed on -/

/-- app_main_thread has a message in hand. -/
def AppPhase.Busy : AppPhase → Prop
  | .holding _ => True
  | _ => False

namespace Bridge

variable {π : Type}

/-- The entries not passed on yet, and those of them that are still in the queue. -/
def Ahead (entries queued : List (Addr × Arrival)) : AppPhase → Prop
  | .test => entries = queued
  | .pop => entries = queued ∧ queued ≠ []
  | .holding msg => ∃ e, entries = e :: queued ∧ msg = some e.1

/-- The messages not passed on yet, with the arrivals they stand for. -/
structure Pending (s : Bridge π) (entries : List (Addr × Arrival)) : Prop where
  cells : ∀ e ∈ entries, s.messages.cell e.1 = some e.2.message
  distinct : (entries.map Prod.fst).Nodup
  queued : ∃ queued, Ahead entries queued s.phase ∧
    Holds s.nodes s.queue (queued.map fun e => some e.1)

variable {M : Malloc EQnode} {K : Malloc MessageQueue} {code : TransformCode π} {s t : Bridge π}
  {entries queued : List (Addr × Arrival)} {driver : EPluginDriver}

theorem Pending.init {config : TcpServerConfig} {start : BridgeStart π}
    (hstart : bridgeMain M config start = some s) :
    s.Pending [] ∧ s.phase = .test ∧ s.memory = start.memory ∧
      s.driver = appDriver config start.fresh
        (if config.pluginEnable then ePluginCreate start.load config.pluginPath else none) := by
  simp only [bridgeMain, Option.ite_none_left_eq_some, Option.some.injEq] at hstart
  obtain ⟨-, -, -, -, -, rfl⟩ := hstart
  exact ⟨⟨by simp, List.nodup_nil, [], rfl, _, [], QueueRep.init_spec M _ _, rfl⟩, rfl, rfl, rfl⟩

/-- With a plugin the driver is the one that was loaded. -/
theorem driver_of_plugin {config : TcpServerConfig} {start : BridgeStart π}
    (hplugin : config.pluginEnable = true) (hstart : bridgeMain M config start = some s) :
    ∃ ctx, ePluginCreate start.load config.pluginPath = some ctx ∧ s.driver = some ctx.driver := by
  have hdriver := (Pending.init hstart).2.2.2
  simp only [bridgeMain, Option.ite_none_left_eq_some, hplugin, if_true, Bool.true_and] at hstart
  obtain ⟨-, -, -, hctx, -⟩ := hstart
  obtain ⟨ctx, hload⟩ := Option.ne_none_iff_exists'.mp (by simpa using hctx)
  simp only [appDriver, hplugin, if_true] at hdriver
  exact ⟨ctx, hload, by rw [hdriver, hload]; rfl⟩

theorem Ahead.snoc {phase : AppPhase} (hahead : Ahead entries queued phase) (e : Addr × Arrival) :
    Ahead (entries ++ [e]) (queued ++ [e]) phase := by
  cases phase with
  | test => exact congrArg (· ++ [e]) hahead
  | pop => exact ⟨congrArg (· ++ [e]) hahead.1, by simp⟩
  | holding msg =>
      obtain ⟨x, rfl, hmsg⟩ := hahead
      exact ⟨x, rfl, hmsg⟩

variable (M K code) in
/-- A callback whose `malloc`s succeed queues its message. -/
theorem Pending.arrive (hpending : s.Pending entries) (a : Arrival) :
    ∃ t, s.step M K code (.arrive true true a) = .ok (t, .quiet) ∧
      t.Pending (entries ++ [(K.addr s.messages, a)]) ∧ t.phase = s.phase ∧ t.driver = s.driver ∧
      t.memory = s.memory := by
  obtain ⟨queued, hahead, hholds⟩ := hpending.queued
  obtain ⟨nodes, queue, hpush, hholds'⟩ := hholds.push M (some (K.addr s.messages))
  have hstep : s.step M K code (.arrive true true a) = .ok ({ s with
      nodes := nodes, queue := queue,
      messages := s.messages.set (K.addr s.messages) a.message }, .quiet) := by
    cases a <;>
      simp [step, tcpServerRecvCallback, monitorRecvCallback, queueMessage, Arrival.message, hpush,
        bind, Except.bind]
  have hfresh : ∀ e ∈ entries, e.1 ≠ K.addr s.messages := by
    intro e he heq
    have hcell := hpending.cells e he
    rw [heq, K.fresh] at hcell
    cases hcell
  refine ⟨_, hstep, ⟨?_, ?_, _, hahead.snoc _, by simpa using hholds'⟩, rfl, rfl, rfl⟩
  · intro e he
    rw [Heap.set_cell]
    rcases List.mem_append.mp he with he | he
    · rw [if_neg (hfresh e he), hpending.cells e he]
    · rw [List.mem_singleton.mp he, if_pos rfl]
  · rw [List.map_append, List.map_singleton, List.nodup_append]
    refine ⟨hpending.distinct, by simp, fun x hx y hy heq => ?_⟩
    obtain ⟨e, he, rfl⟩ := List.mem_map.mp hx
    exact hfresh e he (heq.trans (List.mem_singleton.mp hy))

/-- Freeing the first message leaves the others. -/
theorem cells_drop {messages : Heap MessageQueue} {e : Addr × Arrival}
    {rest : List (Addr × Arrival)}
    (hcells : ∀ x ∈ e :: rest, messages.cell x.1 = some x.2.message)
    (hdistinct : ((e :: rest).map Prod.fst).Nodup) :
    ∀ x ∈ rest, (messages.drop e.1).cell x.1 = some x.2.message := by
  rw [List.map_cons, List.nodup_cons] at hdistinct
  intro x hx
  have hne : x.1 ≠ e.1 := fun heq => hdistinct.1 (heq ▸ List.mem_map_of_mem hx)
  rw [Heap.drop_cell, if_neg hne]
  exact hcells x (List.mem_cons_of_mem _ hx)

/-- Where app_main_thread cannot pass the message on: it has no driver, or the transform of the message
points to no function. -/
inductive Stops (code : TransformCode π) (driver : Option EPluginDriver) (a : Arrival) : Fault → Prop where
  | noDriver (hnone : driver = none) : Stops code driver a .nullDeref
  | wild {d : EPluginDriver} {transform : Addr} (hdriver : driver = some d)
      (hpointer : d.transformOf a = some transform) (hwild : code transform = none) :
      Stops code driver a .dangling

theorem Stops.not_callable {a : Arrival} {fault : Fault} (hstops : Stops code s.driver a fault)
    (hdriver : s.driver = some driver) : ¬Callable code (driver.transformOf a) := by
  rw [hdriver] at hstops
  cases hstops with
  | noDriver hnone => cases hnone
  | wild hd hpointer hwild =>
      cases hd
      intro hcall
      have hsome := hcall _ hpointer
      rw [hwild] at hsome
      cases hsome

variable (M K code) in
/-- The size test, whatever the driver. -/
theorem Pending.app_test (hpending : s.Pending entries) (hphase : s.phase = .test) :
    ∃ t, s.step M K code .app = .ok (t, .quiet) ∧ t.Pending entries ∧ ¬t.phase.Busy ∧
      (entries ≠ [] → t.phase = .pop) ∧ t.driver = s.driver ∧ t.memory = s.memory := by
  obtain ⟨queued, hahead, hholds⟩ := hpending.queued
  rw [hphase] at hahead
  obtain rfl : entries = queued := hahead
  have hsize : eQueueSize s.queue > 0 ↔ entries ≠ [] := by
    rw [hholds.size, List.length_map, gt_iff_lt, Int.natCast_pos, List.length_pos_iff]
  refine ⟨{ s with phase := if eQueueSize s.queue > 0 then .pop else .test }, ?_,
    ⟨hpending.cells, hpending.distinct, entries, ?_, hholds⟩, ?_, fun hne => if_pos (hsize.mpr hne), rfl,
    rfl⟩
  · simp only [step, appMainThread, hphase]
  · by_cases hne : entries ≠ []
    · rw [if_pos (hsize.mpr hne)]
      exact ⟨rfl, hne⟩
    · rw [if_neg fun hpos => hne (hsize.mp hpos)]
      rfl
  · dsimp only
    split <;> exact id

variable (M K code) in
/-- The pop takes the first message into the hand. -/
theorem Pending.app_pop (hpending : s.Pending entries) (hphase : s.phase = .pop) :
    ∃ e rest t, entries = e :: rest ∧ s.step M K code .app = .ok (t, .quiet) ∧ t.Pending entries ∧
      t.phase.Busy ∧ t.driver = s.driver ∧ t.memory = s.memory := by
  obtain ⟨queued, hahead, hholds⟩ := hpending.queued
  rw [hphase] at hahead
  obtain ⟨rfl, hne⟩ := hahead
  obtain ⟨e, rest, rfl⟩ := List.exists_cons_of_ne_nil hne
  obtain ⟨nodes, queue, hpop, hholds'⟩ := hholds.pop
  refine ⟨e, rest, { s with nodes := nodes, queue := queue, phase := .holding (some e.1) }, rfl, ?_,
    ⟨hpending.cells, hpending.distinct, rest, ⟨e, rfl, rfl⟩, hholds'⟩, trivial, rfl, rfl⟩
  simp only [step, appMainThread, hphase, hpop, ok_bind]

/-- The first message has been passed on. -/
structure Passes (code : TransformCode π) (s : Bridge π) (d : EPluginDriver) (a : Arrival) (t : Bridge π)
    (o : BridgeOut) : Prop where
  driver : s.driver = some d
  callable : Callable code (d.transformOf a)
  phase : t.phase = .test
  memory : t.memory = (transformed code (d.transformOf a) s.memory a.bytes).1
  out : o = .passed (d.transformOf a)
    (a.forward (transformed code (d.transformOf a) s.memory a.bytes).2)

variable (M K code) in
/-- The rest of the round passes the message in hand on, unless app_main_thread stops there. -/
theorem Pending.app_holding (hpending : s.Pending entries) (hphase : s.phase.Busy) :
    ∃ e rest, entries = e :: rest ∧
      ((∃ fault, Stops code s.driver e.2 fault ∧ s.step M K code .app = .error fault) ∨
        ∃ t o d, s.step M K code .app = .ok (t, o) ∧ t.Pending rest ∧ t.driver = s.driver ∧
          s.Passes code d e.2 t o) := by
  obtain ⟨queued, hahead, hholds⟩ := hpending.queued
  obtain ⟨hcells, hdistinct, -⟩ := hpending
  cases hholding : s.phase with
  | test | pop =>
      rw [hholding] at hphase
      exact hphase.elim
  | holding msg =>
      rw [hholding] at hahead
      obtain ⟨e, rfl, rfl⟩ := hahead
      refine ⟨e, queued, rfl, ?_⟩
      have hcell := hcells e List.mem_cons_self
      have hlater := cells_drop hcells hdistinct
      rw [List.map_cons, List.nodup_cons] at hdistinct
      cases hd : s.driver with
      | none =>
          refine Or.inl ⟨.nullDeref, .noDriver rfl, ?_⟩
          simp only [step, appMainThread, hholding, hd, Heap.deref_of_cell hcell, ok_bind]
      | some d =>
          by_cases hcall : Callable code (d.transformOf e.2)
          · refine Or.inr ⟨{ s with
                messages := s.messages.drop e.1
                phase := .test
                memory := (transformed code (d.transformOf e.2) s.memory e.2.bytes).1 }, _, d, ?_,
              ⟨hlater, hdistinct.2, queued, rfl, hholds⟩, hd, hd, hcall, rfl, rfl, rfl⟩
            simp only [step, appMainThread, hholding, hd, Heap.deref_of_cell hcell,
              Heap.release_of_cell hcell, ok_bind, appForward_message hcall]
          · obtain ⟨transform, hnot⟩ := not_forall.mp hcall
            obtain ⟨hpointer, hwild⟩ := Classical.not_imp.mp hnot
            rw [Bool.not_eq_true, Option.isSome_eq_false_iff, Option.isNone_iff_eq_none] at hwild
            refine Or.inl ⟨.dangling, .wild rfl hpointer hwild, ?_⟩
            simp only [step, appMainThread, hholding, hd, Heap.deref_of_cell hcell, ok_bind,
              appForward_wild hpointer hwild, error_bind]

variable (M K code) in
/-- **The next step of app_main_thread.** It stops at the first message, or goes on. -/
theorem Pending.app_cases (hpending : s.Pending entries) :
    (∃ e rest fault, entries = e :: rest ∧ Stops code s.driver e.2 fault ∧
      s.step M K code .app = .error fault) ∨
    ∃ t o, s.step M K code .app = .ok (t, o) ∧ t.driver = s.driver ∧
      ((o = .quiet ∧ t.Pending entries ∧ t.memory = s.memory) ∨
        ∃ d e rest, entries = e :: rest ∧ t.Pending rest ∧ s.Passes code d e.2 t o) := by
  cases hphase : s.phase with
  | test =>
      obtain ⟨t, hstep, hpending', -, -, hdriver, hmemory⟩ := hpending.app_test M K code hphase
      exact Or.inr ⟨t, .quiet, hstep, hdriver, Or.inl ⟨rfl, hpending', hmemory⟩⟩
  | pop =>
      obtain ⟨e, rest, t, -, hstep, hpending', -, hdriver, hmemory⟩ := hpending.app_pop M K code hphase
      exact Or.inr ⟨t, .quiet, hstep, hdriver, Or.inl ⟨rfl, hpending', hmemory⟩⟩
  | holding msg =>
      have hbusy : s.phase.Busy := by
        rw [hphase]
        trivial
      obtain ⟨e, rest, heq, hstops | ⟨t, o, d, hstep, hpending', hdriver, hpasses⟩⟩ :=
        hpending.app_holding M K code hbusy
      · obtain ⟨fault, hstops, hstep⟩ := hstops
        exact Or.inl ⟨e, rest, fault, heq, hstops, hstep⟩
      · exact Or.inr ⟨t, o, hstep, hdriver, Or.inr ⟨d, e, rest, heq, hpending', hpasses⟩⟩

/-- The transforms of the driver are null or functions, as those of zeroed memory and of a plugin that
sets them are. -/
structure HasFunctions (code : TransformCode π) (driver : EPluginDriver) : Prop where
  north : Callable code driver.northTransform
  south : Callable code driver.southTransform

theorem HasFunctions.callable (hfunctions : HasFunctions code driver) (a : Arrival) :
    Callable code (driver.transformOf a) := by
  cases a with
  | chunk => exact hfunctions.south
  | payload => exact hfunctions.north

/-- app_main_thread has its driver, and can call the transforms of the messages. -/
def Drives (code : TransformCode π) (driver : Option EPluginDriver) (as : List Arrival) : Prop :=
  ∀ a ∈ as, ∃ d, driver = some d ∧ Callable code (d.transformOf a)

/-- The arrivals of the entries. -/
def arrived (entries : List (Addr × Arrival)) : List Arrival := entries.map Prod.snd

variable (M K) in
/-- With its driver it goes on. -/
theorem Pending.app (hpending : s.Pending entries) (hdrives : Drives code s.driver (arrived entries)) :
    ∃ t o, s.step M K code .app = .ok (t, o) ∧ t.driver = s.driver ∧
      ((o = .quiet ∧ t.Pending entries ∧ t.memory = s.memory) ∨
        ∃ d e rest, entries = e :: rest ∧ t.Pending rest ∧ s.Passes code d e.2 t o) := by
  rcases hpending.app_cases M K code with ⟨e, rest, fault, rfl, hstops, -⟩ | hgoes
  · obtain ⟨d, hd, hcall⟩ := hdrives e.2 List.mem_cons_self
    exact absurd hcall (hstops.not_callable hd)
  · exact hgoes

/-- A callback that returns has queued its message, as if its `malloc`s had succeeded. -/
theorem step_arrive_ok {okMsg okPayload : Bool} {a : Arrival} {o : BridgeOut}
    (hstep : s.step M K code (.arrive okMsg okPayload a) = .ok (t, o)) :
    s.step M K code (.arrive true true a) = .ok (t, o) := by
  have hsame : ∀ type bytes u, queueMessage M K type okMsg okPayload bytes s = .ok u →
      queueMessage M K type true true bytes s = .ok u := by
    intro type bytes u hqueue
    unfold queueMessage at hqueue ⊢
    split at hqueue
    · cases hqueue
    · split at hqueue
      · cases hqueue
      · exact hqueue
  cases a <;>
    · obtain ⟨u, hqueue, hout⟩ := bind_eq_ok hstep
      simp only [Bridge.step, tcpServerRecvCallback, monitorRecvCallback, hsame _ _ u hqueue]
      exact hout

/-- A step moves what it relays from what is ahead to what is done. -/
theorem Pending.step (hpending : s.Pending entries) (hdriver : s.driver = some driver)
    {l : BridgeLabel} {o : BridgeOut} (hstep : s.step M K code l = .ok (t, o)) :
    ∃ entries', t.Pending entries' ∧ t.driver = some driver ∧ ∀ later,
      forwards [o] ++ relay code driver t.memory (arrived entries' ++ later) =
        relay code driver s.memory (arrived entries ++ (arrivals [l] ++ later)) := by
  cases l with
  | arrive okMsg okPayload a =>
      obtain ⟨u, hok, hpending', -, hdriver', hmemory⟩ :=
        hpending.arrive M K code a
      rw [step_arrive_ok hstep] at hok
      cases hok
      refine ⟨_, hpending', hdriver'.trans hdriver, fun later => ?_⟩
      rw [hmemory, arrived, List.map_append, List.append_assoc]
      rfl
  | app =>
      rcases hpending.app_cases M K code with ⟨e, rest, fault, -, -, hfails⟩ | ⟨u, o', hok, hdriver', hcase⟩
      · rw [hstep] at hfails
        cases hfails
      rw [hstep] at hok
      cases hok
      rcases hcase with ⟨rfl, hpending', hmemory⟩ |
        ⟨d, e, rest, rfl, hpending', hd, -, -, hmemory, rfl⟩
      · exact ⟨entries, hpending', hdriver'.trans hdriver, fun later => by rw [hmemory]; rfl⟩
      · rw [hdriver, Option.some.injEq] at hd
        subst hd
        refine ⟨rest, hpending', hdriver'.trans hdriver, fun later => ?_⟩
        rw [hmemory]
        rfl

/-- Over a run, what has been passed on and what is still ahead make up what has arrived. -/
theorem Pending.run (hpending : s.Pending entries) (hdriver : s.driver = some driver)
    {ls : List BridgeLabel} {os : List BridgeOut}
    (hexec : exec (Bridge.step M K code) s ls = .ok (t, os)) :
    ∃ entries', t.Pending entries' ∧
      forwards os ++ relay code driver t.memory (arrived entries') =
        relay code driver s.memory (arrived entries ++ arrivals ls) := by
  induction ls generalizing s entries os with
  | nil =>
      cases hexec
      exact ⟨entries, hpending, by rw [show arrivals [] = [] from rfl, List.append_nil]; rfl⟩
  | cons l ls ih =>
      obtain ⟨u, o, os, hstep, hrest, rfl⟩ := exec_cons_ok.mp hexec
      obtain ⟨entries₁, hpending₁, hdriver₁, hrelay₁⟩ := hpending.step hdriver hstep
      obtain ⟨entries₂, hpending₂, hrelay₂⟩ := ih hpending₁ hdriver₁ hrest
      refine ⟨entries₂, hpending₂, ?_⟩
      have hcons : arrivals (l :: ls) = arrivals [l] ++ arrivals ls :=
        List.filterMap_append (l := [l])
      have houts : forwards (o :: os) = forwards [o] ++ forwards os :=
        List.filterMap_append (l := [o])
      rw [hcons, houts, List.append_assoc, hrelay₂, hrelay₁]

/-- What the bridge owes its two directions after the arrivals, when the queued and the one in hand
are `ahead`, in the terms of any transform and of one that is a function of its input. -/
structure Bridges (code : TransformCode π) (driver : EPluginDriver) (memory₀ memory : π)
    (as ahead : List Arrival) (fs : List Forward) : Prop where
  north : broadcasts fs ++ broadcasts (relay code driver memory ahead) =
    broadcasts (relay code driver memory₀ as)
  south : monitorSends fs ++ monitorSends (relay code driver memory ahead) =
    monitorSends (relay code driver memory₀ as)
  northMap : ∀ g, Computes code driver.northTransform g →
    broadcasts fs ++ (payloads ahead).map g = (payloads as).map g
  southMap : ∀ g, Computes code driver.southTransform g →
    monitorSends fs ++ (chunks ahead).map g = (chunks as).map g
  northNull : driver.northTransform = none → broadcasts fs ++ payloads ahead = payloads as
  southNull : driver.southTransform = none → monitorSends fs ++ chunks ahead = chunks as

theorem Bridges.of_relay {memory₀ memory : π} {as ahead : List Arrival} {fs : List Forward}
    (hrelay : fs ++ relay code driver memory ahead = relay code driver memory₀ as) :
    Bridges code driver memory₀ memory as ahead fs := by
  have hnorth : broadcasts fs ++ broadcasts (relay code driver memory ahead) =
      broadcasts (relay code driver memory₀ as) := by
    rw [← hrelay]
    exact List.filterMap_append.symm
  have hsouth : monitorSends fs ++ monitorSends (relay code driver memory ahead) =
      monitorSends (relay code driver memory₀ as) := by
    rw [← hrelay]
    exact List.filterMap_append.symm
  have hnorthMap : ∀ g, Computes code driver.northTransform g →
      broadcasts fs ++ (payloads ahead).map g = (payloads as).map g := by
    intro g hg
    rw [← broadcasts_relay hg memory, ← broadcasts_relay hg memory₀, hnorth]
  have hsouthMap : ∀ g, Computes code driver.southTransform g →
      monitorSends fs ++ (chunks ahead).map g = (chunks as).map g := by
    intro g hg
    rw [← monitorSends_relay hg memory, ← monitorSends_relay hg memory₀, hsouth]
  refine ⟨hnorth, hsouth, hnorthMap, hsouthMap, fun hnull => ?_, fun hnull => ?_⟩
  · simpa using hnorthMap id (hnull ▸ computes_none code)
  · simpa using hsouthMap id (hnull ▸ computes_none code)

/-- **Bridge with a plugin.** In every run of the actuator with a loaded plugin, what was passed on
in a direction, followed by what the transform makes of the messages still ahead, is what it makes of
all that arrived for this direction, in order. -/
theorem bridge_relays {config : TcpServerConfig} {start : BridgeStart π} {ls : List BridgeLabel}
    {os : List BridgeOut} (hplugin : config.pluginEnable = true)
    (hstart : bridgeMain M config start = some s)
    (hexec : exec (Bridge.step M K code) s ls = .ok (t, os)) :
    ∃ ctx entries, ePluginCreate start.load config.pluginPath = some ctx ∧ t.Pending entries ∧
      Bridges code ctx.driver start.memory t.memory (arrivals ls) (arrived entries)
        (forwards os) := by
  obtain ⟨hpending, -, hmemory, -⟩ := Pending.init hstart
  obtain ⟨ctx, hload, hdriver⟩ := driver_of_plugin hplugin hstart
  obtain ⟨entries, hpending', hrelay⟩ := hpending.run hdriver hexec
  rw [hmemory] at hrelay
  exact ⟨ctx, entries, hload, hpending', Bridges.of_relay hrelay⟩

/-- A function of a plugin that reverses its input, and has no output for a zero byte. -/
def reversing : TransformCode Unit := fun transform =>
  if transform = 1 then some fun _ bytes => ((), if bytes = [0] then none else some bytes.reverse)
  else none

/-- Everything succeeds and the plugin sets the north transform alone. -/
def reversingStart : BridgeStart Unit where
  okConfig := true
  okBase := true
  okServer := true
  load _ := some ⟨⟨some 1, none⟩⟩
  okMonitor := true
  fresh := some ⟨none, none⟩
  memory := ()

def pluginOn : TcpServerConfig := ⟨true, some ⟨[112], by decide⟩⟩

def pluginOff : TcpServerConfig := ⟨false, none⟩

/-- Two payloads with a chunk between them, of which the payload without an output is still queued at
the end. -/
def reversingRun : List BridgeLabel :=
  [.arrive true true (.payload [1, 2]), .app, .arrive true true (.chunk [3]), .app,
    .arrive true true (.payload [0])] ++ List.replicate 5 .app

theorem reversingRun_exec : ∃ s t os,
    bridgeMain (.bump ⟨none, none⟩) pluginOn reversingStart = some s ∧
      exec (Bridge.step (.bump ⟨none, none⟩) (.bump ⟨.toServer, []⟩) reversing) s reversingRun =
        .ok (t, os) ∧
      forwards os = [.broadcast [2, 1], .monitorSend [3]] :=
  ⟨_, _, _, rfl, rfl, rfl⟩

theorem bridge_relays_reversing : ∃ t os ctx entries,
    forwards os = [.broadcast [2, 1], .monitorSend [3]] ∧
      ePluginCreate reversingStart.load pluginOn.pluginPath = some ctx ∧ Pending t entries ∧
      Bridges reversing ctx.driver () t.memory (arrivals reversingRun) (arrived entries)
        (forwards os) := by
  obtain ⟨s, t, os, hstart, hexec, hforwards⟩ := reversingRun_exec
  obtain ⟨ctx, entries, hbridges⟩ := bridge_relays rfl hstart hexec
  exact ⟨t, os, ctx, entries, hforwards, hbridges⟩

/-! ### Without a plugin -/

/-- The arrival passed on as it came. -/
def unchanged (a : Arrival) : Forward := a.forward a.bytes

/-- The run goes through, calls no transform and passes on what arrived, in order, as it came. -/
def PassesUnchanged (M : Malloc EQnode) (K : Malloc MessageQueue) (code : TransformCode π)
    (s : Bridge π) (ls : List BridgeLabel) : Prop :=
  ∃ t os entries, exec (Bridge.step M K code) s ls = .ok (t, os) ∧ t.Pending entries ∧
    transformCalls os = [] ∧
    forwards os ++ (arrived entries).map unchanged = (arrivals ls).map unchanged

/-- The callbacks' `malloc`s succeed. -/
def Allocates : BridgeLabel → Prop
  | .arrive okMsg okPayload _ => okMsg = true ∧ okPayload = true
  | .app => True

/-- The memory of the driver is there and holds the null pointer where the arrival is sent through
it. -/
def NoTransform (driver : Option EPluginDriver) (a : Arrival) : Prop :=
  ∃ d, driver = some d ∧ d.transformOf a = none

variable (M K code) in
/-- When no message ahead or to come meets a transform, all pass unchanged. -/
theorem Pending.unchanged_run (hpending : s.Pending entries) {ls : List BridgeLabel}
    (hok : ∀ l ∈ ls, Allocates l)
    (hnone : ∀ a ∈ arrived entries ++ arrivals ls, NoTransform s.driver a) :
    ∃ t os entries', exec (Bridge.step M K code) s ls = .ok (t, os) ∧ t.Pending entries' ∧
      transformCalls os = [] ∧
      forwards os ++ (arrived entries').map unchanged =
        (arrived entries ++ arrivals ls).map unchanged := by
  induction ls generalizing s entries with
  | nil =>
      refine ⟨s, [], entries, rfl, hpending, rfl, ?_⟩
      rw [show arrivals [] = [] from rfl, List.append_nil]
      rfl
  | cons l ls ih =>
      rw [List.forall_mem_cons] at hok
      cases l with
      | arrive okMsg okPayload a =>
          obtain ⟨⟨rfl, rfl⟩, hok⟩ := hok
          obtain ⟨u, hstep, hpending', -, hdriver, -⟩ :=
            hpending.arrive M K code a
          have hsplit : arrived (entries ++ [(K.addr s.messages, a)]) ++ arrivals ls =
              arrived entries ++ arrivals (.arrive true true a :: ls) := by
            rw [arrived, List.map_append, List.append_assoc]
            rfl
          rw [← hsplit, ← hdriver] at hnone
          obtain ⟨t, os, entries', hexec, hpending'', hcalls, hforwards⟩ := ih hpending' hok hnone
          exact ⟨t, .quiet :: os, entries', exec_cons_ok.mpr ⟨u, _, os, hstep, hexec, rfl⟩,
            hpending'', hcalls, by rw [← hsplit]; exact hforwards⟩
      | app =>
          have hdrives : Drives code s.driver (arrived entries) := by
            intro a ha
            obtain ⟨d, hd, hnull⟩ := hnone a (List.mem_append_left _ ha)
            exact ⟨d, hd, hnull ▸ callable_none⟩
          obtain ⟨u, o, hstep, hdriver, hcase⟩ :=
            hpending.app M K hdrives
          rcases hcase with ⟨rfl, hpending', -⟩ | ⟨d, e, rest, rfl, hpending', hd, -, -, -, rfl⟩
          · rw [← hdriver] at hnone
            obtain ⟨t, os, entries', hexec, hpending'', hcalls, hforwards⟩ :=
              ih hpending' hok.2 hnone
            exact ⟨t, .quiet :: os, entries', exec_cons_ok.mpr ⟨u, _, os, hstep, hexec, rfl⟩,
              hpending'', hcalls, hforwards⟩
          · rw [arrived, List.map_cons, List.cons_append, List.forall_mem_cons, ← hdriver] at hnone
            obtain ⟨⟨d', hd', hnull⟩, hnone⟩ := hnone
            rw [hdriver, hd, Option.some.injEq] at hd'
            subst hd'
            rw [hnull] at hstep
            obtain ⟨t, os, entries', hexec, hpending'', hcalls, hforwards⟩ :=
              ih hpending' hok.2 hnone
            exact ⟨t, _ :: os, entries', exec_cons_ok.mpr ⟨u, _, os, hstep, hexec, rfl⟩,
              hpending'', hcalls, congrArg (unchanged e.2 :: ·) hforwards⟩

/-- Three steps of app_main_thread for each message. -/
def drain (n : Nat) : List BridgeLabel := List.replicate (3 * n) .app

/-- From the size test on, three steps pass on the first message. -/
theorem Pending.round {e : Addr × Arrival} {rest : List (Addr × Arrival)}
    (hpending : s.Pending (e :: rest)) (hphase : s.phase = .test) {ls : List BridgeLabel}
    {os : List BridgeOut}
    (hexec : exec (Bridge.step M K code) s (.app :: .app :: .app :: ls) = .ok (t, os)) :
    ∃ d u os' what, s.driver = some d ∧ u.Pending rest ∧ u.phase = .test ∧ u.driver = s.driver ∧
      exec (Bridge.step M K code) u ls = .ok (t, os') ∧
      os = .quiet :: .quiet :: .passed (d.transformOf e.2) what :: os' := by
  obtain ⟨s₁, hstep₁, hpending₁, -, hpop₁, hdriver₁, -⟩ := hpending.app_test M K code hphase
  obtain ⟨_, _, s₂, -, hstep₂, hpending₂, hbusy₂, hdriver₂, -⟩ :=
    hpending₁.app_pop M K code (hpop₁ (List.cons_ne_nil e rest))
  have hsame := hdriver₂.trans hdriver₁
  obtain ⟨u₁, o₁, os₁, hfires₁, hexec₁, rfl⟩ := exec_cons_ok.mp hexec
  rw [hstep₁] at hfires₁
  cases hfires₁
  obtain ⟨u₂, o₂, os₂, hfires₂, hexec₂, rfl⟩ := exec_cons_ok.mp hexec₁
  rw [hstep₂] at hfires₂
  cases hfires₂
  obtain ⟨s₃, o₃, os₃, hfires₃, hexec₃, rfl⟩ := exec_cons_ok.mp hexec₂
  obtain ⟨e', rest', heq, ⟨fault, -, hstops⟩ | ⟨u₃, o, d, hstep₃, hpending₃, hdriver₃, hpasses⟩⟩ :=
    hpending₂.app_holding M K code hbusy₂
  · rw [hfires₃] at hstops
    cases hstops
  · rw [hfires₃] at hstep₃
    cases hstep₃
    cases heq
    exact ⟨d, s₃, os₃, _, hsame ▸ hpasses.driver, hpending₃, hpasses.phase, hdriver₃.trans hsame, hexec₃,
      by rw [hpasses.out]⟩

/-- If the queue is drained without a call of a transform, none of its messages meets one. -/
theorem Pending.drained (hpending : s.Pending entries) (hphase : s.phase = .test)
    {os : List BridgeOut}
    (hexec : exec (Bridge.step M K code) s (drain entries.length) = .ok (t, os))
    (hcalls : transformCalls os = []) : ∀ a ∈ arrived entries, NoTransform s.driver a := by
  induction entries generalizing s os with
  | nil => exact fun a ha => absurd ha List.not_mem_nil
  | cons e rest ih =>
      obtain ⟨d, u, os', what, hd, hpending', hphase', hdriver, hexec', rfl⟩ :=
        hpending.round hphase hexec
      have hnull : d.transformOf e.2 = none := by
        cases hpointer : d.transformOf e.2 with
        | none => rfl
        | some f => simp [transformCalls, BridgeOut.called?, hpointer] at hcalls
      rw [hnull] at hcalls
      rw [arrived, List.map_cons, List.forall_mem_cons]
      exact ⟨⟨d, hd, hnull⟩, hdriver ▸ ih hpending' hphase' hexec' hcalls⟩

theorem Pending.drained_after (hpending : s.Pending entries) (hphase : s.phase = .test)
    {as : List Arrival} {os : List BridgeOut}
    (hexec : exec (Bridge.step M K code) s
      (as.map (.arrive true true) ++ drain (entries.length + as.length)) = .ok (t, os))
    (hcalls : transformCalls os = []) : ∀ a ∈ arrived entries ++ as, NoTransform s.driver a := by
  induction as generalizing s entries os with
  | nil =>
      rw [List.append_nil]
      exact hpending.drained hphase hexec hcalls
  | cons a as ih =>
      obtain ⟨u, hstep, hpending', hphase', hdriver, -⟩ :=
        hpending.arrive M K code a
      obtain ⟨v, o, os, hstep', hexec', rfl⟩ := exec_cons_ok.mp hexec
      rw [hstep] at hstep'
      cases hstep'
      have hcount : entries.length + (a :: as).length =
          (entries ++ [(K.addr s.messages, a)]).length + as.length := by
        simp only [List.length_append, List.length_cons, List.length_nil]
        omega
      rw [hcount] at hexec'
      have hall := ih hpending' (hphase'.trans hphase) hexec' hcalls
      rw [hdriver] at hall
      simpa [arrived] using hall

theorem arrivals_schedule (as : List Arrival) (n : Nat) :
    arrivals (as.map (.arrive true true) ++ drain n) = as := by
  rw [arrivals, List.filterMap_append, List.filterMap_map, drain, List.filterMap_replicate_of_none rfl,
    List.append_nil]
  exact List.filterMap_some

/-- **Bridge without a plugin.** However the callbacks and app_main_thread interleave, the messages
pass unchanged and without a transform exactly when none of them meets a pointer in the memory that
`malloc` left for the driver. -/
theorem no_plugin_unchanged_iff {config : TcpServerConfig} {start : BridgeStart π}
    (hplugin : config.pluginEnable = false) (hstart : bridgeMain M config start = some s)
    (as : List Arrival) :
    (∀ ls, (∀ l ∈ ls, Allocates l) → arrivals ls = as → PassesUnchanged M K code s ls) ↔
      ∀ a ∈ as, NoTransform start.fresh a := by
  obtain ⟨hpending, hphase, -, hdriver⟩ := Pending.init hstart
  simp only [appDriver, hplugin, Bool.false_eq_true, if_false] at hdriver
  rw [← hdriver]
  constructor
  · intro hall
    obtain ⟨t, os, entries, hexec, -, hcalls, -⟩ :=
      hall (as.map (.arrive true true) ++ drain as.length) (by
        intro l hl
        rcases List.mem_append.mp hl with hl | hl
        · obtain ⟨a, -, rfl⟩ := List.mem_map.mp hl
          exact ⟨rfl, rfl⟩
        · rw [List.eq_of_mem_replicate hl]
          exact trivial) (arrivals_schedule as _)
    exact hpending.drained_after hphase (by simpa using hexec) hcalls
  · rintro hnone ls hok rfl
    obtain ⟨t, os, entries, hexec, hpending', hcalls, hforwards⟩ :=
      hpending.unchanged_run M K code hok hnone
    exact ⟨t, os, entries, hexec, hpending', hcalls, hforwards⟩

theorem no_plugin_unchanged_iff_null : ∃ s,
    bridgeMain (.bump ⟨none, none⟩) pluginOff reversingStart = some s ∧
      ((∀ ls, (∀ l ∈ ls, Allocates l) → arrivals ls = [.payload [1]] →
          PassesUnchanged (.bump ⟨none, none⟩) (.bump ⟨.toServer, []⟩) reversing s ls) ↔
        ∀ a ∈ [Arrival.payload [1]], NoTransform reversingStart.fresh a) := by
  obtain ⟨s, hstart⟩ : ∃ s, bridgeMain (.bump ⟨none, none⟩) pluginOff reversingStart = some s :=
    ⟨_, rfl⟩
  have hoff : pluginOff.pluginEnable = false := rfl
  exact ⟨s, hstart, no_plugin_unchanged_iff hoff hstart _⟩

/-- When `malloc` hands out memory that is not zero, the bridge calls it. -/
theorem no_plugin_junk_counterexample :
    ¬∀ (start : BridgeStart Unit) (s : Bridge Unit) (ls : List BridgeLabel),
      bridgeMain (.bump ⟨none, none⟩) pluginOff start = some s → (∀ l ∈ ls, Allocates l) →
        PassesUnchanged (.bump ⟨none, none⟩) (.bump ⟨.toServer, []⟩) reversing s ls := by
  intro hall
  obtain ⟨t, os, entries, hexec, -, hcalls, -⟩ :=
    hall { reversingStart with fresh := some ⟨some 1, none⟩ } _
      [.arrive true true (.payload [1, 2]), .app, .app, .app] rfl (by simp [Allocates])
  cases hexec
  exact absurd hcalls (by decide)

end Bridge

end LibEzmb
