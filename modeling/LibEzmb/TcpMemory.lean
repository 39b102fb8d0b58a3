import LibEzmb.BaseOwnership
import LibEzmb.TcpBridge

/-! The memory of the TCP actuator: the bridge with every block that its callbacks, app_main_thread,
the broadcast and the sender threads allocate, use and free. -/

open CBytes CHeap Ledgers Ownership Runs

namespace LibEzmb

abbrev ActuatorProg (α : Type) := Prog Block α

/-- The blocks of a message in the queue: the node, the message itself and its payload. -/
structure MessageBlocks where
  node : Addr
  self : Addr
  payload : Option Addr
  deriving DecidableEq, Repr

/-- The blocks of a `send_arg_t`: the structure and its copy of the payload. -/
structure SendBlocks where
  arg : Addr
  payload : Addr
  deriving DecidableEq, Repr

/-- What the allocations of a callback give: the buffer of `conn_readcb`, the message, its payload. -/
structure ArrivalEnv where
  buf : Option Addr
  okMsg : Bool
  payload : Option Addr
  deriving DecidableEq, Repr

/-- What the allocations give while a message is passed on: the output of the transform and the two
blocks of the broadcast. -/
structure ForwardEnv where
  out : Option Addr
  arg : Option Addr
  payload : Option Addr
  deriving DecidableEq, Repr

/-- The body that both callbacks share, with the address for the message. -/
def queueMessageOwned (env : ArrivalEnv) (self node : Addr) (size : Nat) :
    ActuatorProg MessageBlocks := do
  match ← malloc (if env.okMsg then some self else none) with
  | none => fail .nullDeref
  | some self =>
      let payload ← malloc env.payload
      if payload.isNone && decide (0 < size) then fail .nullDeref
      else match ← malloc (some node) with
        | none => fail .nullDeref
        | some node => pure ⟨node, self, payload⟩

/-- `conn_readcb`, which hands its buffer to `tcp_server_recv_callback`. -/
def connReadcbOwned (env : ArrivalEnv) (self node : Addr) (size : Nat) :
    ActuatorProg (Option MessageBlocks) :=
  if size = 0 then pure none
  else do
    match ← malloc env.buf with
    | none => pure none
    | some buf => do
        use ⟨buf⟩
        let msg ← queueMessageOwned env self node size
        release ⟨buf⟩
        pure (some msg)

/-- The callback for what arrives: `conn_readcb`, or `monitor_recv_callback`. -/
def arrivalOwned (env : ArrivalEnv) (self node : Addr) : Arrival → ActuatorProg (Option MessageBlocks)
  | .chunk bytes => connReadcbOwned env self node bytes.length
  | .payload bytes => do
      let msg ← queueMessageOwned env self node bytes.length
      pure (some msg)

/-- `e_tcp_server_broadcast`: what its sender threads are given. -/
def eTcpServerBroadcastOwned (env : ForwardEnv) : ActuatorProg (Option SendBlocks) := do
  match ← malloc env.arg with
  | none => pure none
  | some arg =>
      match ← malloc env.payload with
      | none => do
          release ⟨arg⟩
          pure none
      | some payload => pure (some ⟨arg, payload⟩)

def useOpt : Option Addr → ActuatorProg Unit
  | none => pure ()
  | some a => use ⟨a⟩

/-- A message for the server is broadcast; one for the monitor is sent, which allocates nothing here. -/
def passOwned (env : ForwardEnv) (toServer : Bool) : ActuatorProg (Option SendBlocks) :=
  if toServer then eTcpServerBroadcastOwned env else pure none

/-- The rest of a round of app_main_thread, once the message has left the queue. -/
def appMessageOwned (env : ForwardEnv) (self : Addr) (payload : Option Addr) (called toServer : Bool) :
    ActuatorProg (Option SendBlocks) := do
  use ⟨self⟩
  useOpt payload
  let out ← malloc (if called then env.out else none)
  let sent ← passOwned env toServer
  free out
  free payload
  release ⟨self⟩
  pure sent

/-- `e_tcp_server_send`, as far as it looks at what it was given. -/
def eTcpServerSendOwned (x : SendBlocks) : ActuatorProg Unit := do
  use ⟨x.arg⟩
  use ⟨x.payload⟩
  pure ()

/-! ### The actuator -/

/-- The bridge, the blocks that are allocated, and who has them: the messages in the queue, the one in
hand, the broadcasts there have been, the queue with its first node, and app_main_thread with its first
`malloc`. -/
structure ActuatorMemory (π : Type) where
  bridge : Bridge π
  world : Account Block
  queue : List MessageBlocks
  hand : Option MessageBlocks
  sent : List SendBlocks
  top : Addr
  driver : Option Addr

/-- A callback runs; app_main_thread takes its next step; one of the sender threads of a broadcast
runs. -/
inductive ActuatorLabel where
  | arrive (env : ArrivalEnv) (what : Arrival)
  | app (env : ForwardEnv)
  | send (x : SendBlocks)

inductive ActuatorFault where
  | bridge (fault : Fault)
  | memory (fault : OwnFault)
  deriving DecidableEq, Repr

/-- What a step lets through to the bridge, and whether it started a broadcast. -/
structure ActuatorOut where
  arrived : Option Arrival
  out : BridgeOut
  started : Bool
  deriving DecidableEq, Repr

namespace ActuatorMemory

variable {π : Type} (M : Malloc EQnode) (K : Malloc MessageQueue) (code : TransformCode π)

/-- A callback, whose blocks the bridge takes into its queue. -/
def arrive (s : ActuatorMemory π) (env : ArrivalEnv) (what : Arrival) :
    Except ActuatorFault (ActuatorMemory π × ActuatorOut) := do
  let (msg, world) ← liftFault .memory
    (arrivalOwned env (K.addr s.bridge.messages) (M.addr s.bridge.nodes) what s.world)
  match msg with
  | none => .ok ({ s with world := world }, ⟨none, .quiet, false⟩)
  | some msg => do
      let (bridge, out) ← liftFault .bridge
        (s.bridge.step M K code (.arrive env.okMsg env.payload.isSome what))
      .ok ({ s with bridge := bridge, world := world, queue := s.queue ++ [msg] },
        ⟨some what, out, false⟩)

/-- A step of app_main_thread: `e_queue_pop` frees the node, and the rest of the round the message. -/
def app (s : ActuatorMemory π) (env : ForwardEnv) :
    Except ActuatorFault (ActuatorMemory π × ActuatorOut) := do
  let (bridge, out) ← liftFault .bridge (s.bridge.step M K code .app)
  match s.bridge.phase, s.queue, s.hand with
  | .pop, msg :: queue, _ => do
      let (_, world) ← liftFault .memory (release (⟨msg.node⟩ : Block) s.world)
      .ok ({ s with bridge := bridge, world := world, queue := queue, hand := some msg },
        ⟨none, out, false⟩)
  | .holding _, _, some msg => do
      let toServer := (out.forward?.bind Forward.broadcast?).isSome
      let (sent, world) ← liftFault .memory
        (appMessageOwned env msg.self msg.payload out.called?.isSome toServer s.world)
      .ok ({ s with bridge := bridge, world := world, hand := none, sent := sent.toList ++ s.sent },
        ⟨none, out, sent.isSome⟩)
  | _, _, _ => .ok ({ s with bridge := bridge }, ⟨none, out, false⟩)

def step (s : ActuatorMemory π) : ActuatorLabel → Except ActuatorFault (ActuatorMemory π × ActuatorOut)
  | .arrive env what => s.arrive M K code env what
  | .app env => s.app M K code env
  | .send x =>
      if x ∈ s.sent then do
        let (_, world) ← liftFault .memory (eTcpServerSendOwned x s.world)
        .ok ({ s with world := world }, ⟨none, .quiet, false⟩)
      else .error (.memory .impossible)

/-- The first `malloc`s of the queue and of app_main_thread. -/
def allocateOwned (top : Addr) (driver : Option Addr) : ActuatorProg (Option Addr) := do
  let _ ← malloc (some top)
  malloc driver

/-- `main` until the threads run. -/
def actuatorMain (config : TcpServerConfig) (start : BridgeStart π) (driver : Option Addr) :
    Option (ActuatorMemory π) := do
  let bridge ← bridgeMain M config start
  match allocateOwned (M.addr Heap.empty) driver .empty with
  | .error _ => none
  | .ok (driver, world) => some ⟨bridge, world, [], none, [], M.addr Heap.empty, driver⟩

end ActuatorMemory

/-! ### What the functions own -/

/-- The blocks of a message that has left the queue. -/
def MessageBlocks.inHand (m : MessageBlocks) : List Block :=
  ⟨m.self⟩ :: (m.payload.map Block.mk).toList

def MessageBlocks.blocks (m : MessageBlocks) : List Block := ⟨m.node⟩ :: m.inHand

def SendBlocks.blocks (x : SendBlocks) : List Block := [⟨x.arg⟩, ⟨x.payload⟩]

/-- The callback gets what it writes to. -/
def ArrivalEnv.Serves (env : ArrivalEnv) (size : Nat) : Prop :=
  env.okMsg = true ∧ (env.payload ≠ none ∨ size = 0)

section Owned

variable {pre : List Block} {env : ArrivalEnv} {self node : Addr} {size : Nat}

/-- What may stop a callback. -/
def ArrivalFault (env : ArrivalEnv) (size : Nat) (e : OwnFault) : Prop :=
  e = .impossible ∨ e = .nullDeref ∧ ¬env.Serves size

theorem queueMessageOwned_owns (pre : List Block) (env : ArrivalEnv) (self node : Addr) (size : Nat) :
    Owns (ArrivalFault env size) pre (queueMessageOwned env self node size) fun m own =>
      own.Perm (m.blocks ++ pre) ∧ m.self = self ∧ env.Serves size := by
  cases hmsg : env.okMsg with
  | false =>
      have hstarved : ¬env.Serves size := fun hserves => by
        rw [hserves.1] at hmsg
        cases hmsg
      simp only [queueMessageOwned, hmsg, Bool.false_eq_true, if_false]
      exact Owns.malloc (Or.inl rfl) (.fail (Or.inr ⟨rfl, hstarved⟩))
  | true =>
      simp only [queueMessageOwned, hmsg, if_true]
      refine Owns.malloc (Or.inl rfl) (Owns.malloc (Or.inl rfl) ?_)
      split
      · next hstarved =>
          simp only [Bool.and_eq_true, Option.isNone_iff_eq_none, decide_eq_true_eq] at hstarved
          refine .fail (Or.inr ⟨rfl, fun hserves => ?_⟩)
          rcases hserves.2 with hne | hzero
          · exact hne hstarved.1
          · omega
      · next hserved =>
          refine Owns.malloc (Or.inl rfl) (.pure ⟨?_, rfl, hmsg, ?_⟩)
          · rw [List.perm_iff_count]
            intro b
            simp only [MessageBlocks.blocks, MessageBlocks.inHand, List.count_append, List.count_cons,
              Option.map_some, Option.toList_some, List.count_nil]
            omega
          · simp only [Bool.and_eq_true, Option.isNone_iff_eq_none, decide_eq_true_eq] at hserved
            by_cases hnone : env.payload = none
            · exact Or.inr (by by_contra hne; exact hserved ⟨hnone, Nat.pos_of_ne_zero hne⟩)
            · exact Or.inl hnone

theorem connReadcbOwned_owns (env : ArrivalEnv) (self node : Addr) (size : Nat) :
    Owns (ArrivalFault env size) [] (connReadcbOwned env self node size) fun m own =>
      own.Perm (m.toList.flatMap MessageBlocks.blocks) ∧
        ∀ m' ∈ m, m'.self = self ∧ env.Serves size := by
  unfold connReadcbOwned
  split
  · exact .pure ⟨List.Perm.refl _, nofun⟩
  · refine Owns.acquireFlat (Or.inl rfl) (fun _ => .pure ⟨List.Perm.refl _, nofun⟩) fun buf _ => ?_
    refine Owns.use List.mem_cons_self ?_
    refine (queueMessageOwned_owns [⟨buf⟩] env self node size).bind fun m own hm => ?_
    obtain ⟨hperm, hself, hserves⟩ := hm
    refine Owns.perm (hperm.trans List.perm_append_comm) (Owns.releaseFlat (.pure ⟨?_, ?_⟩))
    · simp
    · intro m' hm'
      cases hm'
      exact ⟨hself, hserves⟩

theorem eTcpServerBroadcastOwned_owns (pre : List Block) (env : ForwardEnv) :
    Owns (· = .impossible) pre (eTcpServerBroadcastOwned env) fun sent own =>
      own.Perm (sent.toList.flatMap SendBlocks.blocks ++ pre) := by
  refine Owns.acquireFlat rfl (fun _ => .pure (List.Perm.refl _)) fun arg _ => ?_
  refine Owns.acquireFlat rfl (fun _ => ?_) fun payload _ => ?_
  · exact Owns.releaseFlat (.pure (List.Perm.refl _))
  · refine .pure ?_
    simp only [Option.toList_some, List.flatMap_singleton, SendBlocks.blocks]
    exact List.Perm.swap _ _ _

theorem passOwned_owns (pre : List Block) (env : ForwardEnv) (toServer : Bool) :
    Owns (· = .impossible) pre (passOwned env toServer) fun sent own =>
      own.Perm (sent.toList.flatMap SendBlocks.blocks ++ pre) := by
  cases toServer with
  | false => exact .pure (List.Perm.refl _)
  | true => exact eTcpServerBroadcastOwned_owns pre env

theorem useOpt_owns {α : Type} {p : Option Addr} {f : Unit → ActuatorProg α}
    {post : α → List Block → Prop} {faults : OwnFault → Prop}
    (hp : ∀ b ∈ (p.map Block.mk).toList, b ∈ pre) (hf : Owns faults pre (f ()) post) :
    Owns faults pre (useOpt p >>= f) post := by
  cases p with
  | none => exact hf
  | some a => exact Owns.use (hp ⟨a⟩ (by simp)) hf

theorem appMessageOwned_owns (env : ForwardEnv) (m : MessageBlocks) (called toServer : Bool) :
    Owns (· = .impossible) m.inHand (appMessageOwned env m.self m.payload called toServer)
      fun sent own => own.Perm (sent.toList.flatMap SendBlocks.blocks) := by
  refine Owns.use List.mem_cons_self (useOpt_owns (fun b hb => List.mem_cons_of_mem _ hb) ?_)
  refine Owns.malloc rfl ?_
  refine (passOwned_owns _ env toServer).bind fun sent own hperm => ?_
  have hperm' : own.Perm (((if called then env.out else none).map Block.mk).toList ++
      ((m.payload.map Block.mk).toList ++ ⟨m.self⟩ :: sent.toList.flatMap SendBlocks.blocks)) := by
    refine hperm.trans ?_
    rw [List.perm_iff_count]
    intro b
    simp only [MessageBlocks.inHand, List.count_append, List.count_cons]
    omega
  exact Owns.perm hperm' (Owns.free (Owns.free
    (Owns.releaseFlat (.pure (List.Perm.refl _)))))

end Owned

/-! ### Runs -/

/-- A callback whose `malloc`s give what it needs goes as if they had all succeeded. -/
theorem Bridge.step_arrive_of_serves {π : Type} {M : Malloc EQnode} {K : Malloc MessageQueue}
    {code : TransformCode π} {s : Bridge π} {env : ArrivalEnv} {what : Arrival}
    (hserves : env.Serves what.bytes.length) :
    s.step M K code (.arrive env.okMsg env.payload.isSome what) =
      s.step M K code (.arrive true true what) := by
  have hsame : ∀ type bytes, env.Serves bytes.length →
      queueMessage M K type env.okMsg env.payload.isSome bytes s =
        queueMessage M K type true true bytes s := by
    intro type bytes hserves
    have hpayload : (!env.payload.isSome && !bytes.isEmpty) = false := by
      rcases hserves.2 with hne | hzero
      · obtain ⟨a, ha⟩ := Option.ne_none_iff_exists'.mp hne
        rw [ha]
        rfl
      · rw [List.eq_nil_of_length_eq_zero hzero]
        simp
    simp only [queueMessage, hserves.1, hpayload, Bool.not_true, Bool.false_and]
  cases what with
  | chunk bytes => simp only [step, tcpServerRecvCallback, hsame _ bytes hserves]
  | payload bytes => simp only [step, monitorRecvCallback, hsame _ bytes hserves]

namespace ActuatorMemory

variable {π : Type} {M : Malloc EQnode} {K : Malloc MessageQueue} {code : TransformCode π}
  {s t : ActuatorMemory π} {entries : List (Addr × Arrival)}

/-- The blocks that somebody has. -/
def blocks (s : ActuatorMemory π) : List Block :=
  s.queue.flatMap MessageBlocks.blocks ++ (s.hand.toList.flatMap MessageBlocks.inHand ++
    (s.sent.flatMap SendBlocks.blocks ++ (⟨s.top⟩ :: (s.driver.map Block.mk).toList)))

/-- The messages of the bridge have their blocks, and every block that is held is somebody's. -/
structure Inv (s : ActuatorMemory π) (entries : List (Addr × Arrival)) : Prop where
  pending : s.bridge.Pending entries
  selfs : entries.map Prod.fst = (s.hand.toList ++ s.queue).map MessageBlocks.self
  busy : s.hand ≠ none ↔ s.bridge.phase.Busy
  sound : Ownership.Sound s.world
  held : s.world.held.Perm s.blocks

theorem Inv.start {config : TcpServerConfig} {start : BridgeStart π} {driver : Option Addr}
    (hstart : actuatorMain M config start driver = some s) : s.Inv [] := by
  obtain ⟨bridge, hbridge, hrest⟩ := Option.bind_eq_some_iff.mp hstart
  obtain ⟨hpending, hphase, -, -⟩ := Bridge.Pending.init hbridge
  split at hrest
  · cases hrest
  · next driver' world hallocate =>
      cases hrest
      have howns : Owns (· = .impossible) [] (allocateOwned (M.addr Heap.empty) driver) fun d own =>
          own.Perm (⟨M.addr Heap.empty⟩ :: (d.map Block.mk).toList) := by
        refine Owns.malloc rfl ?_
        rw [← bind_pure (malloc driver)]
        exact Owns.malloc rfl (.pure List.perm_append_comm)
      rcases howns [] .empty (Flat.closed _) .empty (List.Perm.refl _) with
        ⟨e, he, -⟩ | ⟨d, world', own, hok, hown, hsound, hheld⟩
      · rw [hallocate] at he
        cases he
      · rw [hallocate] at hok
        cases hok
        refine ⟨hpending, rfl, ?_, hsound, ?_⟩
        · rw [hphase]
          simp [AppPhase.Busy]
        · rw [List.append_nil] at hheld
          exact hheld.trans hown

end ActuatorMemory

/-- What may stop a step: an answer that no system gives, a callback that writes where there is no
memory, app_main_thread without its driver or at a transform that is no function. -/
def ActuatorLabel.MayFail {π : Type} (code : TransformCode π) (driver : Option EPluginDriver) :
    ActuatorLabel → ActuatorFault → Prop
  | _, .memory .impossible => True
  | .arrive env what, .memory .nullDeref => ¬env.Serves what.bytes.length
  | .app _, .bridge fault => ∃ a, Bridge.Stops code driver a fault
  | _, _ => False

namespace ActuatorMemory

variable {π : Type} (M : Malloc EQnode) (K : Malloc MessageQueue) (code : TransformCode π)
  {s t : ActuatorMemory π} {entries : List (Addr × Arrival)}

/-- The step fails in an expected way, or keeps the books and adds a broadcast when it starts one. -/
def Good (s : ActuatorMemory π) (l : ActuatorLabel) : Prop :=
  (∃ e, s.step M K code l = .error e ∧ l.MayFail code s.bridge.driver e) ∨
    ∃ t o entries', s.step M K code l = .ok (t, o) ∧ t.Inv entries' ∧
      t.bridge.driver = s.bridge.driver ∧
      ∃ new, t.sent = new ++ s.sent ∧ new.length = if o.started then 1 else 0

/-- What a part of a step allocates and frees, for the one who has the blocks `pre`. -/
theorem Inv.run (hinv : s.Inv entries) {α : Type} {faults : OwnFault → Prop} {pre frame : List Block}
    {x : ActuatorProg α} {post : α → List Block → Prop} (hx : Owns faults pre x post)
    (hheld : s.blocks.Perm (pre ++ frame)) :
    (∃ e, x s.world = .error e ∧ faults e) ∨
      ∃ a world own, x s.world = .ok (a, world) ∧ post a own ∧ Ownership.Sound world ∧
        world.held.Perm (own ++ frame) :=
  hx frame s.world (Flat.closed _) hinv.sound (hinv.held.trans hheld)

variable {M K code}

theorem arrival_mayFail {env : ArrivalEnv} {what : Arrival} {driver : Option EPluginDriver}
    {e : OwnFault} (he : ArrivalFault env what.bytes.length e) :
    (ActuatorLabel.arrive env what).MayFail code driver (.memory e) := by
  rcases he with rfl | ⟨rfl, hstarved⟩
  · trivial
  · exact hstarved

theorem arrivalOwned_owns (env : ArrivalEnv) (self node : Addr) (what : Arrival) :
    Owns (ArrivalFault env what.bytes.length) [] (arrivalOwned env self node what) fun m own =>
      own.Perm (m.toList.flatMap MessageBlocks.blocks) ∧
        ∀ m' ∈ m, m'.self = self ∧ env.Serves what.bytes.length := by
  cases what with
  | chunk bytes => exact connReadcbOwned_owns env self node bytes.length
  | payload bytes =>
      refine (queueMessageOwned_owns [] env self node bytes.length).bind fun m own hm =>
        .pure ⟨?_, ?_⟩
      · simpa using hm.1
      · intro m' hm'
        cases hm'
        exact hm.2

theorem Inv.arrive (hinv : s.Inv entries) (env : ArrivalEnv) (what : Arrival) :
    s.Good M K code (.arrive env what) := by
  have hmine : s.blocks.Perm ([] ++ s.blocks) := List.Perm.refl _
  rcases hinv.run (arrivalOwned_owns env (K.addr s.bridge.messages) (M.addr s.bridge.nodes) what)
      hmine with
    ⟨e, he, hfault⟩ | ⟨msg, world, own, hok, ⟨hown, hserves⟩, hsound, hheld⟩
  · refine Or.inl ⟨.memory e, ?_, arrival_mayFail hfault⟩
    simp only [step, ActuatorMemory.arrive, he, liftFault, error_bind]
  cases msg with
  | none =>
      refine Or.inr ⟨{ s with world := world }, ⟨none, .quiet, false⟩, entries, ?_,
        ⟨hinv.pending, hinv.selfs, hinv.busy, hsound, ?_⟩, rfl, [], rfl, rfl⟩
      · simp only [step, ActuatorMemory.arrive, hok, liftFault, ok_bind]
      · rw [List.Perm.eq_nil hown] at hheld
        exact hheld
  | some msg =>
      obtain ⟨hself, hserved⟩ := hserves msg rfl
      obtain ⟨bridge, hstep, hpending, hphase, hdriver, -⟩ :=
        hinv.pending.arrive M K code what
      refine Or.inr ⟨{ s with bridge := bridge, world := world, queue := s.queue ++ [msg] },
        ⟨some what, .quiet, false⟩, _, ?_, ⟨hpending, ?_, ?_, hsound, ?_⟩, hdriver, [], rfl, rfl⟩
      · simp only [step, ActuatorMemory.arrive, hok, liftFault, ok_bind,
          Bridge.step_arrive_of_serves hserved, hstep]
      · simp only [List.map_append, List.map_singleton, hinv.selfs, hself, List.append_assoc]
      · rw [hphase]
        exact hinv.busy
      · refine hheld.trans ((hown.append_right _).trans ?_)
        rw [List.perm_iff_count]
        intro b
        simp only [blocks, Option.toList_some, List.flatMap_singleton, List.flatMap_append,
          List.count_append]
        omega

theorem Inv.app_test (hinv : s.Inv entries) (env : ForwardEnv) (hphase : s.bridge.phase = .test) :
    s.Good M K code (.app env) := by
  obtain ⟨bridge, hstep, hpending, hidle, -, hdriver, -⟩ :=
    hinv.pending.app_test M K code hphase
  have hempty : ¬s.hand ≠ none := by
    rw [hinv.busy, hphase]
    exact id
  refine Or.inr ⟨{ s with bridge := bridge }, ⟨none, .quiet, false⟩, entries, ?_,
    ⟨hpending, hinv.selfs, iff_of_false hempty hidle, hinv.sound, hinv.held⟩, hdriver, [], rfl, rfl⟩
  simp only [step, app, hstep, liftFault, ok_bind, hphase]

/-- The message at the head of the queue is taken into the hand, and its node is freed. -/
theorem Inv.app_pop (hinv : s.Inv entries) (env : ForwardEnv) (hphase : s.bridge.phase = .pop) :
    s.Good M K code (.app env) := by
  obtain ⟨e, rest, bridge, rfl, hstep, hpending, hbusy, hdriver, -⟩ :=
    hinv.pending.app_pop M K code hphase
  have hempty : s.hand = none := by
    by_contra hne
    have hbusy' := hinv.busy.mp hne
    rw [hphase] at hbusy'
    exact hbusy'
  have hselfs := hinv.selfs
  rw [hempty, Option.toList_none, List.nil_append, List.map_cons] at hselfs
  cases hqueue : s.queue with
  | nil =>
      rw [hqueue] at hselfs
      cases hselfs
  | cons msg queue =>
      rw [hqueue] at hselfs
      have hmine : s.blocks.Perm ([⟨msg.node⟩] ++ (msg.inHand ++ ({ s with queue := queue }).blocks)) := by
        rw [List.perm_iff_count]
        intro b
        simp only [blocks, hqueue, List.flatMap_cons, MessageBlocks.blocks, List.count_append,
          List.count_cons, List.count_nil]
        omega
      have hfree : Owns (fun _ => False) [⟨msg.node⟩] (release (⟨msg.node⟩ : Block))
          fun _ own => own = [] := by
        rw [← bind_pure (release (⟨msg.node⟩ : Block))]
        exact Owns.releaseFlat (.pure rfl)
      rcases hinv.run hfree hmine with ⟨e', -, hfalse⟩ | ⟨_, world, own, hok, rfl, hsound, hheld⟩
      · exact hfalse.elim
      refine Or.inr ⟨{ s with bridge := bridge, world := world, queue := queue, hand := some msg },
        ⟨none, .quiet, false⟩, _, ?_, ⟨hpending, hselfs, iff_of_true nofun hbusy, hsound, ?_⟩, hdriver,
        [], rfl, rfl⟩
      · simp only [step, app, hstep, liftFault, ok_bind, hphase, hqueue, hok]
      · refine hheld.trans ?_
        rw [List.perm_iff_count]
        intro b
        simp only [blocks, hempty, Option.toList_none, Option.toList_some, List.flatMap_singleton,
          List.flatMap_nil, List.count_append, List.count_nil]
        omega

/-- The message in hand is passed on and freed; a broadcast keeps two blocks. -/
theorem Inv.app_holding (hinv : s.Inv entries) (env : ForwardEnv) {p : Ptr}
    (hphase : s.bridge.phase = .holding p) : s.Good M K code (.app env) := by
  have hbusy : s.bridge.phase.Busy := by rw [hphase]; trivial
  obtain ⟨e, rest, rfl, hcase⟩ :=
    hinv.pending.app_holding M K code hbusy
  obtain ⟨msg, hhand⟩ := Option.ne_none_iff_exists'.mp (hinv.busy.mpr hbusy)
  have hselfs := hinv.selfs
  rw [hhand, Option.toList_some, List.singleton_append, List.map_cons, List.map_cons,
    List.cons.injEq] at hselfs
  rcases hcase with ⟨fault, hstops, hstep⟩ | ⟨bridge, out, d, hstep, hpending, hdriver, hpasses⟩
  · refine Or.inl ⟨.bridge fault, ?_, e.2, hstops⟩
    simp only [step, app, hstep, liftFault, error_bind]
  have hidle : ¬bridge.phase.Busy := by
    rw [hpasses.phase]
    exact id
  have hmine : s.blocks.Perm (msg.inHand ++ ({ s with hand := none }).blocks) := by
    rw [List.perm_iff_count]
    intro b
    simp only [blocks, hhand, Option.toList_none, Option.toList_some, List.flatMap_singleton,
      List.flatMap_nil, List.count_append, List.count_nil]
    omega
  rcases hinv.run (appMessageOwned_owns env msg out.called?.isSome
      (out.forward?.bind Forward.broadcast?).isSome) hmine with
    ⟨e', he, rfl⟩ | ⟨sent, world, own, hok, hown, hsound, hheld⟩
  · refine Or.inl ⟨.memory .impossible, ?_, trivial⟩
    simp only [step, app, hstep, liftFault, ok_bind, hphase, hhand, he, error_bind]
  refine Or.inr ⟨{ s with
      bridge := bridge, world := world, hand := none, sent := sent.toList ++ s.sent },
    ⟨none, out, sent.isSome⟩, rest, ?_,
    ⟨hpending, hselfs.2, iff_of_false (fun hne => hne rfl) hidle, hsound, ?_⟩, hdriver,
    sent.toList, rfl, ?_⟩
  · simp only [step, app, hstep, liftFault, ok_bind, hphase, hhand, hok]
  · refine hheld.trans ((hown.append_right _).trans ?_)
    rw [List.perm_iff_count]
    intro b
    simp only [blocks, Option.toList_none, List.flatMap_nil, List.flatMap_append, List.count_append,
      List.count_nil]
    omega
  · cases sent <;> rfl

/-- A sender thread finds both blocks of its broadcast. -/
theorem Inv.send (hinv : s.Inv entries) {x : SendBlocks} : s.Good M K code (.send x) := by
  by_cases hx : x ∈ s.sent
  · have hmem : ∀ b ∈ x.blocks, b ∈ s.blocks := by
      intro b hb
      simp only [blocks, List.mem_append, List.mem_flatMap]
      exact Or.inr (Or.inr (Or.inl ⟨x, hx, hb⟩))
    have huse : Owns (fun _ => False) s.blocks (eTcpServerSendOwned x) fun _ own => own = s.blocks :=
      Owns.use (hmem _ (by simp [SendBlocks.blocks]))
        (Owns.use (hmem _ (by simp [SendBlocks.blocks])) (.pure rfl))
    have hmine : s.blocks.Perm (s.blocks ++ []) := by rw [List.append_nil]
    rcases hinv.run huse hmine with
      ⟨e, -, hfalse⟩ | ⟨_, world, own, hok, rfl, hsound, hheld⟩
    · exact hfalse.elim
    rw [List.append_nil] at hheld
    refine Or.inr ⟨{ s with world := world }, ⟨none, .quiet, false⟩, entries, ?_,
      ⟨hinv.pending, hinv.selfs, hinv.busy, hsound, hheld⟩, rfl, [], rfl, rfl⟩
    simp only [step, if_pos hx, hok, liftFault, ok_bind]
  · exact Or.inl ⟨.memory .impossible, by simp only [step, if_neg hx], trivial⟩

theorem Inv.good (hinv : s.Inv entries) (l : ActuatorLabel) : s.Good M K code l := by
  cases l with
  | arrive env what => exact hinv.arrive env what
  | send x => exact hinv.send
  | app env =>
      cases hphase : s.bridge.phase with
      | test => exact hinv.app_test env hphase
      | pop => exact hinv.app_pop env hphase
      | holding p => exact hinv.app_holding env hphase

/-- The step of the bridge that a step comes to, if it comes to one. -/
def bridgeStep : ActuatorLabel × ActuatorOut → Option (BridgeLabel × BridgeOut)
  | (.arrive env _, ⟨some what, out, _⟩) => some (.arrive env.okMsg env.payload.isSome what, out)
  | (.app _, o) => some (.app, o.out)
  | _ => none

/-- The broadcasts that were started. -/
def startedIn (los : List (ActuatorLabel × ActuatorOut)) : Nat :=
  (los.filter fun lo => lo.2.started).length

theorem Inv.runs {los : List (ActuatorLabel × ActuatorOut)} (hinv : s.Inv entries)
    (hrun : Run (Fires (step M K code)) s los t) :
    ∃ entries', t.Inv entries' ∧ t.bridge.driver = s.bridge.driver ∧
      ∃ new, t.sent = new ++ s.sent ∧ new.length = startedIn los := by
  induction hrun generalizing entries with
  | nil => exact ⟨entries, hinv, rfl, [], rfl, rfl⟩
  | @cons s u t lo los hstep _ ih =>
      rcases hinv.good lo.1 with ⟨e, he, -⟩ | ⟨v, o, entries₁, hok, hinv₁, hdriver₁, new₁, hsent₁, hlen₁⟩
      · rw [Fires, he] at hstep
        cases hstep
      · have heq := Except.ok.inj (hok.symm.trans hstep)
        rw [Prod.mk.injEq] at heq
        obtain ⟨rfl, rfl⟩ := heq
        obtain ⟨entries₂, hinv₂, hdriver₂, new₂, hsent₂, hlen₂⟩ := ih hinv₁
        refine ⟨entries₂, hinv₂, hdriver₂.trans hdriver₁, new₂ ++ new₁, ?_, ?_⟩
        · rw [hsent₂, hsent₁, List.append_assoc]
        · rw [List.length_append, hlen₁, hlen₂, startedIn, startedIn, List.filter_cons]
          cases lo.2.started <;> simp

/-- The pointers in the queue are those of the messages that own their blocks. -/
theorem Inv.queued (hinv : s.Inv entries) :
    Holds s.bridge.nodes s.bridge.queue (s.queue.map fun m => some m.self) := by
  obtain ⟨queued, hahead, hholds⟩ := hinv.pending.queued
  have hselfs : queued.map Prod.fst = s.queue.map MessageBlocks.self := by
    have hall := hinv.selfs
    cases hphase : s.bridge.phase with
    | holding msg =>
        rw [hphase] at hahead
        obtain ⟨e, rfl, -⟩ := hahead
        have hbusy : s.bridge.phase.Busy := by rw [hphase]; trivial
        obtain ⟨m, hm⟩ := Option.ne_none_iff_exists'.mp (hinv.busy.mpr hbusy)
        rw [hm, Option.toList_some, List.singleton_append, List.map_cons, List.map_cons,
          List.cons.injEq] at hall
        exact hall.2
    | test | pop =>
        have hempty : s.hand = none := by
          by_contra hne
          have hbusy := hinv.busy.mp hne
          rw [hphase] at hbusy
          exact hbusy
        rw [hphase] at hahead
        rw [hempty, Option.toList_none, List.nil_append] at hall
        first
          | exact hahead ▸ hall
          | exact hahead.1 ▸ hall
  have hsome : (s.queue.map fun m => some m.self) = queued.map fun e => some e.1 := by
    calc (s.queue.map fun m => some m.self)
        = (s.queue.map MessageBlocks.self).map some := by rw [List.map_map]; rfl
      _ = (queued.map Prod.fst).map some := by rw [hselfs]
      _ = queued.map fun e => some e.1 := by rw [List.map_map]; rfl
  rw [hsome]
  exact hholds

/-- A step of the actuator is a step of the bridge, or leaves the bridge alone. -/
theorem step_bridge {lo : ActuatorLabel × ActuatorOut} (hstep : Fires (step M K code) s lo t) :
    (bridgeStep lo = none ∧ t.bridge = s.bridge) ∨
      ∃ k, bridgeStep lo = some k ∧ Fires (Bridge.step M K code) s.bridge k t.bridge := by
  obtain ⟨l, o⟩ := lo
  cases l with
  | arrive env what =>
      obtain ⟨⟨msg, world⟩, -, hrest⟩ := bind_eq_ok hstep
      cases msg with
      | none =>
          cases hrest
          exact Or.inl ⟨rfl, rfl⟩
      | some msg =>
          obtain ⟨⟨bridge, out⟩, hbridge, hout⟩ := bind_eq_ok hrest
          cases hout
          exact Or.inr ⟨_, rfl, liftFault_ok hbridge⟩
  | app env =>
      obtain ⟨⟨bridge, out⟩, hbridge, hrest⟩ := bind_eq_ok hstep
      have hfires := liftFault_ok hbridge
      dsimp only at hrest
      split at hrest
      · obtain ⟨x, -, hout⟩ := bind_eq_ok hrest
        cases hout
        exact Or.inr ⟨_, rfl, hfires⟩
      · obtain ⟨x, -, hout⟩ := bind_eq_ok hrest
        cases hout
        exact Or.inr ⟨_, rfl, hfires⟩
      · cases hrest
        exact Or.inr ⟨_, rfl, hfires⟩
  | send x =>
      simp only [Fires, step] at hstep
      split at hstep
      · obtain ⟨y, -, hout⟩ := bind_eq_ok hstep
        cases hout
        exact Or.inl ⟨rfl, rfl⟩
      · cases hstep

/-- A run of the actuator makes a run of its bridge. -/
theorem run_bridge {los : List (ActuatorLabel × ActuatorOut)}
    (hrun : Run (Fires (step M K code)) s los t) :
    Run (Fires (Bridge.step M K code)) s.bridge (los.filterMap bridgeStep) t.bridge :=
  hrun.project fun _ _ _ hstep => step_bridge hstep

/-- What reaches the bridge is what the callback was given, and no empty chunk. -/
theorem arrived_eq {env : ArrivalEnv} {what : Arrival} {o : ActuatorOut}
    (hstep : s.step M K code (.arrive env what) = .ok (t, o)) :
    o.arrived = none ∨ o.arrived = some what ∧ what ≠ .chunk [] := by
  obtain ⟨⟨msg, world⟩, hprog, hrest⟩ := bind_eq_ok hstep
  cases msg with
  | none =>
      cases hrest
      exact Or.inl rfl
  | some msg =>
      obtain ⟨⟨bridge, out⟩, -, hout⟩ := bind_eq_ok hrest
      cases hout
      refine Or.inr ⟨rfl, ?_⟩
      rintro rfl
      cases liftFault_ok hprog

/-- Messages get the addresses from 100 on. -/
def sampleMessages : Malloc MessageQueue where
  addr h := max h.bound 100
  fresh h := h.cell_above _ (le_max_left _ _)
  junk _ := ⟨.toServer, []⟩

end ActuatorMemory

end LibEzmb
