import LibEzmb.CollectorMain
import LibEzmb.SerialRuns

/-! The start of the serial collector: configurations, ports and devices go through three queues and
two loops, and come out in pairs. -/

open CHeap CBytes KeyedLists Runs

namespace LibEzmb

/-- A configuration and the address of its device. -/
structure Pairing where
  config : SerialConfig
  device : Addr

/-- The context of the port of a pair, before it is opened. -/
def Pairing.context (p : Pairing) : SerialContext :=
  addedContext p.config (some recvCallbackAddr) (some p.device)

/-- A collector for this uid that calls `on_client_recv`. -/
structure DeviceFor (config : SerialConfig) (d : EDevice) : Prop where
  uid : config.uid = some d.uid
  topic : d.sendTopic = formatTopic d.uid northSuffix
  cb : d.cb = some onClientRecvAddr

/-- Each pair has a device for its configuration. -/
def DevicesFor (devices : Heap EDevice) (ps : List Pairing) : Prop :=
  ∀ p ∈ ps, ∃ d, devices.cell p.device = some d ∧ DeviceFor p.config d

/-- The queue holds pointers to these configurations. -/
def QueueOf (configs : Heap SerialConfig) (nodes : QHeap) (q : EQueue) (cs : List SerialConfig) :
    Prop :=
  ∃ as, Holds nodes q (as.map some) ∧ List.Forall₂ (fun a c => configs.cell a = some c) as cs

section Start

variable {env : StartEnv} {configs : Heap SerialConfig} {cs : List SerialConfig}

theorem eCollectorCreateDefault_spec (M : Malloc EDevice) {env : CreateEnv} (henv : env.Succeeds)
    (devices : Heap EDevice) {config : SerialConfig} (huid : config.uid ≠ none) :
    ∃ d, eCollectorCreateDefault M env devices config.uid (some onClientRecvAddr) =
        (devices.set (M.addr devices) d, some (M.addr devices)) ∧ DeviceFor config d := by
  obtain ⟨uid, hsome⟩ := Option.ne_none_iff_exists'.mp huid
  obtain ⟨d, hd⟩ := Option.isSome_iff_exists.mp ((eCommonCreate_isSome_iff env uid
    EZMB_DEFAULT_SOUTH_URL EZMB_DEFAULT_NORTH_URL (some onClientRecvAddr) .collector).mpr henv)
  rw [← hsome] at hd
  obtain ⟨huid', -, hcb, -, -, htopic⟩ := eCommonCreate_spec hd
  refine ⟨d, ?_, huid', htopic, hcb⟩
  rw [eCollectorCreateDefault, hd]

/-- While the first loop runs: the configurations that are done have become pairs, the others are in
the first queue. -/
structure AddedUpTo (env : StartEnv) (cs : List SerialConfig) (rest : List (Addr × SerialConfig))
    (ps : List Pairing) (s : Adding) : Prop where
  split : cs = ps.map Pairing.config ++ rest.map Prod.snd
  queues : QueuePair s.nodes s.portQueue s.deviceQueue (rest.map fun x => some x.1)
    (ps.map fun p => some p.device)
  devices : DevicesFor s.devices ps
  ports : ∃ w, Stores ⟨s.manager, .idle, true⟩ w ∧ w.items.map Port.ctx = ps.map Pairing.context
  added : s.added = ps.length
  going : s.failed = false

theorem AddedUpTo.more {rest : List (Addr × SerialConfig)} {ps : List Pairing} {s : Adding}
    (hs : AddedUpTo env cs rest ps s) : addingMore s = .ok !rest.isEmpty := by
  rw [addingMore, hs.going, hs.queues.left.size, List.length_map]
  cases rest <;> simp

theorem map_uid_of_ctx {w : PortMap} {ps : List Pairing}
    (hctx : w.items.map Port.ctx = ps.map Pairing.context) :
    w.keys = ps.map fun p => p.config.uid := by
  calc w.keys = (w.items.map Port.ctx).map fun c => c.ser.uid := by rw [List.map_map]; rfl
    _ = ps.map fun p => p.config.uid := by rw [hctx, List.map_map]; rfl

/-- The configuration that comes next has a uid, and none of those before it has the same. -/
theorem AddedUpTo.next_uid {x : Addr × SerialConfig} {rest : List (Addr × SerialConfig)}
    {ps : List Pairing} {s : Adding} (hs : AddedUpTo env cs (x :: rest) ps s)
    (hnamed : ∀ c ∈ cs, c.uid ≠ none) (hdistinct : (cs.map SerialConfig.uid).Nodup) :
    x.2.uid ≠ none ∧ none ∉ ps.map (fun p => p.config.uid) ∧
      x.2.uid ∉ ps.map fun p => p.config.uid := by
  have hsplit := hs.split
  rw [List.map_cons] at hsplit
  subst hsplit
  rw [List.map_append, List.map_cons, List.map_map, List.nodup_append] at hdistinct
  refine ⟨hnamed x.2 (by simp), fun hmem => ?_, fun hmem => ?_⟩
  · obtain ⟨p, hp, huid⟩ := List.mem_map.mp hmem
    exact hnamed p.config (List.mem_append_left _ (List.mem_map_of_mem hp)) huid
  · exact hdistinct.2.2 _ hmem _ List.mem_cons_self rfl

theorem DevicesFor.set {devices : Heap EDevice} {ps : List Pairing} {p : Pairing} {d : EDevice}
    (hdevices : DevicesFor devices ps) (hfree : devices.cell p.device = none)
    (hfor : DeviceFor p.config d) : DevicesFor (devices.set p.device d) (ps ++ [p]) := by
  intro q hq
  rcases List.mem_append.mp hq with hq | hq
  · obtain ⟨e, he, hfor'⟩ := hdevices q hq
    have hne : q.device ≠ p.device := by
      intro heq
      rw [heq, hfree] at he
      cases he
    exact ⟨e, by rw [Heap.set_cell, if_neg hne, he], hfor'⟩
  · rw [List.mem_singleton.mp hq]
    exact ⟨d, by rw [Heap.set_cell, if_pos rfl], hfor⟩

/-- One round: the device is made, and the port is added with it. -/
theorem AddedUpTo.round {x : Addr × SerialConfig} {rest : List (Addr × SerialConfig)}
    {ps : List Pairing} {s : Adding} (hs : AddedUpTo env cs (x :: rest) ps s)
    (hconfig : configs.cell x.1 = some x.2) (hnamed : ∀ c ∈ cs, c.uid ≠ none)
    (hdistinct : (cs.map SerialConfig.uid).Nodup) (hcreate : (env.create s.added).Succeeds)
    (hcalloc : (env.add s.added).calloc = true) :
    ∃ s' p, addingRound env configs s = .ok s' ∧ AddedUpTo env cs rest (ps ++ [p]) s' := by
  obtain ⟨huid, hnull, hnew⟩ := hs.next_uid hnamed hdistinct
  obtain ⟨nodes, portQueue, hpop, hpair⟩ := hs.queues.pop
  obtain ⟨w, hw, hctx⟩ := hs.ports
  rw [← map_uid_of_ctx hctx] at hnull hnew
  obtain ⟨d, hdevice, hfor⟩ := eCollectorCreateDefault_spec env.device hcreate s.devices huid
  obtain ⟨nodes', deviceQueue, hpush, hpair'⟩ :=
    hpair.symm.push env.node (some (env.device.addr s.devices))
  have hadd := hw.step (l := .add (env.add s.added) (some x.2) (some recvCallbackAddr)
    (some (env.device.addr s.devices))) (by simp)
  rcases hadd with ⟨t, o, w', hstep, hmap, ht⟩ | ⟨-, hbad⟩
  · cases hmap with
    | addPresent hpresent => exact absurd hpresent hnew
    | addNoMemory _ hfails =>
        rw [hcalloc] at hfails
        cases hfails
    | @added _ _ _ _ port hport hnew' _ _ =>
        rw [SerialSystem.step_of_alive rfl] at hstep
        obtain ⟨⟨m', r⟩, hport', hok⟩ := bind_eq_ok hstep
        cases hok
        let p : Pairing := ⟨x.2, env.device.addr s.devices⟩
        refine ⟨{ s with
            nodes := nodes', portQueue := portQueue, deviceQueue := deviceQueue,
            devices := s.devices.set p.device d, manager := m', added := s.added + 1 }, p, ?_, ?_⟩
        · simp only [addingRound, hpop, ok_bind, Heap.deref_of_cell hconfig, hdevice, hport', hpush,
            ne_eq, not_true_eq_false, if_false]
          rfl
        · exact {
            split := by simp [hs.split, p]
            queues := by simpa [p] using hpair'.symm
            devices := hs.devices.set (p := p) (env.device.fresh s.devices) hfor
            ports := ⟨_, ht, by
              show (w.items ++ [port]).map Port.ctx = _
              rw [List.map_append, hctx, List.map_singleton, hport, List.map_append]
              rfl⟩
            added := by simp [hs.added]
            going := hs.going }
  · rcases hbad with hbad | hbad
    · exact absurd huid hbad
    · exact absurd hbad hnull

/-- The first loop makes a pair of each configuration. -/
theorem adding_spec {xs : List (Addr × SerialConfig)} {s : Adding}
    (hs : AddedUpTo env (xs.map Prod.snd) xs [] s) (hconfigs : ∀ x ∈ xs, configs.cell x.1 = some x.2)
    (hnamed : ∀ c ∈ xs.map Prod.snd, c.uid ≠ none)
    (hdistinct : ((xs.map Prod.snd).map SerialConfig.uid).Nodup)
    (hcreate : ∀ i < xs.length, (env.create i).Succeeds)
    (hcalloc : ∀ i < xs.length, (env.add i).calloc = true) :
    ∃ t ps, whileLoop addingMore (addingRound env configs) s.nodes.bound s = .ok t ∧
      AddedUpTo env (xs.map Prod.snd) [] ps t := by
  have hbound : xs.length ≤ s.nodes.bound := hs.queues.left.map_length_le_bound
  have hdrain := whileLoop_drain addingMore (addingRound env configs)
    (fun rest s => (∀ x ∈ rest, x ∈ xs) ∧ ∃ ps, AddedUpTo env (xs.map Prod.snd) rest ps s) False
    (fun s hs => by
      obtain ⟨-, ps, hs⟩ := hs
      exact hs.more)
    (fun x rest s hs => by
      obtain ⟨hrest, ps, hs⟩ := hs
      rw [List.forall_mem_cons] at hrest
      have hadded : s.added < xs.length := by
        have hlen := congrArg List.length hs.split
        simp only [List.length_map, List.length_append, List.length_cons] at hlen
        rw [hs.added]
        omega
      obtain ⟨t, p, hround, ht⟩ := hs.round (hconfigs x hrest.1) hnamed hdistinct
        (hcreate s.added hadded) (hcalloc s.added hadded)
      exact ⟨hs.more, Or.inl ⟨t, hround, hrest.2, ps ++ [p], ht⟩⟩)
    xs s.nodes.bound s hbound ⟨fun x hx => hx, [], hs⟩
  obtain ⟨t, hloop, -, ps, ht⟩ := hdrain.resolve_right fun h => h.2
  exact ⟨t, ps, hloop, ht⟩

/-- While the second loop runs: the pairs that are done have a thread. -/
structure SpawnedUpTo (ps : List Pairing) (portQueue : EQueue) (rest : List Pairing) (s : Spawning) :
    Prop where
  queues : QueuePair s.nodes s.deviceQueue portQueue (rest.map fun p => some p.device) []
  threads : s.threads ++ rest.map (fun p => some p.device) = ps.map fun p => some p.device
  count : s.threadCount = s.threads.length

theorem SpawnedUpTo.more {ps rest : List Pairing} {portQueue : EQueue} {s : Spawning}
    (hs : SpawnedUpTo ps portQueue rest s) : spawningMore s = .ok !rest.isEmpty := by
  rw [spawningMore, hs.queues.left.size, List.length_map]
  cases rest <;> simp

/-- One round: as many rounds as there are pairs do not leave the array. -/
theorem SpawnedUpTo.round {ps rest : List Pairing} {p : Pairing} {portQueue : EQueue} {s : Spawning}
    (hs : SpawnedUpTo ps portQueue (p :: rest) s) (hlen : ps.length ≤ MAX_THREAD_COUNT)
    (hthread : ∀ i < ps.length, env.thread i = true) :
    ∃ s', spawningRound env s = .ok s' ∧ SpawnedUpTo ps portQueue rest s' := by
  obtain ⟨nodes, deviceQueue, hpop, hpair⟩ := hs.queues.pop
  have hcount : s.threadCount < ps.length := by
    have hlength := congrArg List.length hs.threads
    simp only [List.length_append, List.length_map, List.length_cons] at hlength
    rw [hs.count]
    omega
  have hroom : ¬MAX_THREAD_COUNT ≤ s.threadCount := by omega
  refine ⟨⟨nodes, deviceQueue, s.threadCount + 1, s.threads ++ [some p.device]⟩, ?_, hpair, ?_, ?_⟩
  · simp only [spawningRound, hpop, ok_bind, if_neg hroom, hthread s.threadCount hcount, if_true]
  · simpa using hs.threads
  · simp [hs.count]

/-- The second loop starts a thread for each pair, in order. -/
theorem spawning_spec {ps : List Pairing} {portQueue : EQueue} {s : Spawning}
    (hs : SpawnedUpTo ps portQueue ps s) (hlen : ps.length ≤ MAX_THREAD_COUNT)
    (hthread : ∀ i < ps.length, env.thread i = true) :
    ∃ t, whileLoop spawningMore (spawningRound env) s.nodes.bound s = .ok t ∧
      SpawnedUpTo ps portQueue [] t := by
  have hbound : ps.length ≤ s.nodes.bound := hs.queues.left.map_length_le_bound
  have hdrain := whileLoop_drain spawningMore (spawningRound env) (SpawnedUpTo ps portQueue) False
    (fun s hs => hs.more) (fun p rest s hs => ⟨hs.more, Or.inl (hs.round hlen hthread)⟩)
    ps s.nodes.bound s hbound hs
  exact hdrain.resolve_right fun h => h.2

end Start

/-- What the process is once it has started, with these pairs: a port for each of them, in order, whose
data is the device for its configuration, and one thread for each of these devices. -/
structure Collector.Serves (ps : List Pairing) (c : Collector) : Prop where
  ports : ∃ w, Stores c.system w ∧ w.items.map (fun p => p.ctx.unopened) = ps.map Pairing.context
  devices : DevicesFor c.devices ps
  threads : c.threads = ps.map fun p => some p.device

/-- Nothing in the start fails: neither the making of a device, nor an allocation for the manager or a
port, nor the creation of a thread. -/
structure StartEnv.Succeeds (env : StartEnv) (n : Nat) : Prop where
  manager : env.manager = true
  create : ∀ i < n, (env.create i).Succeeds
  calloc : ∀ i < n, (env.add i).calloc = true
  thread : ∀ i < n, env.thread i = true

/-- The start ends, without leaving the array of threads, in a process that serves the
configurations. -/
theorem collectorMain_spec {env : StartEnv} {configs : Heap SerialConfig} {nodes : QHeap}
    {portQueue : EQueue} {cs : List SerialConfig} (hqueue : QueueOf configs nodes portQueue cs)
    (hlen : cs.length ≤ MAX_THREAD_COUNT) (hnamed : ∀ c ∈ cs, c.uid ≠ none)
    (hdistinct : (cs.map SerialConfig.uid).Nodup) (henv : env.Succeeds cs.length) :
    ∃ c ps, collectorMain env configs nodes portQueue = .ok (.runs c) ∧
      ps.map Pairing.config = cs ∧ c.Serves ps ∧ ∀ a, c.north a = ⟨[]⟩ := by
  obtain ⟨as, hholds, hcells⟩ := hqueue
  obtain ⟨hlength, hzip⟩ := List.forall₂_iff_zip.mp hcells
  have hfst : (as.zip cs).map (fun x => some x.1) = as.map some := by
    calc (as.zip cs).map (fun x => some x.1)
        = ((as.zip cs).map Prod.fst).map some := by rw [List.map_map]; rfl
      _ = as.map some := by rw [List.map_fst_zip (le_of_eq hlength)]
  have hsnd : (as.zip cs).map Prod.snd = cs := List.map_snd_zip (le_of_eq hlength.symm)
  have hxs : (as.zip cs).length = cs.length := by
    rw [← List.length_map Prod.snd, hsnd]
  have hsize : ¬(MAX_THREAD_COUNT : Int) < eQueueSize portQueue := by
    rw [hholds.size, List.length_map]
    omega
  have hstart : AddedUpTo env ((as.zip cs).map Prod.snd) (as.zip cs) []
      { nodes := (eQueueInit env.node nodes 0).1
        portQueue := portQueue
        deviceQueue := (eQueueInit env.node nodes 0).2
        devices := Heap.empty
        manager := .create env.portNode
        added := 0
        failed := false } := by
    exact {
      split := rfl
      queues := by rw [hfst]; exact QueuePair.init env.node 0 hholds
      devices := fun p hp => by cases hp
      ports := ⟨_, Stores.start env.portNode, rfl⟩
      added := rfl
      going := rfl }
  obtain ⟨s, ps, hadding, hs⟩ := adding_spec hstart (fun x hx => hzip hx) (by rw [hsnd]; exact hnamed)
    (by rw [hsnd]; exact hdistinct) (by rw [hxs]; exact henv.create) (by rw [hxs]; exact henv.calloc)
  have hconfigs : ps.map Pairing.config = cs := by
    rw [← hsnd, hs.split, List.map_nil, List.append_nil]
  have hps : ps.length = cs.length := by rw [← hconfigs, List.length_map]
  have hspawn : SpawnedUpTo ps s.portQueue ps ⟨s.nodes, s.deviceQueue, 0, []⟩ :=
    ⟨hs.queues.symm, rfl, rfl⟩
  obtain ⟨t, hspawning, ht⟩ := spawning_spec hspawn (by rw [hps]; exact hlen)
    (by rw [hps]; exact henv.thread)
  obtain ⟨nodes', q', freed, hdestroy, -⟩ := ht.queues.destroy
  obtain ⟨w, hw, hctx⟩ := hs.ports
  refine ⟨{
      system := ⟨s.manager, .idle, true⟩
      devices := s.devices
      threads := t.threads
      north := fun _ => ⟨[]⟩
      south := fun _ => [] }, ps, ?_, hconfigs, ⟨⟨w, hw, ?_⟩, hs.devices, ?_⟩, fun _ => rfl⟩
  · simp only [collectorMain, if_neg hsize, henv.manager, Bool.not_true, Bool.false_eq_true, if_false,
      hadding, ok_bind, hs.going, hspawning, hdestroy]
  · calc w.items.map (fun p => p.ctx.unopened)
        = (w.items.map Port.ctx).map SerialContext.unopened := by rw [List.map_map]; rfl
      _ = ps.map Pairing.context := by rw [hctx, List.map_map]; rfl
  · simpa using ht.threads

end LibEzmb
