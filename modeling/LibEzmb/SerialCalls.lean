import Mathlib.Data.List.Nodup
import LibEzmb.SerialShape

/-! What the calls of the serial manager do: add, remove, write and destroy. -/

open CHeap CBytes Runs

namespace LibEzmb

/-- The uid of the context at an address, if there is one. -/
def uidAt (h : Heap SerialContext) (a : Addr) : Option CStr := (h.cell a).bind fun c => c.ser.uid

theorem strcmpEq_true {s t : Option CStr} (h : strcmpEq s t = .ok true) : s = t ∧ s ≠ none := by
  cases s with
  | none => cases h
  | some s =>
      cases t with
      | none => cases h
      | some t =>
          have heq : decide (s = t) = true := Except.ok.inj h
          exact ⟨congrArg some (of_decide_eq_true heq), Option.some_ne_none s⟩

theorem strcmpEq_false {s t : Option CStr} (h : strcmpEq s t = .ok false) :
    s ≠ t ∧ s ≠ none ∧ t ≠ none := by
  cases s with
  | none => cases h
  | some s =>
      cases t with
      | none => cases h
      | some t =>
          have heq : decide (s = t) = false := Except.ok.inj h
          exact ⟨fun hst => of_decide_eq_false heq (Option.some.inj hst), Option.some_ne_none s,
            Option.some_ne_none t⟩

theorem strcmpEq_error {s t : Option CStr} {e : Fault} (h : strcmpEq s t = .error e) :
    s = none ∨ t = none := by
  cases s with
  | none => exact Or.inl rfl
  | some s =>
      cases t with
      | none => exact Or.inr rfl
      | some t => cases h

/-- The context that `e_serial_manager_add_port` makes. -/
def addedContext (config : SerialConfig) (recvCb : Option Addr) (data : Ptr) : SerialContext where
  fd := -1
  running := true
  recvCb := recvCb
  ser := config
  data := data

namespace Models

variable {m : SerialManager} {order : List Addr}

/-! ### Add -/

/-- The uid is found among the stored ports, or none has it, or the comparison met a null. -/
theorem findPortIndex_spec (hm : Models m order) (uid : Option CStr) :
    (∃ i, findPortIndex m uid = .ok i ∧ 0 ≤ i ∧ uid ≠ none ∧ ∃ a ∈ order, uidAt m.ctxs a = uid) ∨
    (findPortIndex m uid = .ok (-1) ∧ ∀ a ∈ order, uidAt m.ctxs a ≠ uid) ∨
    ((∃ e, findPortIndex m uid = .error e) ∧ (uid = none ∨ NullUid m order)) := by
  rw [findPortIndex]
  rcases hm.findCtx_spec fun ctx => strcmpEq ctx.ser.uid uid with
    ⟨hfind, hnone⟩ | ⟨i, a, c, hfind, hi, ha, hc, htrue⟩ | ⟨e, hfind, a, ha, c, hc, herror⟩
  · refine Or.inr (Or.inl ⟨by rw [hfind]; rfl, fun a ha => ?_⟩)
    obtain ⟨c, hc⟩ := hm.ctx ha
    rw [uidAt, hc]
    exact (strcmpEq_false (hnone a ha c hc)).1
  · obtain ⟨heq, hne⟩ := strcmpEq_true htrue
    refine Or.inl ⟨i, by rw [hfind]; rfl, hi, heq ▸ hne, a, ha, ?_⟩
    rw [uidAt, hc]
    exact heq
  · refine Or.inr (Or.inr ⟨⟨e, by rw [hfind]; rfl⟩, ?_⟩)
    rcases strcmpEq_error herror with hnull | hnull
    · exact Or.inr ⟨a, ha, c, hc, hnull⟩
    · exact Or.inl hnull

/-- A fresh context goes to the end of the queue. -/
theorem push (hm : Models m order) (env : AddEnv) (c : SerialContext) :
    ∃ nodes ports, eQueuePush env.node m.nodes m.ports (some (env.ctx.addr m.ctxs)) =
        .ok (nodes, ports) ∧
      Models { m with nodes := nodes, ports := ports, ctxs := m.ctxs.set (env.ctx.addr m.ctxs) c }
        (order ++ [env.ctx.addr m.ctxs]) := by
  obtain ⟨nodes, ports, hpush, hholds⟩ := hm.chain.push env.node (some (env.ctx.addr m.ctxs))
  have hfresh : env.ctx.addr m.ctxs ∉ order := by
    intro hmem
    obtain ⟨d, hd⟩ := hm.ctx hmem
    rw [env.ctx.fresh] at hd
    cases hd
  refine ⟨nodes, ports, hpush, ?_, ?_, fun a => ?_⟩
  · rw [List.map_append]
    exact hholds
  · refine List.nodup_append.mpr ⟨hm.nodup, List.nodup_singleton _, fun a ha b hb => ?_⟩
    rw [List.mem_singleton] at hb
    rintro rfl
    exact hfresh (hb ▸ ha)
  · rw [List.mem_append, List.mem_singleton, hm.live a, Heap.set_cell]
    by_cases ha : a = env.ctx.addr m.ctxs <;> simp [ha]

/-- Adding: refused when the uid is present, refused when there is no memory, else appended. -/
theorem addPort_spec (hm : Models m order) (env : AddEnv) (config : SerialConfig)
    (recvCb : Option Addr) (data : Ptr) :
    (eSerialManagerAddPort env m (some config) recvCb data = .ok (m, -1) ∧ config.uid ≠ none ∧
      ∃ a ∈ order, uidAt m.ctxs a = config.uid) ∨
    (eSerialManagerAddPort env m (some config) recvCb data = .ok (m, -1) ∧ env.calloc = false ∧
      ∀ a ∈ order, uidAt m.ctxs a ≠ config.uid) ∨
    (∃ m', eSerialManagerAddPort env m (some config) recvCb data = .ok (m', 0) ∧
      env.calloc = true ∧ (∀ a ∈ order, uidAt m.ctxs a ≠ config.uid) ∧
      Models m' (order ++ [env.ctx.addr m.ctxs]) ∧ m'.kernel = m.kernel ∧
      m'.ctxs = m.ctxs.set (env.ctx.addr m.ctxs) (addedContext config recvCb data)) ∨
    ((∃ e, eSerialManagerAddPort env m (some config) recvCb data = .error e) ∧
      (config.uid = none ∨ NullUid m order)) := by
  simp only [eSerialManagerAddPort]
  rcases hm.findPortIndex_spec config.uid with
    ⟨i, hfind, hi, hnamed, hpresent⟩ | ⟨hfind, habsent⟩ | ⟨⟨e, hfind⟩, hnull⟩
  · exact Or.inl ⟨by rw [hfind, ok_bind, if_pos hi], hnamed, hpresent⟩
  · have hneg : ¬(0 : Int) ≤ -1 := by decide
    rw [hfind, ok_bind, if_neg hneg]
    cases hcalloc : env.calloc with
    | false => exact Or.inr (Or.inl ⟨rfl, rfl, habsent⟩)
    | true =>
        obtain ⟨nodes, ports, hpush, hmodels⟩ := hm.push env (addedContext config recvCb data)
        refine Or.inr (Or.inr (Or.inl ⟨_, ?_, rfl, habsent, hmodels, rfl, rfl⟩))
        simp only [Bool.not_true, Bool.false_eq_true, if_false, hpush, ok_bind]
        rfl
  · exact Or.inr (Or.inr (Or.inr ⟨⟨e, by rw [hfind]; rfl⟩, hnull⟩))

/-- Adding a context is one move. -/
theorem added_move (env : AddEnv) (config : SerialConfig) (recvCb : Option Addr) (data : Ptr) :
    Moves m.portState (.added (env.ctx.addr m.ctxs))
      (m.ctxs.set (env.ctx.addr m.ctxs) (addedContext config recvCb data), m.kernel) :=
  Moves.added (env.ctx.fresh m.ctxs) _ rfl

/-! ### Write -/

/-- Writing hands the bytes to the descriptor of a port with that uid that is open, and nothing to
any other. -/
theorem write_spec (hm : Models m order) (uid : CStr) {data : Bytes} (hdata : data ≠ [])
    (ret : Int) :
    (eSerialManagerWrite m (some uid) (some data) ret = .ok (none, -1) ∧
      ∀ a ∈ order, uidAt m.ctxs a ≠ some uid) ∨
    (∃ a c, a ∈ order ∧ m.ctxs.cell a = some c ∧ c.ser.uid = some uid ∧
      eSerialManagerWrite m (some uid) (some data) ret =
        .ok (if c.fd < 0 then (none, -1) else (some (c.fd, data), ret))) ∨
    ((∃ e, eSerialManagerWrite m (some uid) (some data) ret = .error e) ∧ NullUid m order) := by
  have hlen : data.length ≠ 0 := fun h => hdata (List.eq_nil_of_length_eq_zero h)
  simp only [eSerialManagerWrite, if_neg hlen]
  rcases hm.findCtx_spec fun ctx => strcmpEq ctx.ser.uid (some uid) with
    ⟨hfind, hnone⟩ | ⟨i, a, c, hfind, hi, ha, hc, htrue⟩ | ⟨e, hfind, a, ha, c, hc, herror⟩
  · refine Or.inl ⟨by rw [hfind]; rfl, fun a ha => ?_⟩
    obtain ⟨c, hc⟩ := hm.ctx ha
    rw [uidAt, hc]
    exact (strcmpEq_false (hnone a ha c hc)).1
  · refine Or.inr (Or.inl ⟨a, c, ha, hc, (strcmpEq_true htrue).1, ?_⟩)
    rw [hfind, ok_bind]
    simp only [Heap.deref_of_cell hc, ok_bind]
    split <;> rfl
  · refine Or.inr (Or.inr ⟨⟨e, by rw [hfind]; rfl⟩, a, ha, c, hc, ?_⟩)
    exact (strcmpEq_error herror).resolve_right (Option.some_ne_none uid)

end Models

/-! ### Remove and destroy -/

/-- A context that left the queue is closed and given back. -/
theorem releasePort_spec {m : SerialManager} {a : Addr} {c : SerialContext}
    (hcell : m.ctxs.cell a = some c) :
    ∃ m', releasePort m (some a) = .ok m' ∧ m'.nodes = m.nodes ∧ m'.ports = m.ports ∧
      Moves m.portState (.freed a) m'.portState ∧
      ∀ b, m'.ctxs.cell b = if b = a then none else m.ctxs.cell b := by
  have hset : (m.ctxs.set a { c with running := false }).cell a =
      some { c with running := false } := by
    rw [Heap.set_cell, if_pos rfl]
  refine ⟨{ m with
    ctxs := (m.ctxs.set a { c with running := false }).drop a
    kernel := if 0 ≤ c.fd then m.kernel.closeFile c.fd else m.kernel }, ?_, rfl, rfl,
    Moves.freed hcell, fun b => ?_⟩
  · simp only [releasePort, Heap.deref_of_cell hcell, Heap.store_of_cell hcell,
      Heap.release_of_cell hset, ok_bind]
  · by_cases hb : b = a <;> simp [hb]

/-- The context is not the one to be removed. -/
def keeps (h : Heap SerialContext) (uid : CStr) (a : Addr) : Bool := decide (uidAt h a ≠ some uid)

/-- While `e_serial_manager_remove_port` drains the queue: the named contexts of the part that is
done are gone, the others are in `temp`. -/
def Draining (m : SerialManager) (order : List Addr) (uid : CStr) (rest : List Addr)
    (s : SerialManager × EQueue) : Prop :=
  ∃ done, order = done ++ rest ∧
    QueuePair s.1.nodes s.1.ports s.2 (rest.map some) ((done.filter (keeps m.ctxs uid)).map some) ∧
    Run Moves m.portState ((done.filter fun a => !keeps m.ctxs uid a).map .freed) s.1.portState ∧
    ∀ a, s.1.ctxs.cell a =
      if a ∈ done.filter (fun a => !keeps m.ctxs uid a) then none else m.ctxs.cell a

theorem Draining.more {m : SerialManager} {order rest : List Addr} {uid : CStr}
    {s : SerialManager × EQueue} (hdraining : Draining m order uid rest s) :
    portsMore s = .ok !rest.isEmpty := by
  obtain ⟨done, -, hpair, -⟩ := hdraining
  rw [portsMore, hpair.left.empty]
  cases rest <;> rfl

/-- One round of the draining loop. -/
theorem Draining.round {m : SerialManager} {order rest : List Addr} {uid : CStr} {x : Addr}
    {s : SerialManager × EQueue} (M : Malloc EQnode) (hm : Models m order)
    (hdraining : Draining m order uid (x :: rest) s) :
    (∃ s', removeRound M uid s = .ok s' ∧ Draining m order uid rest s') ∨
      ((∃ e, removeRound M uid s = .error e) ∧ NullUid m order) := by
  obtain ⟨done, horder, hpair, hrun, hcells⟩ := hdraining
  obtain ⟨hx, hnot, c, hc⟩ := hm.next horder
  have hcell : s.1.ctxs.cell x = some c := by
    rw [hcells x, if_neg fun hmem => hnot (List.mem_filter.mp hmem).1, hc]
  obtain ⟨nodes, ports, hpop, hpair'⟩ := hpair.pop
  have hdone : order = (done ++ [x]) ++ rest := by rw [horder]; simp
  simp only [removeRound, hpop, ok_bind, Heap.deref_of_cell hcell]
  cases hcmp : strcmpEq c.ser.uid (some uid) with
  | error e =>
      refine Or.inr ⟨⟨e, rfl⟩, x, hx, c, hc, ?_⟩
      exact (strcmpEq_error hcmp).resolve_right (Option.some_ne_none uid)
  | ok named =>
      cases named with
      | true =>
          have hkeep : keeps m.ctxs uid x = false := by
            simp [keeps, uidAt, hc, (strcmpEq_true hcmp).1]
          obtain ⟨m', hrelease, hnodes, hports, hmove, hcells'⟩ :=
            releasePort_spec (m := { s.1 with nodes := nodes, ports := ports }) hcell
          simp only [ok_bind, if_true, hrelease]
          refine Or.inl ⟨(m', s.2), rfl, done ++ [x], hdone, ?_, ?_, fun a => ?_⟩
          · rw [hnodes, hports, List.filter_append]
            simpa [hkeep] using hpair'
          · rw [List.filter_append, List.map_append]
            simpa [hkeep] using hrun.snoc hmove
          · rw [hcells' a]
            show (if a = x then none else s.1.ctxs.cell a) = _
            by_cases ha : a = x
            · simp [ha, hkeep]
            · simp [ha, hcells a]
      | false =>
          have hkeep : keeps m.ctxs uid x = true := by
            simp [keeps, uidAt, hc, (strcmpEq_false hcmp).1]
          obtain ⟨nodes', temp, hpush, hpair''⟩ := hpair'.symm.push M (some x)
          simp only [ok_bind, Bool.false_eq_true, if_false, hpush]
          refine Or.inl ⟨_, rfl, done ++ [x], hdone, ?_, ?_, fun a => ?_⟩
          · rw [List.filter_append]
            simpa [hkeep] using hpair''.symm
          · show Run Moves m.portState _ s.1.portState
            rw [List.filter_append]
            simpa [hkeep] using hrun
          · show s.1.ctxs.cell a = _
            rw [hcells a, List.filter_append]
            simp [hkeep]

/-- While what is left moves back: the front of it is in the queue, the rest still in `temp`. -/
def Restoring (ctxs : Heap SerialContext) (kernel : Kernel) (kept rest : List Addr)
    (s : SerialManager × EQueue) : Prop :=
  ∃ front, kept = front ++ rest ∧
    QueuePair s.1.nodes s.1.ports s.2 (front.map some) (rest.map some) ∧ s.1.ctxs = ctxs ∧
    s.1.kernel = kernel

theorem Restoring.more {ctxs : Heap SerialContext} {kernel : Kernel} {kept rest : List Addr}
    {s : SerialManager × EQueue} (hrestoring : Restoring ctxs kernel kept rest s) :
    tempMore s = .ok !rest.isEmpty := by
  obtain ⟨front, -, hpair, -⟩ := hrestoring
  rw [tempMore, hpair.symm.left.empty]
  cases rest <;> rfl

theorem Restoring.round {ctxs : Heap SerialContext} {kernel : Kernel} {kept rest : List Addr}
    {x : Addr} {s : SerialManager × EQueue} (M : Malloc EQnode)
    (hrestoring : Restoring ctxs kernel kept (x :: rest) s) :
    ∃ s', restoreRound M s = .ok s' ∧ Restoring ctxs kernel kept rest s' := by
  obtain ⟨front, hkept, hpair, hctxs, hkernel⟩ := hrestoring
  obtain ⟨nodes, temp, hpop, hpair'⟩ := hpair.symm.pop
  obtain ⟨nodes', ports, hpush, hpair''⟩ := hpair'.symm.push M (some x)
  refine ⟨({ s.1 with nodes := nodes', ports := ports }, temp), ?_, front ++ [x], ?_, ?_, hctxs,
    hkernel⟩
  · simp only [restoreRound, hpop, hpush, ok_bind]
  · rw [hkept, List.append_assoc, List.singleton_append]
  · rw [List.map_append]
    exact hpair''

theorem drained_live {m : SerialManager} {order : List Addr} (hm : Models m order) (uid : CStr)
    (a : Addr) :
    a ∈ order.filter (keeps m.ctxs uid) ↔
      ∃ c, (if a ∈ order.filter (fun a => !keeps m.ctxs uid a) then none else m.ctxs.cell a) =
        some c := by
  rw [List.mem_filter, hm.live a]
  by_cases hgone : a ∈ order.filter (fun a => !keeps m.ctxs uid a)
  · have hkeep := (List.mem_filter.mp hgone).2
    simp_all
  · rw [if_neg hgone]
    constructor
    · exact fun h => h.1
    · intro h
      have ha : a ∈ order := (hm.live a).mpr h
      exact ⟨h, by simpa [ha] using hgone⟩

/-- Removing: the contexts with that uid are closed and given back; the others stay as they are, in
their order. -/
theorem Models.removePort_spec {m : SerialManager} {order : List Addr} (hm : Models m order)
    (M : Malloc EQnode) (uid : CStr) :
    (∃ m', eSerialManagerRemovePort M m (some uid) = .ok m' ∧
      Models m' (order.filter (keeps m.ctxs uid)) ∧
      (∀ a ∈ order.filter (keeps m.ctxs uid), m'.ctxs.cell a = m.ctxs.cell a) ∧
      Run Moves m.portState ((order.filter fun a => !keeps m.ctxs uid a).map .freed)
        m'.portState) ∨
    ((∃ e, eSerialManagerRemovePort M m (some uid) = .error e) ∧ NullUid m order) := by
  have hinit := QueuePair.init M 0 hm.chain
  have hbound : order.length ≤ (eQueueInit M m.nodes 0).1.bound := hinit.left.map_length_le_bound
  have hstart : Draining m order uid order
      ({ m with nodes := (eQueueInit M m.nodes 0).1 }, (eQueueInit M m.nodes 0).2) :=
    ⟨[], rfl, hinit, .nil _, fun a => by simp⟩
  have hdrain := whileLoop_drain portsMore (removeRound M uid) (Draining m order uid)
    (NullUid m order) (fun s hs => hs.more)
    (fun x rest s hs => ⟨hs.more, hs.round M hm⟩) order _ _ hbound hstart
  simp only [eSerialManagerRemovePort]
  rcases hdrain with ⟨s, hloop, done, hdone, hpair, hrun, hcells⟩ | ⟨⟨e, hloop⟩, hnull⟩
  · rw [List.append_nil] at hdone
    subst hdone
    have hkept : (order.filter (keeps m.ctxs uid)).length ≤ s.1.nodes.bound :=
      hpair.symm.left.map_length_le_bound
    have hrestore := whileLoop_drain tempMore (restoreRound M)
      (Restoring s.1.ctxs s.1.kernel (order.filter (keeps m.ctxs uid))) False
      (fun s hs => hs.more) (fun x rest s hs => ⟨hs.more, Or.inl (hs.round M)⟩)
      _ s.1.nodes.bound s hkept ⟨[], rfl, hpair, rfl, rfl⟩
    obtain ⟨s', hloop', front, hfront, hpair', hctxs, hkernel⟩ := hrestore.resolve_right fun h => h.2
    rw [List.append_nil] at hfront
    rw [← hfront] at hpair'
    obtain ⟨nodes, temp, freed, hdestroy, hholds⟩ := hpair'.destroy
    refine Or.inl ⟨{ s'.1 with nodes := nodes }, ?_, ⟨hholds, hm.nodup.filter _, fun a => ?_⟩,
      fun a ha => ?_, ?_⟩
    · simp only [hloop, hloop', hdestroy, ok_bind]
    · show a ∈ _ ↔ ∃ c, s'.1.ctxs.cell a = some c
      rw [hctxs, hcells a]
      exact drained_live hm uid a
    · show s'.1.ctxs.cell a = _
      have hkeep := (List.mem_filter.mp ha).2
      rw [hctxs, hcells a, if_neg]
      intro hgone
      have hgone' := (List.mem_filter.mp hgone).2
      simp [hkeep] at hgone'
    · show Run Moves m.portState _ (s'.1.ctxs, s'.1.kernel)
      rw [hctxs, hkernel]
      exact hrun
  · exact Or.inr ⟨⟨e, by simp only [hloop]; rfl⟩, hnull⟩

/-- While `e_serial_manager_destroy` drains the queue. -/
def Destroying (m : SerialManager) (order rest : List Addr) (s : SerialManager) : Prop :=
  ∃ done, order = done ++ rest ∧ Holds s.nodes s.ports (rest.map some) ∧
    Run Moves m.portState (done.map .freed) s.portState ∧
    ∀ a, s.ctxs.cell a = if a ∈ done then none else m.ctxs.cell a

theorem Destroying.more {m s : SerialManager} {order rest : List Addr}
    (hdestroying : Destroying m order rest s) : destroyMore s = .ok !rest.isEmpty := by
  obtain ⟨done, -, hholds, -⟩ := hdestroying
  rw [destroyMore, hholds.empty]
  cases rest <;> rfl

theorem Destroying.round {m s : SerialManager} {order rest : List Addr} {x : Addr}
    (hm : Models m order) (hdestroying : Destroying m order (x :: rest) s) :
    ∃ s', destroyRound s = .ok s' ∧ Destroying m order rest s' := by
  obtain ⟨done, horder, hholds, hrun, hcells⟩ := hdestroying
  obtain ⟨hx, hnot, c, hc⟩ := hm.next horder
  have hcell : s.ctxs.cell x = some c := by
    rw [hcells x, if_neg hnot, hc]
  obtain ⟨nodes, ports, hpop, hholds'⟩ := hholds.pop
  obtain ⟨s', hrelease, hnodes, hports, hmove, hcells'⟩ :=
    releasePort_spec (m := { s with nodes := nodes, ports := ports }) hcell
  refine ⟨s', ?_, done ++ [x], by rw [horder]; simp, ?_, ?_, fun a => ?_⟩
  · simp only [destroyRound, hpop, ok_bind, hrelease]
  · rw [hnodes, hports]
    exact hholds'
  · rw [List.map_append]
    exact hrun.snoc hmove
  · rw [hcells' a]
    show (if a = x then none else s.ctxs.cell a) = _
    by_cases ha : a = x
    · simp [ha]
    · simp [ha, hcells a]

/-- Destroying: every context is closed and given back, and the queue is gone. -/
theorem Models.destroy_spec {m : SerialManager} {order : List Addr} (hm : Models m order) :
    ∃ m', eSerialManagerDestroy m = .ok m' ∧ m'.ports.top = none ∧
      (∀ a, m'.ctxs.cell a = none) ∧ Run Moves m.portState (order.map .freed) m'.portState := by
  have hbound : order.length ≤ m.nodes.bound := hm.chain.map_length_le_bound
  have hdrain := whileLoop_drain destroyMore destroyRound (Destroying m order) False
    (fun s hs => hs.more) (fun x rest s hs => ⟨hs.more, Or.inl (hs.round hm)⟩)
    order _ m hbound ⟨[], rfl, hm.chain, .nil _, fun a => by simp⟩
  obtain ⟨s, hloop, done, hdone, ⟨dummy, nodes, hrep, hnil⟩, hrun, hcells⟩ :=
    hdrain.resolve_right fun h => h.2
  rw [List.append_nil] at hdone
  subst hdone
  obtain ⟨h', hdestroy, -⟩ := hrep.destroy_spec
  refine ⟨{ s with nodes := h', ports := { s.ports with top := none, rear := none, size := 0 } }, ?_,
    rfl, fun a => ?_, hrun⟩
  · simp only [eSerialManagerDestroy, hloop, hdestroy, ok_bind]
  · show s.ctxs.cell a = none
    rw [hcells a]
    by_cases ha : a ∈ order
    · rw [if_pos ha]
    · rw [if_neg ha]
      cases hc : m.ctxs.cell a with
      | none => rfl
      | some c => exact absurd ((hm.live a).mpr ⟨c, hc⟩) ha

end LibEzmb
