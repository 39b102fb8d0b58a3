import LibEzmb.BaseBuffer
import LibEzmb.SerialRuns

/-! The array that `read_thread_func` allocates for `poll`: it is as long as the counter of the
queue says, and the loop that fills it follows the nodes. -/

open CHeap CBytes Runs Buffers

namespace LibEzmb

/-- `struct pollfd`. -/
structure PollFd where
  fd : Int
  events : Revents
  revents : Revents
  deriving DecidableEq, Repr

/-- The entry for a descriptor: `POLLIN | POLLERR | POLLHUP`, and nothing returned yet. -/
def pollFd (fd : Int) : PollFd := ⟨fd, ⟨true, true, true, false⟩, ⟨false, false, false, false⟩⟩

/-- The body of the collecting loop, on the array. -/
def fillBody (ctxs : Heap SerialContext) (pfds : Buffer PollFd) (data : Ptr) :
    Except Fault (Buffer PollFd × Bool) :=
  match data with
  | none => .ok (pfds, false)
  | some a => do
      let ctx ← ctxs.deref (some a)
      if ctx.running && decide (0 ≤ ctx.fd) then do
        let pfds ← pfds.put (pollFd ctx.fd)
        .ok (pfds, false)
      else .ok (pfds, false)

/-- The collecting loop, once there is an array of `manager->ports.size` entries. -/
def fillPfds (m : SerialManager) : Except Fault (Buffer PollFd) := do
  let top ← m.nodes.deref m.ports.top
  walk m.nodes (fillBody m.ctxs) m.nodes.bound top.next (.alloc m.ports.size.toNat)

/-- The search for the context of an entry. -/
def targetCtx (m : SerialManager) (e : PollFd) : Except Fault (Option (Int × Addr)) :=
  m.findCtx fun ctx => .ok (decide (ctx.fd = e.fd))

/-- The entry that a port supplies, if it is running and open. -/
def supplied (ctxs : Heap SerialContext) (a : Addr) : Option PollFd :=
  (ctxs.cell a).bind fun c =>
    if c.running && decide (0 ≤ c.fd) then some (pollFd c.fd) else none

/-- What the array is to be for a queue of these ports: as long as allocated, with one entry for
each port that is running and open, in their order, each of a descriptor of its own by which the
search finds the port. These descriptors are the ones that the read thread goes on with. -/
structure PollExact (m : SerialManager) (order : List Addr) (pfds : Buffer PollFd) : Prop where
  allocated : (pfds.cells.length : Int) = eSerialManagerSize m
  bounded : pfds.used ≤ pfds.cells.length
  entries : pfds.cells.take pfds.used = (order.filterMap (supplied m.ctxs)).map some
  polled : collectFds true m = .ok ((order.filterMap (supplied m.ctxs)).map PollFd.fd)
  distinct : ((order.filterMap (supplied m.ctxs)).map PollFd.fd).Nodup
  lookup : ∀ a ∈ order, ∀ e ∈ supplied m.ctxs a, ∃ i, targetCtx m e = .ok (some (i, a))

section Fill

variable {m : SerialManager} {order : List Addr}

theorem supplied_some {ctxs : Heap SerialContext} {a : Addr} {e : PollFd}
    (hsupplied : supplied ctxs a = some e) :
    ∃ c, ctxs.cell a = some c ∧ c.running = true ∧ 0 ≤ c.fd ∧ e = pollFd c.fd := by
  obtain ⟨c, hc, hentry⟩ := Option.bind_eq_some_iff.mp hsupplied
  split at hentry
  · next hguard =>
      cases hentry
      rw [Bool.and_eq_true, decide_eq_true_eq] at hguard
      exact ⟨c, hc, hguard.1, hguard.2, rfl⟩
  · cases hentry

/-- The body puts what the port supplies. -/
theorem fillBody_eq {ctxs : Heap SerialContext} {a : Addr} (hlive : ∃ c, ctxs.cell a = some c)
    (pfds : Buffer PollFd) :
    fillBody ctxs pfds (some a) =
      (pfds.putSome (supplied ctxs a)).map fun pfds => (pfds, false) := by
  obtain ⟨c, hc⟩ := hlive
  simp only [fillBody, Heap.deref_of_cell hc, ok_bind, supplied, hc, Option.bind_some]
  split
  · rw [Buffer.putSome]
    cases pfds.put (pollFd c.fd) <;> rfl
  · rfl

/-- The counter of the queue is the number of its nodes, so there is room for what they supply. -/
theorem Models.fillPfds_spec (hm : Models m order) : ∃ pfds, fillPfds m = .ok pfds ∧
    pfds.Filled order.length (order.filterMap (supplied m.ctxs)) := by
  obtain ⟨top, htop, hwalk⟩ := hm.chain.walk_eq
  have hsize : m.ports.size.toNat = order.length := by
    have hsize := hm.size
    rw [eSerialManagerSize, eQueueSize] at hsize
    omega
  have hbody : ∀ d ∈ order.map some, ∀ pfds, fillBody m.ctxs pfds d =
      (pfds.putSome (d.bind (supplied m.ctxs))).map fun pfds => (pfds, false) := by
    intro d hd pfds
    obtain ⟨a, ha, rfl⟩ := List.mem_map.mp hd
    exact fillBody_eq (hm.ctx ha) pfds
  obtain ⟨pfds, hvisit, hfilled⟩ := (Buffer.Filled.alloc order.length).visit hbody
    (by rw [List.length_map, List.length_nil, Nat.zero_add])
  refine ⟨pfds, ?_, ?_⟩
  · rw [fillPfds, htop, ok_bind, hwalk, hsize]
    exact hvisit
  · rwa [List.nil_append, List.filterMap_map] at hfilled

theorem supplied_eq (ctxs : Heap SerialContext) (a : Addr) : supplied ctxs a =
    if isPolled ctxs a then some (pollFd (fdAt ctxs a)) else none := by
  cases hcell : ctxs.cell a with
  | none => simp [supplied, isPolled, hcell]
  | some c => simp [supplied, isPolled, fdAt, hcell]

/-- The descriptors of the entries are those that the read thread collects. -/
theorem filterMap_supplied (ctxs : Heap SerialContext) (order : List Addr) :
    (order.filterMap (supplied ctxs)).map PollFd.fd =
      (order.filter (isPolled ctxs)).map (fdAt ctxs) := by
  have hentries : order.filterMap (supplied ctxs) =
      (order.filter (isPolled ctxs)).map fun a => pollFd (fdAt ctxs a) := by
    rw [← List.filterMap_eq_map', List.filterMap_filter]
    exact congrArg order.filterMap (funext (supplied_eq ctxs))
  rw [hentries, List.map_map]
  rfl

/-- The list of numbers in the read thread of the model is what the array holds. -/
theorem Models.collectFds_supplied (hm : Models m order) :
    collectFds true m = .ok ((order.filterMap (supplied m.ctxs)).map PollFd.fd) := by
  rw [filterMap_supplied]
  exact hm.collectFds_eq

/-- Ports that supply entries have descriptors of their own. -/
theorem Models.supplied_nodup (hm : Models m order) (howned : Owned m.portState) :
    ((order.filterMap (supplied m.ctxs)).map PollFd.fd).Nodup := by
  obtain ⟨fds, hcollect, hnodup, -⟩ := hm.collectFds_spec howned true
  rw [hm.collectFds_supplied] at hcollect
  cases hcollect
  exact hnodup

/-- The search for a descriptor finds the port that supplied it: no other has it. -/
theorem Models.targetCtx_spec (hm : Models m order) (howned : Owned m.portState) {a : Addr}
    (ha : a ∈ order) {e : PollFd} (he : supplied m.ctxs a = some e) :
    ∃ i, targetCtx m e = .ok (some (i, a)) := by
  obtain ⟨c, hc, -, hopen, rfl⟩ := supplied_some he
  rcases hm.findCtx_spec fun ctx => .ok (decide (ctx.fd = (pollFd c.fd).fd)) with
    ⟨-, hnone⟩ | ⟨i, b, d, hfind, -, -, hd, htest⟩ | ⟨_, _, _, _, _, _, hbad⟩
  · have hmiss := hnone a ha c hc
    simp [pollFd] at hmiss
  · have heq : d.fd = c.fd := of_decide_eq_true (Except.ok.inj htest)
    refine ⟨i, ?_⟩
    rw [targetCtx, hfind, howned.inj hc hd hopen heq]
  · cases hbad

theorem Models.pollExact (hm : Models m order) (howned : Owned m.portState) :
    ∃ pfds, fillPfds m = .ok pfds ∧ PollExact m order pfds := by
  obtain ⟨pfds, hfill, hfilled⟩ := hm.fillPfds_spec
  refine ⟨pfds, hfill, ?_, ?_, hfilled.written, hm.collectFds_supplied,
    hm.supplied_nodup howned, ?_⟩
  · rw [hfilled.size, hm.size]
  · rw [hfilled.size]
    exact hfilled.used_le
  · intro a ha e he
    exact hm.targetCtx_spec howned ha he

end Fill

/-- **The poll array.** Wherever a run of calls and sections gets to before the manager is
destroyed, the collecting loop stays within the array it has allocated and fills it with the
descriptors of the running, open ports in the order of the queue, each of which leads back to its
port alone. -/
theorem poll_array_exact {M : Malloc EQnode} {los : List (SerialLabel × SerialOut)}
    {s : SerialSystem} (hrun : Run (Fires SerialSystem.step) (.start M) los s)
    (halive : s.alive = true) : ∃ order pfds,
      Holds s.manager.nodes s.manager.ports (order.map some) ∧
        fillPfds s.manager = .ok pfds ∧ PollExact s.manager order pfds := by
  rcases sound_run hrun with ⟨w, hs⟩ | hgone
  · obtain ⟨order, hm⟩ : ∃ order, Models s.manager order := ⟨_, hs.refines.models⟩
    obtain ⟨pfds, hfill, hexact⟩ := hm.pollExact hs.owned
    exact ⟨order, pfds, hm.chain, hfill, hexact⟩
  · rw [hgone.alive] at halive
    cases halive

/-- Two ports are added and opened, with the read thread at work in between. -/
def pollRun : List SerialLabel :=
  [.add (bumpAdd true) (some (config8N1 uidA)) none none, .monitor opensApart,
    .reader hangsUp, .reader hangsUp, .add (bumpAdd true) (some (config8N1 uidB)) none none,
    .monitor opensApart]

theorem pollRun_exec : ∃ s pfds, exec SerialSystem.step (.start bumpNode) pollRun =
      .ok (s, [.ret 0, .unit, .touched [], .touched [], .ret 0, .unit]) ∧ s.alive = true ∧
    fillPfds s.manager = .ok pfds ∧
    pfds.cells.take pfds.used = [some (pollFd 3), some (pollFd 4)] :=
  ⟨_, _, rfl, rfl, rfl, rfl⟩

/-- The array has an entry for each of the two open ports. -/
theorem poll_array_exact_pair : ∃ s : SerialSystem, s.alive = true ∧ ∃ order pfds,
    Holds s.manager.nodes s.manager.ports (order.map some) ∧
      fillPfds s.manager = .ok pfds ∧ PollExact s.manager order pfds ∧
      order.filterMap (supplied s.manager.ctxs) = [pollFd 3, pollFd 4] := by
  obtain ⟨s, pfds, hexec, halive, hfill, hentries⟩ := pollRun_exec
  obtain ⟨order, pfds', hholds, hfill', hexact⟩ := poll_array_exact (run_of_exec hexec) halive
  obtain rfl := Except.ok.inj (hfill.symm.trans hfill')
  refine ⟨s, halive, order, pfds, hholds, hfill, hexact, ?_⟩
  have hsome := hexact.entries.symm.trans hentries
  exact List.map_injective_iff.mpr (fun _ _ => Option.some.inj) hsome

end LibEzmb
