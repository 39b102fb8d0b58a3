import LibEzmb.BaseStream
import LibEzmb.SerialRuns

/-! The bytes that come in over the ports: what arrives on a descriptor between two sections of the
threads, what the read thread takes off it, and what has not been read when it closes it. -/

open CHeap CBytes Runs Streams

namespace LibEzmb

/-- A descriptor that the read thread has closed: its context, and what went over it. -/
structure Closing where
  ctx : SerialContext
  stream : Inflow UInt8

/-- The manager, what has gone over each descriptor since it was opened, and the descriptors that the
read thread has closed. -/
structure StreamSystem where
  system : SerialSystem
  streams : Int → Inflow UInt8
  closings : List Closing

inductive StreamLabel where
  | arrive (fd : Int) (bytes : Bytes)
  | act (l : SerialLabel)

/-- Why a step is not one of the program: it faults, or no system answers so. -/
inductive Refusal where
  | fault (f : Fault)
  | impossible
  deriving DecidableEq, Repr

/-- What a touch does to the descriptor that the context has at the start of the section: a read takes
its bytes off the front, and the callback gets what it is called with. -/
def Touch.follow (ctxs : Heap SerialContext) (x : (Int → Inflow UInt8) × List Closing) (t : Touch) :
    Option ((Int → Inflow UInt8) × List Closing) :=
  match ctxs.cell t.target with
  | none => none
  | some c =>
      match t.action with
      | .read (.data buf) =>
          ((x.1 c.fd).take buf (t.called.map Prod.snd)).map fun stream =>
            (Function.update x.1 c.fd stream, x.2)
      | .read (.fails true) => some x
      | .read (.fails false) | .hangup => some (x.1, x.2 ++ [⟨c, x.1 c.fd⟩])

/-- A number that stands for something else than before has nothing of what it stood for. -/
def sinceOpen (k k' : Kernel) (streams : Int → Inflow UInt8) (fd : Int) : Inflow UInt8 :=
  if k'.files fd = k.files fd then streams fd else .empty

namespace StreamSystem

def start (M : Malloc EQnode) : StreamSystem := ⟨.start M, fun _ => .empty, []⟩

/-- Bytes arrive on an open descriptor, or the manager or one of its threads takes a step. No two events
of a section are for one descriptor, so what arrives during it might as well come before or after. -/
def step (s : StreamSystem) : StreamLabel → Except Refusal (StreamSystem × SerialOut)
  | .arrive fd bytes =>
      if (s.system.manager.kernel.files fd).isSome then
        .ok ({ s with streams := Function.update s.streams fd ((s.streams fd).arrive bytes) }, .unit)
      else .error .impossible
  | .act l =>
      match s.system.step l with
      | .error f => .error (.fault f)
      | .ok (t, out) =>
          match out.touches.foldlM (Touch.follow s.system.manager.ctxs) (s.streams, s.closings) with
          | none => .error .impossible
          | some x =>
              .ok (⟨t, sinceOpen s.system.manager.kernel t.manager.kernel x.1, x.2⟩, out)

end StreamSystem

/-- The callback has got every byte that had arrived, in order, in chunks of one to `maxlen` bytes. -/
def Closing.Whole (cl : Closing) : Prop :=
  cl.stream.chunks.flatten = cl.stream.arrived ∧
    ∀ chunk ∈ cl.stream.chunks, chunk ≠ [] ∧ chunk.length ≤ cl.ctx.ser.maxlen.toNat

/-- The port has a callback, and room for at least one byte. -/
def SerialContext.Hears (c : SerialContext) : Prop := c.recvCb ≠ none ∧ 0 < c.ser.maxlen

/-! ### What an event does -/

/-- The handling of the events, one event at a time. -/
theorem Models.handleEvents_cons {m m' : SerialManager} {order : List Addr} (hm : Models m order)
    (hrunning : AllRunning m.ctxs) {env : Nat → EventEnv} {i : Nat} {e : PollEvent}
    {events : List PollEvent} (hfd : 0 ≤ e.fd) {touches : List Touch}
    (hhandle : handleEvents env i (e :: events) m = .ok (m', touches)) :
    ∃ m₁ fst rest, Handled (env i) m e m₁ fst ∧ Handling (env i) m e m₁ fst ∧
      handleEvents env (i + 1) events m₁ = .ok (m', rest) ∧ touches = fst ++ rest ∧
      Models m₁ order ∧ AllRunning m₁.ctxs := by
  obtain ⟨⟨m₁, fst⟩, hfst, hrest⟩ := bind_eq_ok hhandle
  obtain ⟨⟨m₂, rest⟩, hsnd, hok⟩ := bind_eq_ok hrest
  cases hok
  obtain ⟨m₁', fst', hfst', hhandling⟩ := hm.handleEvent_handling hrunning (env i) e
  rw [hfst] at hfst'
  cases hfst'
  have hhandled := hhandling.handled hfd
  exact ⟨m₁, fst, rest, hhandled, hhandling, hsnd, rfl, hhandled.models hm,
    hhandled.sameButFd.allRunning hrunning⟩

/-! ### What a section does -/

/-- What has gone over the descriptor of each port with a callback has been handed to it, or waits. -/
def Flowing (ctxs : Heap SerialContext) (streams : Int → Inflow UInt8) : Prop :=
  ∀ a c, ctxs.cell a = some c → 0 ≤ c.fd → c.recvCb ≠ none →
    (streams c.fd).Flows c.ser.maxlen.toNat

/-- No event that closes a descriptor finds bytes waiting there for a port that would hear them. -/
def Drained (ctxs : Heap SerialContext) (streams : Int → Inflow UInt8) (env : Nat → EventEnv)
    (i : Nat) (events : List PollEvent) : Prop :=
  ∀ p ∈ events.zipIdx i, closes (env p.2) p.1 = true →
    ∀ a c, ctxs.cell a = some c → c.fd = p.1.fd → c.Hears → (streams p.1.fd).waiting = []

/-- The closing of a port that hears lost nothing. -/
def Closing.Kept (cl : Closing) : Prop := cl.ctx.Hears → cl.Whole

section Events

variable {h : Heap SerialContext} {k : Kernel} {m m' : SerialManager} {e : PollEvent}
  {x y : (Int → Inflow UInt8) × List Closing} {touches : List Touch} {a : Addr} {c : SerialContext}

theorem Touch.follow_of_cell (hc : h.cell a = some c) {t : Touch} (htarget : t.target = a) :
    t.follow h x = match t.action with
      | .read (.data buf) =>
          ((x.1 c.fd).take buf (t.called.map Prod.snd)).map fun stream =>
            (Function.update x.1 c.fd stream, x.2)
      | .read (.fails true) => some x
      | .read (.fails false) | .hangup => some (x.1, x.2 ++ [⟨c, x.1 c.fd⟩]) := by
  simp only [follow, htarget, hc]

theorem follow_singleton (t : Touch) : [t].foldlM (Touch.follow h) x = t.follow h x := by
  rw [List.foldlM_cons]
  exact bind_pure _

/-- What the streams keep and the closings gain when one event is handled. -/
structure Followed (h : Heap SerialContext) (env : EventEnv) (e : PollEvent)
    (x y : (Int → Inflow UInt8) × List Closing) : Prop where
  flowing : Flowing h y.1
  others : ∀ fd, fd ≠ e.fd → y.1 fd = x.1 fd
  closings : ∃ new, y.2 = x.2 ++ new ∧ ((∀ cl ∈ new, cl.Kept) ↔ (closes env e = true →
    ∀ a c, h.cell a = some c → c.fd = e.fd → c.Hears → (x.1 e.fd).waiting = []))

theorem Followed.stays {env : EventEnv} (hflowing : Flowing h y.1)
    (hothers : ∀ fd, fd ≠ e.fd → y.1 fd = x.1 fd) (hclosings : y.2 = x.2)
    (hstays : closes env e = true → ∀ a c, h.cell a = some c → c.fd ≠ e.fd) :
    Followed h env e x y where
  flowing := hflowing
  others := hothers
  closings := ⟨[], by rw [hclosings, List.append_nil],
    fun _ hcloses b d hd heq => absurd heq (hstays hcloses b d hd), by simp⟩

theorem whole_iff (hflows : (x.1 c.fd).Flows c.ser.maxlen.toNat) :
    Closing.Whole ⟨c, x.1 c.fd⟩ ↔ (x.1 c.fd).waiting = [] := by
  rw [← hflows.flatten_eq_iff]
  exact and_iff_left hflows.cut

/-- The closing of a port is kept when nothing waits there for it. -/
theorem Flowing.kept_iff (hflowing : Flowing h x.1) (howned : Owned (h, k))
    (hcell : h.cell a = some c) (hopen : 0 ≤ c.fd) : Closing.Kept ⟨c, x.1 c.fd⟩ ↔
      ∀ b d, h.cell b = some d → d.fd = c.fd → d.Hears → (x.1 c.fd).waiting = [] := by
  constructor
  · intro hkept b d hd heq hears
    rw [howned.same_ctx hcell hopen hd heq] at hears
    exact (whole_iff (hflowing a c hcell hopen hears.1)).mp (hkept hears)
  · intro hdrained hears
    exact (whole_iff (hflowing a c hcell hopen hears.1)).mpr (hdrained a c hcell rfl hears)

/-- A port that reads takes from its own stream. -/
theorem Flowing.take (hflowing : Flowing h x.1) (howned : Owned (h, k)) (hcell : h.cell a = some c)
    (hopen : 0 ≤ c.fd) {buf : Bytes} (hlen : buf.length ≤ c.ser.maxlen.toNat)
    {stream : Inflow UInt8} (htake : (x.1 c.fd).take buf
      (if buf = [] then none else c.recvCb.map fun _ => buf) = some stream) :
    Flowing h (Function.update x.1 c.fd stream) := by
  intro b d hd hdopen hcb
  by_cases hsame : d.fd = c.fd
  · rw [howned.same_ctx hcell hopen hd hsame] at hcb ⊢
    rw [Function.update_self]
    obtain ⟨cb, hsome⟩ := Option.ne_none_iff_exists'.mp hcb
    rw [hsome, Option.map_some] at htake
    exact (hflowing a c hcell hopen hcb).take hlen htake
  · rw [Function.update_of_ne hsame]
    exact hflowing b d hd hdopen hcb

/-- One event, when the context it is for is the one the section started with. -/
theorem Handling.followed {env : EventEnv} (hhandling : Handling env m e m' touches)
    (howned : Owned (h, k)) (hfd : 0 ≤ e.fd) (hflowing : Flowing h x.1)
    (hagree : ∀ a c, c.fd = e.fd → (m.ctxs.cell a = some c ↔ h.cell a = some c))
    (hfollow : touches.foldlM (Touch.follow h) x = some y) : Followed h env e x y := by
  cases hhandling with
  | ignored hnone =>
      cases hfollow
      exact .stays hflowing (fun _ _ => rfl) rfl fun hcloses b d hd heq =>
        hnone (acts_of_closes hcloses) b d ((hagree b d heq).mpr hd) heq
  | @closed a c action hc heq hcloses haction =>
      have hcell := (hagree a c heq).mp hc
      have hy : y = (x.1, x.2 ++ [⟨c, x.1 c.fd⟩]) := by
        rw [follow_singleton, Touch.follow_of_cell hcell rfl] at hfollow
        rcases haction with rfl | rfl <;> exact (Option.some.inj hfollow).symm
      subst hy
      refine ⟨hflowing, fun _ _ => rfl, [⟨c, x.1 c.fd⟩], rfl, ?_⟩
      rw [List.forall_mem_singleton, hflowing.kept_iff howned hcell (by rwa [heq]), heq]
      exact ⟨fun hdrained _ => hdrained, fun hdrained => hdrained hcloses⟩
  | @again a c hc heq _ hstays =>
      rw [follow_singleton, Touch.follow_of_cell ((hagree a c heq).mp hc) rfl] at hfollow
      cases hfollow
      exact .stays hflowing (fun _ _ => rfl) rfl fun hcloses => by
        rw [hstays] at hcloses
        cases hcloses
  | @read a c buf hc heq _ hstays hlen =>
      have hcell := (hagree a c heq).mp hc
      rw [follow_singleton, Touch.follow_of_cell hcell rfl] at hfollow
      obtain ⟨stream, htake, rfl⟩ := Option.map_eq_some_iff.mp hfollow
      refine .stays (hflowing.take howned hcell (by rwa [heq]) hlen ?_) (fun fd hne => ?_) rfl
        fun hcloses => by
          rw [hstays] at hcloses
          cases hcloses
      · rw [← htake]
        split
        · rfl
        · rw [Option.map_map]
          rfl
      · exact Function.update_of_ne (by rwa [heq]) _ _

/-- The contexts of other descriptors stay as they are. -/
theorem Handling.cell_iff {env : EventEnv} (hhandling : Handling env m e m' touches)
    (hne : c.fd ≠ e.fd) (hopen : 0 ≤ c.fd) (a : Addr) :
    m'.ctxs.cell a = some c ↔ m.ctxs.cell a = some c := by
  cases hhandling with
  | ignored | again | read => rfl
  | @closed b d action hd heq =>
      rw [Heap.set_cell]
      by_cases ha : a = b
      · rw [if_pos ha, ha, hd]
        constructor
        · intro hc
          cases hc
          exact absurd hopen (not_le.mpr neg_one_fd)
        · intro hc
          cases hc
          exact absurd heq hne
      · rw [if_neg ha]

theorem drained_cons {env : Nat → EventEnv} {i : Nat} {events : List PollEvent}
    {streams : Int → Inflow UInt8} : Drained h streams env i (e :: events) ↔
      (closes (env i) e = true →
        ∀ a c, h.cell a = some c → c.fd = e.fd → c.Hears → (streams e.fd).waiting = []) ∧
      Drained h streams env (i + 1) events := by
  rw [Drained, List.zipIdx_cons, List.forall_mem_cons]
  rfl

theorem drained_congr {env : Nat → EventEnv} {i : Nat} {events : List PollEvent}
    {streams streams' : Int → Inflow UInt8}
    (hsame : ∀ e ∈ events, streams' e.fd = streams e.fd) :
    Drained h streams' env i events ↔ Drained h streams env i events := by
  have hmem : ∀ p ∈ events.zipIdx i, streams' p.1.fd = streams p.1.fd :=
    fun p hp => hsame p.1 (List.fst_mem_of_mem_zipIdx hp)
  constructor <;> intro hdrained p hp
  · rw [← hmem p hp]
    exact hdrained p hp
  · rw [hmem p hp]
    exact hdrained p hp

/-- The events of a section: what it closes lost nothing exactly when nothing waited there. -/
theorem Models.handleEvents_followed {order : List Addr} (hm : Models m order)
    (hrunning : AllRunning m.ctxs) (howned : Owned (h, k)) (env : Nat → EventEnv) (i : Nat)
    {events : List PollEvent} (hnodup : (events.map PollEvent.fd).Nodup)
    (hfds : ∀ e ∈ events, 0 ≤ e.fd) (hflowing : Flowing h x.1)
    (hagree : ∀ e ∈ events, ∀ a c, c.fd = e.fd → (m.ctxs.cell a = some c ↔ h.cell a = some c))
    (hhandle : handleEvents env i events m = .ok (m', touches))
    (hfollow : touches.foldlM (Touch.follow h) x = some y) :
    Flowing h y.1 ∧
      ∃ new, y.2 = x.2 ++ new ∧ ((∀ cl ∈ new, cl.Kept) ↔ Drained h x.1 env i events) := by
  induction events generalizing i m x touches with
  | nil =>
      cases hhandle
      cases hfollow
      exact ⟨hflowing, [], (List.append_nil _).symm, by simp [Drained]⟩
  | cons e events ih =>
      rw [List.map_cons, List.nodup_cons] at hnodup
      rw [List.forall_mem_cons] at hfds hagree
      obtain ⟨m₁, touches₁, touches₂, -, hhandling, hsnd, rfl, hm₁, hrunning₁⟩ :=
        hm.handleEvents_cons hrunning hfds.1 hhandle
      rw [List.foldlM_append] at hfollow
      obtain ⟨z, hfollow₁, hfollow₂⟩ := Option.bind_eq_some_iff.mp hfollow
      have hfollowed := hhandling.followed howned hfds.1 hflowing hagree.1 hfollow₁
      have hne : ∀ e' ∈ events, e'.fd ≠ e.fd := by
        intro e' he' heq
        exact hnodup.1 (heq ▸ List.mem_map_of_mem he')
      have hagree' : ∀ e' ∈ events, ∀ a c, c.fd = e'.fd →
          (m₁.ctxs.cell a = some c ↔ h.cell a = some c) := by
        intro e' he' a c heq
        have hne' : c.fd ≠ e.fd := by rw [heq]; exact hne e' he'
        have hopen : 0 ≤ c.fd := by rw [heq]; exact hfds.2 e' he'
        exact (hhandling.cell_iff hne' hopen a).trans (hagree.2 e' he' a c heq)
      obtain ⟨hflowing', new₂, hnew₂, hiff₂⟩ := ih hm₁ hrunning₁ (i + 1) hnodup.2 hfds.2
        hfollowed.flowing hagree' hsnd hfollow₂
      obtain ⟨new₁, hnew₁, hiff₁⟩ := hfollowed.closings
      refine ⟨hflowing', new₁ ++ new₂, by rw [hnew₂, hnew₁, List.append_assoc], ?_⟩
      have hlater : Drained h z.1 env (i + 1) events ↔ Drained h x.1 env (i + 1) events :=
        drained_congr fun e' he' => hfollowed.others e'.fd (hne e' he')
      calc (∀ cl ∈ new₁ ++ new₂, cl.Kept)
          ↔ (∀ cl ∈ new₁, cl.Kept) ∧ ∀ cl ∈ new₂, cl.Kept := List.forall_mem_append
        _ ↔ _ := and_congr hiff₁ (hiff₂.trans hlater)
        _ ↔ Drained h x.1 env i (e :: events) := drained_cons.symm

end Events

/-! ### Runs -/

/-- A port of the map was in it before, but perhaps for its descriptor, or its context is new. -/
theorem MapStep.ports_kept {w w' : PortMap} {lo : SerialLabel × SerialOut}
    (hstep : MapStep w lo w') {p : Port} (hp : p ∈ w'.items) :
    (∃ q ∈ w.items, p.unopened = q.unopened) ∨ p.addr ∉ w.addrs := by
  have hstay : ∀ v : PortMap, p ∈ v.items → ∃ q ∈ v.items, p.unopened = q.unopened :=
    fun _ hmem => ⟨p, hmem, rfl⟩
  have hsection : w.SamePorts w' → ∃ q ∈ w.items, p.unopened = q.unopened := by
    intro hsame
    have hmem : p.unopened ∈ w'.items.map Port.unopened := List.mem_map_of_mem hp
    rw [show w'.items.map Port.unopened = w.items.map Port.unopened from hsame] at hmem
    obtain ⟨q, hq, heq⟩ := List.mem_map.mp hmem
    exact ⟨q, hq, heq.symm⟩
  cases hstep with
  | addNull | addPresent _ | addNoMemory _ _ | removeAbsent _ | removeNull | write | size =>
      exact Or.inl (hstay w hp)
  | added hport hnew hcalloc hfresh =>
      rcases List.mem_append.mp hp with hmem | hmem
      · exact Or.inl (hstay w hmem)
      · rw [List.mem_singleton.mp hmem]
        exact Or.inr hfresh
  | removed _ => exact Or.inl (hstay w (List.mem_of_mem_filter hp))
  | reader hsame | monitor hsame => exact Or.inl (hsection hsame)

/-- When this step handles events, none that closes a descriptor finds bytes waiting there for a port
that would hear them. -/
def StreamSystem.DrainedAt (s : StreamSystem) (l : StreamLabel) : Prop :=
  ∀ env events, l = .act (.reader env) → s.system.reader = .polled events →
    Drained s.system.manager.ctxs s.streams env.event 0 events

/-- A step that closes no descriptor with bytes waiting. -/
def DrainedStep (s : StreamSystem) (lo : StreamLabel × SerialOut) (t : StreamSystem) : Prop :=
  Fires StreamSystem.step s lo t ∧ s.DrainedAt lo.1

/-- Only the handling of events touches ports. -/
theorem touches_of_step {s t : SerialSystem} {l : SerialLabel} {out : SerialOut}
    (hstep : s.act l = .ok (t, out)) :
    (out.touches = [] ∧ ∀ env events, l = .reader env → s.reader ≠ .polled events) ∨
      ∃ env events m', l = .reader env ∧ s.reader = .polled events ∧
        handleEvents env.event 0 events s.manager = .ok (m', out.touches) := by
  cases l with
  | size =>
      cases hstep
      exact Or.inl ⟨rfl, by simp⟩
  | add | remove | write | monitor | destroy =>
      obtain ⟨r, -, hr⟩ := bind_eq_ok hstep
      cases hr
      exact Or.inl ⟨rfl, by simp⟩
  | reader env =>
      obtain ⟨⟨u, touches⟩, hread, hr⟩ := bind_eq_ok hstep
      cases hr
      cases hphase : s.reader with
      | idle =>
          simp only [SerialSystem.readThread, hphase] at hread
          obtain ⟨fds, -, hok⟩ := bind_eq_ok hread
          cases hok
          exact Or.inl ⟨rfl, by simp⟩
      | collected fds =>
          simp only [SerialSystem.readThread, hphase] at hread
          cases hread
          exact Or.inl ⟨rfl, by simp⟩
      | polling entries =>
          simp only [SerialSystem.readThread, hphase] at hread
          split at hread <;> cases hread <;> exact Or.inl ⟨rfl, by simp⟩
      | polled events =>
          simp only [SerialSystem.readThread, hphase] at hread
          obtain ⟨⟨m', touches'⟩, hhandle, hok⟩ := bind_eq_ok hread
          cases hok
          exact Or.inr ⟨env, events, m', rfl, rfl, hhandle⟩

section Steps

variable {s t : SerialSystem} {w w' : PortMap}

/-- What a step closes lost nothing exactly when nothing waited there. -/
theorem Stores.followed {streams : Int → Inflow UInt8} {closings : List Closing} (hs : Stores s w)
    {l : SerialLabel} {out : SerialOut} (hstep : s.act l = .ok (t, out))
    {y : (Int → Inflow UInt8) × List Closing} (hflowing : Flowing s.manager.ctxs streams)
    (hfollow : out.touches.foldlM (Touch.follow s.manager.ctxs) (streams, closings) = some y) :
    Flowing s.manager.ctxs y.1 ∧ ∃ new, y.2 = closings ++ new ∧ ((∀ cl ∈ new, cl.Kept) ↔
      (StreamSystem.mk s streams closings).DrainedAt (.act l)) := by
  rcases touches_of_step hstep with ⟨hnone, hother⟩ | ⟨env, events, m', rfl, hphase, hhandle⟩
  · rw [hnone] at hfollow
    cases hfollow
    refine ⟨hflowing, [], (List.append_nil _).symm, fun _ env events hl hphase => ?_, by simp⟩
    cases hl
    exact absurd hphase (hother env events rfl)
  · have hnodup := hs.nodup
    rw [hphase] at hnodup
    obtain ⟨hflowing', new, hnew, hiff⟩ := hs.refines.models.handleEvents_followed hs.running hs.owned
      env.event 0 hnodup
      (fun e he => hs.nonneg e.fd (by rw [hphase]; exact List.mem_map_of_mem he)) hflowing
      (fun _ _ _ _ _ => Iff.rfl) hhandle hfollow
    refine ⟨hflowing', new, hnew, hiff.trans ⟨fun h env' events' hl hphase' => ?_, fun h => ?_⟩⟩
    · cases hl
      rw [show s.reader = .polled events' from hphase'] at hphase
      cases hphase
      exact h
    · exact h env events rfl hphase

/-- What has gone over a descriptor stays with the context that had it before the step. -/
theorem Stores.flowing_sinceOpen {lo : SerialLabel × SerialOut} {streams : Int → Inflow UInt8}
    (hs : Stores s w) (hmap : MapStep w lo w') (ht : Stores t w')
    (hflowing : Flowing s.manager.ctxs streams) :
    Flowing t.manager.ctxs (sinceOpen s.manager.kernel t.manager.kernel streams) := by
  intro a c hc hopen hcb
  unfold sinceOpen
  split
  · next hfiles =>
      obtain ⟨o, ho, rfl⟩ := ht.owned.held a c hc hopen
      obtain ⟨-, d, hd, hfd⟩ := hs.owned.owner c.fd o (hfiles.symm.trans ho)
      have hport : ⟨o.port, c⟩ ∈ w'.items :=
        ht.refines.port_mem ((ht.refines.models.live _).mpr ⟨c, hc⟩) hc
      have hbefore : o.port ∈ w.addrs := (hs.refines.models.live _).mpr ⟨d, hd⟩
      rcases hmap.ports_kept hport with ⟨q, hq, hsame⟩ | hnew
      · obtain ⟨haddr, hctx⟩ := Port.mk.inj hsame
        have hqd : q.ctx = d := by
          have hcell := hs.refines.cells q hq
          rw [← haddr] at hcell
          exact Option.some.inj (hcell.symm.trans hd)
        have hunopened : c.unopened = d.unopened := by
          rw [← hqd]
          exact hctx
        have hser : c.unopened.ser = d.unopened.ser := congrArg SerialContext.ser hunopened
        have hrecv : c.unopened.recvCb = d.unopened.recvCb :=
          congrArg SerialContext.recvCb hunopened
        rw [← hfd, show c.ser = d.ser from hser]
        exact hflowing o.port d hd (by rw [hfd]; exact hopen)
          (by rw [← show c.recvCb = d.recvCb from hrecv]; exact hcb)
      · exact absurd hbefore hnew
  · exact .empty _

theorem Stores.flowing_step {l : SerialLabel} {out : SerialOut} {streams : Int → Inflow UInt8}
    (hs : Stores s w) (hstep : s.step l = .ok (t, out)) (hflowing : Flowing s.manager.ctxs streams) :
    Flowing t.manager.ctxs (sinceOpen s.manager.kernel t.manager.kernel streams) := by
  by_cases hl : l = .destroy
  · subst hl
    obtain ⟨t', hdestroy, hgone⟩ := hs.destroy
    rw [hstep] at hdestroy
    cases hdestroy
    intro a c hc
    have hbare := hgone.bare a
    rw [show t.manager.ctxs.cell a = some c from hc] at hbare
    cases hbare
  · rcases hs.step hl with ⟨t', out', w', hstep', hmap, ht⟩ | ⟨⟨e, herror⟩, -⟩
    · rw [hstep] at hstep'
      cases hstep'
      exact hs.flowing_sinceOpen hmap ht hflowing
    · rw [hstep] at herror
      cases herror

end Steps

/-- A state some run can be in. -/
structure Streaming (s : StreamSystem) : Prop where
  sound : Sound s.system
  flowing : Flowing s.system.manager.ctxs s.streams

namespace Streaming

variable {s t : StreamSystem} {lo : StreamLabel × SerialOut}

theorem start (M : Malloc EQnode) : Streaming (.start M) where
  sound := Or.inl ⟨_, Stores.start M⟩
  flowing a c hc := by cases hc

/-- **One step.** The closings so far lost nothing exactly when the earlier ones did not and this step
closes no descriptor with bytes waiting. -/
theorem step (hs : Streaming s) (hstep : Fires StreamSystem.step s lo t) :
    Streaming t ∧
      ((∀ cl ∈ t.closings, cl.Kept) ↔ (∀ cl ∈ s.closings, cl.Kept) ∧ s.DrainedAt lo.1) := by
  obtain ⟨l, out⟩ := lo
  cases l with
  | arrive fd bytes =>
      have hok : (if (s.system.manager.kernel.files fd).isSome then
          Except.ok ({ s with
            streams := Function.update s.streams fd ((s.streams fd).arrive bytes) }, SerialOut.unit)
        else Except.error Refusal.impossible) = .ok (t, out) := hstep
      split at hok
      · cases hok
        refine ⟨⟨hs.sound, fun a c hc hopen hcb => ?_⟩, ?_⟩
        · have hflows := hs.flowing a c hc hopen hcb
          by_cases hfd : c.fd = fd
          · subst hfd
            show (Function.update s.streams c.fd _ c.fd).Flows _
            rw [Function.update_self]
            exact hflows.arrive bytes
          · show (Function.update s.streams fd _ c.fd).Flows _
            rw [Function.update_of_ne hfd]
            exact hflows
        · exact (and_iff_left fun _ _ hl => by cases hl).symm
      · cases hok
  | act l =>
      rw [Fires, StreamSystem.step] at hstep
      split at hstep
      · cases hstep
      · next u out' hact =>
          split at hstep
          · cases hstep
          · next y hfollow =>
              cases hstep
              rcases hs.sound with ⟨w, hstores⟩ | hgone
              · have hact' := hact
                rw [SerialSystem.step_of_alive hstores.alive] at hact'
                obtain ⟨hflowing, new, hnew, hiff⟩ := hstores.followed hact' hs.flowing hfollow
                have hfires : Fires SerialSystem.step s.system (l, out) u := hact
                refine ⟨⟨hs.sound.step hfires, hstores.flowing_step hact hflowing⟩, ?_⟩
                show (∀ cl ∈ y.2, cl.Kept) ↔ _
                rw [hnew, List.forall_mem_append]
                exact and_congr_right' hiff
              · rw [SerialSystem.step_of_gone hgone.alive] at hact
                cases hact

/-- **A run.** -/
theorem run (hs : Streaming s) {los : List (StreamLabel × SerialOut)}
    (hrun : Run (Fires StreamSystem.step) s los t) :
    (∀ cl ∈ t.closings, cl.Kept) ↔ (∀ cl ∈ s.closings, cl.Kept) ∧ Run DrainedStep s los t := by
  induction hrun with
  | nil s => exact (and_iff_left (.nil s)).symm
  | @cons s u t lo los hstep hrest ih =>
      obtain ⟨hu, hiff⟩ := hs.step hstep
      rw [ih hu, hiff, and_assoc]
      refine and_congr_right' ⟨fun hboth => .cons ⟨hstep, hboth.1⟩ hboth.2, fun hrun => ?_⟩
      obtain ⟨hfst, hrun⟩ := hrun.cons_of_fires (fun _ _ _ hdrained => hdrained.1) hstep
      exact ⟨hfst.2, hrun⟩

end Streaming

/-- **No received byte is lost.** Every descriptor that the read thread has closed, of a port with a
callback and a `maxlen` above zero, has had all its bytes handed to the callback, exactly when none was
closed with bytes waiting. -/
theorem no_byte_lost_iff {M : Malloc EQnode} {los : List (StreamLabel × SerialOut)} {s : StreamSystem}
    (hrun : Run (Fires StreamSystem.step) (.start M) los s) :
    (∀ cl ∈ s.closings, cl.ctx.Hears → cl.Whole) ↔ Run DrainedStep (.start M) los s :=
  ((Streaming.start M).run hrun).trans (and_iff_right (by simp [StreamSystem.start]))

def pollsInput : ReaderEnv :=
  ⟨true, some fun _ => ⟨false, false, true, false⟩, fun _ => ⟨true, .data [1, 2]⟩⟩

def pollsHangup : ReaderEnv :=
  ⟨true, some fun _ => ⟨false, true, true, false⟩, fun _ => ⟨true, .data [3]⟩⟩

/-- Two bytes arrive and are read; one more arrives, and the other end hangs up. -/
def hangupRun : List StreamLabel :=
  [.act (.add (bumpAdd true) (some (config8N1 uidA)) (some 0) none), .act (.monitor (opensAs 3)),
    .arrive 3 [1, 2], .act (.reader pollsInput), .act (.reader pollsInput), .act (.reader pollsInput),
    .act (.reader pollsInput), .arrive 3 [3], .act (.reader pollsHangup), .act (.reader pollsHangup),
    .act (.reader pollsHangup), .act (.reader pollsHangup)]

def hangupOuts : List SerialOut :=
  [.ret 0, .unit, .unit, .touched [], .touched [], .touched [],
    .touched [⟨some ⟨0, 0⟩, 0, some ⟨0, 0⟩, .read (.data [1, 2]), some (0, [1, 2])⟩], .unit,
    .touched [], .touched [], .touched [], .touched [⟨some ⟨0, 0⟩, 0, some ⟨0, 0⟩, .hangup, none⟩]]

theorem hangupRun_exec : ∃ s, exec StreamSystem.step (.start bumpNode) hangupRun =
    .ok (s, hangupOuts) ∧ ∃ cl ∈ s.closings, cl.ctx.Hears ∧ cl.stream = ⟨[1, 2, 3], [3], [[1, 2]]⟩ :=
  ⟨_, rfl, _, List.mem_singleton_self _, ⟨Option.some_ne_none _, by decide⟩, rfl⟩

theorem no_byte_lost_hangup : ∃ s, exec StreamSystem.step (.start bumpNode) hangupRun =
    .ok (s, hangupOuts) ∧ ((∀ cl ∈ s.closings, cl.ctx.Hears → cl.Whole) ↔
      Run DrainedStep (.start bumpNode) (hangupRun.zip hangupOuts) s) := by
  obtain ⟨s, hexec, -⟩ := hangupRun_exec
  exact ⟨s, hexec, no_byte_lost_iff (run_of_exec hexec)⟩

/-- A byte that waits when the hangup is reported is never read. -/
theorem byte_lost_counterexample :
    ¬∀ (M : Malloc EQnode) (los : List (StreamLabel × SerialOut)) (s : StreamSystem),
      Run (Fires StreamSystem.step) (.start M) los s →
        ∀ cl ∈ s.closings, cl.ctx.Hears → cl.Whole := by
  intro h
  obtain ⟨s, hexec, cl, hcl, hears, hstream⟩ := hangupRun_exec
  have hwhole := (h bumpNode _ s (run_of_exec hexec) cl hcl hears).1
  rw [hstream] at hwhole
  cases hwhole

end LibEzmb
