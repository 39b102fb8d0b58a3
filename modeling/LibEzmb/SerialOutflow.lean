import LibEzmb.SerialStream

/-! What goes out over the ports: the bytes that `e_serial_manager_write` and `serial_write` get onto
the openings of the descriptors, however their numbers are used again. -/

open CHeap CBytes Runs

namespace LibEzmb

/-! ### The table of descriptors -/

/-- What is open has been counted, and no two openings have one number. -/
structure Kernel.Numbered (k : Kernel) : Prop where
  counted : ∀ fd o, k.files fd = some o → o.serial < k.opened
  inj : ∀ fd fd' o o', k.files fd = some o → k.files fd' = some o' → o.serial = o'.serial → fd = fd'

/-- Nothing is opened. -/
structure Kernel.Shrinks (k k' : Kernel) : Prop where
  opened : k'.opened = k.opened
  files : ∀ fd o, k'.files fd = some o → k.files fd = some o

namespace Kernel.Shrinks

variable {k k' k'' : Kernel}

theorem refl (k : Kernel) : Shrinks k k := ⟨rfl, fun _ _ => id⟩

theorem trans (hfst : Shrinks k k') (hsnd : Shrinks k' k'') : Shrinks k k'' :=
  ⟨hsnd.opened.trans hfst.opened, fun fd o ho => hfst.files fd o (hsnd.files fd o ho)⟩

theorem closeFile (k : Kernel) (fd : Int) : Shrinks k (k.closeFile fd) := by
  have hnone : ∀ fd' o, Function.update k.files fd none fd' = some o → k.files fd' = some o := by
    intro fd' o ho
    by_cases heq : fd' = fd
    · subst heq
      rw [Function.update_self] at ho
      cases ho
    · rwa [Function.update_of_ne heq] at ho
  unfold Kernel.closeFile
  cases k.files fd with
  | none => exact ⟨rfl, fun _ _ => id⟩
  | some o => exact ⟨rfl, hnone⟩

end Kernel.Shrinks

/-- What is open afterwards was open before or has been opened since, and each opening gets a number
of its own. -/
structure Kernel.Grows (k k' : Kernel) : Prop where
  opened : k.opened ≤ k'.opened
  files : ∀ fd o, k'.files fd = some o → k.files fd = some o ∨ k.opened ≤ o.serial
  numbered : k.Numbered → k'.Numbered

theorem Kernel.Shrinks.grows {k k' : Kernel} (hshrinks : k.Shrinks k') : k.Grows k' where
  opened := hshrinks.opened.ge
  files fd o ho := Or.inl (hshrinks.files fd o ho)
  numbered hk := {
    counted := fun fd o ho => hshrinks.opened ▸ hk.counted fd o (hshrinks.files fd o ho)
    inj := fun fd fd' o o' ho ho' =>
      hk.inj fd fd' o o' (hshrinks.files fd o ho) (hshrinks.files fd' o' ho') }

namespace Kernel.Grows

variable {k k' k'' : Kernel}

theorem refl (k : Kernel) : Grows k k := (Shrinks.refl k).grows

theorem trans (hfst : Grows k k') (hsnd : Grows k' k'') : Grows k k'' where
  opened := hfst.opened.trans hsnd.opened
  files fd o ho := by
    rcases hsnd.files fd o ho with ho' | hnew
    · exact hfst.files fd o ho'
    · exact Or.inr (hfst.opened.trans hnew)
  numbered := hsnd.numbered ∘ hfst.numbered

theorem openFile (k : Kernel) (port : Addr) (answer : Option Nat) :
    Grows k (k.openFile port answer).1 := by
  unfold Kernel.openFile
  cases answer with
  | none => exact refl k
  | some n =>
      dsimp only
      split
      · exact refl k
      · have hcases : ∀ fd o, Function.update k.files n (some ⟨k.opened, port⟩) fd = some o →
            (fd = n ∧ o.serial = k.opened) ∨ k.files fd = some o := by
          intro fd o ho
          by_cases heq : fd = n
          · subst heq
            rw [Function.update_self] at ho
            cases ho
            exact Or.inl ⟨rfl, rfl⟩
          · rw [Function.update_of_ne heq] at ho
            exact Or.inr ho
        refine ⟨Nat.le_succ _, fun fd o ho => ?_, fun hk => ⟨fun fd o ho => ?_, ?_⟩⟩
        · rcases hcases fd o ho with ⟨-, hserial⟩ | hold
          · exact Or.inr hserial.ge
          · exact Or.inl hold
        · rcases hcases fd o ho with ⟨-, hserial⟩ | hold
          · exact hserial.trans_lt (Nat.lt_succ_self _)
          · exact (hk.counted fd o hold).trans (Nat.lt_succ_self _)
        · intro fd fd' o o' ho ho' hsame
          rcases hcases fd o ho with ⟨rfl, hserial⟩ | hold <;>
            rcases hcases fd' o' ho' with ⟨rfl, hserial'⟩ | hold'
          · rfl
          · exact absurd (hk.counted fd' o' hold') (by omega)
          · exact absurd (hk.counted fd o hold) (by omega)
          · exact hk.inj fd fd' o o' hold hold' hsame

theorem serialClose (k : Kernel) (fd : Int) : Grows k (serialClose k fd).1 := by
  unfold LibEzmb.serialClose
  split
  · exact (Shrinks.closeFile k fd).grows
  · exact refl k

theorem serialOpen (k : Kernel) (port : Addr) (env : OpenEnv) (cfg : SerialConfig) :
    Grows k (serialOpen k port env cfg).1 := by
  have hopen := openFile k port env.answer
  unfold LibEzmb.serialOpen
  dsimp only
  split
  · exact hopen
  · split
    · exact hopen.trans (serialClose _ _)
    · exact hopen

end Kernel.Grows

section Kernels

variable {m m' : SerialManager}

theorem releasePort_shrinks {ctx : Ptr} (hrelease : releasePort m ctx = .ok m') :
    m.kernel.Shrinks m'.kernel := by
  obtain ⟨c, -, hrest⟩ := bind_eq_ok hrelease
  obtain ⟨ctxs, -, hrest⟩ := bind_eq_ok hrest
  obtain ⟨ctxs', -, hok⟩ := bind_eq_ok hrest
  cases hok
  dsimp only
  split
  · exact .closeFile _ _
  · exact .refl _

theorem addPort_shrinks {env : AddEnv} {config : Option SerialConfig} {recvCb : Option Addr} {data : Ptr}
    {r : Int} (hadd : eSerialManagerAddPort env m config recvCb data = .ok (m', r)) :
    m.kernel.Shrinks m'.kernel := by
  cases config with
  | none =>
      cases hadd
      exact .refl _
  | some config =>
      obtain ⟨index, -, hrest⟩ := bind_eq_ok hadd
      split at hrest
      · cases hrest
        exact .refl _
      · split at hrest
        · cases hrest
          exact .refl _
        · obtain ⟨⟨nodes, ports⟩, -, hok⟩ := bind_eq_ok hrest
          cases hok
          exact .refl _

theorem removeRound_shrinks {M : Malloc EQnode} {uid : CStr} {temp temp' : EQueue}
    (hround : removeRound M uid (m, temp) = .ok (m', temp')) : m.kernel.Shrinks m'.kernel := by
  obtain ⟨⟨nodes, ports, ctx⟩, -, hrest⟩ := bind_eq_ok hround
  dsimp only at hrest
  cases ctx with
  | none =>
      obtain ⟨named, hnamed, hrest⟩ := bind_eq_ok hrest
      cases hnamed
      obtain ⟨⟨nodes', temp''⟩, -, hok⟩ := bind_eq_ok hrest
      cases hok
      exact .refl _
  | some a =>
      obtain ⟨c, -, hrest⟩ := bind_eq_ok hrest
      obtain ⟨named, -, hrest⟩ := bind_eq_ok hrest
      cases named with
      | true =>
          obtain ⟨m₁, hrelease, hok⟩ := bind_eq_ok hrest
          have hshrinks := releasePort_shrinks hrelease
          cases hok
          exact hshrinks
      | false =>
          obtain ⟨⟨nodes', temp''⟩, -, hok⟩ := bind_eq_ok hrest
          cases hok
          exact .refl _

theorem removePort_shrinks {M : Malloc EQnode} {uid : Option CStr}
    (hremove : eSerialManagerRemovePort M m uid = .ok m') : m.kernel.Shrinks m'.kernel := by
  cases uid with
  | none =>
      cases hremove
      exact .refl _
  | some uid =>
      obtain ⟨⟨m₁, temp₁⟩, hloop, hrest⟩ := bind_eq_ok hremove
      obtain ⟨⟨m₂, temp₂⟩, hloop', hrest⟩ := bind_eq_ok hrest
      obtain ⟨cleared, -, hok⟩ := bind_eq_ok hrest
      cases hok
      have hfst : m.kernel.Shrinks m₁.kernel :=
        whileLoop_invariant (I := fun s => m.kernel.Shrinks s.1.kernel)
          (fun (_, _) (_, _) hs hround => hs.trans (removeRound_shrinks hround)) (.refl _) hloop
      refine whileLoop_invariant (I := fun s => m.kernel.Shrinks s.1.kernel) (fun s t hs hround => ?_)
        hfst hloop'
      obtain ⟨⟨nodes, temp, ctx⟩, -, hrest⟩ := bind_eq_ok hround
      obtain ⟨⟨nodes', ports⟩, -, hok⟩ := bind_eq_ok hrest
      cases hok
      exact hs

theorem destroy_shrinks (hdestroy : eSerialManagerDestroy m = .ok m') : m.kernel.Shrinks m'.kernel := by
  obtain ⟨m₁, hloop, hrest⟩ := bind_eq_ok hdestroy
  obtain ⟨cleared, -, hok⟩ := bind_eq_ok hrest
  cases hok
  refine whileLoop_invariant (I := fun s => m.kernel.Shrinks s.kernel) (fun s t hs hround => ?_)
    (.refl _) hloop
  obtain ⟨⟨nodes, ports, ctx⟩, -, hrest⟩ := bind_eq_ok hround
  cases ctx with
  | none =>
      cases hrest
      exact hs
  | some a =>
      dsimp only at hrest
      have hshrinks := releasePort_shrinks hrest
      exact hs.trans hshrinks

theorem closePort_shrinks {a : Addr} {c : SerialContext} (hclose : closePort m a c = .ok m') :
    m.kernel.Shrinks m'.kernel := by
  obtain ⟨ctxs, -, hok⟩ := bind_eq_ok hclose
  cases hok
  exact .closeFile _ _

theorem handleEvent_shrinks {env : EventEnv} {e : PollEvent} {touches : List Touch}
    (hhandle : handleEvent env m e = .ok (m', touches)) : m.kernel.Shrinks m'.kernel := by
  unfold handleEvent at hhandle
  split at hhandle
  · cases hhandle
    exact .refl _
  obtain ⟨found, -, hrest⟩ := bind_eq_ok hhandle
  cases found with
  | none =>
      cases hrest
      exact .refl _
  | some x =>
      obtain ⟨c, -, hrest⟩ := bind_eq_ok hrest
      dsimp only at hrest
      split at hrest
      · cases hrest
        exact .refl _
      split at hrest
      · obtain ⟨m₁, hclose, hok⟩ := bind_eq_ok hrest
        cases hok
        exact closePort_shrinks hclose
      split at hrest
      · split at hrest
        · cases hrest
          exact .refl _
        · split at hrest
          · split at hrest
            · cases hrest
              exact .refl _
            · obtain ⟨m₁, hclose, hok⟩ := bind_eq_ok hrest
              cases hok
              exact closePort_shrinks hclose
          · split at hrest <;> cases hrest <;> exact .refl _
      · cases hrest
        exact .refl _

theorem handleEvents_shrinks {env : Nat → EventEnv} {i : Nat} {events : List PollEvent}
    {touches : List Touch} (hhandle : handleEvents env i events m = .ok (m', touches)) :
    m.kernel.Shrinks m'.kernel := by
  induction events generalizing i m touches with
  | nil =>
      cases hhandle
      exact .refl _
  | cons e events ih =>
      obtain ⟨⟨m₁, fst⟩, hfst, hrest⟩ := bind_eq_ok hhandle
      obtain ⟨⟨m₂, rest⟩, hsnd, hok⟩ := bind_eq_ok hrest
      cases hok
      exact (handleEvent_shrinks hfst).trans (ih hsnd)

theorem monitorPass_grows {env : Addr → OpenEnv} (hpass : monitorPass env m = .ok m') :
    m.kernel.Grows m'.kernel := by
  obtain ⟨top, -, hrest⟩ := bind_eq_ok hpass
  obtain ⟨s, hwalk, hok⟩ := bind_eq_ok hrest
  cases hok
  refine walk_invariant (I := fun s => m.kernel.Grows s.2) (fun s d s' stop hs hstep => ?_)
    (.refl _) hwalk
  cases d with
  | none =>
      cases hstep
      exact hs
  | some a =>
      obtain ⟨c, -, hrest⟩ := bind_eq_ok hstep
      split at hrest
      · obtain ⟨ctxs, -, hok⟩ := bind_eq_ok hrest
        cases hok
        exact hs.trans (.serialOpen _ _ _ _)
      · cases hrest
        exact hs

end Kernels

/-- Only the handling of events changes the manager. -/
theorem readThread_cases {s t : SerialSystem} {env : ReaderEnv} {touches : List Touch}
    (hread : s.readThread env = .ok (t, touches)) : t.manager = s.manager ∨
      ∃ events, s.reader = .polled events ∧
        handleEvents env.event 0 events s.manager = .ok (t.manager, touches) := by
  unfold SerialSystem.readThread at hread
  split at hread
  · obtain ⟨fds, -, hok⟩ := bind_eq_ok hread
    cases hok
    exact Or.inl rfl
  · cases hread
    exact Or.inl rfl
  · split at hread <;> cases hread <;> exact Or.inl rfl
  · next events hphase =>
      obtain ⟨⟨m, touches'⟩, hhandle, hok⟩ := bind_eq_ok hread
      cases hok
      exact Or.inr ⟨events, hphase, hhandle⟩

theorem readThread_shrinks {s t : SerialSystem} {env : ReaderEnv} {touches : List Touch}
    (hread : s.readThread env = .ok (t, touches)) : s.manager.kernel.Shrinks t.manager.kernel := by
  rcases readThread_cases hread with hsame | ⟨events, -, hhandle⟩
  · rw [hsame]
    exact .refl _
  · exact handleEvents_shrinks hhandle

/-- Only the monitor opens. -/
theorem act_shrinks {s t : SerialSystem} {l : SerialLabel} {o : SerialOut}
    (hact : s.act l = .ok (t, o)) (hl : ∀ env, l ≠ .monitor env) :
    s.manager.kernel.Shrinks t.manager.kernel := by
  cases l with
  | size =>
      cases hact
      exact .refl _
  | write uid data ret =>
      obtain ⟨x, -, hok⟩ := bind_eq_ok hact
      cases hok
      exact .refl _
  | add env config recvCb data =>
      obtain ⟨⟨m, r⟩, hadd, hok⟩ := bind_eq_ok hact
      cases hok
      exact addPort_shrinks hadd
  | remove M uid =>
      obtain ⟨m, hremove, hok⟩ := bind_eq_ok hact
      cases hok
      exact removePort_shrinks hremove
  | reader env =>
      obtain ⟨⟨u, touches⟩, hread, hok⟩ := bind_eq_ok hact
      cases hok
      exact readThread_shrinks hread
  | monitor env => exact absurd rfl (hl env)
  | destroy =>
      obtain ⟨m, hdestroy, hok⟩ := bind_eq_ok hact
      cases hok
      exact destroy_shrinks hdestroy

theorem act_grows {s t : SerialSystem} {l : SerialLabel} {o : SerialOut} (hact : s.act l = .ok (t, o)) :
    s.manager.kernel.Grows t.manager.kernel := by
  by_cases hl : ∀ env, l ≠ .monitor env
  · exact (act_shrinks hact hl).grows
  · push Not at hl
    obtain ⟨env, rfl⟩ := hl
    obtain ⟨m, hpass, hok⟩ := bind_eq_ok hact
    cases hok
    exact monitorPass_grows hpass

/-! ### The lines -/

/-- Bytes that a descriptor has taken, and the uid of the port they were meant for. -/
structure Piece where
  uid : Option CStr
  bytes : Bytes
  deriving DecidableEq

/-- A `serial_write` between its look at the descriptor and its lock. -/
structure Writing where
  ctx : Addr
  uid : Option CStr
  data : Bytes

/-- The manager with its threads, what has gone out over each opening, by its number, and the calls
of `serial_write` that are under way. -/
structure OutflowSystem where
  system : SerialSystem
  lines : Nat → List Piece
  writing : List Writing

/-- A step of the manager or its threads; `serial_write` looks at the descriptor; one of those under
way takes the lock and writes, with what `write` answers. -/
inductive OutflowLabel where
  | act (l : SerialLabel)
  | check (ctx : Ptr) (data : Bytes)
  | finish (i : Nat) (ret : Int)

/-- The test at the start of `serial_write`, without the lock. -/
def serialWriteCheck (m : SerialManager) (ctx : Ptr) : Except Fault Bool :=
  match ctx with
  | none => .ok false
  | some a => do
      let c ← m.ctxs.deref (some a)
      .ok (decide (0 ≤ c.fd))

/-- The rest of it, under the lock: what `write` is called with. -/
def serialWriteLocked (m : SerialManager) (a : Addr) (data : Bytes) : Except Fault (Int × Bytes) := do
  let c ← m.ctxs.deref (some a)
  .ok (c.fd, data)

namespace OutflowSystem

def start (M : Malloc EQnode) : OutflowSystem := ⟨.start M, fun _ => [], []⟩

/-- `write`: the opening that the number stands for takes so many bytes from the front. A number that
is not open takes none. -/
def take (s : OutflowSystem) (uid : Option CStr) (fd : Int) (data : Bytes) (ret : Int) :
    OutflowSystem × Option Piece :=
  match s.system.manager.kernel.files fd with
  | none => (s, none)
  | some o =>
      let piece : Piece := ⟨uid, data.take ret.toNat⟩
      ({ s with lines := Function.update s.lines o.serial (s.lines o.serial ++ [piece]) }, some piece)

/-- What a call of the manager hands to `write`. -/
def handed : SerialLabel → SerialOut → Option (Option CStr × Int × Bytes × Int)
  | .write uid _ ret, .written (some (fd, bytes)) _ => some (uid, fd, bytes, ret)
  | _, _ => none

def act (s : OutflowSystem) (l : SerialLabel) : Except Refusal (OutflowSystem × Option Piece) := do
  let (t, out) ← liftFault .fault (s.system.step l)
  match handed l out with
  | none => .ok ({ s with system := t }, none)
  | some (uid, fd, bytes, ret) => .ok ({ s with system := t }.take uid fd bytes ret)

def step (s : OutflowSystem) : OutflowLabel → Except Refusal (OutflowSystem × Option Piece)
  | .act l => s.act l
  | .check ctx data => do
      let isOpen ← liftFault .fault (serialWriteCheck s.system.manager ctx)
      match ctx, isOpen with
      | some a, true =>
          let call : Writing := ⟨a, uidAt s.system.manager.ctxs a, data⟩
          .ok ({ s with writing := s.writing ++ [call] }, none)
      | _, _ => .ok (s, none)
  | .finish i ret =>
      match s.writing[i]? with
      | none => .error .impossible
      | some call => do
          let (fd, bytes) ← liftFault .fault (serialWriteLocked s.system.manager call.ctx call.data)
          .ok ({ s with writing := s.writing.eraseIdx i }.take call.uid fd bytes ret)

end OutflowSystem

/-! ### What a step keeps -/

section Steps

variable {s t : SerialSystem} {w w' : PortMap}

/-- A step leaves the uid of a port whose descriptor stays open. -/
theorem Stores.uid_kept {lo : SerialLabel × SerialOut} (hs : Stores s w) (hmap : MapStep w lo w')
    (ht : Stores t w') {fd : Int} {o : Opening} (ho : s.manager.kernel.files fd = some o)
    (ho' : t.manager.kernel.files fd = some o) :
    uidAt t.manager.ctxs o.port = uidAt s.manager.ctxs o.port := by
  obtain ⟨-, c, hc, -⟩ := hs.owned.owner fd o ho
  obtain ⟨-, d, hd, -⟩ := ht.owned.owner fd o ho'
  have hbefore : o.port ∈ w.addrs := (hs.refines.models.live _).mpr ⟨c, hc⟩
  have hport : ⟨o.port, d⟩ ∈ w'.items :=
    ht.refines.port_mem ((ht.refines.models.live _).mpr ⟨d, hd⟩) hd
  rcases hmap.ports_kept hport with ⟨q, hq, hsame⟩ | hnew
  · obtain ⟨haddr, hctx⟩ := Port.mk.inj hsame
    have hqaddr : q.addr = o.port := haddr.symm
    rw [ht.refines.uidAt_eq hport, ← hqaddr, hs.refines.uidAt_eq hq]
    show d.unopened.ser.uid = q.ctx.unopened.ser.uid
    rw [show d.unopened = q.ctx.unopened from hctx]
  · exact absurd hbefore hnew

/-- A step that removes nothing leaves each port where it is, with its uid. -/
theorem MapStep.port_stays {lo : SerialLabel × SerialOut} (hmap : MapStep w lo w')
    (hstays : ∀ M uid, lo.1 ≠ .remove M uid) {p : Port} (hp : p ∈ w.items) :
    ∃ q ∈ w'.items, q.unopened = p.unopened := by
  have hsection : w.SamePorts w' → ∃ q ∈ w'.items, q.unopened = p.unopened := by
    intro hsame
    have hmem : p.unopened ∈ w'.items.map Port.unopened := by
      rw [show w'.items.map Port.unopened = w.items.map Port.unopened from hsame]
      exact List.mem_map_of_mem hp
    exact List.mem_map.mp hmem
  cases hmap with
  | addNull | addPresent _ | addNoMemory _ _ | removeAbsent _ | removeNull | write | size =>
      exact ⟨p, hp, rfl⟩
  | added hport hnew hcalloc hfresh => exact ⟨p, List.mem_append_left _ hp, rfl⟩
  | removed _ => exact absurd rfl (hstays _ _)
  | reader hsame | monitor hsame => exact hsection hsame

/-- What `e_serial_manager_write` hands over is for the port with the uid. -/
theorem Stores.handed_uid {uid : Option CStr} {data : Option Bytes} {ret fd r : Int} {bytes : Bytes}
    (hs : Stores s w) (hwrite : w.write uid data ret = (some (fd, bytes), r)) {o : Opening}
    (ho : s.manager.kernel.files fd = some o) : uidAt s.manager.ctxs o.port = uid := by
  unfold PortMap.write at hwrite
  split at hwrite
  · next uid data =>
      split at hwrite
      · cases hwrite
      · split at hwrite
        · cases hwrite
        · next p hfind =>
            split at hwrite
            · cases hwrite
            · next hopen =>
                cases hwrite
                have hp : p ∈ w.items := List.mem_of_find?_eq_some hfind
                have hkey : p.uid = some uid := by simpa using List.find?_some hfind
                have hcell := hs.refines.cells p hp
                obtain ⟨o', ho', hport⟩ := hs.owned.held p.addr p.ctx hcell (not_lt.mp hopen)
                have hsame : o' = o := Option.some.inj (Eq.trans (Eq.symm ho') ho)
                rw [← hsame, hport, hs.refines.uidAt_eq hp, hkey]
  · cases hwrite

end Steps

/-! ### Runs -/

/-- Lines that only grow at one place, behind which the others have nothing. -/
theorem flatMap_range_grow {α : Type} {g g' : Nat → List α} {k m : Nat} {more : List α} (hk : k < m)
    (hat : g' k = g k ++ more) (helse : ∀ n, n ≠ k → g' n = g n) (hbehind : ∀ n, k < n → g n = []) :
    (List.range m).flatMap g' = (List.range m).flatMap g ++ more := by
  induction m with
  | zero => exact absurd hk (Nat.not_lt_zero k)
  | succ m ih =>
      rw [List.range_succ, List.flatMap_append, List.flatMap_append, List.flatMap_singleton,
        List.flatMap_singleton]
      rcases Nat.lt_succ_iff_lt_or_eq.mp hk with hlt | rfl
      · rw [ih hlt, helse m (Nat.ne_of_gt hlt), hbehind m hlt, List.append_nil, List.append_nil]
      · have hsame : (List.range k).flatMap g' = (List.range k).flatMap g :=
          List.flatMap_congr fun n hn => helse n (List.mem_range.mp hn).ne
        rw [hsame, hat, List.append_assoc]

theorem flatMap_range_extend {α : Type} {g : Nat → List α} {k m : Nat} (hkm : k ≤ m)
    (hnil : ∀ n, k ≤ n → g n = []) : (List.range m).flatMap g = (List.range k).flatMap g := by
  induction m, hkm using Nat.le_induction with
  | base => rfl
  | succ m hkm ih =>
      rw [List.range_succ, List.flatMap_append, List.flatMap_singleton, hnil m hkm, List.append_nil, ih]

/-- The pieces that a run has put on lines. -/
def taken (los : List (OutflowLabel × Option Piece)) : List Piece := los.filterMap Prod.snd

/-- Those for a uid. -/
def piecesFor (uid : Option CStr) (pieces : List Piece) : List Piece :=
  pieces.filter fun x => x.uid = uid

/-- Everything that went out, by the openings in the order of their numbers. -/
def OutflowSystem.sent (s : OutflowSystem) : List Piece :=
  (List.range s.system.manager.kernel.opened).flatMap s.lines

/-- Each line has the pieces for one uid, that of the port it belongs to, and what went out for a uid
stands on its lines in order. -/
structure Lined (s : OutflowSystem) (log : List Piece) : Prop where
  sound : Sound s.system
  numbered : s.system.manager.kernel.Numbered
  fresh : ∀ n, s.system.manager.kernel.opened ≤ n → s.lines n = []
  mine : ∀ fd o, s.system.manager.kernel.files fd = some o →
    ∀ x ∈ s.lines o.serial, x.uid = uidAt s.system.manager.ctxs o.port
  last : ∀ fd o, s.system.manager.kernel.files fd = some o → ∀ n, o.serial < n →
    ∀ x ∈ s.lines n, x.uid ≠ uidAt s.system.manager.ctxs o.port
  single : ∀ n, ∀ x ∈ s.lines n, ∀ y ∈ s.lines n, x.uid = y.uid
  logged : ∀ uid, piecesFor uid s.sent = piecesFor uid log
  writing : ∀ call ∈ s.writing, (s.system.manager.ctxs.cell call.ctx).isSome ∧
    uidAt s.system.manager.ctxs call.ctx = call.uid

namespace Lined

variable {s : OutflowSystem} {log : List Piece}

theorem start (M : Malloc EQnode) : Lined (.start M) [] where
  sound := Or.inl ⟨_, Stores.start M⟩
  numbered := ⟨nofun, nofun⟩
  fresh _ _ := rfl
  mine _ _ h := by cases h
  last _ _ h := by cases h
  single _ _ h := absurd h List.not_mem_nil
  logged _ := rfl
  writing _ h := absurd h List.not_mem_nil

/-- A step of the manager that puts nothing on a line. -/
theorem moves (hs : Lined s log) {t : SerialSystem} (hsound : Sound t)
    (hgrows : s.system.manager.kernel.Grows t.manager.kernel)
    (huid : ∀ fd o, s.system.manager.kernel.files fd = some o → t.manager.kernel.files fd = some o →
      uidAt t.manager.ctxs o.port = uidAt s.system.manager.ctxs o.port)
    (hwriting : ∀ call ∈ s.writing, (t.manager.ctxs.cell call.ctx).isSome ∧
      uidAt t.manager.ctxs call.ctx = call.uid) :
    Lined { s with system := t } log where
  sound := hsound
  numbered := hgrows.numbered hs.numbered
  fresh n hn := hs.fresh n (hgrows.opened.trans hn)
  mine fd o ho x hx := by
    rcases hgrows.files fd o ho with hold | hnew
    · rw [show uidAt t.manager.ctxs o.port = _ from huid fd o hold ho]
      exact hs.mine fd o hold x hx
    · rw [show s.lines o.serial = [] from hs.fresh _ hnew] at hx
      cases hx
  last fd o ho n hn x hx := by
    rcases hgrows.files fd o ho with hold | hnew
    · rw [show uidAt t.manager.ctxs o.port = _ from huid fd o hold ho]
      exact hs.last fd o hold n hn x hx
    · rw [show s.lines n = [] from hs.fresh n (hnew.trans hn.le)] at hx
      cases hx
  single := hs.single
  logged uid := by
    rw [← hs.logged uid]
    exact congrArg (piecesFor uid) (flatMap_range_extend hgrows.opened hs.fresh)
  writing := hwriting

/-- A call of `serial_write` comes or goes. -/
theorem rewrite (hs : Lined s log) {writing : List Writing}
    (hwriting : ∀ call ∈ writing, (s.system.manager.ctxs.cell call.ctx).isSome ∧
      uidAt s.system.manager.ctxs call.ctx = call.uid) : Lined { s with writing := writing } log :=
  ⟨hs.sound, hs.numbered, hs.fresh, hs.mine, hs.last, hs.single, hs.logged, hwriting⟩

theorem owned (hs : Lined s log) : Owned s.system.manager.portState := by
  rcases hs.sound with ⟨w, hstores⟩ | hgone
  · exact hstores.owned
  · exact hgone.owned

/-- Two open descriptors of ports with one uid are one. -/
theorem same_opening (hs : Lined s log) {fd fd' : Int} {o o' : Opening}
    (ho : s.system.manager.kernel.files fd = some o) (ho' : s.system.manager.kernel.files fd' = some o')
    (huid : uidAt s.system.manager.ctxs o.port = uidAt s.system.manager.ctxs o'.port) : o = o' := by
  rcases hs.sound with ⟨w, hstores⟩ | hgone
  · obtain ⟨-, c, hc, rfl⟩ := hstores.owned.owner fd o ho
    obtain ⟨-, d, hd, rfl⟩ := hstores.owned.owner fd' o' ho'
    have hport := hstores.refines.port_mem ((hstores.refines.models.live _).mpr ⟨c, hc⟩) hc
    have hport' := hstores.refines.port_mem ((hstores.refines.models.live _).mpr ⟨d, hd⟩) hd
    rw [hstores.refines.uidAt_eq hport, hstores.refines.uidAt_eq hport'] at huid
    have hsame := List.inj_on_of_nodup_map w.nodup hport hport' huid
    obtain ⟨-, rfl⟩ := Port.mk.inj hsame
    exact Option.some.inj (ho.symm.trans ho')
  · obtain ⟨-, c, hc, -⟩ := hgone.owned.owner fd o ho
    have hbare := hgone.bare o.port
    rw [show s.system.manager.ctxs.cell o.port = some c from hc] at hbare
    cases hbare

/-- The pieces for a uid, when one for some uid is put behind all that there are for it. -/
theorem logged_grow (hs : Lined s log) (u : Option CStr) {lines : Nat → List Piece} {piece : Piece}
    {k : Nat} (hk : k < s.system.manager.kernel.opened) (hat : lines k = s.lines k ++ [piece])
    (helse : ∀ n, n ≠ k → lines n = s.lines n)
    (hbehind : ∀ n, k < n → ∀ x ∈ s.lines n, x.uid ≠ piece.uid) :
    piecesFor u (OutflowSystem.sent { s with lines := lines }) = piecesFor u (log ++ [piece]) := by
  have hlogged := hs.logged u
  simp only [piecesFor, OutflowSystem.sent, List.filter_flatMap, List.filter_append] at hlogged ⊢
  rw [← hlogged]
  by_cases hu : piece.uid = u
  · apply flatMap_range_grow hk
    · rw [hat, List.filter_append]
    · intro n hn
      rw [helse n hn]
    · intro n hn
      rw [List.filter_eq_nil_iff]
      intro x hx
      rw [decide_eq_true_eq, ← hu]
      exact hbehind n hn x hx
  · have hnone : [piece].filter (fun x => decide (x.uid = u)) = [] := by
      rw [List.filter_singleton, decide_eq_false hu]
      rfl
    rw [hnone, List.append_nil]
    apply List.flatMap_congr
    intro n _
    by_cases hn : n = k
    · rw [hn, hat, List.filter_append, hnone, List.append_nil]
    · rw [helse n hn]

/-- A `write` for a uid, on a descriptor that is closed or that of the port with the uid. -/
theorem take (hs : Lined s log) {uid : Option CStr} {fd : Int}
    (hfor : ∀ o, s.system.manager.kernel.files fd = some o → uidAt s.system.manager.ctxs o.port = uid)
    (data : Bytes) (ret : Int) :
    Lined (s.take uid fd data ret).1 (log ++ (s.take uid fd data ret).2.toList) := by
  unfold OutflowSystem.take
  cases ho : s.system.manager.kernel.files fd with
  | none =>
      rw [Option.toList_none, List.append_nil]
      exact hs
  | some o =>
      have huid := hfor o ho
      let piece : Piece := ⟨uid, data.take ret.toNat⟩
      let lines := Function.update s.lines o.serial (s.lines o.serial ++ [piece])
      have hat : lines o.serial = s.lines o.serial ++ [piece] := Function.update_self ..
      have helse : ∀ n, n ≠ o.serial → lines n = s.lines n := fun n hn => Function.update_of_ne hn _ _
      have hmem : ∀ n, ∀ x ∈ lines n, x ∈ s.lines n ∨ (n = o.serial ∧ x.uid = uid) := by
        intro n x hx
        by_cases hn : n = o.serial
        · subst hn
          rw [hat, List.mem_append, List.mem_singleton] at hx
          rcases hx with hx | rfl
          · exact Or.inl hx
          · exact Or.inr ⟨rfl, rfl⟩
        · rw [helse n hn] at hx
          exact Or.inl hx
      have hmine := hs.mine fd o ho
      rw [huid] at hmine
      show Lined { s with lines := lines } (log ++ [piece])
      refine ⟨hs.sound, hs.numbered, fun n hn => ?_, fun fd' o' ho' x hx => ?_,
        fun fd' o' ho' n hn x hx heq => ?_, fun n x hx y hy => ?_, fun u => ?_, hs.writing⟩
      · have hne : n ≠ o.serial := ((hs.numbered.counted fd o ho).trans_le hn).ne'
        exact (helse n hne).trans (hs.fresh n hn)
      · rcases hmem _ x hx with hold | ⟨hserial, hnew⟩
        · exact hs.mine fd' o' ho' x hold
        · have hfd := hs.numbered.inj fd' fd o' o ho' ho hserial
          subst hfd
          have hsame : o' = o := Option.some.inj (Eq.trans (Eq.symm ho') ho)
          rw [hnew, hsame]
          exact huid.symm
      · rcases hmem n x hx with hold | ⟨rfl, hnew⟩
        · exact hs.last fd' o' ho' n hn x hold heq
        · have hsame := hs.same_opening ho ho' (huid.trans (hnew.symm.trans heq))
          rw [hsame] at hn
          exact absurd hn (lt_irrefl _)
      · rcases hmem n x hx with hold | ⟨hn, hnew⟩ <;> rcases hmem n y hy with hold' | ⟨hn', hnew'⟩
        · exact hs.single n x hold y hold'
        · rw [hmine x (hn' ▸ hold), hnew']
        · rw [hnew, hmine y (hn ▸ hold')]
        · rw [hnew, hnew']
      · exact hs.logged_grow u (hs.numbered.counted fd o ho) hat helse fun n hn x hx heq =>
          hs.last fd o ho n hn x hx (heq.trans huid.symm)

end Lined

namespace OutflowSystem

variable {s t : OutflowSystem} {log : List Piece}

/-- While a `serial_write` is under way no port is removed. -/
def Careful (s : OutflowSystem) (lo : OutflowLabel × Option Piece) (t : OutflowSystem) : Prop :=
  Fires step s lo t ∧
    (s.writing ≠ [] → (∀ M uid, lo.1 ≠ .act (.remove M uid)) ∧ lo.1 ≠ .act .destroy)

theorem handed_eq {l : SerialLabel} {out : SerialOut} {uid : Option CStr} {fd ret : Int}
    {bytes : Bytes} (hhanded : handed l out = some (uid, fd, bytes, ret)) :
    ∃ data r, l = .write uid data ret ∧ out = .written (some (fd, bytes)) r := by
  cases l with
  | write uid' data ret' =>
      cases out with
      | written bytes' r =>
          cases bytes' with
          | none => cases hhanded
          | some x =>
              cases hhanded
              exact ⟨data, r, rfl, rfl⟩
      | unit | ret _ | touched _ => cases hhanded
  | add | remove | size | reader | monitor | destroy => cases hhanded

/-- The contexts that calls of `serial_write` hold stay where they are. -/
theorem writing_stays (hs : Lined s log) {w w' : PortMap} {u : SerialSystem}
    {lo : SerialLabel × SerialOut} (hstores : Stores s.system w) (hmap : MapStep w lo w')
    (hu : Stores u w') (hstays : s.writing ≠ [] → ∀ M uid, lo.1 ≠ .remove M uid) :
    ∀ call ∈ s.writing, (u.manager.ctxs.cell call.ctx).isSome ∧
      uidAt u.manager.ctxs call.ctx = call.uid := by
  intro call hcall
  obtain ⟨hlive, huid⟩ := hs.writing call hcall
  obtain ⟨c, hc⟩ := Option.isSome_iff_exists.mp hlive
  have hport := hstores.refines.port_mem ((hstores.refines.models.live _).mpr ⟨c, hc⟩) hc
  obtain ⟨q, hq, hsame⟩ := hmap.port_stays (hstays (List.ne_nil_of_mem hcall)) hport
  obtain ⟨haddr, hctx⟩ := Port.mk.inj hsame
  have hqaddr : q.addr = call.ctx := haddr
  have hquid : q.uid = c.ser.uid := by
    show q.ctx.unopened.ser.uid = c.unopened.ser.uid
    rw [show q.ctx.unopened = c.unopened from hctx]
  rw [← hqaddr, hu.refines.cells q hq]
  refine ⟨rfl, ?_⟩
  rw [hu.refines.uidAt_eq hq, hquid, ← huid]
  exact (hstores.refines.uidAt_eq hport).symm

theorem act_lined (hs : Lined s log) {l : SerialLabel} {p : Option Piece}
    (hcareful : s.writing ≠ [] → (∀ M uid, l ≠ .remove M uid) ∧ l ≠ .destroy)
    (hact : s.act l = .ok (t, p)) : Lined t (log ++ p.toList) := by
  obtain ⟨⟨u, out⟩, hlift, hrest⟩ := bind_eq_ok hact
  have hok := liftFault_ok hlift
  rcases hs.sound with ⟨w, hstores⟩ | hgone
  · have hsection := hok
    rw [SerialSystem.step_of_alive hstores.alive] at hsection
    have hgrows := act_grows hsection
    by_cases hl : l = .destroy
    · subst hl
      obtain ⟨u', hdestroy, hgone⟩ := hstores.destroy
      rw [hok] at hdestroy
      cases hdestroy
      cases hrest
      have hnone : s.writing = [] := by
        by_contra hne
        exact (hcareful hne).2 rfl
      rw [Option.toList_none, List.append_nil]
      refine hs.moves (Or.inr hgone) hgrows (fun fd o _ ho' => ?_) (by rw [hnone]; exact nofun)
      obtain ⟨-, c, hc, -⟩ := hgone.owned.owner fd o ho'
      have hbare := hgone.bare o.port
      rw [show u.manager.ctxs.cell o.port = some c from hc] at hbare
      cases hbare
    · rcases hstores.step hl with ⟨u', out', w', hstep', hmap, hu⟩ | ⟨⟨e, herror⟩, -⟩
      · rw [hok] at hstep'
        cases hstep'
        have hmoved := hs.moves (Or.inl ⟨w', hu⟩) hgrows (fun fd o => hstores.uid_kept hmap hu)
          (writing_stays hs hstores hmap hu fun hne => (hcareful hne).1)
        dsimp only at hrest
        cases hhanded : handed l out with
        | none =>
            simp only [hhanded] at hrest
            cases hrest
            rw [Option.toList_none, List.append_nil]
            exact hmoved
        | some x =>
            obtain ⟨uid, fd, bytes, ret⟩ := x
            obtain ⟨data, r, rfl, rfl⟩ := handed_eq hhanded
            simp only [hhanded, Except.ok.injEq] at hrest
            have hfor : ∀ o, u.manager.kernel.files fd = some o →
                uidAt u.manager.ctxs o.port = uid := by
              rcases hstores.refines.write uid data ret with hwrite | ⟨⟨e, herror⟩, -⟩
              · simp only [SerialSystem.act, hwrite, ok_bind, Except.ok.injEq, Prod.mk.injEq,
                  SerialOut.written.injEq] at hsection
                obtain ⟨rfl, hfd, hr⟩ := hsection
                exact fun o => hstores.handed_uid (Prod.ext hfd hr)
              · simp only [SerialSystem.act, herror, error_bind] at hsection
                cases hsection
            have htaken := hmoved.take hfor bytes ret
            rw [hrest] at htaken
            exact htaken
      · rw [hok] at herror
        cases herror
  · rw [SerialSystem.step_of_gone hgone.alive] at hok
    cases hok

theorem step_lined (hs : Lined s log) {lo : OutflowLabel × Option Piece} (hstep : s.Careful lo t) :
    Lined t (log ++ lo.2.toList) := by
  obtain ⟨l, p⟩ := lo
  obtain ⟨hfires, hcareful⟩ := hstep
  cases l with
  | act l =>
      refine act_lined hs (fun hne => ⟨fun M uid heq => ?_, fun heq => ?_⟩) hfires
      · exact (hcareful hne).1 M uid (congrArg _ heq)
      · exact (hcareful hne).2 (congrArg _ heq)
  | check ctx data =>
      obtain ⟨isOpen, hlift, hrest⟩ := bind_eq_ok hfires
      dsimp only at hrest
      split at hrest
      · next a =>
          cases hrest
          rw [Option.toList_none, List.append_nil]
          obtain ⟨c, hderef, -⟩ := bind_eq_ok (liftFault_ok hlift)
          have hcell := Heap.cell_of_deref hderef
          refine hs.rewrite fun call hcall => ?_
          rcases List.mem_append.mp hcall with hcall | hcall
          · exact hs.writing call hcall
          · rw [List.mem_singleton.mp hcall]
            exact ⟨by rw [hcell]; rfl, rfl⟩
      · cases hrest
        rw [Option.toList_none, List.append_nil]
        exact hs
  | finish i ret =>
      simp only [Fires, step] at hfires
      split at hfires
      · cases hfires
      · next call hcall =>
          obtain ⟨⟨fd, bytes⟩, hlift, hrest⟩ := bind_eq_ok hfires
          obtain ⟨c, hderef, hok⟩ := bind_eq_ok (liftFault_ok hlift)
          cases hok
          have hcell := Heap.cell_of_deref hderef
          have hless : Lined { s with writing := s.writing.eraseIdx i } log :=
            hs.rewrite fun call' hcall' => hs.writing call' (List.mem_of_mem_eraseIdx hcall')
          have hfor : ∀ o, s.system.manager.kernel.files c.fd = some o →
              uidAt s.system.manager.ctxs o.port = call.uid := by
            intro o ho
            obtain ⟨hopen, d, hd, hfd⟩ := hs.owned.owner c.fd o ho
            rw [← hs.owned.inj hd hcell (by rw [hfd]; exact hopen) hfd.symm]
            exact (hs.writing call (List.mem_of_getElem? hcall)).2
          have htaken := hless.take hfor call.data ret
          rw [Except.ok.inj hrest] at htaken
          exact htaken

theorem run_lined (hs : Lined s log) {los : List (OutflowLabel × Option Piece)}
    (hrun : Run Careful s los t) : Lined t (log ++ taken los) := by
  induction hrun generalizing log with
  | nil =>
      rw [show taken [] = [] from rfl, List.append_nil]
      exact hs
  | @cons s u t lo los hstep _ ih =>
      have htaken : taken (lo :: los) = lo.2.toList ++ taken los := by
        cases hpiece : lo.2 <;> simp [taken, hpiece]
      rw [htaken, ← List.append_assoc]
      exact ih (step_lined hs hstep)

/-- **What goes out.** However the calls and the threads interleave and however the numbers of closed
descriptors are given out again, all bytes on one opening were meant for one uid; those on the
descriptor that a port has now were meant for its uid; and the bytes that were taken for a uid are on
its openings, one after the other, none lost, none twice and in the order of the calls. So does what
`serial_write` gets out after a look at the descriptor without the lock, as long as no port is removed
meanwhile. -/
theorem outflow_isolated {M : Malloc EQnode} {los : List (OutflowLabel × Option Piece)}
    (hrun : Run Careful (start M) los s) :
    (∀ n, ∀ x ∈ s.lines n, ∀ y ∈ s.lines n, x.uid = y.uid) ∧
      (∀ a c, s.system.manager.ctxs.cell a = some c → 0 ≤ c.fd →
        ∃ o, s.system.manager.kernel.files c.fd = some o ∧ o.port = a ∧
          ∀ x ∈ s.lines o.serial, x.uid = c.ser.uid) ∧
      ∀ uid, piecesFor uid s.sent = piecesFor uid (taken los) := by
  have hs := run_lined (Lined.start M) hrun
  refine ⟨hs.single, fun a c hc hopen => ?_, hs.logged⟩
  obtain ⟨o, ho, hport⟩ := hs.owned.held a c hc hopen
  refine ⟨o, ho, hport, fun x hx => ?_⟩
  have hmine := hs.mine c.fd o ho x hx
  rw [hport, uidAt, hc] at hmine
  exact hmine

end OutflowSystem

/-- The port is opened and written to; while a `serial_write` waits for the lock the read thread closes
the port and the monitor opens it again. -/
def reopenRun : List OutflowLabel :=
  [.act (.add (bumpAdd true) (some (config8N1 uidA)) none none), .act (.monitor (opensAs 3)),
    .act (.write (some uidA) (some [1, 2]) 2), .check (some 0) [3], .act (.reader hangsUp),
    .act (.reader hangsUp), .act (.reader hangsUp), .act (.reader hangsUp), .act (.monitor (opensAs 3)),
    .finish 0 1]

/-- The number is given to another port. -/
def regiveRun : List OutflowLabel :=
  [.act (.add (bumpAdd true) (some (config8N1 uidB)) none none), .act (.monitor (opensAs 3)),
    .act (.write (some uidB) (some [4, 5]) 1)]

namespace OutflowSystem

/-- A run without a removal is careful. -/
theorem run_careful {s t : OutflowSystem} {los : List (OutflowLabel × Option Piece)}
    (hrun : Run (Fires step) s los t)
    (hlabels : ∀ lo ∈ los, (∀ M uid, lo.1 ≠ .act (.remove M uid)) ∧ lo.1 ≠ .act .destroy) :
    Run Careful s los t := by
  induction hrun with
  | nil s => exact .nil s
  | cons hstep _ ih =>
      rw [List.forall_mem_cons] at hlabels
      exact .cons ⟨hstep, fun _ => hlabels.1⟩ (ih hlabels.2)

theorem outflow_isolated_regive : ∃ los s, Run Careful (start bumpNode) los s ∧
    s.sent = [⟨some uidA, [1, 2]⟩, ⟨some uidA, [3]⟩, ⟨some uidB, [4]⟩] ∧
    piecesFor (some uidA) (taken los) = [⟨some uidA, [1, 2]⟩, ⟨some uidA, [3]⟩] := by
  obtain ⟨s₁, s₂, s₃, os₁, os₃, hfst, hremove, hsnd, hidle, hsent⟩ : ∃ s₁ s₂ s₃ os₁ os₃,
      exec step (start bumpNode) reopenRun = .ok (s₁, os₁) ∧
      s₁.step (.act (.remove bumpNode (some uidA))) = .ok (s₂, none) ∧
      exec step s₂ regiveRun = .ok (s₃, os₃) ∧ s₁.writing = [] ∧
      s₃.sent = [⟨some uidA, [1, 2]⟩, ⟨some uidA, [3]⟩, ⟨some uidB, [4]⟩] :=
    ⟨_, _, _, _, _, rfl, rfl, rfl, rfl, rfl⟩
  have hfst' : Run Careful (start bumpNode) (reopenRun.zip os₁) s₁ := by
    refine run_careful (run_of_exec hfst) fun lo hlo => ?_
    have hmem := (List.of_mem_zip hlo).1
    simp only [reopenRun, List.mem_cons, List.not_mem_nil, or_false] at hmem
    rcases hmem with h | h | h | h | h | h | h | h | h | h <;> simp [h]
  have hsnd' : Run Careful s₂ (regiveRun.zip os₃) s₃ := by
    refine run_careful (run_of_exec hsnd) fun lo hlo => ?_
    have hmem := (List.of_mem_zip hlo).1
    simp only [regiveRun, List.mem_cons, List.not_mem_nil, or_false] at hmem
    rcases hmem with h | h | h <;> simp [h]
  have hmiddle : Careful s₁ (.act (.remove bumpNode (some uidA)), none) s₂ :=
    ⟨hremove, fun hne => absurd hidle hne⟩
  have hrun := hfst'.append (.cons hmiddle hsnd')
  refine ⟨_, s₃, hrun, hsent, ?_⟩
  rw [← (outflow_isolated hrun).2.2 (some uidA), hsent]
  decide

end OutflowSystem

end LibEzmb
