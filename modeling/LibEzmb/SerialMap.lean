import LibEzmb.BaseKeyed
import LibEzmb.SerialPasses
import LibEzmb.SerialSystem

/-! What the serial manager is for: a map from uids to ports, in the order they were added. Each call
does to the queue what it does to this map, and the threads only change descriptors. -/

open CHeap CBytes KeyedLists Runs

namespace LibEzmb

/-- A stored port: its context and where that is. -/
structure Port where
  addr : Addr
  ctx : SerialContext
  deriving DecidableEq

def Port.uid (p : Port) : Option CStr := p.ctx.ser.uid

/-- The port without its descriptor. -/
def Port.unopened (p : Port) : Port := { p with ctx := p.ctx.unopened }

abbrev PortMap := Keyed Port.uid

namespace PortMap

def addrs (w : PortMap) : List Addr := w.items.map Port.addr

/-- Bytes go to the descriptor of the port with the uid, if there are bytes and it is open. -/
def write (w : PortMap) (uid : Option CStr) (data : Option Bytes) (ret : Int) :
    Option (Int × Bytes) × Int :=
  match uid, data with
  | some uid, some data =>
      if data = [] then (none, -1)
      else
        match w.find? (some uid) with
        | none => (none, -1)
        | some p => if p.ctx.fd < 0 then (none, -1) else (some (p.ctx.fd, data), ret)
  | _, _ => (none, -1)

/-- The same ports in the same order, but perhaps for their descriptors. -/
def SamePorts (w w' : PortMap) : Prop :=
  w'.items.map Port.unopened = w.items.map Port.unopened

end PortMap

/-- What each call does to the map and answers. -/
inductive MapStep (w : PortMap) : SerialLabel × SerialOut → PortMap → Prop where
  | addNull {env : AddEnv} {recvCb : Option Addr} {data : Ptr} :
      MapStep w (.add env none recvCb data, .ret (-1)) w
  | addPresent {env : AddEnv} {config : SerialConfig} {recvCb : Option Addr} {data : Ptr}
      (hpresent : config.uid ∈ w.keys) : MapStep w (.add env (some config) recvCb data, .ret (-1)) w
  | addNoMemory {env : AddEnv} {config : SerialConfig} {recvCb : Option Addr} {data : Ptr}
      (hnew : config.uid ∉ w.keys) (hcalloc : env.calloc = false) :
      MapStep w (.add env (some config) recvCb data, .ret (-1)) w
  | added {env : AddEnv} {config : SerialConfig} {recvCb : Option Addr} {data : Ptr} {p : Port}
      (hport : p.ctx = addedContext config recvCb data) (hnew : p.uid ∉ w.keys)
      (hcalloc : env.calloc = true) (hfresh : p.addr ∉ w.addrs) :
      MapStep w (.add env (some config) recvCb data, .ret 0) (w.append p hnew)
  | removed {M : Malloc EQnode} {uid : CStr} (hpresent : some uid ∈ w.keys) :
      MapStep w (.remove M (some uid), .unit) (w.erase (some uid))
  | removeAbsent {M : Malloc EQnode} {uid : CStr} (habsent : some uid ∉ w.keys) :
      MapStep w (.remove M (some uid), .unit) w
  | removeNull {M : Malloc EQnode} : MapStep w (.remove M none, .unit) w
  | write {uid : Option CStr} {data : Option Bytes} {ret : Int} :
      MapStep w (.write uid data ret, .written (w.write uid data ret).1 (w.write uid data ret).2) w
  | size : MapStep w (.size, .ret w.size) w
  | reader {env : ReaderEnv} {touches : List Touch} {w' : PortMap} (hsame : w.SamePorts w') :
      MapStep w (.reader env, .touched touches) w'
  | monitor {env : Addr → OpenEnv} {w' : PortMap} (hsame : w.SamePorts w') :
      MapStep w (.monitor env, .unit) w'

/-- The manager has not been destroyed by this step, and no port is added under a null uid. -/
def SerialLabel.Mapped : SerialLabel → Prop
  | .add _ (some config) _ _ => config.uid ≠ none
  | .destroy => False
  | _ => True

theorem PortMap.SamePorts.keys {w w' : PortMap} (hsame : w.SamePorts w') : w'.keys = w.keys := by
  have huid : ∀ v : PortMap, v.keys = (v.items.map Port.unopened).map Port.uid := by
    intro v
    rw [List.map_map]
    rfl
  rw [huid w', huid w, show w'.items.map Port.unopened = w.items.map Port.unopened from hsame]

/-- No null uid gets into the map. -/
theorem MapStep.named {w w' : PortMap} {lo : SerialLabel × SerialOut} (hl : lo.1.Mapped)
    (hnamed : none ∉ w.keys) (hstep : MapStep w lo w') : none ∉ w'.keys := by
  cases hstep with
  | addNull | addPresent _ | addNoMemory _ _ | removeAbsent _ | removeNull | write | size =>
      exact hnamed
  | added hport hnew _ _ =>
      intro hmem
      rw [Keyed.keys_append, List.mem_append, List.mem_singleton, Port.uid, hport] at hmem
      rcases hmem with hmem | hmem
      · exact hnamed hmem
      · exact hl hmem.symm
  | removed _ =>
      intro hmem
      obtain ⟨p, hp, huid⟩ := List.mem_map.mp hmem
      exact hnamed (huid ▸ Keyed.mem_keys (List.mem_of_mem_filter hp))
  | reader hsame | monitor hsame =>
      rw [hsame.keys]
      exact hnamed

/-! ### Refinement -/

/-- The queue of the manager holds the ports of the map, in their order. -/
structure Refines (m : SerialManager) (w : PortMap) : Prop where
  models : Models m w.addrs
  cells : ∀ p ∈ w.items, m.ctxs.cell p.addr = some p.ctx

namespace Refines

variable {m m' : SerialManager} {w : PortMap}

theorem uidAt_eq (hr : Refines m w) {p : Port} (hp : p ∈ w.items) : uidAt m.ctxs p.addr = p.uid := by
  rw [uidAt, hr.cells p hp]
  rfl

theorem port_mem (hr : Refines m w) {a : Addr} {c : SerialContext} (ha : a ∈ w.addrs)
    (hc : m.ctxs.cell a = some c) : ⟨a, c⟩ ∈ w.items := by
  obtain ⟨p, hp, rfl⟩ := List.mem_map.mp ha
  rw [hr.cells p hp] at hc
  cases hc
  exact hp

theorem mem_keys_iff (hr : Refines m w) {uid : Option CStr} :
    uid ∈ w.keys ↔ ∃ a ∈ w.addrs, uidAt m.ctxs a = uid := by
  constructor
  · intro hmem
    obtain ⟨p, hp, rfl⟩ := List.mem_map.mp hmem
    exact ⟨p.addr, List.mem_map_of_mem hp, hr.uidAt_eq hp⟩
  · rintro ⟨a, ha, rfl⟩
    obtain ⟨p, hp, rfl⟩ := List.mem_map.mp ha
    rw [hr.uidAt_eq hp]
    exact Keyed.mem_keys hp

theorem not_mem_keys (hr : Refines m w) {uid : Option CStr}
    (habsent : ∀ a ∈ w.addrs, uidAt m.ctxs a ≠ uid) : uid ∉ w.keys := by
  rw [hr.mem_keys_iff]
  rintro ⟨a, ha, heq⟩
  exact habsent a ha heq

theorem null_mem_keys (hr : Refines m w) (hnull : NullUid m w.addrs) : none ∈ w.keys := by
  obtain ⟨a, ha, c, hc, huid⟩ := hnull
  rw [hr.mem_keys_iff]
  refine ⟨a, ha, ?_⟩
  rw [uidAt, hc]
  exact huid

/-- A port in a context of its own goes to the end. -/
theorem append (hr : Refines m w) {p : Port} (hnew : p.uid ∉ w.keys) (hfresh : p.addr ∉ w.addrs)
    (hmodels : Models m' (w.addrs ++ [p.addr])) (hctxs : m'.ctxs = m.ctxs.set p.addr p.ctx) :
    Refines m' (w.append p hnew) where
  models := by
    show Models m' ((w.items ++ [p]).map Port.addr)
    rw [List.map_append]
    exact hmodels
  cells q hq := by
    rw [hctxs, Heap.set_cell]
    rcases List.mem_append.mp hq with hq | hq
    · have hne : q.addr ≠ p.addr := fun heq => hfresh (heq ▸ List.mem_map_of_mem hq)
      rw [if_neg hne]
      exact hr.cells q hq
    · cases List.mem_singleton.mp hq
      exact if_pos rfl

/-! ### The calls -/

theorem add (hr : Refines m w) (env : AddEnv) (config : Option SerialConfig) (recvCb : Option Addr)
    (data : Ptr) :
    (∃ m' r w', eSerialManagerAddPort env m config recvCb data = .ok (m', r) ∧
      MapStep w (.add env config recvCb data, .ret r) w' ∧ Refines m' w' ∧
      (AllRunning m.ctxs → AllRunning m'.ctxs) ∧ ∃ ms, Run Moves m.portState ms m'.portState) ∨
    ((∃ e, eSerialManagerAddPort env m config recvCb data = .error e) ∧
      (¬(SerialLabel.add env config recvCb data).Mapped ∨ none ∈ w.keys)) := by
  have hstay : ∃ ms, Run Moves m.portState ms m.portState := ⟨[], .nil _⟩
  cases config with
  | none => exact Or.inl ⟨m, -1, w, rfl, .addNull, hr, id, hstay⟩
  | some config =>
      rcases hr.models.addPort_spec env config recvCb data with
        ⟨hadd, -, hpresent⟩ | ⟨hadd, hcalloc, habsent⟩ |
        ⟨m', hadd, hcalloc, habsent, hmodels, hkernel, hctxs⟩ | ⟨herror, hnull⟩
      · exact Or.inl ⟨m, -1, w, hadd, .addPresent (hr.mem_keys_iff.mpr hpresent), hr, id, hstay⟩
      · exact Or.inl ⟨m, -1, w, hadd, .addNoMemory (hr.not_mem_keys habsent) hcalloc, hr, id, hstay⟩
      · have hnew := hr.not_mem_keys habsent
        have hfree := env.ctx.fresh m.ctxs
        have hfresh : env.ctx.addr m.ctxs ∉ w.addrs := by
          intro hmem
          obtain ⟨c, hc⟩ := hr.models.ctx hmem
          rw [hfree] at hc
          cases hc
        let p : Port := ⟨env.ctx.addr m.ctxs, addedContext config recvCb data⟩
        have hrefines : Refines m' (w.append p hnew) :=
          hr.append (p := p) hnew hfresh hmodels hctxs
        refine Or.inl ⟨m', 0, w.append p hnew, hadd, .added rfl hnew hcalloc hfresh, hrefines,
          fun hrunning => ?_, ?_⟩
        · rw [hctxs]
          exact hrunning.set rfl _
        · have hstate : m'.portState =
              (m.ctxs.set (env.ctx.addr m.ctxs) (addedContext config recvCb data), m.kernel) := by
            rw [SerialManager.portState, hctxs, hkernel]
          rw [hstate]
          exact ⟨_, .cons (Models.added_move env config recvCb data) (.nil _)⟩
      · refine Or.inr ⟨herror, hnull.imp (fun huid hmapped => hmapped huid) hr.null_mem_keys⟩

theorem addrs_erase (hr : Refines m w) (uid : CStr) :
    PortMap.addrs (w.erase (some uid)) = w.addrs.filter (keeps m.ctxs uid) := by
  show (w.items.filter fun p => decide (p.uid ≠ some uid)).map Port.addr =
    (w.items.map Port.addr).filter (keeps m.ctxs uid)
  rw [List.filter_map]
  congr 1
  apply List.filter_congr
  intro p hp
  show decide (p.uid ≠ some uid) = keeps m.ctxs uid p.addr
  rw [keeps, hr.uidAt_eq hp]

theorem remove (hr : Refines m w) (M : Malloc EQnode) (uid : Option CStr) :
    (∃ m' w', eSerialManagerRemovePort M m uid = .ok m' ∧
      MapStep w (.remove M uid, .unit) w' ∧ Refines m' w' ∧
      (AllRunning m.ctxs → AllRunning m'.ctxs) ∧ ∃ ms, Run Moves m.portState ms m'.portState) ∨
    ((∃ e, eSerialManagerRemovePort M m uid = .error e) ∧ none ∈ w.keys) := by
  cases uid with
  | none => exact Or.inl ⟨m, w, rfl, .removeNull, hr, id, [], .nil _⟩
  | some uid =>
      rcases hr.models.removePort_spec M uid with
        ⟨m', hremove, hmodels, hcells, hrun⟩ | ⟨herror, hnull⟩
      · rw [← hr.addrs_erase] at hmodels hcells
        have hrefines : Refines m' (w.erase (some uid)) := by
          refine ⟨hmodels, fun p hp => ?_⟩
          rw [hcells p.addr (List.mem_map_of_mem hp)]
          exact hr.cells p (List.mem_of_mem_filter hp)
        have hrunning : AllRunning m.ctxs → AllRunning m'.ctxs := by
          intro hrunning a c hc
          rw [hcells a ((hmodels.live a).mpr ⟨c, hc⟩)] at hc
          exact hrunning a c hc
        by_cases hpresent : some uid ∈ w.keys
        · exact Or.inl ⟨m', _, hremove, .removed hpresent, hrefines, hrunning, _, hrun⟩
        · rw [Keyed.erase_of_notMem hpresent] at hrefines
          exact Or.inl ⟨m', w, hremove, .removeAbsent hpresent, hrefines, hrunning, _, hrun⟩
      · exact Or.inr ⟨herror, hr.null_mem_keys hnull⟩

theorem write (hr : Refines m w) (uid : Option CStr) (data : Option Bytes) (ret : Int) :
    eSerialManagerWrite m uid data ret = .ok (w.write uid data ret) ∨
      ((∃ e, eSerialManagerWrite m uid data ret = .error e) ∧ none ∈ w.keys) := by
  match uid, data with
  | none, none => exact Or.inl rfl
  | none, some _ => exact Or.inl rfl
  | some _, none => exact Or.inl rfl
  | some uid, some [] => exact Or.inl rfl
  | some uid, some (b :: data) =>
      have hdata : b :: data ≠ [] := List.cons_ne_nil _ _
      simp only [PortMap.write, if_neg hdata]
      rcases hr.models.write_spec uid hdata ret with
        ⟨hwrite, habsent⟩ | ⟨a, c, ha, hc, huid, hwrite⟩ | ⟨herror, hnull⟩
      · rw [Keyed.find?_of_notMem (hr.not_mem_keys habsent)]
        exact Or.inl hwrite
      · have hfind : w.find? (some uid) = some ⟨a, c⟩ := by
          have hkey : Port.uid ⟨a, c⟩ = some uid := huid
          rw [← hkey]
          exact Keyed.find?_of_mem (hr.port_mem ha hc)
        rw [hfind]
        exact Or.inl hwrite
      · exact Or.inr ⟨herror, hr.null_mem_keys hnull⟩

theorem size (hr : Refines m w) : eSerialManagerSize m = w.size := by
  rw [hr.models.size, PortMap.addrs, List.length_map]
  rfl

/-! ### The threads -/

/-- A section that only changes descriptors leaves the ports as they are. -/
theorem fdSection (hr : Refines m w) (hsection : FdSection m m') :
    ∃ w', w.SamePorts w' ∧ Refines m' w' := by
  let f (p : Port) : Port := ⟨p.addr, (m'.ctxs.cell p.addr).getD p.ctx⟩
  have hf : ∀ p ∈ w.items, m'.ctxs.cell p.addr = some (f p).ctx ∧ (f p).unopened = p.unopened := by
    intro p hp
    have hsame := hsection.sameButFd p.addr
    rw [hr.cells p hp, Option.map_some, Option.map_eq_some_iff] at hsame
    obtain ⟨c, hc, heq⟩ := hsame
    have hfp : f p = ⟨p.addr, c⟩ := by
      show (⟨p.addr, (m'.ctxs.cell p.addr).getD p.ctx⟩ : Port) = _
      rw [hc, Option.getD_some]
    rw [hfp]
    exact ⟨hc, by rw [Port.unopened, Port.unopened, heq]⟩
  have hkey : ∀ p ∈ w.items, (f p).uid = p.uid := by
    intro p hp
    show (f p).unopened.uid = p.unopened.uid
    rw [(hf p hp).2]
  refine ⟨w.mapItems f hkey, ?_, ?_, fun q hq => ?_⟩
  · show (w.items.map f).map Port.unopened = w.items.map Port.unopened
    rw [List.map_map]
    exact List.map_congr_left fun p hp => (hf p hp).2
  · have haddrs : PortMap.addrs (w.mapItems f hkey) = w.addrs := by
      show (w.items.map f).map Port.addr = w.items.map Port.addr
      rw [List.map_map]
      rfl
    rw [haddrs]
    exact hsection.models hr.models
  · obtain ⟨p, hp, rfl⟩ := List.mem_map.mp hq
    exact (hf p hp).1

end Refines

end LibEzmb
