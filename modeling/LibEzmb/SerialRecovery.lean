import LibEzmb.SerialOutflow

/-! Ports come and go with their devices: a round of the monitor gives every port whose device opens a
descriptor, and a port keeps its descriptor until it is taken from it. -/

open CHeap CBytes KeyedLists Runs

namespace LibEzmb

/-! ### Opening -/

/-- `serial_open` has no answer for the port but a failure. -/
def OpenEnv.Refuses (env : OpenEnv) (k : Kernel) (cfg : SerialConfig) : Prop :=
  env.answer = none ∨ (∃ n : Nat, env.answer = some n ∧ k.files n ≠ none) ∨
    serialConfigure env.attrs env.okSet cfg = none

/-- The device is not there, or `serial_open` fails on it. -/
def Fails (env : Addr → OpenEnv) (k : Kernel) (a : Addr) (c : SerialContext) : Prop :=
  (env a).access = false ∨ (env a).Refuses k c.ser

theorem serialOpen_refused {k : Kernel} {port : Addr} {env : OpenEnv} {cfg : SerialConfig}
    (hfd : (serialOpen k port env cfg).2 < 0) : env.Refuses k cfg := by
  cases hanswer : env.answer with
  | none => exact Or.inl hanswer
  | some n =>
      cases hfree : k.files n with
      | some o =>
          refine Or.inr (Or.inl ⟨n, hanswer, ?_⟩)
          rw [hfree]
          exact Option.some_ne_none o
      | none =>
          have hpos : ¬(n : Int) < 0 := Int.not_lt.mpr (Int.natCast_nonneg n)
          simp only [serialOpen, hanswer, Kernel.openFile_granted port hfree, if_neg hpos] at hfd
          cases hconf : serialConfigure env.attrs env.okSet cfg with
          | none => exact Or.inr (Or.inr hconf)
          | some t =>
              rw [hconf] at hfd
              exact absurd hfd hpos

/-- A context that is open keeps its descriptor, and what is open stays open. -/
structure KeepsOpen (s t : PortState) : Prop where
  cells : ∀ a c, s.1.cell a = some c → 0 ≤ c.fd → t.1.cell a = some c
  files : ∀ fd o, s.2.files fd = some o → t.2.files fd = some o

namespace KeepsOpen

variable {s t u : PortState} {a : Addr} {c : SerialContext}

theorem refl (s : PortState) : KeepsOpen s s := ⟨fun _ _ hc _ => hc, fun _ _ => id⟩

theorem trans (hfst : KeepsOpen s t) (hsnd : KeepsOpen t u) : KeepsOpen s u where
  cells a c hc hopen := hsnd.cells a c (hfst.cells a c hc hopen) hopen
  files fd o ho := hsnd.files fd o (hfst.files fd o ho)

/-- A context that is not open changes. -/
theorem set (hc : s.1.cell a = some c) (hclosed : c.fd < 0) (d : SerialContext) {k : Kernel}
    (hfiles : ∀ fd o, s.2.files fd = some o → k.files fd = some o) :
    KeepsOpen s (s.1.set a d, k) where
  cells b e he hopen := by
    have hne : b ≠ a := by
      rintro rfl
      rw [hc] at he
      cases he
      exact absurd hopen (not_le.mpr hclosed)
    rw [Heap.set_cell, if_neg hne]
    exact he
  files := hfiles

/-- What failed for want of a free number fails still. -/
theorem fails {env : Addr → OpenEnv} (hkeeps : KeepsOpen s t) (hfails : Fails env s.2 a c) :
    Fails env t.2 a c := by
  refine hfails.imp_right (Or.imp_right (Or.imp_left ?_))
  rintro ⟨n, hanswer, hused⟩
  obtain ⟨o, ho⟩ := Option.ne_none_iff_exists'.mp hused
  refine ⟨n, hanswer, ?_⟩
  rw [hkeeps.files n o ho]
  exact Option.some_ne_none o

end KeepsOpen

theorem serialOpen_keeps (k : Kernel) (port : Addr) (env : OpenEnv) (cfg : SerialConfig) {fd : Int}
    {o : Opening} (ho : k.files fd = some o) : (serialOpen k port env cfg).1.files fd = some o := by
  rcases serialOpen_cases k port env cfg with ⟨n, -, -, hfree, hopen⟩ | ⟨opened, hopen⟩
  · rw [hopen]
    have hne : fd ≠ n := by
      rintro rfl
      rw [ho] at hfree
      cases hfree
    exact (Function.update_of_ne hne _ _).trans ho
  · rw [hopen]
    exact ho

/-- One port in the monitor's round: afterwards it is open, or cannot be opened. -/
theorem monitorBody_opens {s : PortState} {a : Addr} {c : SerialContext}
    (hc : s.1.cell a = some c) (hrunning : c.running = true) (env : Addr → OpenEnv) :
    ∃ t, monitorBody env s (some a) = .ok (t, false) ∧ KeepsOpen s t ∧
      (∀ b, b ≠ a → t.1.cell b = s.1.cell b) ∧
      ∀ d, t.1.cell a = some d → 0 ≤ d.fd ∨ Fails env t.2 a d := by
  simp only [monitorBody, Heap.deref_of_cell hc, ok_bind]
  by_cases hguard : (c.running && decide (c.fd < 0) && (env a).access) = true
  · rw [if_pos hguard, Heap.store_of_cell hc, ok_bind]
    simp only [hrunning, Bool.true_and, Bool.and_eq_true, decide_eq_true_eq] at hguard
    have hkeeps : KeepsOpen s (s.1.set a { c with fd := (serialOpen s.2 a (env a) c.ser).2 },
        (serialOpen s.2 a (env a) c.ser).1) :=
      .set hc hguard.1 _ fun fd o ho => serialOpen_keeps s.2 a (env a) c.ser ho
    refine ⟨_, rfl, hkeeps, fun b hb => ?_, fun d hd => ?_⟩
    · rw [Heap.set_cell, if_neg hb]
    · rw [Heap.set_cell, if_pos rfl] at hd
      cases hd
      by_cases hopen : 0 ≤ (serialOpen s.2 a (env a) c.ser).2
      · exact Or.inl hopen
      · have hrefused : Fails env s.2 a c := Or.inr (serialOpen_refused (not_le.mp hopen))
        exact Or.inr (hkeeps.fails hrefused)
  · rw [if_neg hguard]
    refine ⟨s, rfl, .refl s, fun _ _ => rfl, fun d hd => ?_⟩
    rw [hc] at hd
    cases hd
    by_cases hopen : 0 ≤ c.fd
    · exact Or.inl hopen
    · refine Or.inr (Or.inl ?_)
      rw [hrunning, decide_eq_true (not_le.mp hopen), Bool.true_and, Bool.true_and] at hguard
      exact Bool.eq_false_of_not_eq_true hguard

/-- A round of the monitor, as far as it has got. -/
structure Monitored (env : Addr → OpenEnv) (s : PortState) (done : List Ptr) (t : PortState) :
    Prop where
  same : SameButFd s.1 t.1
  keeps : KeepsOpen s t
  tried : ∀ a, some a ∈ done → ∀ c, t.1.cell a = some c → 0 ≤ c.fd ∨ Fails env t.2 a c

theorem Monitored.next {env : Addr → OpenEnv} {s t u : PortState} {done : List Ptr} {a : Addr}
    (ht : Monitored env s done t) (hsame : SameButFd t.1 u.1) (hkeeps : KeepsOpen t u)
    (hothers : ∀ b, b ≠ a → u.1.cell b = t.1.cell b)
    (hnew : ∀ c, u.1.cell a = some c → 0 ≤ c.fd ∨ Fails env u.2 a c) :
    Monitored env s (done ++ [some a]) u where
  same := ht.same.trans hsame
  keeps := ht.keeps.trans hkeeps
  tried b hb c hc := by
    by_cases heq : b = a
    · subst heq
      exact hnew c hc
    · have hmem : some b ∈ done := by
        rcases List.mem_append.mp hb with hb | hb
        · exact hb
        · exact absurd (Option.some.inj (List.mem_singleton.mp hb)) heq
      rw [hothers b heq] at hc
      exact (ht.tried b hmem c hc).imp_right hkeeps.fails

/-- A round of the monitor tries every port. -/
theorem Models.monitorPass_opens {m : SerialManager} {order : List Addr} (hm : Models m order)
    (hrunning : AllRunning m.ctxs) (env : Addr → OpenEnv) :
    ∃ m', monitorPass env m = .ok m' ∧
      Monitored env m.portState (order.map some) m'.portState := by
  obtain ⟨top, htop, hwalk⟩ := hm.chain.walk_eq
  have hbody : ∀ done, ∀ d ∈ order.map some, ∀ s, Monitored env m.portState done s →
      ∃ s', monitorBody env s d = .ok (s', false) ∧
        Monitored env m.portState (done ++ [d]) s' := by
    intro done d hd s hs
    obtain ⟨a, ha, rfl⟩ := List.mem_map.mp hd
    obtain ⟨c, hc⟩ := (hs.same.live a).mpr (hm.ctx ha)
    obtain ⟨s', hstep, hkeeps, hothers, hnew⟩ :=
      monitorBody_opens hc (hs.same.allRunning hrunning a c hc) env
    obtain ⟨s'', hstep', hmoves⟩ := monitorBody_spec hc env
    rw [hstep] at hstep'
    cases hstep'
    exact ⟨s', hstep, hs.next hmoves.sameButFd hkeeps hothers hnew⟩
  have hstart : Monitored env m.portState [] m.portState :=
    ⟨fun _ => rfl, .refl _, fun a ha => by cases ha⟩
  obtain ⟨s, hvisit, hs⟩ := visit_each hbody hstart
  refine ⟨{ m with ctxs := s.1, kernel := s.2 }, ?_, hs⟩
  show (do
    let top ← m.nodes.deref m.ports.top
    let s ← walk m.nodes (monitorBody env) m.nodes.bound top.next m.portState
    Except.ok { m with ctxs := s.1, kernel := s.2 }) = _
  rw [htop, ok_bind, hwalk, hvisit, ok_bind]

/-! ### Staying open -/

/-- The context has this opening. -/
structure HasOpen (m : SerialManager) (a : Addr) (c : SerialContext) (o : Opening) : Prop where
  cell : m.ctxs.cell a = some c
  fd : 0 ≤ c.fd
  file : m.kernel.files c.fd = some o

/-- The read thread has closed the descriptor of the port. -/
def Touch.Closes (t : Touch) (a : Addr) : Prop :=
  t.target = a ∧ (t.action = .hangup ∨ t.action = .read (.fails false))

/-- This step takes the descriptor from the port: it removes the port, or destroys the manager, or
closes the descriptor for a hangup or a failed read. -/
inductive Ends (a : Addr) (c : SerialContext) : SerialLabel × SerialOut → Prop where
  | removed {M : Malloc EQnode} {o : SerialOut} : Ends a c (.remove M c.ser.uid, o)
  | closed {l : SerialLabel} {o : SerialOut} {t : Touch} (ht : t ∈ o.touches) (hcloses : t.Closes a) :
      Ends a c (l, o)
  | destroyed {o : SerialOut} : Ends a c (.destroy, o)

/-- The handling of events leaves a port alone that it does not close. -/
theorem Models.handleEvents_cell {m m' : SerialManager} {order : List Addr} (hm : Models m order)
    (hrunning : AllRunning m.ctxs) (env : Nat → EventEnv) (i : Nat) {events : List PollEvent}
    (hfds : ∀ e ∈ events, 0 ≤ e.fd) {touches : List Touch}
    (hhandle : handleEvents env i events m = .ok (m', touches)) {a : Addr} {c : SerialContext}
    (hc : m.ctxs.cell a = some c) (hstays : ∀ t ∈ touches, ¬t.Closes a) :
    m'.ctxs.cell a = some c := by
  induction events generalizing i m touches with
  | nil =>
      cases hhandle
      exact hc
  | cons e events ih =>
      rw [List.forall_mem_cons] at hfds
      obtain ⟨m₁, fst, rest, -, hhandling, hrest, rfl, hm₁, hrunning₁⟩ :=
        hm.handleEvents_cons hrunning hfds.1 hhandle
      rw [List.forall_mem_append] at hstays
      refine ih hm₁ hrunning₁ (i + 1) hfds.2 hrest ?_ hstays.2
      cases hhandling with
      | ignored | again | read => exact hc
      | @closed b d action hd _ _ haction =>
          have hne : a ≠ b := by
            rintro rfl
            exact hstays.1 _ (List.mem_singleton_self _) ⟨rfl, haction⟩
          rw [Heap.set_cell, if_neg hne]
          exact hc

/-- A port of the map that is not removed stays in it. -/
theorem MapStep.open_stays {w w' : PortMap} {lo : SerialLabel × SerialOut} (hstep : MapStep w lo w')
    {a : Addr} {c : SerialContext} (hends : ¬Ends a c lo) (hp : ⟨a, c⟩ ∈ w.items)
    (hreader : ∀ env, lo.1 ≠ .reader env) (hmonitor : ∀ env, lo.1 ≠ .monitor env) :
    (⟨a, c⟩ : Port) ∈ w'.items := by
  cases hstep with
  | addNull | addPresent _ | addNoMemory _ _ | removeAbsent _ | removeNull | write | size => exact hp
  | added _ _ _ _ => exact List.mem_append_left _ hp
  | @removed M uid _ =>
      refine List.mem_filter.mpr ⟨hp, decide_eq_true fun heq => hends ?_⟩
      rw [← show c.ser.uid = some uid from heq]
      exact .removed
  | @reader env _ _ _ => exact absurd rfl (hreader env)
  | @monitor env _ _ => exact absurd rfl (hmonitor env)

section Steps

variable {s t : SerialSystem} {w : PortMap} {l : SerialLabel} {out : SerialOut}

/-- A step that goes through is one of the map. -/
theorem Stores.of_step (hs : Stores s w) (hl : l ≠ .destroy) (hstep : s.step l = .ok (t, out)) :
    ∃ w', MapStep w (l, out) w' ∧ Stores t w' := by
  rcases hs.step hl with ⟨t', out', w', hstep', hmap, ht⟩ | ⟨⟨e, herror⟩, -⟩
  · rw [hstep] at hstep'
    cases hstep'
    exact ⟨w', hmap, ht⟩
  · rw [hstep] at herror
    cases herror

/-- The context of an open port is left alone by a step that does not take its descriptor. -/
theorem Stores.cell_stays (hs : Stores s w) {w' : PortMap} (hstep : s.step l = .ok (t, out))
    (hmap : MapStep w (l, out) w') (ht : Stores t w') {a : Addr} {c : SerialContext}
    (hc : s.manager.ctxs.cell a = some c) (hends : ¬Ends a c (l, out)) (hopen : 0 ≤ c.fd) :
    t.manager.ctxs.cell a = some c := by
  have hport : ⟨a, c⟩ ∈ w.items :=
    hs.refines.port_mem ((hs.refines.models.live a).mpr ⟨c, hc⟩) hc
  rw [SerialSystem.step_of_alive hs.alive] at hstep
  cases l with
  | reader env =>
      obtain ⟨⟨u, touches⟩, hread, hok⟩ := bind_eq_ok hstep
      cases hok
      rcases readThread_cases hread with hsame | ⟨events, hphase, hhandle⟩
      · rw [hsame]
        exact hc
      · have hfds : ∀ e ∈ events, 0 ≤ e.fd := by
          intro e he
          apply hs.nonneg
          rw [hphase]
          exact List.mem_map_of_mem he
        exact hs.refines.models.handleEvents_cell hs.running env.event 0 hfds hhandle hc
          fun t ht hcloses => hends (.closed ht hcloses)
  | monitor env =>
      obtain ⟨m', hpass, hmonitored⟩ := hs.refines.models.monitorPass_opens hs.running env
      simp only [SerialSystem.act, hpass, ok_bind] at hstep
      cases hstep
      exact hmonitored.keeps.cells a c hc hopen
  | add | remove | write | size | destroy =>
      exact ht.refines.cells _ (hmap.open_stays hends hport (by simp) (by simp))

/-- What is open stays open in a step of the port's that does not take its descriptor. -/
theorem Stores.stays (hs : Stores s w) (hstep : s.step l = .ok (t, out)) {a : Addr}
    {c : SerialContext} {o : Opening} (hopen : HasOpen s.manager a c o) (hends : ¬Ends a c (l, out)) :
    HasOpen t.manager a c o := by
  have hl : l ≠ .destroy := by
    rintro rfl
    exact hends .destroyed
  obtain ⟨w', hmap, ht⟩ := hs.of_step hl hstep
  have hc := hs.cell_stays hstep hmap ht hopen.cell hends hopen.fd
  refine ⟨hc, hopen.fd, ?_⟩
  rw [SerialSystem.step_of_alive hs.alive] at hstep
  by_cases hmonitor : ∀ env, l ≠ .monitor env
  · -- nothing is opened, and the port still has its number open
    obtain ⟨o', ho', -⟩ := ht.owned.held a c hc hopen.fd
    have hsame := (act_shrinks hstep hmonitor).files c.fd o' ho'
    rw [hopen.file] at hsame
    cases hsame
    exact ho'
  · push Not at hmonitor
    obtain ⟨env, rfl⟩ := hmonitor
    obtain ⟨m', hpass, hmonitored⟩ := hs.refines.models.monitorPass_opens hs.running env
    simp only [SerialSystem.act, hpass, ok_bind] at hstep
    cases hstep
    exact hmonitored.keeps.files c.fd o hopen.file

end Steps

/-- A port keeps its opening in every run without a step that takes its descriptor. -/
theorem Sound.stays {s t : SerialSystem} {los : List (SerialLabel × SerialOut)} (hs : Sound s)
    (hrun : Run (Fires SerialSystem.step) s los t) {a : Addr} {c : SerialContext} {o : Opening}
    (hopen : HasOpen s.manager a c o) (hends : ∀ lo ∈ los, ¬Ends a c lo) :
    HasOpen t.manager a c o := by
  have hpres : ∀ s lo t, ¬Ends a c lo → Sound s ∧ HasOpen s.manager a c o →
      Fires SerialSystem.step s lo t → Sound t ∧ HasOpen t.manager a c o := by
    rintro s lo t hno ⟨hs, hopen⟩ hstep
    refine ⟨hs.step hstep, ?_⟩
    rcases hs with ⟨w, hstores⟩ | hgone
    · exact hstores.stays hstep hopen hno
    · have hbare := hgone.bare a
      rw [hopen.cell] at hbare
      cases hbare
  exact (hrun.invariant_of hpres hends ⟨hs, hopen⟩).2

/-- The read thread polls every port that is open. -/
theorem Stores.collects {s : SerialSystem} {w : PortMap} (hs : Stores s w) {a : Addr}
    {c : SerialContext} (hc : s.manager.ctxs.cell a = some c) (hopen : 0 ≤ c.fd) :
    ∃ fds, collectFds true s.manager = .ok fds ∧ c.fd ∈ fds := by
  refine ⟨_, hs.refines.models.collectFds_eq, List.mem_map.mpr ⟨a, ?_, fdAt_of_cell hc⟩⟩
  refine List.mem_filter.mpr ⟨(hs.refines.models.live a).mpr ⟨c, hc⟩, ?_⟩
  exact isPolled_iff.mpr ⟨c, hc, hs.running a c hc, hopen⟩

/-- What a round of the monitor makes of a port: it keeps the descriptor that it has, or gets one if it
has none and its device opens, and nothing else of it changes. -/
def ComesBack (env : Addr → OpenEnv) (a : Addr) (c : SerialContext) (m : SerialManager) : Prop :=
  ∃ fd, m.ctxs.cell a = some { c with fd := fd } ∧ (0 ≤ c.fd → fd = c.fd) ∧
    (0 ≤ fd ∨ Fails env m.kernel a c)

theorem Monitored.comesBack {env : Addr → OpenEnv} {s : PortState} {done : List Ptr}
    {m : SerialManager} (hmonitored : Monitored env s done m.portState) {a : Addr}
    {c : SerialContext} (ha : some a ∈ done) (hc : s.1.cell a = some c) : ComesBack env a c m := by
  obtain ⟨d, hd⟩ := (hmonitored.same.live a).mpr ⟨c, hc⟩
  have hrest : d.unopened = c.unopened := by
    have hsame := hmonitored.same a
    rw [hd, hc] at hsame
    exact Option.some.inj hsame
  have heq : d = { c with fd := d.fd } := by
    cases c
    cases d
    simpa [SerialContext.unopened] using hrest
  refine ⟨d.fd, ?_, fun hopen => ?_, ?_⟩
  · rw [← heq]
    exact hd
  · have hkept := hmonitored.keeps.cells a c hc hopen
    rw [hd] at hkept
    cases hkept
    rfl
  · have htried := hmonitored.tried a ha d hd
    rw [heq] at htried
    exact htried

/-- A round of the monitor in a state that a run can be in. -/
theorem Stores.monitor_opens {s : SerialSystem} {w : PortMap} (hs : Stores s w) :
    ∃ order : List Addr, Holds s.manager.nodes s.manager.ports (order.map some) ∧
      (∀ a, a ∈ order ↔ ∃ c, s.manager.ctxs.cell a = some c) ∧
      ∀ env, ∃ t, Fires SerialSystem.step s (.monitor env, .unit) t ∧
        SameButFd s.manager.ctxs t.manager.ctxs ∧
        ∀ a c, s.manager.ctxs.cell a = some c → ComesBack env a c t.manager := by
  have hm := hs.refines.models
  refine ⟨_, hm.chain, hm.live, fun env => ?_⟩
  obtain ⟨m', hpass, hmonitored⟩ := hm.monitorPass_opens hs.running env
  refine ⟨{ s with manager := m' }, ?_, hmonitored.same, fun a c hc => ?_⟩
  · rw [Fires, SerialSystem.step_of_alive hs.alive, SerialSystem.act, hpass, ok_bind]
  · exact hmonitored.comesBack (List.mem_map_of_mem ((hm.live a).mpr ⟨c, hc⟩)) hc

/-- **Ports come back.** Whatever has happened to the descriptors, one round of the monitor gives one to
every registered port that has none, unless its device is not there or does not open, and leaves all
else of the ports alone; the read thread polls every port that has one; and a port keeps the one it has
while it is not removed and neither a hangup nor a failed read closes it, whatever becomes of the other
ports. -/
theorem ports_come_back {M : Malloc EQnode} {los : List (SerialLabel × SerialOut)} {s : SerialSystem}
    (hrun : Run (Fires SerialSystem.step) (.start M) los s) (halive : s.alive = true) :
    (∃ order : List Addr, Holds s.manager.nodes s.manager.ports (order.map some) ∧
      (∀ a, a ∈ order ↔ ∃ c, s.manager.ctxs.cell a = some c) ∧
      ∀ env, ∃ t, Fires SerialSystem.step s (.monitor env, .unit) t ∧
        SameButFd s.manager.ctxs t.manager.ctxs ∧
        ∀ a c, s.manager.ctxs.cell a = some c → ComesBack env a c t.manager) ∧
    ∀ a c o, HasOpen s.manager a c o →
      (∃ fds, collectFds true s.manager = .ok fds ∧ c.fd ∈ fds) ∧
      ∀ los' t, Run (Fires SerialSystem.step) s los' t → (∀ lo ∈ los', ¬Ends a c lo) →
        HasOpen t.manager a c o := by
  have hsound := sound_run hrun
  rcases hsound with ⟨w, hs⟩ | hgone
  · refine ⟨hs.monitor_opens, fun a c o hopen => ⟨hs.collects hopen.cell hopen.fd, ?_⟩⟩
    exact fun los' t hrun' => Sound.stays (Or.inl ⟨w, hs⟩) hrun' hopen
  · rw [hgone.alive] at halive
    cases halive

/-- The terminals of all ports but the first are there. -/
def firstGone : Addr → OpenEnv := fun a => { opensApart a with access := a != 0 }

/-- The first port is opened, and its device goes away; a second one is added and opened. -/
def goneRun : List SerialLabel :=
  [.add (bumpAdd true) (some (config8N1 uidA)) none none, .monitor opensApart, .reader hangsUp,
    .reader hangsUp, .reader hangsUp, .reader hangsUp,
    .add (bumpAdd true) (some (config8N1 uidB)) none none, .monitor firstGone]

def goneOuts : List SerialOut :=
  [.ret 0, .unit, .touched [], .touched [], .touched [],
    .touched [⟨some ⟨0, 0⟩, 0, some ⟨0, 0⟩, .hangup, none⟩], .ret 0, .unit]

/-- The first device is there again, and its port is removed. -/
def backRun : List SerialLabel := [.monitor opensApart, .remove bumpNode (some uidA)]

theorem goneRun_exec : ∃ s c d o t,
    exec SerialSystem.step (.start bumpNode) goneRun = .ok (s, goneOuts) ∧ s.alive = true ∧
    exec SerialSystem.step s backRun = .ok (t, [.unit, .unit]) ∧
    s.manager.ctxs.cell 0 = some c ∧ c.fd = -1 ∧ s.manager.ctxs.cell 1 = some d ∧
    d.ser.uid = some uidB ∧ d.fd = 4 ∧ s.manager.kernel.files 4 = some o :=
  ⟨_, _, _, _, _, rfl, rfl, rfl, rfl, rfl, rfl, rfl, rfl, rfl⟩

/-- The first port comes back, and is removed, while the second keeps what it has. -/
theorem ports_come_back_gone :
    ∃ s c d o, exec SerialSystem.step (.start bumpNode) goneRun = .ok (s, goneOuts) ∧
      s.manager.ctxs.cell 0 = some c ∧ c.fd = -1 ∧ HasOpen s.manager 1 d o ∧
      (∃ t, Fires SerialSystem.step s (.monitor opensApart, .unit) t ∧
        ComesBack opensApart 0 c t.manager) ∧
      (∃ fds, collectFds true s.manager = .ok fds ∧ d.fd ∈ fds) ∧
      ∃ t, exec SerialSystem.step s backRun = .ok (t, [.unit, .unit]) ∧ HasOpen t.manager 1 d o := by
  obtain ⟨s, c, d, o, t, hexec, halive, hback, hc, hclosed, hd, huid, hfd, ho⟩ := goneRun_exec
  have hopen : HasOpen s.manager 1 d o := ⟨hd, by rw [hfd]; decide, by rw [hfd]; exact ho⟩
  obtain ⟨⟨order, -, -, hround⟩, hstay⟩ := ports_come_back (run_of_exec hexec) halive
  obtain ⟨u, hfires, -, hcomes⟩ := hround opensApart
  obtain ⟨hpolled, hkeeps⟩ := hstay 1 d o hopen
  refine ⟨s, c, d, o, hexec, hc, hclosed, hopen, ⟨u, hfires, hcomes 0 c hc⟩, hpolled, t, hback, ?_⟩
  -- neither step is one that takes the descriptor of the second port
  refine hkeeps _ t (run_of_exec hback) fun lo hlo hends => ?_
  obtain rfl | rfl : lo = (.monitor opensApart, .unit) ∨
      lo = (.remove bumpNode (some uidA), .unit) := by
    simpa [backRun] using hlo
  · cases hends with
    | closed ht _ => cases ht
  · generalize huidA : some uidA = uid at hends
    cases hends with
    | removed => exact absurd (Option.some.inj (huidA.trans huid)) (by decide)
    | closed ht _ => cases ht

end LibEzmb
