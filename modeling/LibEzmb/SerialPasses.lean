import LibEzmb.SerialCalls

/-! What the sections of the read and monitor threads do: they only change descriptors, by moves, and
an event is applied to the port whose descriptor has the number of the event, whatever that number
stood for when it was polled. -/

open CHeap CBytes Runs

namespace LibEzmb

/-- Where moves that only change descriptors can lead. -/
def FdMoves (s t : PortState) : Prop :=
  ∃ ms, Run Moves s ms t ∧ ∀ mv ∈ ms, mv.isFdMove = true

namespace FdMoves

variable {s t u : PortState}

theorem refl (s : PortState) : FdMoves s s := ⟨[], .nil _, by simp⟩

theorem single {mv : PortMove} (hmove : Moves s mv t) (hfd : mv.isFdMove = true) : FdMoves s t :=
  ⟨[mv], .cons hmove (.nil _), by simpa using hfd⟩

theorem trans (hfst : FdMoves s t) (hsnd : FdMoves t u) : FdMoves s u := by
  obtain ⟨ms, hrun, hfd⟩ := hfst
  obtain ⟨ms', hrun', hfd'⟩ := hsnd
  exact ⟨ms ++ ms', hrun.append hrun', List.forall_mem_append.mpr ⟨hfd, hfd'⟩⟩

theorem sameButFd (hmoves : FdMoves s t) : SameButFd s.1 t.1 := by
  obtain ⟨ms, hrun, hfd⟩ := hmoves
  exact sameButFd_run hrun hfd

theorem owned (hmoves : FdMoves s t) (howned : Owned s) : Owned t := by
  obtain ⟨ms, hrun, -⟩ := hmoves
  exact howned.run hrun

end FdMoves

/-- Where a section that only changes descriptors can lead. -/
structure FdSection (m m' : SerialManager) : Prop where
  nodes : m'.nodes = m.nodes
  ports : m'.ports = m.ports
  moves : FdMoves m.portState m'.portState

namespace FdSection

variable {m m' m'' : SerialManager}

theorem refl (m : SerialManager) : FdSection m m := ⟨rfl, rfl, .refl _⟩

theorem trans (hfst : FdSection m m') (hsnd : FdSection m' m'') : FdSection m m'' :=
  ⟨hsnd.nodes.trans hfst.nodes, hsnd.ports.trans hfst.ports, hfst.moves.trans hsnd.moves⟩

theorem sameButFd (hsection : FdSection m m') : SameButFd m.ctxs m'.ctxs := hsection.moves.sameButFd

theorem models {order : List Addr} (hsection : FdSection m m') (hm : Models m order) :
    Models m' order :=
  hm.sameButFd hsection.nodes hsection.ports hsection.sameButFd

end FdSection

/-- No context has been taken out of use. -/
def AllRunning (h : Heap SerialContext) : Prop := ∀ a c, h.cell a = some c → c.running = true

theorem SameButFd.allRunning {h h' : Heap SerialContext} (hsame : SameButFd h h')
    (hrunning : AllRunning h) : AllRunning h' := by
  intro a c hc
  have ha := hsame a
  rw [hc] at ha
  cases hc₀ : h.cell a with
  | none =>
      rw [hc₀] at ha
      cases ha
  | some c₀ =>
      rw [hc₀] at ha
      have heq : c.unopened = c₀.unopened := Option.some.inj ha
      have hfield : c.unopened.running = c₀.unopened.running := by rw [heq]
      exact hfield.trans (hrunning a c₀ hc₀)

theorem AllRunning.set {h : Heap SerialContext} (hrunning : AllRunning h) {c : SerialContext}
    (hc : c.running = true) (a : Addr) : AllRunning (h.set a c) := by
  intro b d hd
  rw [Heap.set_cell] at hd
  split at hd
  · cases hd
    exact hc
  · exact hrunning b d hd

/-! ### The monitor -/

/-- One port in the monitor's round: it is opened, or fails to open, or is left alone. -/
theorem monitorBody_spec {s : PortState} {a : Addr} {c : SerialContext}
    (hc : s.1.cell a = some c) (env : Addr → OpenEnv) :
    ∃ s', monitorBody env s (some a) = .ok (s', false) ∧ FdMoves s s' := by
  simp only [monitorBody, Heap.deref_of_cell hc, ok_bind]
  by_cases hguard : (c.running && decide (c.fd < 0) && (env a).access) = true
  · rw [if_pos hguard]
    simp only [Bool.and_eq_true, decide_eq_true_eq] at hguard
    have hclosed : c.fd < 0 := hguard.1.2
    rcases serialOpen_cases s.2 a (env a) c.ser with
      ⟨n, -, -, hfree, hopen⟩ | ⟨opened, hopen⟩
    · have hmove := Moves.opened hc hclosed (Int.natCast_nonneg n) hfree
      simp only [hopen, Heap.store_of_cell hc, ok_bind]
      exact ⟨_, rfl, .single hmove rfl⟩
    · have hmove := Moves.failed hc hclosed opened
      simp only [hopen, Heap.store_of_cell hc, ok_bind]
      exact ⟨_, rfl, .single hmove rfl⟩
  · rw [if_neg hguard]
    exact ⟨s, rfl, .refl s⟩

namespace Models

variable {m : SerialManager} {order : List Addr}

/-- A round of the monitor goes through and only changes descriptors. -/
theorem monitorPass_spec (hm : Models m order) (env : Addr → OpenEnv) :
    ∃ m', monitorPass env m = .ok m' ∧ FdSection m m' := by
  obtain ⟨top, htop, hwalk⟩ := hm.chain.walk_eq
  have hbody : ∀ s, ∀ d ∈ order.map some, FdMoves m.portState s →
      ∃ s' stop, monitorBody env s d = .ok (s', stop) ∧ FdMoves m.portState s' := by
    intro s d hd hmoves
    obtain ⟨a, ha, rfl⟩ := List.mem_map.mp hd
    obtain ⟨c, hc⟩ := (hmoves.sameButFd.live a).mpr (hm.ctx ha)
    obtain ⟨s', hstep, hmoves'⟩ := monitorBody_spec hc env
    exact ⟨s', false, hstep, hmoves.trans hmoves'⟩
  obtain ⟨s, hvisit, hmoves⟩ := visit_invariant hbody (.refl m.portState)
  refine ⟨{ m with ctxs := s.1, kernel := s.2 }, ?_, rfl, rfl, hmoves⟩
  show (do
    let top ← m.nodes.deref m.ports.top
    let s ← walk m.nodes (monitorBody env) m.nodes.bound top.next m.portState
    Except.ok { m with ctxs := s.1, kernel := s.2 }) = _
  rw [htop, ok_bind, hwalk, hvisit, ok_bind]

end Models

/-! ### Collecting -/

/-- The descriptor of the context at an address. -/
def fdAt (h : Heap SerialContext) (a : Addr) : Int :=
  match h.cell a with
  | none => -1
  | some c => c.fd

theorem fdAt_of_cell {h : Heap SerialContext} {a : Addr} {c : SerialContext}
    (hcell : h.cell a = some c) : fdAt h a = c.fd := by
  simp only [fdAt, hcell]

/-- The context at an address is in use and open. -/
def isPolled (h : Heap SerialContext) (a : Addr) : Bool :=
  match h.cell a with
  | none => false
  | some c => c.running && decide (0 ≤ c.fd)

theorem isPolled_of_cell {h : Heap SerialContext} {a : Addr} {c : SerialContext}
    (hcell : h.cell a = some c) : isPolled h a = (c.running && decide (0 ≤ c.fd)) := by
  simp only [isPolled, hcell]

theorem isPolled_iff {h : Heap SerialContext} {a : Addr} : isPolled h a = true ↔
    ∃ c, h.cell a = some c ∧ c.running = true ∧ 0 ≤ c.fd := by
  cases hcell : h.cell a with
  | none => simp [isPolled, hcell]
  | some c => simp [isPolled, hcell]

theorem visit_collect {ctxs : Heap SerialContext} (as : List Addr)
    (hlive : ∀ a ∈ as, ∃ c, ctxs.cell a = some c) (fds : List Int) :
    visit (collectBody ctxs) (as.map some) fds =
      .ok (fds ++ (as.filter (isPolled ctxs)).map (fdAt ctxs)) := by
  induction as generalizing fds with
  | nil => simp [visit]
  | cons a as ih =>
      rw [List.forall_mem_cons] at hlive
      obtain ⟨⟨c, hc⟩, hrest⟩ := hlive
      rw [List.map_cons, visit, List.filter_cons, isPolled_of_cell hc]
      simp only [collectBody, Heap.deref_of_cell hc, ok_bind, Bool.false_eq_true, if_false,
        ih hrest]
      split
      · rw [List.map_cons, fdAt_of_cell hc, List.append_assoc, List.singleton_append]
      · rfl

/-- The descriptors to poll are those of the ports in use and open, in the order of the queue. -/
theorem Models.collectFds_eq {m : SerialManager} {order : List Addr} (hm : Models m order) :
    collectFds true m = .ok ((order.filter (isPolled m.ctxs)).map (fdAt m.ctxs)) := by
  obtain ⟨top, htop, hwalk⟩ := hm.chain.walk_eq
  have hvisit := visit_collect order (fun a ha => hm.ctx ha) []
  simp only [collectFds, Bool.not_true, Bool.false_eq_true, if_false, htop, ok_bind, hwalk, hvisit,
    List.nil_append]

/-- The descriptors to poll are open ones, each once. -/
theorem Models.collectFds_spec {m : SerialManager} {order : List Addr} (hm : Models m order)
    (howned : Owned m.portState) (okPfds : Bool) :
    ∃ fds, collectFds okPfds m = .ok fds ∧ fds.Nodup ∧ ∀ fd ∈ fds, 0 ≤ fd := by
  cases okPfds with
  | false => exact ⟨[], rfl, List.nodup_nil, by simp⟩
  | true =>
      have hpolled : ∀ a ∈ order.filter (isPolled m.ctxs), ∃ c, m.ctxs.cell a = some c ∧
          fdAt m.ctxs a = c.fd ∧ 0 ≤ c.fd := by
        intro a ha
        obtain ⟨c, hc, -, hopen⟩ := isPolled_iff.mp (List.mem_filter.mp ha).2
        exact ⟨c, hc, fdAt_of_cell hc, hopen⟩
      refine ⟨_, hm.collectFds_eq, ?_, fun fd hfd => ?_⟩
      · refine (hm.nodup.filter _).map_on fun a ha b hb heq => ?_
        obtain ⟨c, hc, hfd, hopen⟩ := hpolled a ha
        obtain ⟨d, hd, hfd', -⟩ := hpolled b hb
        rw [hfd, hfd'] at heq
        exact (howned.inj hc hd hopen heq.symm).symm
      · obtain ⟨a, ha, rfl⟩ := List.mem_map.mp hfd
        obtain ⟨c, -, hfd, hopen⟩ := hpolled a ha
        rw [hfd]
        exact hopen

/-! ### Events -/

/-- The branches of the event loop that touch a port: error or hangup, and data when there is memory
for the buffer. -/
def Acts (env : EventEnv) (e : PollEvent) : Bool :=
  e.revents.err || e.revents.hup || (e.revents.inp && env.okBuf)

/-- The port that was touched is the one that was polled, still in the opening that was polled. -/
def Touch.Right (t : Touch) : Prop :=
  t.polled = t.current ∧ t.current.map Opening.port = some t.target

instance (t : Touch) : Decidable t.Right := inferInstanceAs (Decidable (_ ∧ _))

/-- The branches of the event loop that close the descriptor. -/
def closes (env : EventEnv) (e : PollEvent) : Bool :=
  e.revents.err || e.revents.hup ||
    (e.revents.inp && env.okBuf && decide (env.read = .fails false))

/-- Each way the event loop goes with an event. -/
inductive Handling (env : EventEnv) (m : SerialManager) (e : PollEvent) :
    SerialManager → List Touch → Prop where
  | ignored (hnone : Acts env e = true → ∀ a c, m.ctxs.cell a = some c → c.fd ≠ e.fd) :
      Handling env m e m []
  | closed {a : Addr} {c : SerialContext} {action : TouchAction} (hc : m.ctxs.cell a = some c)
      (heq : c.fd = e.fd) (hcloses : closes env e = true)
      (haction : action = .hangup ∨ action = .read (.fails false)) :
      Handling env m e { m with
          ctxs := m.ctxs.set a { c with fd := -1 }, kernel := m.kernel.closeFile c.fd }
        [⟨e.polled, a, m.kernel.files c.fd, action, none⟩]
  | again {a : Addr} {c : SerialContext} (hc : m.ctxs.cell a = some c) (heq : c.fd = e.fd)
      (hacts : Acts env e = true) (hstays : closes env e = false) :
      Handling env m e m [⟨e.polled, a, m.kernel.files c.fd, .read (.fails true), none⟩]
  | read {a : Addr} {c : SerialContext} {buf : Bytes} (hc : m.ctxs.cell a = some c)
      (heq : c.fd = e.fd) (hacts : Acts env e = true) (hstays : closes env e = false)
      (hlen : buf.length ≤ c.ser.maxlen.toNat) :
      Handling env m e m [⟨e.polled, a, m.kernel.files c.fd, .read (.data buf),
        if buf = [] then none else c.recvCb.map fun cb => (cb, buf)⟩]

theorem acts_of_closes {env : EventEnv} {e : PollEvent} (hcloses : closes env e = true) :
    Acts env e = true := by
  simp only [closes, Bool.or_eq_true, Bool.and_eq_true] at hcloses
  simp only [Acts, Bool.or_eq_true, Bool.and_eq_true]
  exact hcloses.imp_right fun hread => hread.1

/-- An event that asks for nothing is passed over. -/
theorem Handling.quiet {env : EventEnv} {m : SerialManager} {e : PollEvent}
    (hquiet : Acts env e = false) : Handling env m e m [] := by
  refine .ignored fun hacts => ?_
  rw [hquiet] at hacts
  cases hacts

/-- Handling one event. -/
theorem Models.handleEvent_handling {m : SerialManager} {order : List Addr} (hm : Models m order)
    (hrunning : AllRunning m.ctxs) (env : EventEnv) (e : PollEvent) :
    ∃ m' touches, handleEvent env m e = .ok (m', touches) ∧ Handling env m e m' touches := by
  unfold handleEvent
  by_cases hany : e.revents.any = true
  · simp only [hany, Bool.not_true, Bool.false_eq_true, if_false]
    rcases hm.findCtx_spec fun ctx => .ok (decide (ctx.fd = e.fd)) with
      ⟨hfind, hnone⟩ | ⟨i, a, c, hfind, -, ha, hc, hpass⟩ | ⟨er, -, b, -, d, -, herror⟩
    · simp only [hfind, ok_bind]
      refine ⟨m, [], rfl, .ignored fun _ a c hc => ?_⟩
      have ha : a ∈ order := (hm.live a).mpr ⟨c, hc⟩
      exact of_decide_eq_false (Except.ok.inj (hnone a ha c hc))
    · have heq : c.fd = e.fd := of_decide_eq_true (Except.ok.inj hpass)
      simp only [hfind, ok_bind, Heap.deref_of_cell hc, hrunning a c hc, Bool.not_true,
        Bool.false_eq_true, if_false]
      simp only [closePort, Heap.store_of_cell hc, ok_bind]
      by_cases hhup : (e.revents.err || e.revents.hup) = true
      · have hcloses : closes env e = true := by rw [closes, hhup, Bool.true_or]
        rw [if_pos hhup]
        exact ⟨_, _, rfl, .closed hc heq hcloses (.inl rfl)⟩
      · have hacts : Acts env e = (e.revents.inp && env.okBuf) := by
          rw [Acts, Bool.eq_false_of_not_eq_true hhup, Bool.false_or]
        have hcloses : closes env e =
            (e.revents.inp && env.okBuf && decide (env.read = .fails false)) := by
          rw [closes, Bool.eq_false_of_not_eq_true hhup, Bool.false_or]
        rw [if_neg hhup]
        by_cases hinp : e.revents.inp = true
        · rw [if_pos hinp]
          by_cases hbuf : env.okBuf = true
          · rw [hinp, hbuf, Bool.and_self] at hacts hcloses
            rw [Bool.true_and] at hcloses
            simp only [hbuf, Bool.not_true, Bool.false_eq_true, if_false]
            cases henv : env.read with
            | fails eagain =>
                cases eagain with
                | true => exact ⟨m, _, rfl, .again hc heq hacts (by rw [hcloses, henv]; rfl)⟩
                | false => exact ⟨_, _, rfl, .closed hc heq (by rw [hcloses, henv]; rfl) (.inr rfl)⟩
            | data bytes =>
                have hstays : closes env e = false := by rw [hcloses, henv]; rfl
                have hread := Handling.read hc heq hacts hstays
                  (List.length_take_le c.ser.maxlen.toNat bytes)
                simp only
                split
                · next hlen =>
                    rw [if_pos (List.eq_nil_of_length_eq_zero hlen)] at hread
                    exact ⟨m, _, rfl, hread⟩
                · next hlen =>
                    rw [if_neg fun hnil => hlen (by rw [hnil]; rfl)] at hread
                    exact ⟨m, _, rfl, hread⟩
          · have hquiet : Acts env e = false := by
              rw [hacts, Bool.eq_false_of_not_eq_true hbuf, Bool.and_false]
            simp only [Bool.eq_false_of_not_eq_true hbuf, Bool.not_false, if_true]
            exact ⟨m, [], rfl, .quiet hquiet⟩
        · have hquiet : Acts env e = false := by
            rw [hacts, Bool.eq_false_of_not_eq_true hinp, Bool.false_and]
          rw [if_neg hinp]
          exact ⟨m, [], rfl, .quiet hquiet⟩
    · cases herror
  · have hquiet : Acts env e = false := by
      simp only [Revents.any, Bool.not_eq_true, Bool.or_eq_false_iff] at hany
      simp only [Acts, hany.1.1.1, hany.1.1.2, hany.1.2, Bool.or_self, Bool.false_and]
    simp only [Bool.eq_false_of_not_eq_true hany, Bool.not_false, if_true]
    exact ⟨m, [], rfl, .quiet hquiet⟩

/-- What handling one event can do: it touches the port that has the number of the event now. -/
structure Handled (env : EventEnv) (m : SerialManager) (e : PollEvent) (m' : SerialManager)
    (touches : List Touch) : Prop extends FdSection m m' where
  acts : touches ≠ [] → Acts env e = true
  applied : ∀ t ∈ touches, t.polled = e.polled ∧ t.current = m.kernel.files e.fd ∧
    ∃ c, m.ctxs.cell t.target = some c ∧ c.fd = e.fd
  acted : Acts env e = true → ∀ a c, m.ctxs.cell a = some c → c.fd = e.fd → touches ≠ []
  others : ∀ fd, fd ≠ e.fd → m'.kernel.files fd = m.kernel.files fd

namespace Handled

variable {env : EventEnv} {m : SerialManager} {e : PollEvent} {a : Addr} {c : SerialContext}

theorem ignored (hnone : Acts env e = true → ∀ a c, m.ctxs.cell a = some c → c.fd ≠ e.fd) :
    Handled env m e m [] where
  toFdSection := .refl m
  acts h := absurd rfl h
  applied t ht := by simp at ht
  acted hacts b d hd heq := absurd heq (hnone hacts b d hd)
  others _ _ := rfl

theorem touched {m' : SerialManager} (hsection : FdSection m m') (hacts : Acts env e = true)
    (hc : m.ctxs.cell a = some c) (heq : c.fd = e.fd)
    (hothers : ∀ fd, fd ≠ e.fd → m'.kernel.files fd = m.kernel.files fd) (action : TouchAction)
    (called : Option (Addr × Bytes)) :
    Handled env m e m' [⟨e.polled, a, m.kernel.files c.fd, action, called⟩] where
  toFdSection := hsection
  acts _ := hacts
  applied t ht := by
    rw [List.mem_singleton] at ht
    subst ht
    exact ⟨rfl, by rw [heq], c, hc, heq⟩
  acted _ _ _ _ _ := List.cons_ne_nil _ _
  others := hothers

theorem kept (hacts : Acts env e = true) (hc : m.ctxs.cell a = some c) (heq : c.fd = e.fd)
    (action : TouchAction) (called : Option (Addr × Bytes)) :
    Handled env m e m [⟨e.polled, a, m.kernel.files c.fd, action, called⟩] :=
  touched (.refl m) hacts hc heq (fun _ _ => rfl) action called

theorem closed (hacts : Acts env e = true) (hc : m.ctxs.cell a = some c) (heq : c.fd = e.fd)
    (hfd : 0 ≤ e.fd) (action : TouchAction) (called : Option (Addr × Bytes)) :
    Handled env m e { m with
        ctxs := m.ctxs.set a { c with fd := -1 }, kernel := m.kernel.closeFile c.fd }
      [⟨e.polled, a, m.kernel.files c.fd, action, called⟩] := by
  have hopen : 0 ≤ c.fd := by rw [heq]; exact hfd
  have hsection : FdSection m { m with
      ctxs := m.ctxs.set a { c with fd := -1 }, kernel := m.kernel.closeFile c.fd } :=
    ⟨rfl, rfl, .single (Moves.closed hc hopen) rfl⟩
  have hothers : ∀ fd, fd ≠ e.fd → (m.kernel.closeFile c.fd).files fd = m.kernel.files fd := by
    intro fd hne
    exact closeFile_files_of_ne (by rw [heq]; exact hne)
  exact touched hsection hacts hc heq hothers action called

/-- The port touched is the right one exactly when the number of the event has not been given out
again. -/
theorem right_iff {m' : SerialManager} {touches : List Touch}
    (hhandled : Handled env m e m' touches) (howned : Owned m.portState) (hfd : 0 ≤ e.fd) :
    (∀ t ∈ touches, t.Right) ↔
      (Acts env e = true → m.kernel.files e.fd = none ∨ m.kernel.files e.fd = e.polled) := by
  constructor
  · intro hright hacts
    cases hfiles : m.kernel.files e.fd with
    | none => exact Or.inl rfl
    | some o =>
        obtain ⟨-, c, hc, heq⟩ := howned.owner e.fd o hfiles
        obtain ⟨t, ht⟩ := List.exists_mem_of_ne_nil _ (hhandled.acted hacts _ c hc heq)
        obtain ⟨hpolled, hcurrent, -⟩ := hhandled.applied t ht
        refine Or.inr ?_
        rw [← hpolled, (hright t ht).1, hcurrent, hfiles]
  · intro hcond t ht
    obtain ⟨hpolled, hcurrent, c, hc, htarget⟩ := hhandled.applied t ht
    obtain ⟨o, ho, hport⟩ := howned.held _ c hc (by rw [htarget]; exact hfd)
    have hfiles : m.kernel.files e.fd = some o := by
      rw [← htarget]
      exact ho
    rcases hcond (hhandled.acts (List.ne_nil_of_mem ht)) with hnone | hsame
    · rw [hfiles] at hnone
      cases hnone
    · refine ⟨by rw [hpolled, hcurrent, hsame], ?_⟩
      rw [hcurrent, hfiles, Option.map_some, hport]

end Handled

theorem Handling.handled {env : EventEnv} {m m' : SerialManager} {e : PollEvent}
    {touches : List Touch} (hhandling : Handling env m e m' touches) (hfd : 0 ≤ e.fd) :
    Handled env m e m' touches := by
  cases hhandling with
  | ignored hnone => exact .ignored hnone
  | closed hc heq hcloses => exact .closed (acts_of_closes hcloses) hc heq hfd _ _
  | again hc heq hacts => exact .kept hacts hc heq _ _
  | read hc heq hacts => exact .kept hacts hc heq _ _

theorem Models.handleEvent_spec {m : SerialManager} {order : List Addr} (hm : Models m order)
    (hrunning : AllRunning m.ctxs) (env : EventEnv) {e : PollEvent} (hfd : 0 ≤ e.fd) :
    ∃ m' touches, handleEvent env m e = .ok (m', touches) ∧ Handled env m e m' touches := by
  obtain ⟨m', touches, hhandle, hhandling⟩ := hm.handleEvent_handling hrunning env e
  exact ⟨m', touches, hhandle, hhandling.handled hfd⟩

/-- No number with an event that acts stands for something else than what was polled. -/
def Undisturbed (k : Kernel) (env : Nat → EventEnv) (i : Nat) (events : List PollEvent) : Prop :=
  ∀ p ∈ events.zipIdx i, Acts (env p.2) p.1 = true →
    k.files p.1.fd = none ∨ k.files p.1.fd = p.1.polled

theorem undisturbed_cons {k : Kernel} {env : Nat → EventEnv} {i : Nat} {e : PollEvent}
    {events : List PollEvent} : Undisturbed k env i (e :: events) ↔
      (Acts (env i) e = true → k.files e.fd = none ∨ k.files e.fd = e.polled) ∧
        Undisturbed k env (i + 1) events := by
  rw [Undisturbed, List.zipIdx_cons, List.forall_mem_cons]
  rfl

theorem undisturbed_congr {k k' : Kernel} {env : Nat → EventEnv} {i : Nat}
    {events : List PollEvent} (hfiles : ∀ e ∈ events, k'.files e.fd = k.files e.fd) :
    Undisturbed k' env i events ↔ Undisturbed k env i events := by
  have hmem : ∀ p ∈ events.zipIdx i, k'.files p.1.fd = k.files p.1.fd :=
    fun p hp => hfiles p.1 (List.fst_mem_of_mem_zipIdx hp)
  constructor <;> intro h p hp
  · rw [← hmem p hp]
    exact h p hp
  · rw [hmem p hp]
    exact h p hp

/-- Handling the events goes through, and every port touched is the right one exactly when no number
with an event that acts has been given out again. -/
theorem Models.handleEvents_spec {m : SerialManager} {order : List Addr} (hm : Models m order)
    (howned : Owned m.portState) (hrunning : AllRunning m.ctxs) (env : Nat → EventEnv) (i : Nat)
    {events : List PollEvent} (hnodup : (events.map PollEvent.fd).Nodup)
    (hfds : ∀ e ∈ events, 0 ≤ e.fd) :
    ∃ m' touches, handleEvents env i events m = .ok (m', touches) ∧ FdSection m m' ∧
      ((∀ t ∈ touches, t.Right) ↔ Undisturbed m.kernel env i events) := by
  induction events generalizing i m with
  | nil => exact ⟨m, [], rfl, .refl m, by simp [Undisturbed]⟩
  | cons e events ih =>
      rw [List.map_cons, List.nodup_cons] at hnodup
      rw [List.forall_mem_cons] at hfds
      obtain ⟨m₁, touches, hfst, hhandled⟩ := hm.handleEvent_spec hrunning (env i) hfds.1
      obtain ⟨m₂, touches', hrest, hsection, hright⟩ :=
        ih (hhandled.models hm) (hhandled.moves.owned howned)
          (hhandled.sameButFd.allRunning hrunning) (i + 1) hnodup.2 hfds.2
      refine ⟨m₂, touches ++ touches', ?_, hhandled.toFdSection.trans hsection, ?_⟩
      · simp only [handleEvents, hfst, hrest, ok_bind]
      · -- no other event has this number, so its handling does not disturb them
        have hothers : ∀ e' ∈ events, m₁.kernel.files e'.fd = m.kernel.files e'.fd := by
          intro e' he'
          apply hhandled.others
          intro heq
          exact hnodup.1 (heq ▸ List.mem_map_of_mem he')
        calc (∀ t ∈ touches ++ touches', t.Right)
            ↔ (∀ t ∈ touches, t.Right) ∧ ∀ t ∈ touches', t.Right := List.forall_mem_append
          _ ↔ _ := and_congr (hhandled.right_iff howned hfds.1)
              (hright.trans (undisturbed_congr hothers))
          _ ↔ Undisturbed m.kernel env i (e :: events) := undisturbed_cons.symm

end LibEzmb
