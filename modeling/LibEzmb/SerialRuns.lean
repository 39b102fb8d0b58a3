import LibEzmb.SerialMap

/-! Runs of the serial manager with its threads: they refine runs of the map of ports, and they
neither lose a descriptor nor close one that is not open. -/

open CHeap CBytes KeyedLists Runs

namespace LibEzmb

open SerialSystem

/-- The manager is in use and stores these ports, every descriptor is owned, and the read thread
holds numbers that were open, each once. -/
structure Stores (s : SerialSystem) (w : PortMap) : Prop where
  alive : s.alive = true
  refines : Refines s.manager w
  owned : Owned s.manager.portState
  running : AllRunning s.manager.ctxs
  nodup : s.reader.fds.Nodup
  nonneg : ∀ fd ∈ s.reader.fds, 0 ≤ fd

/-- The manager has been destroyed, and with it every context. -/
structure Gone (s : SerialSystem) : Prop where
  alive : s.alive = false
  owned : Owned s.manager.portState
  bare : ∀ a, s.manager.ctxs.cell a = none

namespace Stores

variable {s : SerialSystem} {w : PortMap}

theorem start (M : Malloc EQnode) : Stores (.start M) (.empty _) where
  alive := rfl
  refines := ⟨Models.create M, by simp [Keyed.empty]⟩
  owned := Owned.start
  running := by
    intro a c hc
    cases hc
  nodup := List.nodup_nil
  nonneg := by simp [SerialSystem.start, ReaderPhase.fds]

/-- What a call does to the manager while the read thread stays where it is. -/
theorem call {m' : SerialManager} {w' : PortMap} (hs : Stores s w) (hr : Refines m' w')
    (hrunning : AllRunning s.manager.ctxs → AllRunning m'.ctxs)
    (hmoves : ∃ ms, Run Moves s.manager.portState ms m'.portState) :
    Stores { s with manager := m' } w' := by
  obtain ⟨ms, hrun⟩ := hmoves
  exact ⟨hs.alive, hr, hs.owned.run hrun, hrunning hs.running, hs.nodup, hs.nonneg⟩

/-- What a section of a thread does, when it leaves the read thread with these numbers. -/
theorem thread {m' : SerialManager} {r : ReaderPhase} (hs : Stores s w)
    (hsection : FdSection s.manager m') (hnodup : r.fds.Nodup) (hnonneg : ∀ fd ∈ r.fds, 0 ≤ fd) :
    ∃ w', w.SamePorts w' ∧ Stores { s with manager := m', reader := r } w' := by
  obtain ⟨w', hsame, hr⟩ := hs.refines.fdSection hsection
  exact ⟨w', hsame, hs.alive, hr, hsection.moves.owned hs.owned,
    hsection.sameButFd.allRunning hs.running, hnodup, hnonneg⟩

theorem pollEvents_fds (revents : Nat → Revents) (entries : List (Int × Option Opening)) :
    (pollEvents revents entries).map PollEvent.fd = entries.map Prod.fst := by
  calc (pollEvents revents entries).map PollEvent.fd
      = entries.zipIdx.map (Prod.fst ∘ Prod.fst) := List.map_map
    _ = (entries.zipIdx.map Prod.fst).map Prod.fst := List.map_map.symm
    _ = entries.map Prod.fst := by rw [List.zipIdx_map_fst]

/-- A step of the read thread goes through. When it handles events, every port touched is the right
one exactly when no number with an event that acts has been given out again. -/
theorem readThread (hs : Stores s w) (env : ReaderEnv) :
    ∃ t touches w', s.readThread env = .ok (t, touches) ∧ w.SamePorts w' ∧ Stores t w' ∧
      ((∀ touch ∈ touches, touch.Right) ↔
        ∀ events, s.reader = .polled events → Undisturbed s.manager.kernel env.event 0 events) := by
  obtain ⟨m, reader, alive⟩ := s
  have hnodup := hs.nodup
  have hnonneg := hs.nonneg
  cases reader with
  | idle =>
      obtain ⟨fds, hcollect, hfds, hopen⟩ := hs.refines.models.collectFds_spec hs.owned env.okPfds
      have hphase : (if fds = [] then ReaderPhase.idle else .collected fds).fds = fds := by
        split
        · next hnil => rw [hnil]; rfl
        · rfl
      obtain ⟨w', hsame, hs'⟩ := hs.thread (r := if fds = [] then .idle else .collected fds) (.refl m)
        (by rw [hphase]; exact hfds) (by rw [hphase]; exact hopen)
      refine ⟨_, [], w', ?_, hsame, hs', by simp⟩
      simp only [SerialSystem.readThread, hcollect, ok_bind]
  | collected fds =>
      have hphase : (ReaderPhase.polling (fds.map fun fd => (fd, m.kernel.files fd))).fds = fds := by
        rw [ReaderPhase.fds, List.map_map]
        exact List.map_id fds
      obtain ⟨w', hsame, hs'⟩ := hs.thread (.refl m) (by rw [hphase]; exact hnodup)
        (by rw [hphase]; exact hnonneg)
      exact ⟨_, [], w', rfl, hsame, hs', by simp⟩
  | polling entries =>
      cases hanswer : env.answer with
      | none =>
          obtain ⟨w', hsame, hs'⟩ := hs.thread (r := .idle) (.refl m) List.nodup_nil
            (by simp [ReaderPhase.fds])
          exact ⟨_, [], w', by simp only [SerialSystem.readThread, hanswer], hsame, hs', by simp⟩
      | some revents =>
          have hphase : (ReaderPhase.polled (pollEvents revents entries)).fds = entries.map Prod.fst :=
            pollEvents_fds revents entries
          obtain ⟨w', hsame, hs'⟩ := hs.thread (.refl m) (by rw [hphase]; exact hnodup)
            (by rw [hphase]; exact hnonneg)
          exact ⟨_, [], w', by simp only [SerialSystem.readThread, hanswer], hsame, hs', by simp⟩
  | polled events =>
      obtain ⟨m', touches, hhandle, hsection, hright⟩ :=
        hs.refines.models.handleEvents_spec hs.owned hs.running env.event 0 hnodup
          (fun e he => hnonneg e.fd (List.mem_map_of_mem he))
      obtain ⟨w', hsame, hs'⟩ := hs.thread (r := .idle) hsection List.nodup_nil
        (by simp [ReaderPhase.fds])
      refine ⟨_, touches, w', ?_, hsame, hs', ?_⟩
      · simp only [SerialSystem.readThread, hhandle, ok_bind]
      · rw [hright]
        exact ⟨fun h events' heq => by cases heq; exact h, fun h => h events rfl⟩

/-- Destroying goes through and leaves no context. -/
theorem destroy (hs : Stores s w) : ∃ t, s.step .destroy = .ok (t, .unit) ∧ Gone t := by
  obtain ⟨m', hdestroy, -, hbare, hrun⟩ := hs.refines.models.destroy_spec
  refine ⟨{ s with manager := m', alive := false }, ?_, rfl, hs.owned.run hrun, hbare⟩
  rw [step_of_alive hs.alive]
  simp only [act, hdestroy, ok_bind]

/-- **One step.** A section does to the ports what the map says, or a comparison met a null uid. -/
theorem step (hs : Stores s w) {l : SerialLabel} (hl : l ≠ .destroy) :
    (∃ t o w', s.step l = .ok (t, o) ∧ MapStep w (l, o) w' ∧ Stores t w') ∨
      ((∃ e, s.step l = .error e) ∧ (¬l.Mapped ∨ none ∈ w.keys)) := by
  rw [step_of_alive hs.alive]
  cases l with
  | add env config recvCb data =>
      rcases hs.refines.add env config recvCb data with
        ⟨m', r, w', hadd, hmap, hr, hrunning, hmoves⟩ | ⟨⟨e, hadd⟩, hnull⟩
      · refine Or.inl ⟨_, _, w', ?_, hmap, hs.call hr hrunning hmoves⟩
        simp only [act, hadd, ok_bind]
      · exact Or.inr ⟨⟨e, by simp only [act, hadd, error_bind]⟩, hnull⟩
  | remove M uid =>
      rcases hs.refines.remove M uid with
        ⟨m', w', hremove, hmap, hr, hrunning, hmoves⟩ | ⟨⟨e, hremove⟩, hnull⟩
      · refine Or.inl ⟨_, _, w', ?_, hmap, hs.call hr hrunning hmoves⟩
        simp only [act, hremove, ok_bind]
      · exact Or.inr ⟨⟨e, by simp only [act, hremove, error_bind]⟩, Or.inr hnull⟩
  | write uid data ret =>
      rcases hs.refines.write uid data ret with hwrite | ⟨⟨e, hwrite⟩, hnull⟩
      · refine Or.inl ⟨s, _, w, ?_, .write, hs⟩
        simp only [act, hwrite, ok_bind]
      · exact Or.inr ⟨⟨e, by simp only [act, hwrite, error_bind]⟩, Or.inr hnull⟩
  | size => exact Or.inl ⟨s, _, w, by rw [act, hs.refines.size], .size, hs⟩
  | reader env =>
      obtain ⟨t, touches, w', hread, hsame, ht, -⟩ := hs.readThread env
      refine Or.inl ⟨t, .touched touches, w', ?_, .reader hsame, ht⟩
      simp only [act, hread, ok_bind]
  | monitor env =>
      obtain ⟨m', hpass, hsection⟩ := hs.refines.models.monitorPass_spec env
      obtain ⟨w', hsame, ht⟩ := hs.thread hsection hs.nodup hs.nonneg
      refine Or.inl ⟨_, _, w', ?_, .monitor hsame, ht⟩
      simp only [act, hpass, ok_bind]
  | destroy => exact absurd rfl hl

end Stores

/-! ### A run on which the results below are tried -/

def uidA : CStr := ⟨[0x41], by decide⟩

def uidB : CStr := ⟨[0x42], by decide⟩

def config8N1 (uid : CStr) : SerialConfig where
  uid := some uid
  device := some uid
  baudrate := 9600
  databits := 8
  stopbits := 1
  parity := 'n'
  minDelayMs := 0
  maxlen := 256
  timeoutMs := 0

def bumpNode : Malloc EQnode := .bump ⟨none, none⟩

def bumpAdd (calloc : Bool) : AddEnv :=
  ⟨bumpNode, .bump (addedContext (config8N1 uidA) none none), calloc⟩

def opensAs (n : Nat) : Addr → OpenEnv :=
  fun _ => ⟨true, some n, some ⟨0, 0, 0, 0, fun _ => 0, 0, 0⟩, true⟩

/-- Each port gets a number of its own. -/
def opensApart : Addr → OpenEnv := fun a => opensAs (3 + a) a

def hangsUp : ReaderEnv :=
  ⟨true, some fun _ => ⟨false, true, false, false⟩, fun _ => ⟨true, .fails true⟩⟩

/-- The read thread polls the first port, which hangs up; before the event is handled the port is
removed, and the second one is opened under its number. -/
def reuseRun : List SerialLabel :=
  [.add (bumpAdd true) (some (config8N1 uidA)) none none, .monitor (opensAs 3),
    .add (bumpAdd true) (some (config8N1 uidB)) none none, .reader hangsUp, .reader hangsUp,
    .reader hangsUp, .remove bumpNode (some uidA), .monitor (opensAs 3), .reader hangsUp]

def reuseOuts : List SerialOut :=
  [.ret 0, .unit, .ret 0, .touched [], .touched [], .touched [], .unit, .unit,
    .touched [⟨some ⟨0, 0⟩, 1, some ⟨1, 1⟩, .hangup, none⟩]]

theorem reuseRun_exec :
    ∃ s, exec SerialSystem.step (.start bumpNode) reuseRun = .ok (s, reuseOuts) :=
  ⟨_, rfl⟩

/-! ### The map of ports -/

/-- The manager and the map take a step with the same label and output, and the manager stores what
the map has. -/
def Lockstep (x : SerialSystem × PortMap) (lo : SerialLabel × SerialOut)
    (y : SerialSystem × PortMap) : Prop :=
  Fires SerialSystem.step x.1 lo y.1 ∧ MapStep x.2 lo y.2 ∧ Refines y.1.manager y.2

theorem Stores.lockstep {s : SerialSystem} {w : PortMap} {ls : List SerialLabel} (hs : Stores s w)
    (hnamed : none ∉ w.keys) (hls : ∀ l ∈ ls, l.Mapped) :
    ∃ los x, los.map Prod.fst = ls ∧ Run Lockstep (s, w) los x ∧ Refines x.1.manager x.2 := by
  induction ls generalizing s w with
  | nil => exact ⟨[], (s, w), rfl, .nil _, hs.refines⟩
  | cons l ls ih =>
      rw [List.forall_mem_cons] at hls
      have hl : l ≠ .destroy := by
        rintro rfl
        exact hls.1
      rcases hs.step hl with ⟨t, o, w', hstep, hmap, ht⟩ | ⟨-, hnull⟩
      · obtain ⟨los, x, hlos, hrun, hr⟩ := ih ht (hmap.named hls.1 hnamed) hls.2
        have hfst : Lockstep (s, w) (l, o) (t, w') := ⟨hstep, hmap, ht.refines⟩
        exact ⟨(l, o) :: los, x, by rw [List.map_cons, hlos], .cons hfst hrun, hr⟩
      · exact absurd hnull (not_or.mpr ⟨not_not.mpr hls.1, hnamed⟩)

/-- Every run of calls and sections, whatever its order, is one of the map of ports. -/
theorem manager_refines_map (M : Malloc EQnode) {ls : List SerialLabel} (hls : ∀ l ∈ ls, l.Mapped) :
    ∃ los x, los.map Prod.fst = ls ∧ Run Lockstep (.start M, .empty _) los x ∧
      Refines x.1.manager x.2 :=
  (Stores.start M).lockstep List.not_mem_nil hls

theorem manager_refines_map_reuse :
    ∃ los x, los.map Prod.fst = reuseRun ∧ Run Lockstep (.start bumpNode, .empty _) los x ∧
      Refines x.1.manager x.2 :=
  manager_refines_map bumpNode (by simp [reuseRun, SerialLabel.Mapped, config8N1])

/-- Without memory for its context, a new port is refused. -/
theorem add_counterexample :
    ¬∀ (env : AddEnv) (config : SerialConfig) (recvCb : Option Addr) (data : Ptr),
      config.uid ≠ none → ∃ t,
        (SerialSystem.start bumpNode).step (.add env (some config) recvCb data) = .ok (t, .ret 0) := by
  intro h
  obtain ⟨t, hstep⟩ := h (bumpAdd false) (config8N1 uidA) none none (Option.some_ne_none _)
  cases hstep

/-! ### Descriptors -/

/-- A state some run can be in. -/
def Sound (s : SerialSystem) : Prop := (∃ w, Stores s w) ∨ Gone s

theorem Sound.step {s t : SerialSystem} {lo : SerialLabel × SerialOut} (hs : Sound s)
    (hstep : Fires SerialSystem.step s lo t) : Sound t := by
  obtain ⟨l, o⟩ := lo
  have hok : s.step l = .ok (t, o) := hstep
  rcases hs with ⟨w, hs⟩ | hs
  · by_cases hl : l = .destroy
    · subst hl
      obtain ⟨t', hstep', hgone⟩ := hs.destroy
      rw [hok] at hstep'
      cases hstep'
      exact Or.inr hgone
    · rcases hs.step hl with ⟨t', o', w', hstep', -, ht⟩ | ⟨⟨e, herror⟩, -⟩
      · rw [hok] at hstep'
        cases hstep'
        exact Or.inl ⟨w', ht⟩
      · rw [hok] at herror
        cases herror
  · rw [step_of_gone hs.alive] at hok
    cases hok

theorem sound_run {M : Malloc EQnode} {los : List (SerialLabel × SerialOut)} {s : SerialSystem}
    (hrun : Run (Fires SerialSystem.step) (.start M) los s) : Sound s :=
  hrun.invariant (fun _ _ _ hs hstep => hs.step hstep) (Or.inl ⟨_, Stores.start M⟩)

/-- These contexts are the ports of the manager, and the descriptors that the library has open are
exactly theirs. -/
structure Accounted (s : SerialSystem) (ports : List Addr) : Prop where
  stored : s.alive = true → Holds s.manager.nodes s.manager.ports (ports.map some)
  destroyed : s.alive = false → ports = []
  held : ∀ a ∈ ports, ∃ c, s.manager.ctxs.cell a = some c ∧
    (0 ≤ c.fd → (s.manager.kernel.files c.fd).isSome = true)
  owner : ∀ fd, (s.manager.kernel.files fd).isSome = true →
    0 ≤ fd ∧ ∃! a, a ∈ ports ∧ ∃ c, s.manager.ctxs.cell a = some c ∧ c.fd = fd
  ebadf : s.manager.kernel.ebadf = 0

theorem Stores.accounted {s : SerialSystem} {w : PortMap} (hs : Stores s w) : Accounted s w.addrs where
  stored _ := hs.refines.models.chain
  destroyed hgone := by
    rw [hs.alive] at hgone
    cases hgone
  held a ha := by
    obtain ⟨c, hc⟩ := hs.refines.models.ctx ha
    refine ⟨c, hc, fun hopen => ?_⟩
    obtain ⟨o, ho, -⟩ := hs.owned.held a c hc hopen
    have hfiles : s.manager.kernel.files c.fd = some o := ho
    rw [hfiles, Option.isSome_some]
  owner fd hfd := by
    obtain ⟨o, ho⟩ := Option.isSome_iff_exists.mp hfd
    obtain ⟨hopen, c, hc, heq⟩ := hs.owned.owner fd o ho
    refine ⟨hopen, o.port, ⟨(hs.refines.models.live _).mpr ⟨c, hc⟩, c, hc, heq⟩, ?_⟩
    rintro b ⟨-, d, hd, heq'⟩
    exact hs.owned.inj hc hd (by rw [heq]; exact hopen) (heq'.trans heq.symm)
  ebadf := hs.owned.ebadf

theorem Gone.accounted {s : SerialSystem} (hs : Gone s) : Accounted s [] where
  stored halive := by
    rw [hs.alive] at halive
    cases halive
  destroyed _ := rfl
  held a ha := by simp at ha
  owner fd hfd := by
    obtain ⟨o, ho⟩ := Option.isSome_iff_exists.mp hfd
    obtain ⟨-, c, hc, -⟩ := hs.owned.owner fd o ho
    have hbare := hs.bare o.port
    rw [show s.manager.ctxs.cell o.port = some c from hc] at hbare
    cases hbare
  ebadf := hs.owned.ebadf

/-- In every reachable state the open descriptors are those of the stored ports, each of one port,
and no close has been issued on a descriptor that was not open. -/
theorem descriptors_accounted {M : Malloc EQnode} {los : List (SerialLabel × SerialOut)}
    {s : SerialSystem} (hrun : Run (Fires SerialSystem.step) (.start M) los s) :
    ∃ ports, Accounted s ports := by
  rcases sound_run hrun with ⟨w, hs⟩ | hs
  · exact ⟨w.addrs, hs.accounted⟩
  · exact ⟨[], hs.accounted⟩

theorem descriptors_accounted_reuse :
    ∃ s ports, exec SerialSystem.step (.start bumpNode) reuseRun = .ok (s, reuseOuts) ∧
      Accounted s ports := by
  obtain ⟨s, hexec⟩ := reuseRun_exec
  obtain ⟨ports, hports⟩ := descriptors_accounted (run_of_exec hexec)
  exact ⟨s, ports, hexec, hports⟩

end LibEzmb
