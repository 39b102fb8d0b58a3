import LibEzmb.BaseRun
import LibEzmb.SerialManager

/-! Everything the manager can do to a context and its descriptor, as one relation, and what it keeps:
every open descriptor is the `fd` of exactly the context it was opened for, and no close is ever
issued on a descriptor that is not open. -/

open CHeap CBytes Runs

namespace LibEzmb

/-- The contexts and the descriptors. -/
abbrev PortState := Heap SerialContext × Kernel

/-- A context gets a descriptor, fails to get one, loses it, comes into being or goes. -/
inductive PortMove where
  | opened (a : Addr) (fd : Int)
  | failed (a : Addr)
  | closed (a : Addr)
  | added (a : Addr)
  | freed (a : Addr)
  deriving DecidableEq, Repr

/-- The moves that change the field `fd` of a context and nothing else of any. -/
def PortMove.isFdMove : PortMove → Bool
  | .opened _ _ | .failed _ | .closed _ => true
  | .added _ | .freed _ => false

inductive Moves (s : PortState) : PortMove → PortState → Prop where
  | opened {a : Addr} {c : SerialContext} {fd : Int} (hcell : s.1.cell a = some c)
      (hclosed : c.fd < 0) (hfd : 0 ≤ fd) (hfree : s.2.files fd = none) :
      Moves s (.opened a fd) (s.1.set a { c with fd := fd },
        { s.2 with
          files := Function.update s.2.files fd (some ⟨s.2.opened, a⟩), opened := s.2.opened + 1 })
  | failed {a : Addr} {c : SerialContext} (hcell : s.1.cell a = some c) (hclosed : c.fd < 0)
      (opened : Nat) :
      Moves s (.failed a) (s.1.set a { c with fd := -1 }, { s.2 with opened := opened })
  | closed {a : Addr} {c : SerialContext} (hcell : s.1.cell a = some c) (hopen : 0 ≤ c.fd) :
      Moves s (.closed a) (s.1.set a { c with fd := -1 }, s.2.closeFile c.fd)
  | added {a : Addr} (hfree : s.1.cell a = none) (c : SerialContext) (hfd : c.fd = -1) :
      Moves s (.added a) (s.1.set a c, s.2)
  | freed {a : Addr} {c : SerialContext} (hcell : s.1.cell a = some c) :
      Moves s (.freed a) ((s.1.set a { c with running := false }).drop a,
        if 0 ≤ c.fd then s.2.closeFile c.fd else s.2)

/-- Every context that has a descriptor has it open and its own, every open descriptor belongs to
such a context, and no close has missed. -/
structure Owned (s : PortState) : Prop where
  held : ∀ a c, s.1.cell a = some c → 0 ≤ c.fd → ∃ o, s.2.files c.fd = some o ∧ o.port = a
  owner : ∀ fd o, s.2.files fd = some o → 0 ≤ fd ∧ ∃ c, s.1.cell o.port = some c ∧ c.fd = fd
  ebadf : s.2.ebadf = 0

/-- Nothing at the address has a descriptor. -/
def Bare (h : Heap SerialContext) (a : Addr) : Prop := ∀ c, h.cell a = some c → c.fd < 0

namespace Owned

variable {h h' : Heap SerialContext} {k k' : Kernel} {a : Addr} {c : SerialContext}

theorem start : Owned (Heap.empty, Kernel.start) where
  held a c hc := by cases hc
  owner fd o ho := by cases ho
  ebadf := rfl

/-- Two contexts do not share a descriptor. -/
theorem inj (howned : Owned (h, k)) {b : Addr} {d : SerialContext} (hc : h.cell a = some c)
    (hd : h.cell b = some d) (hfd : 0 ≤ c.fd) (heq : d.fd = c.fd) : b = a := by
  obtain ⟨o, ho, hport⟩ := howned.held a c hc hfd
  obtain ⟨o', ho', hport'⟩ := howned.held b d hd (by rw [heq]; exact hfd)
  have hsame : o' = o := by
    have hfiles : k.files c.fd = some o' := by rw [← heq]; exact ho'
    exact Option.some.inj (hfiles.symm.trans ho)
  rw [← hport', hsame, hport]

/-- A context with the descriptor of another one is the same. -/
theorem same_ctx (howned : Owned (h, k)) {b : Addr} {d : SerialContext} (hc : h.cell a = some c)
    (hopen : 0 ≤ c.fd) (hd : h.cell b = some d) (heq : d.fd = c.fd) : d = c := by
  rw [howned.inj hc hd hopen heq] at hd
  exact Option.some.inj (hd.symm.trans hc)

theorem owner_ne (howned : Owned (h, k)) (hbare : Bare h a) {fd : Int} {o : Opening}
    (ho : k.files fd = some o) : o.port ≠ a := by
  rintro rfl
  obtain ⟨hfd, c, hc, rfl⟩ := howned.owner fd o ho
  exact absurd (hbare c hc) (not_lt.mpr hfd)

/-- Changes at an address without a descriptor do not matter. -/
theorem keep (howned : Owned (h, k)) (hbare : Bare h a) (hbare' : Bare h' a)
    (hagree : h.AgreeOff [a] h') (hfiles : k'.files = k.files) (hebadf : k'.ebadf = k.ebadf) :
    Owned (h', k') where
  held b d hd hfd := by
    have hne : b ≠ a := by
      rintro rfl
      exact absurd (hbare' d hd) (not_lt.mpr hfd)
    have hd' : h.cell b = some d := by
      rw [← hagree b (by simp [hne])]
      exact hd
    show ∃ o, k'.files d.fd = some o ∧ o.port = b
    rw [hfiles]
    exact howned.held b d hd' hfd
  owner fd o ho := by
    have ho' : k.files fd = some o := by
      rw [← hfiles]
      exact ho
    have hne := howned.owner_ne hbare ho'
    obtain ⟨hfd, d, hd, heq⟩ := howned.owner fd o ho'
    exact ⟨hfd, d, (hagree _ (by simp [hne])).trans hd, heq⟩
  ebadf := hebadf.trans howned.ebadf

/-- The context at an address gives its descriptor back. -/
theorem release (howned : Owned (h, k)) (hcell : h.cell a = some c) (hopen : 0 ≤ c.fd)
    (hbare : Bare h' a) (hagree : h.AgreeOff [a] h') : Owned (h', k.closeFile c.fd) := by
  obtain ⟨o, ho, hport⟩ := howned.held a c hcell hopen
  have hclose : k.closeFile c.fd = { k with files := Function.update k.files c.fd none } := by
    rw [Kernel.closeFile, show k.files c.fd = some o from ho]
  rw [hclose]
  refine ⟨fun b d hd hfd => ?_, fun fd o' ho' => ?_, howned.ebadf⟩
  · have hne : b ≠ a := by
      rintro rfl
      exact absurd (hbare d hd) (not_lt.mpr hfd)
    have hd' : h.cell b = some d := by
      rw [← hagree b (by simp [hne])]
      exact hd
    have hfd_ne : d.fd ≠ c.fd := fun heq => hne (howned.inj hcell hd' hopen heq)
    show ∃ o, Function.update k.files c.fd none d.fd = some o ∧ o.port = b
    rw [Function.update_of_ne hfd_ne]
    exact howned.held b d hd' hfd
  · have hfd_ne : fd ≠ c.fd := by
      rintro rfl
      simp at ho'
    simp only [Function.update_of_ne hfd_ne] at ho'
    obtain ⟨hfd, d, hd, heq⟩ := howned.owner fd o' ho'
    have hne : o'.port ≠ a := by
      intro heq'
      rw [heq', show h.cell a = some c from hcell] at hd
      cases hd
      exact hfd_ne heq.symm
    exact ⟨hfd, d, (hagree _ (by simp [hne])).trans hd, heq⟩

/-- A context without a descriptor gets one that was not open. -/
theorem acquire (howned : Owned (h, k)) (hcell : h.cell a = some c) (hclosed : c.fd < 0) {fd : Int}
    (hfd : 0 ≤ fd) (hfree : k.files fd = none) :
    Owned (h.set a { c with fd := fd }, { k with
      files := Function.update k.files fd (some ⟨k.opened, a⟩), opened := k.opened + 1 }) := by
  have hbare : Bare h a := by
    intro d hd
    rw [hcell] at hd
    cases hd
    exact hclosed
  refine ⟨fun b d hd hd_fd => ?_, fun fd' o ho => ?_, howned.ebadf⟩
  · by_cases hb : b = a
    · subst hb
      rw [Heap.set_cell, if_pos rfl] at hd
      cases hd
      exact ⟨⟨k.opened, b⟩, by simp, rfl⟩
    · rw [Heap.set_cell, if_neg hb] at hd
      obtain ⟨o, ho, hport⟩ := howned.held b d hd hd_fd
      have hne : d.fd ≠ fd := by
        rintro rfl
        rw [show k.files d.fd = some o from ho] at hfree
        cases hfree
      exact ⟨o, by simpa [Function.update_of_ne hne] using ho, hport⟩
  · by_cases hfd' : fd' = fd
    · subst hfd'
      simp only [Function.update_self] at ho
      cases ho
      exact ⟨hfd, { c with fd := fd' }, by simp, rfl⟩
    · simp only [Function.update_of_ne hfd'] at ho
      have hne := howned.owner_ne hbare ho
      obtain ⟨hpos, d, hd, heq⟩ := howned.owner fd' o ho
      exact ⟨hpos, d, by simpa [hne] using hd, heq⟩

end Owned

theorem agreeOff_set (h : Heap SerialContext) (a : Addr) (c : SerialContext) :
    h.AgreeOff [a] (h.set a c) := by
  intro b hb
  rw [Heap.set_cell, if_neg (by simpa using hb)]

theorem agreeOff_set_drop (h : Heap SerialContext) (a : Addr) (c : SerialContext) :
    h.AgreeOff [a] ((h.set a c).drop a) := by
  intro b hb
  have hne : b ≠ a := by simpa using hb
  simp [hne]

theorem bare_set (h : Heap SerialContext) (a : Addr) {c : SerialContext} (hfd : c.fd < 0) :
    Bare (h.set a c) a := by
  intro d hd
  rw [Heap.set_cell, if_pos rfl] at hd
  cases hd
  exact hfd

theorem neg_one_fd : (-1 : Int) < 0 := by decide

theorem bare_drop (h : Heap SerialContext) (a : Addr) : Bare (h.drop a) a := by
  intro d hd
  simp at hd

/-- **One step.** Whatever the manager does to a context keeps every descriptor owned. -/
theorem Owned.move {s t : PortState} {m : PortMove} (howned : Owned s) (hmove : Moves s m t) :
    Owned t := by
  cases hmove with
  | opened hcell hclosed hfd hfree => exact howned.acquire hcell hclosed hfd hfree
  | @failed a c hcell hclosed opened =>
      have hbare : Bare s.1 a := fun d hd => by
        rw [hcell] at hd
        cases hd
        exact hclosed
      exact howned.keep hbare (bare_set _ _ neg_one_fd) (agreeOff_set _ _ _) rfl rfl
  | @closed a c hcell hopen =>
      exact howned.release hcell hopen (bare_set _ _ neg_one_fd) (agreeOff_set _ _ _)
  | @added a hfree c hfd =>
      have hbare : Bare s.1 a := fun d hd => by
        rw [hfree] at hd
        cases hd
      exact howned.keep hbare (bare_set _ _ (by rw [hfd]; exact neg_one_fd)) (agreeOff_set _ _ _) rfl rfl
  | @freed a c hcell =>
      by_cases hopen : 0 ≤ c.fd
      · rw [if_pos hopen]
        exact howned.release hcell hopen (bare_drop _ _) (agreeOff_set_drop _ _ _)
      · rw [if_neg hopen]
        have hbare : Bare s.1 a := fun d hd => by
          rw [hcell] at hd
          cases hd
          exact not_le.mp hopen
        exact howned.keep hbare (bare_drop _ _) (agreeOff_set_drop _ _ _) rfl rfl

/-- **A run.** -/
theorem Owned.run {s t : PortState} {ms : List PortMove} (howned : Owned s)
    (hrun : Run Moves s ms t) : Owned t :=
  hrun.invariant (fun _ _ _ hs hmove => hs.move hmove) howned

/-! ### What moves leave alone -/

/-- A context without its descriptor. -/
def SerialContext.unopened (c : SerialContext) : SerialContext := { c with fd := -1 }

/-- The same contexts, but perhaps for the field `fd`. -/
def SameButFd (h h' : Heap SerialContext) : Prop :=
  ∀ a, (h'.cell a).map SerialContext.unopened = (h.cell a).map SerialContext.unopened

theorem SameButFd.trans {h h' h'' : Heap SerialContext} (hfst : SameButFd h h')
    (hsnd : SameButFd h' h'') : SameButFd h h'' := fun a => (hsnd a).trans (hfst a)

theorem sameButFd_set {h : Heap SerialContext} {a : Addr} {c : SerialContext}
    (hcell : h.cell a = some c) (fd : Int) : SameButFd h (h.set a { c with fd := fd }) := by
  intro b
  rw [Heap.set_cell]
  by_cases hb : b = a
  · subst hb
    rw [if_pos rfl, hcell]
    rfl
  · rw [if_neg hb]

theorem Moves.sameButFd {s t : PortState} {m : PortMove} (hfd : m.isFdMove = true)
    (hmove : Moves s m t) : SameButFd s.1 t.1 := by
  cases hmove with
  | opened hcell _ _ _ => exact sameButFd_set hcell _
  | failed hcell _ _ => exact sameButFd_set hcell _
  | closed hcell _ => exact sameButFd_set hcell _
  | added _ _ _ => cases hfd
  | freed _ => cases hfd

theorem sameButFd_run {s t : PortState} {ms : List PortMove} (hrun : Run Moves s ms t)
    (hfd : ∀ m ∈ ms, m.isFdMove = true) : SameButFd s.1 t.1 :=
  hrun.invariant_of (I := fun u => SameButFd s.1 u.1)
    (fun _ _ _ hm hsame hmove => hsame.trans (hmove.sameButFd hm)) hfd fun _ => rfl

end LibEzmb
