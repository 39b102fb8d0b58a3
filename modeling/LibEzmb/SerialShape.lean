import LibEzmb.QueuePair
import LibEzmb.SerialOwnership

/-! One specification for each section of the serial manager: which contexts it leaves in the queue,
in which order, and by which moves it got there. The only fault is a comparison with a null uid. -/

open CHeap CBytes Runs

namespace LibEzmb

/-- The queue holds these contexts, each once, and there are no others. -/
structure Models (m : SerialManager) (order : List Addr) : Prop where
  chain : Holds m.nodes m.ports (order.map some)
  nodup : order.Nodup
  live : ∀ a, a ∈ order ↔ ∃ c, m.ctxs.cell a = some c

/-- The contexts and descriptors of a manager. -/
def SerialManager.portState (m : SerialManager) : PortState := (m.ctxs, m.kernel)

/-- A uid that a comparison could meet is null. -/
def NullUid (m : SerialManager) (order : List Addr) : Prop :=
  ∃ a ∈ order, ∃ c, m.ctxs.cell a = some c ∧ c.ser.uid = none

theorem SameButFd.live {h h' : Heap SerialContext} (hsame : SameButFd h h') (a : Addr) :
    (∃ c, h'.cell a = some c) ↔ ∃ c, h.cell a = some c := by
  have ha := hsame a
  cases hc : h.cell a <;> cases hc' : h'.cell a <;> simp_all

namespace Models

variable {m m' : SerialManager} {order : List Addr}

theorem create (M : Malloc EQnode) : Models (.create M) [] where
  chain := ⟨_, [], QueueRep.init_spec M Heap.empty 0, rfl⟩
  nodup := List.nodup_nil
  live a := by simp [SerialManager.create]

theorem ctx (hm : Models m order) {a : Addr} (ha : a ∈ order) : ∃ c, m.ctxs.cell a = some c :=
  (hm.live a).mp ha

/-- The context that comes next has not come before, and is there. -/
theorem next (hm : Models m order) {done rest : List Addr} {x : Addr}
    (horder : order = done ++ x :: rest) :
    x ∈ order ∧ x ∉ done ∧ ∃ c, m.ctxs.cell x = some c := by
  have hnodup := hm.nodup
  subst horder
  have hx : x ∈ done ++ x :: rest := List.mem_append_right _ List.mem_cons_self
  rw [List.nodup_append] at hnodup
  exact ⟨hx, fun hmem => hnodup.2.2 x hmem x List.mem_cons_self rfl, hm.ctx hx⟩

theorem size (hm : Models m order) : eSerialManagerSize m = order.length := by
  rw [eSerialManagerSize, hm.chain.size, List.length_map]

/-- Changing descriptors leaves the queue as it was. -/
theorem sameButFd (hm : Models m order) (hnodes : m'.nodes = m.nodes) (hports : m'.ports = m.ports)
    (hsame : SameButFd m.ctxs m'.ctxs) : Models m' order where
  chain := by
    rw [hnodes, hports]
    exact hm.chain
  nodup := hm.nodup
  live a := (hm.live a).trans (hsame.live a).symm

/-! ### Searching -/

theorem visit_find {ctxs : Heap SerialContext} (test : SerialContext → Except Fault Bool)
    (as : List Addr) (hlive : ∀ a ∈ as, ∃ c, ctxs.cell a = some c) (i : Int) (hi : 0 ≤ i) :
    (∃ s, visit (SerialManager.findBody ctxs test) (as.map some) (i, none) = .ok s ∧
      ((s.2 = none ∧ ∀ a ∈ as, ∀ c, ctxs.cell a = some c → test c = .ok false) ∨
        ∃ j a c, s.2 = some (j, a) ∧ 0 ≤ j ∧ a ∈ as ∧ ctxs.cell a = some c ∧ test c = .ok true)) ∨
    ∃ e, visit (SerialManager.findBody ctxs test) (as.map some) (i, none) = .error e ∧
      ∃ a ∈ as, ∃ c, ctxs.cell a = some c ∧ test c = .error e := by
  induction as generalizing i with
  | nil => exact Or.inl ⟨(i, none), rfl, Or.inl ⟨rfl, by simp⟩⟩
  | cons a as ih =>
      obtain ⟨c, hc⟩ := hlive a List.mem_cons_self
      have hrest : ∀ b ∈ as, ∃ c, ctxs.cell b = some c :=
        fun b hb => hlive b (List.mem_cons_of_mem _ hb)
      rw [List.map_cons, visit]
      simp only [SerialManager.findBody, Heap.deref_of_cell hc, ok_bind]
      cases htest : test c with
      | error e => exact Or.inr ⟨e, rfl, a, List.mem_cons_self, c, hc, htest⟩
      | ok b =>
          cases b with
          | true =>
              exact Or.inl ⟨(i, some (i, a)), rfl,
                Or.inr ⟨i, a, c, rfl, hi, List.mem_cons_self, hc, htest⟩⟩
          | false =>
              rcases ih hrest (i + 1) (by omega) with ⟨s, hvisit, hend⟩ | ⟨e, hvisit, b, hb, hbad⟩
              · refine Or.inl ⟨s, hvisit, ?_⟩
                rcases hend with ⟨hnone, hall⟩ | ⟨j, b, d, hs, hj, hb, hd, hpass⟩
                · refine Or.inl ⟨hnone, fun b hb d hd => ?_⟩
                  rcases List.mem_cons.mp hb with rfl | hb
                  · rw [hc] at hd
                    cases hd
                    exact htest
                  · exact hall b hb d hd
                · exact Or.inr ⟨j, b, d, hs, hj, List.mem_cons_of_mem _ hb, hd, hpass⟩
              · exact Or.inr ⟨e, hvisit, b, List.mem_cons_of_mem _ hb, hbad⟩

/-- A search finds a context that passes the test, or none does, or the test faults on one. -/
theorem findCtx_spec (hm : Models m order) (test : SerialContext → Except Fault Bool) :
    (m.findCtx test = .ok none ∧
      ∀ a ∈ order, ∀ c, m.ctxs.cell a = some c → test c = .ok false) ∨
    (∃ i a c, m.findCtx test = .ok (some (i, a)) ∧ 0 ≤ i ∧ a ∈ order ∧ m.ctxs.cell a = some c ∧
      test c = .ok true) ∨
    ∃ e, m.findCtx test = .error e ∧
      ∃ a ∈ order, ∃ c, m.ctxs.cell a = some c ∧ test c = .error e := by
  obtain ⟨top, htop, hwalk⟩ := hm.chain.walk_eq
  have hfind : m.findCtx test =
      (visit (SerialManager.findBody m.ctxs test) (order.map some) (0, none)).map Prod.snd := by
    rw [SerialManager.findCtx, htop, ok_bind, hwalk]
    cases visit (SerialManager.findBody m.ctxs test) (order.map some) (0, none) <;> rfl
  rw [hfind]
  rcases visit_find test order (fun a ha => hm.ctx ha) 0 (le_refl 0) with
    ⟨s, hvisit, hnone | ⟨i, a, c, hs, hi, ha, hc, hpass⟩⟩ | ⟨e, hvisit, hbad⟩
  · exact Or.inl ⟨by rw [hvisit, ← hnone.1]; rfl, hnone.2⟩
  · exact Or.inr (Or.inl ⟨i, a, c, by rw [hvisit, ← hs]; rfl, hi, ha, hc, hpass⟩)
  · exact Or.inr (Or.inr ⟨e, by rw [hvisit]; rfl, hbad⟩)

end Models

end LibEzmb
