import LibEzmb.QueueShape

/-! Two queues on one heap that share no node and exchange elements: what each operation on the one
does while the other stays as it is. -/

open CHeap

namespace LibEzmb

/-- The two queues hold these data pointers, in nodes of their own. -/
def QueuePair (h : QHeap) (p t : EQueue) (ps ts : List Ptr) : Prop :=
  ∃ pd pn td tn, QueueRep h p pd pn ∧ QueueRep h t td tn ∧
    (footprint pd pn).Disjoint (footprint td tn) ∧ pn.map Prod.snd = ps ∧ tn.map Prod.snd = ts

/-- One queue holds these data pointers. -/
def Holds (h : QHeap) (q : EQueue) (ps : List Ptr) : Prop :=
  ∃ dummy nodes, QueueRep h q dummy nodes ∧ nodes.map Prod.snd = ps

namespace Holds

variable {h : QHeap} {q : EQueue} {ps : List Ptr}

theorem empty (hholds : Holds h q ps) : eQueueEmpty h q = .ok ps.isEmpty := by
  obtain ⟨dummy, nodes, hrep, rfl⟩ := hholds
  rw [hrep.empty_spec]
  cases nodes <;> rfl

theorem push (M : Malloc EQnode) (hholds : Holds h q ps) (data : Ptr) :
    ∃ h' q', eQueuePush M h q data = .ok (h', q') ∧ Holds h' q' (ps ++ [data]) := by
  obtain ⟨dummy, nodes, hrep, rfl⟩ := hholds
  obtain ⟨h', q', hpush, hrep', -, -⟩ := hrep.push_spec M data
  exact ⟨h', q', hpush, dummy, _, hrep', by simp⟩

theorem pop {x : Ptr} (hholds : Holds h q (x :: ps)) :
    ∃ h' q', eQueuePop h q = .ok (h', q', x) ∧ Holds h' q' ps := by
  obtain ⟨dummy, nodes, hrep, hnodes⟩ := hholds
  cases nodes with
  | nil => cases hnodes
  | cons y nodes =>
      rw [List.map_cons, List.cons.injEq] at hnodes
      obtain ⟨h', q', hpop, hrep', -, -⟩ := hrep.pop_cons_spec
      exact ⟨h', q', by rw [hpop, hnodes.1], dummy, nodes, hrep', hnodes.2⟩

theorem size (hholds : Holds h q ps) : eQueueSize q = ps.length := by
  obtain ⟨dummy, nodes, hrep, rfl⟩ := hholds
  rw [eQueueSize, hrep.size, List.length_map]

theorem length_le_bound (hholds : Holds h q ps) : ps.length ≤ h.bound := by
  obtain ⟨dummy, nodes, hrep, rfl⟩ := hholds
  rw [List.length_map]
  exact hrep.length_le_bound

theorem map_length_le_bound {α : Type} {f : α → Ptr} {xs : List α} (hholds : Holds h q (xs.map f)) :
    xs.length ≤ h.bound := by
  have hle := hholds.length_le_bound
  rwa [List.length_map] at hle

/-- A loop over the nodes visits the data pointers. -/
theorem walk_eq (hholds : Holds h q ps) :
    ∃ top, h.deref q.top = .ok top ∧
      ∀ {σ : Type} (body : σ → Ptr → Except Fault (σ × Bool)) (s : σ),
        walk h body h.bound top.next s = visit body ps s := by
  obtain ⟨dummy, nodes, hrep, rfl⟩ := hholds
  have hbound := hrep.length_le_bound
  obtain ⟨htop, next, hcell, hrest⟩ := hrep.links
  refine ⟨⟨dummy.2, next⟩, ?_, fun body s => walk_eq_visit body _ s hrest hbound⟩
  rw [htop, Heap.deref_of_cell hcell]

end Holds

namespace QueuePair

variable {h : QHeap} {p t : EQueue} {ps ts : List Ptr}

theorem symm (hpair : QueuePair h p t ps ts) : QueuePair h t p ts ps := by
  obtain ⟨pd, pn, td, tn, hp, ht, hdisj, hps, hts⟩ := hpair
  exact ⟨td, tn, pd, pn, ht, hp, fun _ ha ha' => hdisj ha' ha, hts, hps⟩

theorem left (hpair : QueuePair h p t ps ts) : Holds h p ps := by
  obtain ⟨pd, pn, td, tn, hp, -, -, hps, -⟩ := hpair
  exact ⟨pd, pn, hp, hps⟩

/-- A queue set up next to another one. -/
theorem init (M : Malloc EQnode) (constData : Int) (hholds : Holds h p ps) :
    QueuePair (eQueueInit M h constData).1 p (eQueueInit M h constData).2 ps [] := by
  obtain ⟨pd, pn, hp, hps⟩ := hholds
  have hne : ∀ a ∈ footprint pd pn, a ≠ M.addr h := by
    rintro a ha rfl
    obtain ⟨n, hn⟩ := hp.live ha
    rw [M.fresh h] at hn
    cases hn
  refine ⟨pd, pn, _, [], hp.congr fun a ha => ?_, QueueRep.init_spec M h constData, ?_, hps, rfl⟩
  · simp [eQueueInit, hne a ha]
  · intro a ha ha'
    rw [footprint, List.map_singleton, List.mem_singleton] at ha'
    exact hne a ha ha'

theorem pop {x : Ptr} (hpair : QueuePair h p t (x :: ps) ts) :
    ∃ h' p', eQueuePop h p = .ok (h', p', x) ∧ QueuePair h' p' t ps ts := by
  obtain ⟨pd, pn, td, tn, hp, ht, hdisj, hps, hts⟩ := hpair
  cases pn with
  | nil => cases hps
  | cons y pn =>
      rw [List.map_cons, List.cons.injEq] at hps
      obtain ⟨h', p', hpop, hp', -, hagree⟩ := hp.pop_cons_spec
      refine ⟨h', p', by rw [hpop, hps.1], pd, pn, td, tn, hp', ?_, ?_, hps.2, hts⟩
      · exact ht.congr fun a ha => hagree a fun ha' => hdisj ha' ha
      · intro a ha ha'
        apply hdisj _ ha'
        simp only [footprint, List.map_cons, List.mem_cons] at ha ⊢
        rcases ha with ha | ha
        · exact Or.inl ha
        · exact Or.inr (Or.inr ha)

theorem push (M : Malloc EQnode) (hpair : QueuePair h p t ps ts) (x : Ptr) :
    ∃ h' p', eQueuePush M h p x = .ok (h', p') ∧ QueuePair h' p' t (ps ++ [x]) ts := by
  obtain ⟨pd, pn, td, tn, hp, ht, hdisj, hps, hts⟩ := hpair
  obtain ⟨h', p', hpush, hp', -, hagree⟩ := hp.push_spec M x
  have hne : ∀ a ∈ footprint td tn, a ≠ M.addr h := by
    rintro a ha rfl
    obtain ⟨n, hn⟩ := ht.live ha
    rw [M.fresh h] at hn
    cases hn
  refine ⟨h', p', hpush, pd, pn ++ [(M.addr h, x)], td, tn, hp', ?_, ?_, by simp [hps], hts⟩
  · refine ht.congr fun a ha => hagree a fun ha' => ?_
    rcases List.mem_cons.mp ha' with ha' | ha'
    · exact hne a ha ha'
    · exact hdisj ha' ha
  · intro a ha ha'
    simp only [footprint, List.map_cons, List.map_append, List.map_nil, List.mem_cons,
      List.mem_append, List.not_mem_nil, or_false] at ha
    rcases ha with ha | ha | ha
    · exact hdisj (by simp [footprint, ha]) ha'
    · exact hdisj (by simp only [footprint, List.map_cons, List.mem_cons]; exact Or.inr ha) ha'
    · exact hne a ha' ha

/-- Destroying the second queue once it is empty. -/
theorem destroy (hpair : QueuePair h p t ps []) :
    ∃ h' t' freed, eQueueDestroy h t = .ok (h', t', freed) ∧ Holds h' p ps := by
  obtain ⟨pd, pn, td, tn, hp, ht, hdisj, hps, -⟩ := hpair
  obtain ⟨h', hdestroy, hagree⟩ := ht.destroy_spec
  exact ⟨h', _, _, hdestroy, pd, pn, hp.congr fun a ha => hagree a fun ha' => hdisj ha ha', hps⟩

end QueuePair

end LibEzmb
