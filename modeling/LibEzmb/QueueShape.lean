import LibEzmb.QueueModel

/-! The shape of a queue in the heap and one specification for each operation: what it answers,
what chain it leaves, and that it touches no cell outside the chain. -/

open CHeap

namespace LibEzmb

/-- The queue's chain is `dummy` followed by `nodes` and ends; `rear` is its last node and `size`
counts the nodes behind the dummy. -/
structure QueueRep (h : QHeap) (q : EQueue) (dummy : Addr × Ptr) (nodes : List (Addr × Ptr)) :
    Prop where
  links : Seg h q.top (dummy :: nodes) none
  rear : q.rear = some ((dummy :: nodes).getLast (List.cons_ne_nil _ _)).1
  size : q.size = nodes.length

/-- The addresses a queue owns. -/
def footprint (dummy : Addr × Ptr) (nodes : List (Addr × Ptr)) : List Addr :=
  (dummy :: nodes).map Prod.fst

namespace QueueRep

variable {h h' : QHeap} {q : EQueue} {dummy x : Addr × Ptr} {nodes : List (Addr × Ptr)}

theorem top_eq (hrep : QueueRep h q dummy nodes) : q.top = some dummy.1 := hrep.links.1

theorem rear_ne_none (hrep : QueueRep h q dummy nodes) : q.rear ≠ none := by
  rw [hrep.rear]
  exact Option.some_ne_none _

theorem guard (hrep : QueueRep h q dummy nodes) : ¬(q.rear = none ∨ q.top = none) := by
  rintro (hrear | htop)
  · exact hrep.rear_ne_none hrear
  · rw [hrep.top_eq] at htop
    cases htop

theorem live (hrep : QueueRep h q dummy nodes) {a : Addr} (ha : a ∈ footprint dummy nodes) :
    ∃ n, h.cell a = some n := by
  obtain ⟨y, hy, rfl⟩ := List.mem_map.mp ha
  obtain ⟨next, hcell⟩ := hrep.links.live hy
  exact ⟨_, hcell⟩

theorem length_le_bound (hrep : QueueRep h q dummy nodes) : nodes.length ≤ h.bound :=
  (Nat.le_succ _).trans hrep.links.length_le_bound

/-- A queue does not depend on cells it does not own. -/
theorem congr (hrep : QueueRep h q dummy nodes)
    (hsame : ∀ a ∈ footprint dummy nodes, h'.cell a = h.cell a) : QueueRep h' q dummy nodes where
  links := hrep.links.congr fun y hy => hsame y.1 (List.mem_map_of_mem hy)
  rear := hrep.rear
  size := hrep.size

theorem empty_spec (hrep : QueueRep h q dummy nodes) :
    eQueueEmpty h q = .ok nodes.isEmpty := by
  obtain ⟨htop, next, hcell, hrest⟩ := hrep.links
  simp only [eQueueEmpty, htop, Heap.deref_of_cell hcell, ok_bind]
  cases nodes with
  | nil => rw [Seg.nil_iff] at hrest; simp [hrest]
  | cons y nodes => simp [hrest.1]

theorem init_spec (M : Malloc EQnode) (h : QHeap) (constData : Int) :
    QueueRep (eQueueInit M h constData).1 (eQueueInit M h constData).2
      (M.addr h, (M.junk h).data) [] where
  links := by simp [eQueueInit]
  rear := rfl
  size := rfl

theorem push_spec (M : Malloc EQnode) (hrep : QueueRep h q dummy nodes) (data : Ptr) :
    ∃ h' q', eQueuePush M h q data = .ok (h', q') ∧
      QueueRep h' q' dummy (nodes ++ [(M.addr h, data)]) ∧ q'.constData = q.constData ∧
      h.AgreeOff (M.addr h :: footprint dummy nodes) h' := by
  set last := (dummy :: nodes).getLast (List.cons_ne_nil _ _) with hlast
  have hsplit : (dummy :: nodes).dropLast ++ [last] = dummy :: nodes :=
    List.dropLast_append_getLast _
  have hseg := hrep.links
  rw [← hsplit] at hseg
  obtain ⟨r, -, -, next, hcell, hnext⟩ := Seg.append_iff.mp hseg
  have hnull : next = none := hnext
  subst hnull
  have hne : last.1 ≠ M.addr h := hseg.ne_of_free (M.fresh h) last (by simp)
  have hcell' : (h.set (M.addr h) ⟨data, none⟩).cell last.1 = some ⟨last.2, none⟩ := by
    simp [hne, hcell]
  refine ⟨(h.set (M.addr h) ⟨data, none⟩).set last.1 ⟨last.2, some (M.addr h)⟩,
    { q with rear := some (M.addr h), size := q.size + 1 }, ?_, ⟨?_, ?_, ?_⟩, rfl, ?_⟩
  · rw [eQueuePush, if_neg hrep.guard, hrep.rear, ← hlast]
    simp only [Heap.deref_of_cell hcell', Heap.store_of_cell hcell', ok_bind]
  · have hext := hseg.extend (M.addr h, data) (M.fresh h)
    rw [hsplit] at hext
    exact hext
  · simp
  · simp [hrep.size]
  · intro a ha
    simp only [List.mem_cons, not_or] at ha
    have hal : a ≠ last.1 := fun heq =>
      ha.2 (heq ▸ List.mem_map_of_mem (List.getLast_mem _))
    simp [ha.1, hal]

theorem pop_nil_spec (hrep : QueueRep h q dummy []) : eQueuePop h q = .ok (h, q, none) := by
  obtain ⟨htop, next, hcell, hnext⟩ := hrep.links
  have hnull : next = none := hnext
  subst hnull
  rw [eQueuePop, if_neg hrep.guard, htop]
  simp only [Heap.deref_of_cell hcell, ok_bind]

theorem pop_cons_spec (hrep : QueueRep h q dummy (x :: nodes)) :
    ∃ h' q', eQueuePop h q = .ok (h', q', x.2) ∧ QueueRep h' q' dummy nodes ∧
      q'.constData = q.constData ∧ h.AgreeOff (footprint dummy (x :: nodes)) h' := by
  have hnodup := hrep.links.nodup
  obtain ⟨htop, n, hcell, rfl, next, hnext, hrest⟩ := hrep.links
  have hne : x.1 ≠ dummy.1 := by
    simp only [List.map_cons, List.nodup_cons, List.mem_cons, not_or] at hnodup
    exact fun heq => hnodup.1.1 heq.symm
  have hcell' : (h.set dummy.1 ⟨dummy.2, next⟩).cell x.1 = some ⟨x.2, next⟩ := by
    simp [hne, hnext]
  refine ⟨(h.set dummy.1 ⟨dummy.2, next⟩).drop x.1,
    { q with rear := if q.rear = some x.1 then q.top else q.rear, size := q.size - 1 },
    ?_, ⟨?_, ?_, ?_⟩, rfl, ?_⟩
  · rw [eQueuePop, if_neg hrep.guard, htop]
    simp only [Heap.deref_of_cell hcell, Heap.deref_of_cell hnext, Heap.store_of_cell hcell,
      Heap.release_of_cell hcell', ok_bind]
    split <;> simp [htop]
  · exact hrep.links.unlink hnext
  · -- the rear falls back to the dummy exactly when the last node goes
    simp only [hrep.rear, htop]
    cases nodes with
    | nil => simp
    | cons y nodes =>
        have hlast : ((y :: nodes).getLast (List.cons_ne_nil _ _)).1 ≠ x.1 := by
          simp only [List.map_cons, List.nodup_cons] at hnodup
          intro heq
          apply hnodup.2.1
          rw [← heq, ← List.map_cons]
          exact List.mem_map_of_mem (List.getLast_mem _)
        simp only [List.getLast_cons_cons, Option.some.injEq, if_neg hlast]
  · simp [hrep.size]
  · intro a ha
    simp only [footprint, List.map_cons, List.mem_cons, not_or] at ha
    simp [ha.1, ha.2.1]

/-- While the loop of `e_queue_clear` runs: the nodes that are left, the data that has been freed,
and what has not been touched. -/
structure Clearing (h : QHeap) (q : EQueue) (dummy : Addr × Ptr) (nodes rest : List (Addr × Ptr))
    (freed : List Ptr) (s : ClearState) : Prop where
  rep : QueueRep s.1 s.2.1 dummy rest
  constData : s.2.1.constData = q.constData
  freed : s.2.2 = freed
  agree : h.AgreeOff (footprint dummy nodes) s.1
  left : rest ⊆ nodes

/-- What one round adds to the data that has been freed. -/
def freeing (q : EQueue) (freed : List Ptr) (x : Addr × Ptr) : List Ptr :=
  if q.constData = 0 then freed ++ [x.2] else freed

theorem Clearing.more {rest : List (Addr × Ptr)} {freed : List Ptr} {s : ClearState}
    (hs : Clearing h q dummy nodes rest freed s) : clearMore s = .ok !rest.isEmpty := by
  rw [clearMore, hs.rep.empty_spec, ok_bind]

theorem Clearing.round {rest : List (Addr × Ptr)} {freed : List Ptr} {s : ClearState}
    (hs : Clearing h q dummy nodes (x :: rest) freed s) :
    ∃ s', clearRound s = .ok s' ∧ Clearing h q dummy nodes rest (freeing q freed x) s' := by
  obtain ⟨h', q', hpop, hrep, hconst, hagree⟩ := hs.rep.pop_cons_spec
  have hsub : footprint dummy (x :: rest) ⊆ footprint dummy nodes :=
    List.map_subset _ (List.cons_subset_cons _ hs.left)
  refine ⟨(h', q', freeing q freed x), ?_, hrep, hconst.trans hs.constData, rfl,
    hs.agree.trans (hagree.mono hsub), fun y hy => hs.left (List.mem_cons_of_mem _ hy)⟩
  simp only [clearRound, hpop, ok_bind, hconst, hs.constData, hs.freed, freeing]

theorem foldl_freeing (q : EQueue) (nodes : List (Addr × Ptr)) :
    nodes.foldl (freeing q) [] = if q.constData = 0 then nodes.map Prod.snd else [] := by
  unfold freeing
  by_cases hconst : q.constData = 0
  · simp only [hconst, if_true, List.foldl_append_eq_append, List.nil_append]
    exact List.map_eq_flatMap.symm
  · simp only [hconst, if_false, List.foldl_fixed]

/-- The loop of `e_queue_clear` empties the queue and frees the data in order, unless the queue was
set up with constant data. -/
theorem clearLoop_spec (hrep : QueueRep h q dummy nodes) :
    ∃ h' q', clearLoop h q =
        .ok (h', q', if q.constData = 0 then nodes.map Prod.snd else []) ∧
      QueueRep h' q' dummy [] ∧ q'.constData = q.constData ∧
      h.AgreeOff (footprint dummy nodes) h' := by
  obtain ⟨⟨h', q', freed⟩, hloop, hend⟩ := whileLoop_foldl clearMore clearRound
    (Clearing h q dummy nodes) (freeing q) (fun _ _ hs => hs.more)
    (fun _ _ _ _ hs => ⟨hs.more, hs.round⟩) nodes h.bound [] (h, q, []) hrep.length_le_bound
    ⟨hrep, rfl, rfl, Heap.AgreeOff.refl _ _, List.Subset.refl _⟩
  have hfreed : freed = if q.constData = 0 then nodes.map Prod.snd else [] :=
    hend.freed.trans (foldl_freeing q nodes)
  refine ⟨h', q', ?_, hend.rep, hend.constData, hend.agree⟩
  rw [clearLoop, hloop, hfreed]

theorem clear_spec (hrep : QueueRep h q dummy nodes) :
    ∃ h' q', eQueueClear h q =
        .ok (h', q', if q.constData = 0 then nodes.map Prod.snd else []) ∧
      QueueRep h' q' dummy [] ∧ q'.constData = q.constData ∧
      h.AgreeOff (footprint dummy nodes) h' := by
  obtain ⟨h', q', hloop, hrep', hconst, hagree⟩ := hrep.clearLoop_spec
  refine ⟨h', { q' with size := 0 }, ?_, ⟨hrep'.links, hrep'.rear, rfl⟩, hconst, hagree⟩
  simp only [eQueueClear, hloop, ok_bind]

theorem destroy_spec (hrep : QueueRep h q dummy nodes) :
    ∃ h', eQueueDestroy h q =
        .ok (h', { q with top := none, rear := none, size := 0 },
          if q.constData = 0 then nodes.map Prod.snd else []) ∧
      h.AgreeOff (footprint dummy nodes) h' := by
  obtain ⟨h', q', hloop, hrep', hconst, hagree⟩ := hrep.clearLoop_spec
  obtain ⟨n, hcell⟩ := hrep'.live (List.mem_cons_self : dummy.1 ∈ footprint dummy [])
  refine ⟨h'.drop dummy.1, ?_, hagree.trans fun a ha => ?_⟩
  · simp [eQueueDestroy, hloop, hrep'.top_eq, Heap.release_of_cell hcell, hconst]
  · have hne : a ≠ dummy.1 := fun heq => ha (by simp [footprint, heq])
    simp [hne]

theorem foreach_spec {σ : Type} (hrep : QueueRep h q dummy nodes) (arg : σ)
    (callback : σ → Ptr → σ) :
    eQueueForeach h q arg callback = .ok ((nodes.map Prod.snd).foldl callback arg) := by
  have hempty := hrep.empty_spec
  have hbound := hrep.length_le_bound
  obtain ⟨htop, next, hcell, hrest⟩ := hrep.links
  rw [eQueueForeach, hempty, ok_bind]
  cases nodes with
  | nil => rfl
  | cons x nodes =>
      rw [htop, Heap.deref_of_cell hcell, ok_bind, walk_eq_visit _ _ _ hrest hbound,
        visit_eq_foldl (fun _ _ _ => rfl)]
      rfl

end QueueRep

end LibEzmb
