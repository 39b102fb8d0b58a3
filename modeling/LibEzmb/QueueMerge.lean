import LibEzmb.QueueLiving

/-! `e_queue_merge` on named queues: when the two are different it moves the elements of the one
behind those of the other, and when they are the same it goes round for ever, unless there is
nothing to move. -/

open CHeap Runs

namespace LibEzmb.Queues

variable {ι σ : Type} [DecidableEq ι]

namespace QueueSystem

omit [DecidableEq ι] in
/-- `!e_queue_empty(sq)` -/
def mergeMore (sq : ι) (s : QueueSystem ι σ) : Except Fault Bool := do
  let q ← s.lookup sq
  .ok !(← eQueueEmpty s.heap q)

/-- `e_queue_push(dq, e_queue_pop(sq))`. The structure of `dq` is read after the pop, which may have
changed it. -/
def mergeRound (M : Malloc EQnode) (dq sq : ι) (s : QueueSystem ι σ) :
    Except Fault (QueueSystem ι σ) := do
  let q ← s.lookup sq
  let (h, q, data) ← eQueuePop s.heap q
  let s := s.update sq h q
  let d ← s.lookup dq
  let (h, d) ← eQueuePush M s.heap d data
  .ok (s.update dq h d)

def eQueueMerge (M : Malloc EQnode) (dq sq : ι) (rounds : Nat) (s : QueueSystem ι σ) :
    Except Fault (QueueSystem ι σ × Int) := do
  let s ← whileLoop (mergeMore sq) (mergeRound M dq sq) rounds s
  let d ← s.lookup dq
  .ok (s, eQueueSize d)

/-- A round of the loop is a pop and a push. -/
theorem mergeRound_of_steps {M : Malloc EQnode} {dq sq : ι} {s t u : QueueSystem ι σ} {data : Ptr}
    (hpop : s.step (.pop sq) = .ok (t, .data data))
    (hpush : t.step (.push dq M data) = .ok (u, .unit)) : mergeRound M dq sq s = .ok u := by
  obtain ⟨q, hlookup, hrest⟩ := bind_eq_ok hpop
  obtain ⟨⟨h, q', d⟩, hq, hout⟩ := bind_eq_ok hrest
  cases hout
  obtain ⟨d, hlookup', hrest'⟩ := bind_eq_ok hpush
  obtain ⟨⟨h', d'⟩, hd, hout'⟩ := bind_eq_ok hrest'
  cases hout'
  simp only [mergeRound, hlookup, hq, ok_bind, hlookup', hd]

end QueueSystem

/-! ### The lists while the loop runs -/

/-- The lists after the elements of one queue have been moved behind those of another. -/
def ListSystem.merged (a : ListSystem ι σ) (dq sq : ι) (d q : ListQueue) : ListSystem ι σ :=
  (a.update sq { q with elems := [] }).update dq { d with elems := d.elems ++ q.elems }

omit [DecidableEq ι] in
theorem Stands.more {s : QueueSystem ι σ} {a : ListSystem ι σ} (hstands : Stands s a) {sq : ι}
    {q : ListQueue} (hq : a.queue sq = some q) :
    QueueSystem.mergeMore sq s = .ok !q.elems.isEmpty := by
  obtain ⟨q', hlookup, -, -, hholds, -⟩ := hstands.lookup hq
  rw [QueueSystem.mergeMore, hlookup, ok_bind, hholds.empty, ok_bind]

/-- One round of the loop: the first element of `sq` goes behind the last one of `dq`, which may be
the same queue. -/
theorem Stands.round {s : QueueSystem ι σ} {a : ListSystem ι σ} (hstands : Stands s a)
    (M : Malloc EQnode) {dq sq : ι} {x : Ptr} {xs : List Ptr} {c : Int} {d : ListQueue}
    (hsq : a.queue sq = some ⟨x :: xs, c⟩)
    (hdq : (a.update sq ⟨xs, c⟩).queue dq = some d) :
    ∃ t, QueueSystem.mergeRound M dq sq s = .ok t ∧
      Stands t ((a.update sq ⟨xs, c⟩).update dq { d with elems := d.elems ++ [x] }) := by
  have hpop : a.step (.pop sq) = .ok (a.update sq ⟨xs, c⟩, .data x) := by
    simp [ListSystem.step, ListSystem.lookup_of_queue hsq]
  obtain ⟨t, ht, hstands'⟩ := hstands.step hpop
  have hpush : (a.update sq ⟨xs, c⟩).step (.push dq M x) =
      .ok ((a.update sq ⟨xs, c⟩).update dq { d with elems := d.elems ++ [x] }, .unit) := by
    simp [ListSystem.step, ListSystem.lookup_of_queue hdq]
  obtain ⟨u, hu, hstands''⟩ := hstands'.step hpush
  exact ⟨u, QueueSystem.mergeRound_of_steps ht hu, hstands''⟩

/-! ### Two different queues -/

/-- While the loop runs: what is left in `sq`, and what `dq` has got so far. -/
def Moving (a : ListSystem ι σ) (dq sq : ι) (d q : ListQueue) (rest acc : List Ptr)
    (s : QueueSystem ι σ) : Prop :=
  Stands s ((a.update sq { q with elems := rest }).update dq { d with elems := acc })

theorem Moving.source {a : ListSystem ι σ} {dq sq : ι} (hne : dq ≠ sq) (d q : ListQueue) :
    ((a.update sq q).update dq d).queue sq = some q := by
  rw [ListSystem.update_queue_of_ne _ hne.symm, ListSystem.update_queue_self]

theorem Moving.round {a : ListSystem ι σ} {dq sq : ι} {d q : ListQueue} (hne : dq ≠ sq)
    (M : Malloc EQnode) {x : Ptr} {rest acc : List Ptr} {s : QueueSystem ι σ}
    (hmoving : Moving a dq sq d q (x :: rest) acc s) :
    ∃ t, QueueSystem.mergeRound M dq sq s = .ok t ∧ Moving a dq sq d q rest (acc ++ [x]) t := by
  have hswap : ∀ l, ((a.update sq { q with elems := x :: rest }).update dq
      { d with elems := acc }).update sq l = (a.update sq l).update dq { d with elems := acc } := by
    intro l
    rw [ListSystem.update_comm _ hne, ListSystem.update_update]
  obtain ⟨t, ht, hstands⟩ := Stands.round hmoving M (Moving.source hne _ _)
    (by rw [hswap]; exact ListSystem.update_queue_self ..)
  refine ⟨t, ht, ?_⟩
  rwa [hswap, ListSystem.update_update] at hstands

/-- Merging two different queues ends, within as many rounds as `sq` has elements. -/
theorem Stands.merge {s : QueueSystem ι σ} {a : ListSystem ι σ} (hstands : Stands s a)
    (M : Malloc EQnode) {dq sq : ι} {d q : ListQueue} (hne : dq ≠ sq) (hd : a.queue dq = some d)
    (hq : a.queue sq = some q) {rounds : Nat} (hrounds : q.elems.length ≤ rounds) :
    ∃ t, QueueSystem.eQueueMerge M dq sq rounds s =
        .ok (t, d.elems.length + q.elems.length) ∧ Stands t (a.merged dq sq d q) := by
  have hstart : Moving a dq sq d q q.elems d.elems s := by
    rw [Moving, ListSystem.update_same hq, ListSystem.update_same hd]
    exact hstands
  obtain ⟨t, hloop, hend⟩ := whileLoop_foldl (QueueSystem.mergeMore sq)
    (QueueSystem.mergeRound M dq sq) (Moving a dq sq d q) (fun acc x => acc ++ [x])
    (fun acc s hs => Stands.more hs (Moving.source hne _ _))
    (fun x rest acc s hs => ⟨Stands.more hs (Moving.source hne _ _), hs.round hne M⟩)
    q.elems rounds d.elems s hrounds hstart
  have hfold : q.elems.foldl (fun acc x => acc ++ [x]) d.elems = d.elems ++ q.elems := by
    rw [List.foldl_append_eq_append, ← List.flatMap_def, List.flatMap_singleton']
  rw [hfold] at hend
  obtain ⟨d', hlookup, -, -, hholds, -⟩ := Stands.lookup hend (ListSystem.update_queue_self ..)
  refine ⟨t, ?_, hend⟩
  rw [QueueSystem.eQueueMerge, hloop, ok_bind, hlookup, ok_bind, hholds.size,
    List.length_append, Int.natCast_add]

/-! ### A queue merged into itself -/

/-- A queue that is not empty is merged into itself without end: each round takes an element from
its front and puts it back behind the last one. -/
theorem Stands.merge_self {s : QueueSystem ι σ} {a : ListSystem ι σ} (hstands : Stands s a)
    (M : Malloc EQnode) {i : ι} {q : ListQueue} (hq : a.queue i = some q) (hne : q.elems ≠ [])
    (rounds : Nat) : QueueSystem.eQueueMerge M i i rounds s = .error .unbounded := by
  have hloop : whileLoop (QueueSystem.mergeMore i) (QueueSystem.mergeRound M i i) rounds s =
      .error .unbounded := by
    refine whileLoop_endless _ _
      (fun s => ∃ b x xs c, Stands s b ∧ b.queue i = some ⟨x :: xs, c⟩) ?_ rounds s ?_
    · rintro s ⟨b, x, xs, c, hs, hb⟩
      obtain ⟨t, ht, hnext⟩ := hs.round M hb (ListSystem.update_queue_self ..)
      rw [ListSystem.update_update] at hnext
      obtain ⟨y, ys, hys⟩ := List.exists_cons_of_ne_nil (List.append_ne_nil_of_right_ne_nil xs
        (List.cons_ne_nil x []))
      refine ⟨hs.more hb, t, ht, _, y, ys, c, hnext, ?_⟩
      rw [ListSystem.update_queue_self, hys]
    · obtain ⟨elems, c⟩ := q
      obtain ⟨x, xs, rfl⟩ := List.exists_cons_of_ne_nil hne
      exact ⟨a, x, xs, c, hstands, hq⟩
  rw [QueueSystem.eQueueMerge, hloop, error_bind]

/-- With nothing to move a merge leaves everything as it is. -/
theorem Stands.merge_empty {s : QueueSystem ι σ} {a : ListSystem ι σ} (hstands : Stands s a)
    (M : Malloc EQnode) {dq sq : ι} {d : EQueue} {q : ListQueue} (hd : s.lookup dq = .ok d)
    (hq : a.queue sq = some q) (hempty : q.elems = []) (rounds : Nat) :
    QueueSystem.eQueueMerge M dq sq rounds s = .ok (s, eQueueSize d) := by
  have hmore : QueueSystem.mergeMore sq s = .ok false := by
    rw [hstands.more hq, hempty]
    rfl
  rw [QueueSystem.eQueueMerge, whileLoop_of_false hmore, ok_bind, hd, ok_bind]

/-- The merge ends. Different queues are left as `dq` followed by `sq` and as the empty queue, and
the answer is the sum of their sizes; a queue merged into itself keeps its elements and their
number. -/
def Merges (M : Malloc EQnode) (dq sq : ι) (d q : ListQueue) (s : QueueSystem ι σ) : Prop :=
  ∃ rounds t n b, QueueSystem.eQueueMerge M dq sq rounds s = .ok (t, n) ∧ Stands t b ∧
    (dq ≠ sq → b.queue dq = some { d with elems := d.elems ++ q.elems } ∧
      b.queue sq = some { q with elems := [] } ∧ n = d.elems.length + q.elems.length) ∧
    (dq = sq → ∃ l, b.queue dq = some l ∧ l.elems.Perm d.elems ∧ n = d.elems.length)

/-- **Merge terminates and conserves.** Merging initialised queues ends, and does what it is for,
exactly when the queues are different or there is nothing to move. -/
theorem merge_conserves_iff {s : QueueSystem ι σ} {a : ListSystem ι σ} (hstands : Stands s a)
    (M : Malloc EQnode) {dq sq : ι} {d q : ListQueue} (hd : a.queue dq = some d)
    (hq : a.queue sq = some q) : Merges M dq sq d q s ↔ dq ≠ sq ∨ q.elems = [] := by
  constructor
  · rintro ⟨rounds, t, n, b, hmerge, -⟩
    by_contra hcond
    rw [not_or, not_not] at hcond
    obtain ⟨rfl, hne⟩ := hcond
    rw [hstands.merge_self M hq hne rounds] at hmerge
    cases hmerge
  · intro hcond
    by_cases hne : dq = sq
    · subst hne
      have hempty := hcond.resolve_left (not_not_intro rfl)
      obtain ⟨d', hlookup, -, -, hholds, -⟩ := hstands.lookup hd
      exact ⟨0, s, _, a, hstands.merge_empty M hlookup hq hempty 0, hstands,
        fun h => absurd rfl h, fun _ => ⟨d, hd, List.Perm.refl _, hholds.size⟩⟩
    · obtain ⟨t, hmerge, hend⟩ := hstands.merge M hne hd hq le_rfl
      exact ⟨_, t, _, _, hmerge, hend,
        fun _ => ⟨ListSystem.update_queue_self .., Moving.source hne _ _, rfl⟩,
        fun h => absurd h hne⟩

/-! ### From the start -/

/-- Every run on queues that were set up first leads to a state that stands for the lists which the
run on lists leads to. -/
theorem stands_of_scoped {ops : List (QueueOp ι σ)} (hscoped : Scoped (fun _ => False) ops)
    (client : σ) :
    ∃ s a outs, exec QueueSystem.step (QueueSystem.start client) ops = .ok (s, outs) ∧
      exec ListSystem.step (ListSystem.start client) ops = .ok (a, outs) ∧ Stands s a := by
  obtain ⟨a, outs, hlists⟩ := hscoped.exec (a := ListSystem.start client) (fun _ h => h.elim)
  obtain ⟨s, hexec, hstands⟩ := exec_refines (f := QueueSystem.step) (g := ListSystem.step) Stands
    (fun _ _ _ _ _ hs hstep => hs.step hstep) (Stands.start client) hlists
  exact ⟨s, a, outs, hexec, hlists, hstands⟩

/-- A queue of one element. -/
def oneQueue : List (QueueOp Unit Unit) :=
  [.init () (Malloc.bump ⟨none, none⟩) 0, .push () (Malloc.bump ⟨none, none⟩) (some 7)]

theorem oneQueue_stands :
    ∃ s a outs, exec QueueSystem.step (QueueSystem.start ()) oneQueue = .ok (s, outs) ∧
      Stands s a ∧ a.queue () = some ⟨[some 7], 0⟩ := by
  have hscoped : Scoped (fun _ => False) oneQueue := by
    simp [oneQueue, Scoped, QueueOp.target, QueueOp.isInit]
  obtain ⟨s, a, outs, hexec, hlists, hstands⟩ := stands_of_scoped hscoped ()
  refine ⟨s, a, outs, hexec, hstands, ?_⟩
  cases hlists
  rfl

/-- The queue of one element, merged into itself: the law asks for an end. -/
theorem merge_conserves_iff_one :
    ∃ (s : QueueSystem Unit Unit) (a : ListSystem Unit Unit), Stands s a ∧
      (Merges (Malloc.bump ⟨none, none⟩) () () ⟨[some 7], 0⟩ ⟨[some 7], 0⟩ s ↔
        (() ≠ () ∨ [some 7] = ([] : List Ptr))) := by
  obtain ⟨s, a, outs, -, hstands, hq⟩ := oneQueue_stands
  exact ⟨s, a, hstands, merge_conserves_iff hstands (Malloc.bump ⟨none, none⟩) hq hq⟩

/-- It does not come to one in any number of rounds. -/
theorem oneQueue_merge_endless :
    ∃ (s : QueueSystem Unit Unit) (outs : List QueueOut),
      exec QueueSystem.step (QueueSystem.start ()) oneQueue = .ok (s, outs) ∧
      ∀ rounds, QueueSystem.eQueueMerge (Malloc.bump ⟨none, none⟩) () () rounds s =
        .error .unbounded := by
  obtain ⟨s, a, outs, hexec, hstands, hq⟩ := oneQueue_stands
  refine ⟨s, outs, hexec, fun rounds => ?_⟩
  exact hstands.merge_self (Malloc.bump ⟨none, none⟩) hq (List.cons_ne_nil _ _) rounds

end LibEzmb.Queues
