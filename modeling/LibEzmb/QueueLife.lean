import LibEzmb.QueueMerge

/-! Calls on queues that may have been destroyed. `e_queue_push`, `e_queue_pop` and `e_queue_size`
guard for the null pointers that `e_queue_destroy` leaves; the calls that go through
`e_queue_empty` do not. -/

open CHeap Runs

namespace LibEzmb.Queues

variable {ι σ : Type}

/-- A call of the queue's interface. -/
inductive QueueCall (ι σ : Type) where
  | op (op : QueueOp ι σ)
  | merge (dq sq : ι) (M : Malloc EQnode)
  | destroy (i : ι)

namespace QueueSystem

/-- What `e_queue_foreach` shows of a queue. -/
def elements (s : QueueSystem ι σ) (i : ι) : Except Fault (List Ptr) := do
  let q ← s.lookup i
  eQueueForeach s.heap q [] fun l data => l ++ [data]

variable [DecidableEq ι]

def call (s : QueueSystem ι σ) : QueueCall ι σ → Except Fault (QueueSystem ι σ × QueueOut)
  | .op op => s.step op
  | .merge dq sq M => do
      let (s, n) ← eQueueMerge M dq sq s.heap.bound s
      .ok (s, .size n)
  | .destroy i => do
      let q ← s.lookup i
      let (h, q, freed) ← eQueueDestroy s.heap q
      .ok (s.update i h q, .freed freed)

theorem call_merge {s t : QueueSystem ι σ} {dq sq : ι} {M : Malloc EQnode} {n : Int}
    (hmerge : eQueueMerge M dq sq s.heap.bound s = .ok (t, n)) :
    s.call (.merge dq sq M) = .ok (t, .size n) := by
  rw [call, hmerge, ok_bind]

theorem call_destroy {s : QueueSystem ι σ} {i : ι} {q q' : EQueue} {h : QHeap} {freed : List Ptr}
    (hlookup : s.lookup i = .ok q) (hdestroy : eQueueDestroy s.heap q = .ok (h, q', freed)) :
    s.call (.destroy i) = .ok (s.update i h q', .freed freed) := by
  rw [call, hlookup, ok_bind, hdestroy, ok_bind]

end QueueSystem

/-! ### What is asked of a call -/

/-- The operations that do not read through `top`, or check it first. -/
def QueueOp.guards : QueueOp ι σ → Bool
  | .init .. | .push .. | .pop _ | .size _ => true
  | .clear _ | .empty _ | .foreach .. => false

/-- The answer of an empty queue. -/
def QueueOp.onEmpty : QueueOp ι σ → QueueOut
  | .init .. | .push .. | .foreach .. => .unit
  | .pop _ => .data none
  | .clear _ => .freed []
  | .size _ => .size 0
  | .empty _ => .empty true

namespace QueueCall

/-- Every queue is initialised once, before it is used, and only different queues are merged. -/
def Allowed (s : QueueSystem ι σ) : QueueCall ι σ → Prop
  | .op o => if o.isInit then s.queue o.target = none else s.queue o.target ≠ none
  | .merge dq sq _ => dq ≠ sq ∧ s.queue dq ≠ none ∧ s.queue sq ≠ none
  | .destroy i => s.queue i ≠ none

/-- A destroyed queue answers as an empty one and stays as it is, and a merge into a destroyed queue
leaves the elements of the source where they are. -/
def Answers (s : QueueSystem ι σ) (t : QueueSystem ι σ) (out : QueueOut) : QueueCall ι σ → Prop
  | .op o => s.Destroyed o.target → t = s ∧ out = o.onEmpty
  | .merge dq sq _ => (s.Destroyed sq → t = s) ∧ (s.Destroyed dq → t.elements sq = s.elements sq)
  | .destroy i => s.Destroyed i → t = s ∧ out = .freed []

/-- The call follows no null pointer and answers as it should. -/
def Safe [DecidableEq ι] (s : QueueSystem ι σ) (c : QueueCall ι σ) : Prop :=
  ∃ t out, s.call c = .ok (t, out) ∧ c.Answers s t out

/-- The queues that the call reads through have not been destroyed, and a merge into a destroyed
queue has nothing to move. -/
def Spares (s : QueueSystem ι σ) : QueueCall ι σ → Prop
  | .op o => s.Destroyed o.target → o.guards = true
  | .merge dq sq _ => ¬s.Destroyed sq ∧ (s.Destroyed dq → s.elements sq = .ok [])
  | .destroy i => ¬s.Destroyed i

end QueueCall

/-! ### A destroyed queue -/

namespace Stands

variable {s t : QueueSystem ι σ} {a : ListSystem ι σ} {i : ι} {l : ListQueue}

theorem elements (hstands : Stands s a) (hl : a.queue i = some l) : s.elements i = .ok l.elems := by
  obtain ⟨q, hlookup, -, -, ⟨dummy, nodes, hrep, hnodes⟩, -⟩ := hstands.lookup hl
  rw [QueueSystem.elements, hlookup, ok_bind, hrep.foreach_spec, hnodes,
    List.foldl_append_eq_append, ← List.flatMap_def, List.flatMap_singleton', List.nil_append]

/-- An initialised queue has been destroyed, or it has its list. -/
theorem destroyed_or (hstands : Stands s a) (hq : s.queue i ≠ none) :
    s.Destroyed i ∨ ¬s.Destroyed i ∧ ∃ l, a.queue i = some l := by
  obtain ⟨q, hq⟩ := Option.ne_none_iff_exists'.mp hq
  by_cases htop : q.top = none
  · exact Or.inl ⟨q, hq, htop⟩
  · refine Or.inr ⟨?_, hstands.queue_of_top hq htop⟩
    rintro ⟨r, hr, hnull⟩
    rw [hq, Option.some.injEq] at hr
    exact htop (hr ▸ hnull)

theorem destroyed (hstands : Stands s a) (hdead : s.Destroyed i) :
    ∃ q, s.lookup i = .ok q ∧ s.queue i = some q ∧ q.top = none ∧ q.rear = none ∧ q.size = 0 := by
  obtain ⟨q, hq, htop⟩ := hdead
  obtain ⟨hrear, hsize⟩ := hstands.dead i q hq htop
  exact ⟨q, by rw [QueueSystem.lookup, hq], hq, htop, hrear, hsize⟩

end Stands

theorem eQueueEmpty_destroyed {q : EQueue} (htop : q.top = none) (h : QHeap) :
    eQueueEmpty h q = .error .nullDeref := by
  rw [eQueueEmpty, htop]
  rfl

theorem clearLoop_destroyed {q : EQueue} (htop : q.top = none) (h : QHeap) :
    clearLoop h q = .error .nullDeref := by
  have hmore : clearMore (h, q, []) = .error .nullDeref := by
    rw [clearMore, eQueueEmpty_destroyed htop]
    rfl
  unfold clearLoop
  cases h.bound <;> simp only [whileLoop, hmore, error_bind]

section Calls

variable [DecidableEq ι] {s t : QueueSystem ι σ} {a : ListSystem ι σ} {i : ι}

theorem QueueSystem.update_same {q : EQueue} (hq : s.queue i = some q) :
    s.update i s.heap q = s := by
  simp only [QueueSystem.update, ← hq, Function.update_eq_self]

/-- On a destroyed queue the operations that guard answer as on an empty one, and the others follow
the null pointer. -/
theorem Stands.step_destroyed (hstands : Stands s a) {op : QueueOp ι σ} (hinit : op.isInit = false)
    (hdead : s.Destroyed op.target) :
    s.step op = if op.guards then .ok (s, op.onEmpty) else .error .nullDeref := by
  obtain ⟨q, hlookup, hq, htop, hrear, hsize⟩ := hstands.destroyed hdead
  cases op with
  | init => cases hinit
  | push i M data =>
      have hpush : eQueuePush M s.heap q data = .ok (s.heap, q) := if_pos (Or.inl hrear)
      simp only [QueueOp.target] at hlookup hq
      simp only [QueueSystem.step, hlookup, hpush, ok_bind, QueueSystem.update_same hq]
      rfl
  | pop i =>
      have hpop : eQueuePop s.heap q = .ok (s.heap, q, none) := if_pos (Or.inl hrear)
      simp only [QueueOp.target] at hlookup hq
      simp only [QueueSystem.step, hlookup, hpop, ok_bind, QueueSystem.update_same hq]
      rfl
  | clear i =>
      simp only [QueueOp.target] at hlookup
      simp only [QueueSystem.step, hlookup, eQueueClear, clearLoop_destroyed htop, ok_bind,
        error_bind]
      rfl
  | size i =>
      simp only [QueueOp.target] at hlookup
      simp only [QueueSystem.step, hlookup, eQueueSize, hsize, ok_bind]
      rfl
  | empty i =>
      simp only [QueueOp.target] at hlookup
      simp only [QueueSystem.step, hlookup, eQueueEmpty_destroyed htop, ok_bind, error_bind]
      rfl
  | foreach i callback =>
      simp only [QueueOp.target] at hlookup
      simp only [QueueSystem.step, hlookup, eQueueForeach, eQueueEmpty_destroyed htop, ok_bind,
        error_bind]
      rfl

/-- An operation touches no other queue. -/
theorem QueueSystem.step_frame {op : QueueOp ι σ} {out : QueueOut}
    (hstep : s.step op = .ok (t, out)) {j : ι} (hj : j ≠ op.target) : t.queue j = s.queue j := by
  cases op <;> simp only [QueueSystem.step] at hstep
  case init => cases hstep; exact Function.update_of_ne hj ..
  case push | pop | clear =>
    obtain ⟨q, -, hrest⟩ := bind_eq_ok hstep
    obtain ⟨r, -, hout⟩ := bind_eq_ok hrest
    cases hout
    exact Function.update_of_ne hj ..
  case size =>
    obtain ⟨q, -, hout⟩ := bind_eq_ok hstep
    cases hout
    rfl
  case empty | foreach =>
    obtain ⟨q, -, hrest⟩ := bind_eq_ok hstep
    obtain ⟨r, -, hout⟩ := bind_eq_ok hrest
    cases hout
    rfl

/-- On an initialised queue that has not been destroyed every operation goes through. -/
theorem Stands.step_living (hstands : Stands s a) {op : QueueOp ι σ}
    (htarget : (a.queue op.target).isSome ∨ op.isInit = true) :
    ∃ t out b, s.step op = .ok (t, out) ∧ Stands t b := by
  obtain ⟨b, out, hlists, -⟩ := ListSystem.step_total htarget
  obtain ⟨t, ht, hnext⟩ := hstands.step hlists
  exact ⟨t, out, b, ht, hnext⟩

/-! ### Merging with a destroyed queue -/

/-- A destroyed source is read through its null pointer. -/
theorem Stands.merge_from_destroyed (hstands : Stands s a) (M : Malloc EQnode) (dq : ι) {sq : ι}
    (hdead : s.Destroyed sq) (rounds : Nat) :
    QueueSystem.eQueueMerge M dq sq rounds s = .error .nullDeref := by
  obtain ⟨q, hlookup, -, htop, -⟩ := hstands.destroyed hdead
  have hmore : QueueSystem.mergeMore sq s = .error .nullDeref := by
    rw [QueueSystem.mergeMore, hlookup, ok_bind, eQueueEmpty_destroyed htop, error_bind]
  unfold QueueSystem.eQueueMerge
  cases rounds <;> simp only [whileLoop, hmore, error_bind]

/-- Into a destroyed queue the elements of the source are popped one by one, and every push of them
is ignored. -/
theorem Stands.merge_into_destroyed (hstands : Stands s a) (M : Malloc EQnode) {dq sq : ι}
    (hne : dq ≠ sq) (hdead : s.Destroyed dq) {q : ListQueue} (hq : a.queue sq = some q)
    {rounds : Nat} (hrounds : q.elems.length ≤ rounds) :
    ∃ t n, QueueSystem.eQueueMerge M dq sq rounds s = .ok (t, n) ∧
      Stands t (a.update sq { q with elems := [] }) := by
  obtain ⟨d, -, hd, htop, -⟩ := hstands.destroyed hdead
  obtain ⟨t, hloop, hend, hdt⟩ := whileLoop_foldl (QueueSystem.mergeMore sq)
    (QueueSystem.mergeRound M dq sq)
    (fun rest (_ : Unit) t =>
      Stands t (a.update sq { q with elems := rest }) ∧ t.queue dq = some d)
    (fun _ _ => ()) (fun _ t ht => ht.1.more (ListSystem.update_queue_self ..))
    (fun x rest _ t ⟨ht, hdt⟩ => by
      have hsq : (a.update sq { q with elems := x :: rest }).queue sq = _ :=
        ListSystem.update_queue_self ..
      have hpop : (a.update sq { q with elems := x :: rest }).step (.pop sq) =
          .ok (a.update sq { q with elems := rest }, .data x) := by
        simp [ListSystem.step, ListSystem.lookup_of_queue hsq]
      obtain ⟨u, hu, hnext⟩ := ht.step hpop
      have hdu : u.queue dq = some d := (QueueSystem.step_frame hu hne).trans hdt
      have hpush : u.step (.push dq M x) = .ok (u, .unit) :=
        hnext.step_destroyed rfl ⟨d, hdu, htop⟩
      exact ⟨ht.more hsq, u, QueueSystem.mergeRound_of_steps hu hpush, hnext, hdu⟩)
    q.elems rounds () s hrounds ⟨by rwa [ListSystem.update_same hq], hd⟩
  refine ⟨t, eQueueSize d, ?_, hend⟩
  rw [QueueSystem.eQueueMerge, hloop, ok_bind, QueueSystem.lookup, hdt]
  rfl

/-! ### Every call -/

omit [DecidableEq ι] in
theorem QueueCall.Allowed.target {op : QueueOp ι σ} (hallowed : (QueueCall.op op).Allowed s) :
    op.isInit = true ∧ ¬s.Destroyed op.target ∨ op.isInit = false ∧ s.queue op.target ≠ none := by
  by_cases hinit : op.isInit = true
  · refine Or.inl ⟨hinit, ?_⟩
    rintro ⟨q, hq, -⟩
    rw [QueueCall.Allowed, if_pos hinit, hq] at hallowed
    cases hallowed
  · rw [QueueCall.Allowed, if_neg hinit] at hallowed
    exact Or.inr ⟨Bool.eq_false_iff.mpr hinit, hallowed⟩

/-- An allowed call that meets the condition goes through, answers as it should and keeps the
correspondence with lists. -/
theorem Stands.call_spares (hstands : Stands s a) {c : QueueCall ι σ} (hallowed : c.Allowed s)
    (hspares : c.Spares s) :
    ∃ t out b, s.call c = .ok (t, out) ∧ c.Answers s t out ∧ Stands t b := by
  cases c with
  | op o =>
      rcases hallowed.target with ⟨hinit, hlive⟩ | ⟨hinit, hq⟩
      · obtain ⟨t, out, b, hstep, hnext⟩ := hstands.step_living (Or.inr hinit)
        exact ⟨t, out, b, hstep, fun hdead => absurd hdead hlive, hnext⟩
      · rcases hstands.destroyed_or hq with hdead | ⟨hlive, l, hl⟩
        · have hstep := hstands.step_destroyed hinit hdead
          rw [if_pos (hspares hdead)] at hstep
          exact ⟨s, _, a, hstep, fun _ => ⟨rfl, rfl⟩, hstands⟩
        · obtain ⟨t, out, b, hstep, hnext⟩ :=
            hstands.step_living (Or.inl (Option.isSome_iff_exists.mpr ⟨l, hl⟩))
          exact ⟨t, out, b, hstep, fun hdead => absurd hdead hlive, hnext⟩
  | merge dq sq M =>
      obtain ⟨hne, hdq, hsq⟩ := hallowed
      obtain ⟨hsource, hempty⟩ := hspares
      obtain ⟨-, q, hq⟩ := (hstands.destroyed_or hsq).resolve_left hsource
      rcases hstands.destroyed_or hdq with hdead | ⟨hlive, d, hd⟩
      · obtain ⟨d, hlookup, -⟩ := hstands.destroyed hdead
        have helems : q.elems = [] := by
          have hnil := hempty hdead
          rw [hstands.elements hq] at hnil
          exact Except.ok.inj hnil
        have hmerge := hstands.merge_empty M hlookup hq helems s.heap.bound
        exact ⟨s, _, a, QueueSystem.call_merge hmerge, ⟨fun _ => rfl, fun _ => rfl⟩, hstands⟩
      · obtain ⟨t, hmerge, hnext⟩ := hstands.merge M hne hd hq (hstands.length_le_bound hq)
        exact ⟨t, _, _, QueueSystem.call_merge hmerge,
          ⟨fun hdead => absurd hdead hsource, fun hdead => absurd hdead hlive⟩, hnext⟩
  | destroy i =>
      obtain ⟨-, l, hl⟩ := (hstands.destroyed_or hallowed).resolve_left hspares
      obtain ⟨q, h, q', hlookup, hdestroy, -, hnext⟩ := hstands.destroy hl
      exact ⟨_, _, _, QueueSystem.call_destroy hlookup hdestroy,
        fun hdead => absurd hdead hspares, hnext⟩

/-- An allowed call that does not meet the condition follows a null pointer or discards elements. -/
theorem Stands.spares_of_safe (hstands : Stands s a) {c : QueueCall ι σ} (hallowed : c.Allowed s)
    (hsafe : c.Safe s) : c.Spares s := by
  obtain ⟨t, out, hcall, hanswers⟩ := hsafe
  cases c with
  | op o =>
      intro hdead
      rcases hallowed.target with ⟨-, hlive⟩ | ⟨hinit, -⟩
      · exact absurd hdead hlive
      · by_contra hguards
        have hstep := hstands.step_destroyed hinit hdead
        rw [if_neg hguards] at hstep
        cases hstep.symm.trans hcall
  | merge dq sq M =>
      obtain ⟨hne, hdq, hsq⟩ := hallowed
      have hsource : ¬s.Destroyed sq := by
        intro hdead
        simp only [QueueSystem.call, hstands.merge_from_destroyed M dq hdead, error_bind] at hcall
        cases hcall
      refine ⟨hsource, fun hdead => ?_⟩
      obtain ⟨-, q, hq⟩ := (hstands.destroyed_or hsq).resolve_left hsource
      obtain ⟨u, n, hmerge, hnext⟩ :=
        hstands.merge_into_destroyed M hne hdead hq (hstands.length_le_bound hq)
      rw [QueueSystem.call_merge hmerge] at hcall
      cases hcall
      rw [← hanswers.2 hdead, hnext.elements (ListSystem.update_queue_self ..)]
  | destroy i =>
      intro hdead
      obtain ⟨q, hlookup, -, htop, -⟩ := hstands.destroyed hdead
      simp only [QueueSystem.call, hlookup, eQueueDestroy, clearLoop_destroyed htop, ok_bind,
        error_bind] at hcall
      cases hcall

/-- **A destroyed queue is safe to touch.** In a run of calls on queues that are each initialised
once, every call follows no null pointer and treats destroyed queues as empty ones exactly when every
call spares the destroyed queues: none is emptied, tested, walked or destroyed again, none is the
source of a merge, and none is merged into unless there is nothing to move. -/
theorem destroyed_safe_iff (client : σ) (calls : List (QueueCall ι σ))
    (hallowed : Along QueueSystem.call (fun s c => c.Allowed s) (QueueSystem.start client) calls) :
    Along QueueSystem.call (fun s c => c.Safe s) (QueueSystem.start client) calls ↔
      Along QueueSystem.call (fun s c => c.Spares s) (QueueSystem.start client) calls := by
  have hiff : ∀ (s : QueueSystem ι σ) (c : QueueCall ι σ), (∃ a, Stands s a) → c.Allowed s →
      (c.Safe s ↔ c.Spares s) := by
    rintro s c ⟨a, hstands⟩ hc
    refine ⟨hstands.spares_of_safe hc, fun hspares => ?_⟩
    obtain ⟨t, out, -, hcall, hanswers, -⟩ := hstands.call_spares hc hspares
    exact ⟨t, out, hcall, hanswers⟩
  refine Along.iff_of hiff ?_ ⟨_, Stands.start client⟩ hallowed
  rintro s c t out ⟨a, hstands⟩ hc hsafe hcall
  obtain ⟨u, out', b, hcall', -, hnext⟩ :=
    hstands.call_spares hc (hstands.spares_of_safe hc hsafe)
  rw [hcall, Except.ok.injEq, Prod.mk.injEq] at hcall'
  exact ⟨b, hcall'.1 ▸ hnext⟩

end Calls

/-! ### Two queues -/

/-- Two queues, an element in the first one, and the second one destroyed. -/
def halfDestroyed : List (QueueCall Bool Unit) :=
  [.op (.init true (Malloc.bump ⟨none, none⟩) 0), .op (.init false (Malloc.bump ⟨none, none⟩) 0),
    .op (.push true (Malloc.bump ⟨none, none⟩) (some 7)), .destroy false]

theorem halfDestroyed_allowed {calls : List (QueueCall Bool Unit)}
    (hcalls : ∀ s, s.queue true ≠ none → s.queue false ≠ none →
      Along QueueSystem.call (fun s c => c.Allowed s) s calls) :
    Along QueueSystem.call (fun s c => c.Allowed s) (QueueSystem.start ())
      (halfDestroyed ++ calls) := by
  have hsome : ∀ q : EQueue, some q ≠ none := Option.some_ne_none
  have hnew : (none : Option EQueue) = none := rfl
  exact Along.cons_ok rfl hnew <| Along.cons_ok rfl hnew <| Along.cons_ok rfl (hsome _) <|
    Along.cons_ok rfl (hsome _) (hcalls _ (hsome _) (hsome _))

/-- A pop from the destroyed queue. -/
theorem destroyed_safe_iff_pop :
    Along QueueSystem.call (fun s c => c.Safe s) (QueueSystem.start ())
        (halfDestroyed ++ [.op (.pop false)]) ↔
      Along QueueSystem.call (fun s c => c.Spares s) (QueueSystem.start ())
        (halfDestroyed ++ [.op (.pop false)]) :=
  destroyed_safe_iff () _ (halfDestroyed_allowed fun _ _ hq => ⟨hq, fun _ _ _ => trivial⟩)

/-- Testing the destroyed queue follows its null pointer, and merging the other one into it leaves
the element in neither. -/
theorem halfDestroyed_unsafe :
    (Along QueueSystem.call (fun s c => c.Allowed s) (QueueSystem.start ())
        (halfDestroyed ++ [.op (.empty false)]) ∧
      exec QueueSystem.call (QueueSystem.start ()) (halfDestroyed ++ [.op (.empty false)]) =
        .error .nullDeref) ∧
      Along QueueSystem.call (fun s c => c.Allowed s) (QueueSystem.start ())
        (halfDestroyed ++ [.merge false true (Malloc.bump ⟨none, none⟩)]) ∧
      ∃ s outs, exec QueueSystem.call (QueueSystem.start ())
          (halfDestroyed ++ [.merge false true (Malloc.bump ⟨none, none⟩)]) = .ok (s, outs) ∧
        s.elements true = .ok [] ∧ outs.getLast? = some (.size 0) :=
  ⟨⟨halfDestroyed_allowed fun _ _ hq => ⟨hq, fun _ _ _ => trivial⟩, rfl⟩,
    halfDestroyed_allowed fun _ hs hd => ⟨⟨Bool.false_ne_true, hd, hs⟩, fun _ _ _ => trivial⟩,
    _, _, rfl, rfl, rfl⟩

end LibEzmb.Queues
