import LibEzmb.QueuePair
import LibEzmb.QueueRefinement

/-! Queues next to queues that have been destroyed. `e_queue_destroy` leaves a structure with null
pointers behind; the queues that still have their dummy node stand for lists as before. -/

open CHeap Runs

namespace LibEzmb.Queues

variable {ι σ : Type}

/-! ### The lists -/

namespace ListSystem

variable [DecidableEq ι] {a : ListSystem ι σ} {i j : ι}

/-- The lists without the one of a queue that is destroyed. -/
def remove (a : ListSystem ι σ) (i : ι) : ListSystem ι σ :=
  { a with queue := Function.update a.queue i none }

omit [DecidableEq ι] in
theorem lookup_of_queue {l : ListQueue} (hl : a.queue i = some l) : a.lookup i = .ok l := by
  rw [lookup, hl]

@[simp] theorem update_queue_self (a : ListSystem ι σ) (i : ι) (l : ListQueue) :
    (a.update i l).queue i = some l := Function.update_self ..

theorem update_queue_of_ne (a : ListSystem ι σ) (hne : j ≠ i) (l : ListQueue) :
    (a.update i l).queue j = a.queue j := Function.update_of_ne hne ..

@[simp] theorem update_update (a : ListSystem ι σ) (i : ι) (l m : ListQueue) :
    (a.update i l).update i m = a.update i m := by
  simp only [update, Function.update_idem]

theorem update_comm (a : ListSystem ι σ) (hne : i ≠ j) (l m : ListQueue) :
    (a.update i l).update j m = (a.update j m).update i l := by
  simp only [update, Function.update_comm hne]

theorem update_same {l : ListQueue} (hl : a.queue i = some l) : a.update i l = a := by
  simp only [update, ← hl, Function.update_eq_self]

end ListSystem

/-! ### What is left of a destroyed queue -/

namespace QueueSystem

/-- The queues that have not been destroyed. -/
def living (s : QueueSystem ι σ) : QueueSystem ι σ :=
  { s with queue := fun i => (s.queue i).filter fun q => q.top.isSome }

/-- The structure of a name is there, and its pointers are null. -/
def Destroyed (s : QueueSystem ι σ) (i : ι) : Prop := ∃ q, s.queue i = some q ∧ q.top = none

variable {s : QueueSystem ι σ} {i : ι} {q : EQueue}

theorem living_queue (hq : s.living.queue i = some q) : s.queue i = some q ∧ q.top ≠ none := by
  obtain ⟨hsome, htop⟩ := Option.filter_eq_some_iff.mp hq
  exact ⟨hsome, Option.isSome_iff_ne_none.mp htop⟩

theorem living_queue_of_top (hq : s.queue i = some q) (htop : q.top ≠ none) :
    s.living.queue i = some q :=
  Option.filter_eq_some_iff.mpr ⟨hq, Option.isSome_iff_ne_none.mpr htop⟩

theorem lookup_of_living (hlookup : s.living.lookup i = .ok q) : s.lookup i = .ok q := by
  unfold lookup at hlookup
  split at hlookup
  · cases hlookup
  · next r hr =>
      cases hlookup
      rw [lookup, (living_queue hr).1]

variable [DecidableEq ι]

theorem update_queue_cases {h : QHeap} {j : ι} {r : EQueue}
    (hr : (s.update i h q).queue j = some r) : r = q ∧ j = i ∨ s.queue j = some r := by
  by_cases hj : j = i
  · simp only [update, hj, Function.update_self, Option.some.injEq] at hr
    exact Or.inl ⟨hr.symm, hj⟩
  · simp only [update, Function.update_of_ne hj] at hr
    exact Or.inr hr

theorem living_update (h : QHeap) (htop : q.top ≠ none) :
    (s.update i h q).living = s.living.update i h q := by
  simp only [living, update, mk.injEq, true_and, and_true]
  funext j
  by_cases hj : j = i
  · subst hj
    simp [Option.isSome_iff_ne_none.mpr htop]
  · simp [hj]

theorem living_update_destroyed (h : QHeap) (htop : q.top = none) :
    (s.update i h q).living =
      { s.living with heap := h, queue := Function.update s.living.queue i none } := by
  simp only [living, update, mk.injEq, true_and, and_true]
  funext j
  by_cases hj : j = i
  · subst hj
    simp [htop]
  · simp [hj]

end QueueSystem

/-- The queues that have not been destroyed stand for these lists, and the others have neither a
tail nor a size. -/
structure Stands (s : QueueSystem ι σ) (a : ListSystem ι σ) : Prop where
  lists : ∃ chain : Chains ι, Refines s.living chain a
  dead : ∀ i q, s.queue i = some q → q.top = none → q.rear = none ∧ q.size = 0

namespace Stands

variable {s : QueueSystem ι σ} {a b : ListSystem ι σ} {i : ι} {l : ListQueue}

theorem start (client : σ) :
    Stands (QueueSystem.start client : QueueSystem ι σ) (ListSystem.start client) where
  lists := ⟨fun _ => ((0, none), []), refines_start client _⟩
  dead _ _ hq := by cases hq

theorem lookup (hstands : Stands s a) (hl : a.queue i = some l) :
    ∃ q, s.lookup i = .ok q ∧ s.queue i = some q ∧ q.top ≠ none ∧ Holds s.heap q l.elems ∧
      q.constData = l.constData := by
  obtain ⟨chain, href⟩ := hstands.lists
  obtain ⟨q, hlookup, hq, hrep, rfl⟩ := href.lookup (ListSystem.lookup_of_queue hl)
  obtain ⟨hq, htop⟩ := QueueSystem.living_queue hq
  exact ⟨q, QueueSystem.lookup_of_living hlookup, hq, htop, ⟨_, _, hrep, rfl⟩, rfl⟩

/-- A queue with a dummy node has its list. -/
theorem queue_of_top (hstands : Stands s a) {q : EQueue} (hq : s.queue i = some q)
    (htop : q.top ≠ none) : ∃ l, a.queue i = some l := by
  obtain ⟨chain, href⟩ := hstands.lists
  have hlist := href.lists i
  rw [QueueSystem.living_queue_of_top hq htop] at hlist
  exact ⟨_, hlist⟩

theorem length_le_bound (hstands : Stands s a) (hl : a.queue i = some l) :
    l.elems.length ≤ s.heap.bound := by
  obtain ⟨q, -, -, -, hholds, -⟩ := hstands.lookup hl
  exact hholds.length_le_bound

variable [DecidableEq ι]

/-- A living queue that is replaced by a well-formed one leaves the destroyed ones alone. -/
theorem update_of_living {chain : Chains ι} {i : ι} {h : QHeap} {q : EQueue}
    (href : Refines (s.living.update i h q) chain b) :
    (s.update i h q).living = s.living.update i h q ∧
      ∀ j r, (s.update i h q).queue j = some r → r.top = none → s.queue j = some r := by
  have htop : q.top ≠ none := by
    rw [(href.shape.rep i q (Function.update_self ..)).top_eq]
    exact Option.some_ne_none _
  refine ⟨QueueSystem.living_update h htop, fun j r hr hnull => ?_⟩
  rcases QueueSystem.update_queue_cases hr with ⟨rfl, -⟩ | hr
  · exact absurd hnull htop
  · exact hr

/-- An operation that goes through on the living queues goes through, and changes no more. -/
theorem step_of_living {t : QueueSystem ι σ} {chain : Chains ι} {op : QueueOp ι σ} {out : QueueOut}
    (hstep : s.living.step op = .ok (t, out)) (href : Refines t chain b) :
    ∃ u, s.step op = .ok (u, out) ∧ u.living = t ∧
      ∀ j q, u.queue j = some q → q.top = none → s.queue j = some q := by
  cases op with
  | init i M constData =>
      cases hstep
      exact ⟨_, rfl, update_of_living href⟩
  | push i M data =>
      obtain ⟨q, hlookup, hrest⟩ := bind_eq_ok hstep
      obtain ⟨⟨h, q'⟩, hpush, hout⟩ := bind_eq_ok hrest
      cases hout
      exact ⟨_, by simp [QueueSystem.step, QueueSystem.lookup_of_living hlookup,
        show eQueuePush M s.heap q data = _ from hpush], update_of_living href⟩
  | pop i =>
      obtain ⟨q, hlookup, hrest⟩ := bind_eq_ok hstep
      obtain ⟨⟨h, q', data⟩, hpop, hout⟩ := bind_eq_ok hrest
      cases hout
      exact ⟨_, by simp [QueueSystem.step, QueueSystem.lookup_of_living hlookup,
        show eQueuePop s.heap q = _ from hpop], update_of_living href⟩
  | clear i =>
      obtain ⟨q, hlookup, hrest⟩ := bind_eq_ok hstep
      obtain ⟨⟨h, q', freed⟩, hclear, hout⟩ := bind_eq_ok hrest
      cases hout
      exact ⟨_, by simp [QueueSystem.step, QueueSystem.lookup_of_living hlookup,
        show eQueueClear s.heap q = _ from hclear], update_of_living href⟩
  | size i =>
      obtain ⟨q, hlookup, hout⟩ := bind_eq_ok hstep
      cases hout
      exact ⟨s, by simp [QueueSystem.step, QueueSystem.lookup_of_living hlookup], rfl,
        fun _ _ hr _ => hr⟩
  | empty i =>
      obtain ⟨q, hlookup, hrest⟩ := bind_eq_ok hstep
      obtain ⟨e, hempty, hout⟩ := bind_eq_ok hrest
      cases hout
      exact ⟨s, by simp [QueueSystem.step, QueueSystem.lookup_of_living hlookup,
        show eQueueEmpty s.heap q = _ from hempty], rfl, fun _ _ hr _ => hr⟩
  | foreach i callback =>
      obtain ⟨q, hlookup, hrest⟩ := bind_eq_ok hstep
      obtain ⟨client, hforeach, hout⟩ := bind_eq_ok hrest
      cases hout
      exact ⟨{ s with client := client }, by
        simp [QueueSystem.step, QueueSystem.lookup_of_living hlookup,
          show eQueueForeach s.heap q s.client callback = _ from hforeach], rfl,
        fun _ _ hr _ => hr⟩

/-- Every operation on lists is matched by the operation on the queue, whatever has been destroyed
next to it. -/
theorem step {op : QueueOp ι σ} {out : QueueOut} (hstands : Stands s a)
    (hstep : a.step op = .ok (b, out)) : ∃ t, s.step op = .ok (t, out) ∧ Stands t b := by
  obtain ⟨chain, href⟩ := hstands.lists
  obtain ⟨t, hliving, chain', href'⟩ := href.step hstep
  obtain ⟨u, hu, rfl, hdead⟩ := step_of_living hliving href'
  exact ⟨u, hu, ⟨chain', href'⟩, fun j q hq htop => hstands.dead j q (hdead j q hq htop) htop⟩

/-- Destroying a queue takes its list away and gives its elements to `free`, unless they are
constant data. -/
theorem destroy (hstands : Stands s a) (hl : a.queue i = some l) :
    ∃ q h q', s.lookup i = .ok q ∧
      eQueueDestroy s.heap q = .ok (h, q', if l.constData = 0 then l.elems else []) ∧
      q'.top = none ∧ Stands (s.update i h q') (a.remove i) := by
  obtain ⟨chain, href⟩ := hstands.lists
  obtain ⟨q, hlookup, hq, hrep, rfl⟩ := href.lookup (ListSystem.lookup_of_queue hl)
  obtain ⟨h, hdestroy, hagree⟩ := hrep.destroy_spec
  refine ⟨q, h, _, QueueSystem.lookup_of_living hlookup, hdestroy, rfl, ⟨chain, ?_⟩, ?_⟩
  · rw [QueueSystem.living_update_destroyed h rfl]
    have hother : ∀ j r, Function.update s.living.queue i none j = some r →
        j ≠ i ∧ s.living.queue j = some r := by
      intro j r hr
      by_cases hj : j = i
      · subst hj
        rw [Function.update_self] at hr
        cases hr
      · rw [Function.update_of_ne hj] at hr
        exact ⟨hj, hr⟩
    refine ⟨⟨fun j r hr => ?_, fun j k r t hne hr ht => ?_⟩, fun j => ?_, href.client⟩
    · obtain ⟨hj, hr⟩ := hother j r hr
      exact (href.shape.rep j r hr).congr fun c hc =>
        (href.shape.kept hj hr (touchable_owned hq) hagree hc).2
    · exact href.shape.apart j k r t hne (hother j r hr).2 (hother k t ht).2
    · by_cases hj : j = i
      · subst hj
        simp [ListSystem.remove]
      · simp [ListSystem.remove, hj, href.lists j]
  · intro j r hr htop
    rcases QueueSystem.update_queue_cases hr with ⟨rfl, -⟩ | hr
    · exact ⟨rfl, rfl⟩
    · exact hstands.dead j r hr htop

end Stands

end LibEzmb.Queues
