import LibEzmb.BaseRun
import LibEzmb.QueueShape

/-! Any number of queues on one heap refine as many lists: the invariant that the chains are
disjoint, and the simulation of every operation by the operation on lists. -/

open CHeap Runs

namespace LibEzmb.Queues

variable {ι σ : Type}

/-- Named queues on one heap, next to the state the callbacks of `foreach` act on. -/
structure QueueSystem (ι σ : Type) where
  heap : QHeap
  queue : ι → Option EQueue
  client : σ

inductive QueueOp (ι σ : Type) where
  | init (i : ι) (M : Malloc EQnode) (constData : Int)
  | push (i : ι) (M : Malloc EQnode) (data : Ptr)
  | pop (i : ι)
  | clear (i : ι)
  | size (i : ι)
  | empty (i : ι)
  | foreach (i : ι) (callback : σ → Ptr → σ)

/-- What an operation gives back: a popped pointer, a size, the emptiness test, or the data it gave
to `free`. -/
inductive QueueOut where
  | unit
  | data (p : Ptr)
  | size (n : Int)
  | empty (b : Bool)
  | freed (ps : List Ptr)
  deriving DecidableEq, Repr

variable [DecidableEq ι]

namespace QueueSystem

def start (client : σ) : QueueSystem ι σ := ⟨Heap.empty, fun _ => none, client⟩

/-- The queue of a name; a structure that was never initialised holds wild pointers. -/
def lookup (s : QueueSystem ι σ) (i : ι) : Except Fault EQueue :=
  match s.queue i with
  | none => .error .dangling
  | some q => .ok q

def update (s : QueueSystem ι σ) (i : ι) (h : QHeap) (q : EQueue) : QueueSystem ι σ :=
  { s with heap := h, queue := Function.update s.queue i (some q) }

def step (s : QueueSystem ι σ) : QueueOp ι σ → Except Fault (QueueSystem ι σ × QueueOut)
  | .init i M constData =>
      let r := eQueueInit M s.heap constData
      .ok (s.update i r.1 r.2, .unit)
  | .push i M data => do
      let q ← s.lookup i
      let (h, q) ← eQueuePush M s.heap q data
      .ok (s.update i h q, .unit)
  | .pop i => do
      let q ← s.lookup i
      let (h, q, data) ← eQueuePop s.heap q
      .ok (s.update i h q, .data data)
  | .clear i => do
      let q ← s.lookup i
      let (h, q, freed) ← eQueueClear s.heap q
      .ok (s.update i h q, .freed freed)
  | .size i => do
      let q ← s.lookup i
      .ok (s, .size (eQueueSize q))
  | .empty i => do
      let q ← s.lookup i
      let b ← eQueueEmpty s.heap q
      .ok (s, .empty b)
  | .foreach i callback => do
      let q ← s.lookup i
      let client ← eQueueForeach s.heap q s.client callback
      .ok ({ s with client := client }, .unit)

end QueueSystem

/-! ### The lists a client sees -/

/-- A queue as its client sees it. -/
structure ListQueue where
  elems : List Ptr
  constData : Int
  deriving DecidableEq, Repr

structure ListSystem (ι σ : Type) where
  queue : ι → Option ListQueue
  client : σ

namespace ListSystem

def start (client : σ) : ListSystem ι σ := ⟨fun _ => none, client⟩

def lookup (a : ListSystem ι σ) (i : ι) : Except Fault ListQueue :=
  match a.queue i with
  | none => .error .dangling
  | some l => .ok l

def update (a : ListSystem ι σ) (i : ι) (l : ListQueue) : ListSystem ι σ :=
  { a with queue := Function.update a.queue i (some l) }

/-- The operations on lists: `init` gives the empty list, `push` appends, `pop` takes the head and
answers the null pointer on the empty list, `clear` empties the list and frees its elements unless
they are constant data, and `foreach` folds the callback over the list. -/
def step (a : ListSystem ι σ) : QueueOp ι σ → Except Fault (ListSystem ι σ × QueueOut)
  | .init i _ constData => .ok (a.update i ⟨[], constData⟩, .unit)
  | .push i _ data => do
      let l ← a.lookup i
      .ok (a.update i { l with elems := l.elems ++ [data] }, .unit)
  | .pop i => do
      let l ← a.lookup i
      .ok (a.update i { l with elems := l.elems.tail }, .data (l.elems.head?.getD none))
  | .clear i => do
      let l ← a.lookup i
      .ok (a.update i { l with elems := [] }, .freed (if l.constData = 0 then l.elems else []))
  | .size i => do
      let l ← a.lookup i
      .ok (a, .size l.elems.length)
  | .empty i => do
      let l ← a.lookup i
      .ok (a, .empty l.elems.isEmpty)
  | .foreach i callback => do
      let l ← a.lookup i
      .ok ({ a with client := l.elems.foldl callback a.client }, .unit)

end ListSystem

/-! ### The invariant -/

/-- The chain of each name: its dummy and its data nodes. -/
abbrev Chains (ι : Type) := ι → (Addr × Ptr) × List (Addr × Ptr)

def Chains.owned (chain : Chains ι) (i : ι) : List Addr := footprint (chain i).1 (chain i).2

/-- Every initialised queue has its chain, and no two of them share a node. -/
structure Shape (s : QueueSystem ι σ) (chain : Chains ι) : Prop where
  rep : ∀ i q, s.queue i = some q → QueueRep s.heap q (chain i).1 (chain i).2
  apart : ∀ i j q r, i ≠ j → s.queue i = some q → s.queue j = some r →
    (chain.owned i).Disjoint (chain.owned j)

/-- The lists a state of the heap stands for. -/
structure Refines (s : QueueSystem ι σ) (chain : Chains ι) (a : ListSystem ι σ) : Prop where
  shape : Shape s chain
  lists : ∀ i, a.queue i = (s.queue i).map fun q => ⟨(chain i).2.map Prod.snd, q.constData⟩
  client : s.client = a.client

/-- Addresses an operation on queue `i` may touch: free ones and its own. -/
def Touchable (s : QueueSystem ι σ) (chain : Chains ι) (i : ι) (as : List Addr) : Prop :=
  ∀ a ∈ as, s.heap.cell a = none ∨ ∃ q, s.queue i = some q ∧ a ∈ chain.owned i

omit [DecidableEq ι] in
theorem Shape.kept {s : QueueSystem ι σ} {chain : Chains ι} (hshape : Shape s chain) {i j : ι}
    {q : EQueue} {as : List Addr} {h' : QHeap} (hne : j ≠ i) (hq : s.queue j = some q)
    (htouch : Touchable s chain i as) (hagree : s.heap.AgreeOff as h') {a : Addr}
    (ha : a ∈ chain.owned j) : a ∉ as ∧ h'.cell a = s.heap.cell a := by
  have hnot : a ∉ as := by
    intro hmem
    rcases htouch a hmem with hfree | ⟨r, hr, hown⟩
    · obtain ⟨n, hn⟩ := (hshape.rep j q hq).live ha
      rw [hn] at hfree
      cases hfree
    · exact hshape.apart j i q r hne hq hr ha hown
  exact ⟨hnot, hagree a hnot⟩

/-- An operation that rebuilds one queue out of touchable cells keeps the refinement. -/
theorem Refines.rebuild {s : QueueSystem ι σ} {chain : Chains ι} {a : ListSystem ι σ}
    (href : Refines s chain a) {i : ι} {as : List Addr} {h' : QHeap} {q' : EQueue}
    {dummy : Addr × Ptr} {nodes : List (Addr × Ptr)} (htouch : Touchable s chain i as)
    (hagree : s.heap.AgreeOff as h') (hrep : QueueRep h' q' dummy nodes)
    (hsub : footprint dummy nodes ⊆ as) :
    Refines (s.update i h' q') (Function.update chain i (dummy, nodes))
      (a.update i ⟨nodes.map Prod.snd, q'.constData⟩) where
  shape := by
    constructor
    · intro j r hr
      by_cases hji : j = i
      · subst hji
        simp only [QueueSystem.update, Function.update_self, Option.some.injEq] at hr ⊢
        rwa [← hr]
      · simp only [QueueSystem.update, Function.update_of_ne hji] at hr ⊢
        exact (href.shape.rep j r hr).congr fun b hb =>
          (href.shape.kept hji hr htouch hagree hb).2
    · intro j k r t hne hr ht
      simp only [QueueSystem.update] at hr ht
      by_cases hji : j = i
      · have hki : k ≠ i := fun heq => hne (hji.trans heq.symm)
        subst hji
        rw [Function.update_of_ne hki] at ht
        simp only [Chains.owned, Function.update_self, Function.update_of_ne hki]
        exact fun b hb hb' => (href.shape.kept hki ht htouch hagree hb').1 (hsub hb)
      · rw [Function.update_of_ne hji] at hr
        by_cases hki : k = i
        · subst hki
          simp only [Chains.owned, Function.update_self, Function.update_of_ne hji]
          exact fun b hb hb' => (href.shape.kept hji hr htouch hagree hb).1 (hsub hb')
        · rw [Function.update_of_ne hki] at ht
          simp only [Chains.owned, Function.update_of_ne hji, Function.update_of_ne hki]
          exact href.shape.apart j k r t hne hr ht
  lists j := by
    by_cases hji : j = i
    · subst hji
      simp [QueueSystem.update, ListSystem.update]
    · simp [QueueSystem.update, ListSystem.update, hji, href.lists j]
  client := href.client

omit [DecidableEq ι] in
theorem Refines.lookup {s : QueueSystem ι σ} {chain : Chains ι} {a : ListSystem ι σ}
    (href : Refines s chain a) {i : ι} {l : ListQueue} (hl : a.lookup i = .ok l) :
    ∃ q, s.lookup i = .ok q ∧ s.queue i = some q ∧ QueueRep s.heap q (chain i).1 (chain i).2 ∧
      l = ⟨(chain i).2.map Prod.snd, q.constData⟩ := by
  have hlist := href.lists i
  cases hq : s.queue i with
  | none =>
      rw [hq] at hlist
      simp only [ListSystem.lookup, hlist, Option.map_none] at hl
      cases hl
  | some q =>
      rw [hq] at hlist
      simp only [ListSystem.lookup, hlist, Option.map_some, Except.ok.injEq] at hl
      exact ⟨q, by simp [QueueSystem.lookup, hq], rfl, href.shape.rep i q hq, hl.symm⟩

omit [DecidableEq ι] in
theorem touchable_owned {s : QueueSystem ι σ} {chain : Chains ι} {i : ι} {q : EQueue}
    (hq : s.queue i = some q) : Touchable s chain i (chain.owned i) :=
  fun _ ha => Or.inr ⟨q, hq, ha⟩

omit [DecidableEq ι] in
theorem touchable_fresh {s : QueueSystem ι σ} {chain : Chains ι} {i : ι} {as : List Addr}
    (M : Malloc EQnode) (htouch : Touchable s chain i as) :
    Touchable s chain i (M.addr s.heap :: as) := by
  intro a ha
  rcases List.mem_cons.mp ha with rfl | ha
  · exact Or.inl (M.fresh _)
  · exact htouch a ha

/-! ### The simulation -/

/-- Every operation on lists is matched by the operation on the heap, with the same answer. -/
theorem Refines.step {s : QueueSystem ι σ} {chain : Chains ι} {a b : ListSystem ι σ}
    {op : QueueOp ι σ} {out : QueueOut} (href : Refines s chain a)
    (hstep : a.step op = .ok (b, out)) :
    ∃ t, s.step op = .ok (t, out) ∧ ∃ chain', Refines t chain' b := by
  cases op with
  | init i M constData =>
      cases hstep
      have htouch : Touchable s chain i [M.addr s.heap] :=
        touchable_fresh M fun a ha => absurd ha List.not_mem_nil
      refine ⟨_, rfl, _, href.rebuild htouch ?_ (QueueRep.init_spec M s.heap constData) ?_⟩
      · intro a ha
        rw [List.mem_singleton] at ha
        simp [eQueueInit, ha]
      · simp [footprint]
  | push i M data =>
      obtain ⟨l, hl, hrest⟩ := bind_eq_ok hstep
      obtain ⟨q, hlookup, hq, hrep, rfl⟩ := href.lookup hl
      cases hrest
      obtain ⟨h', q', hpush, hrep', hconst, hagree⟩ := hrep.push_spec M data
      have hnext := href.rebuild (touchable_fresh M (touchable_owned hq)) hagree hrep' (by
        simp [footprint, Chains.owned])
      rw [List.map_append, hconst] at hnext
      exact ⟨s.update i h' q', by simp [QueueSystem.step, hlookup, hpush], _, hnext⟩
  | pop i =>
      obtain ⟨l, hl, hrest⟩ := bind_eq_ok hstep
      obtain ⟨q, hlookup, hq, hrep, rfl⟩ := href.lookup hl
      cases hrest
      have htouch : Touchable s chain i (footprint (chain i).1 (chain i).2) := touchable_owned hq
      cases hnodes : (chain i).2 with
      | nil =>
          rw [hnodes] at hrep htouch
          have hpop := hrep.pop_nil_spec
          exact ⟨s.update i s.heap q, by simp [QueueSystem.step, hlookup, hpop], _,
            href.rebuild htouch (Heap.AgreeOff.refl _ _) hrep (List.Subset.refl _)⟩
      | cons x nodes =>
          rw [hnodes] at hrep htouch
          obtain ⟨h', q', hpop, hrep', hconst, hagree⟩ := hrep.pop_cons_spec
          have hnext := href.rebuild htouch hagree hrep' (by simp [footprint])
          rw [hconst] at hnext
          exact ⟨s.update i h' q', by simp [QueueSystem.step, hlookup, hpop], _, hnext⟩
  | clear i =>
      obtain ⟨l, hl, hrest⟩ := bind_eq_ok hstep
      obtain ⟨q, hlookup, hq, hrep, rfl⟩ := href.lookup hl
      cases hrest
      obtain ⟨h', q', hclear, hrep', hconst, hagree⟩ := hrep.clear_spec
      have hnext := href.rebuild (touchable_owned hq) hagree hrep' (by
        simp [footprint, Chains.owned])
      rw [hconst] at hnext
      exact ⟨s.update i h' q', by simp [QueueSystem.step, hlookup, hclear], _, hnext⟩
  | size i =>
      obtain ⟨l, hl, hrest⟩ := bind_eq_ok hstep
      obtain ⟨q, hlookup, hq, hrep, rfl⟩ := href.lookup hl
      cases hrest
      exact ⟨s, by simp [QueueSystem.step, hlookup, eQueueSize, hrep.size], chain, href⟩
  | empty i =>
      obtain ⟨l, hl, hrest⟩ := bind_eq_ok hstep
      obtain ⟨q, hlookup, hq, hrep, rfl⟩ := href.lookup hl
      cases hrest
      exact ⟨s, by simp [QueueSystem.step, hlookup, hrep.empty_spec], chain, href⟩
  | foreach i callback =>
      obtain ⟨l, hl, hrest⟩ := bind_eq_ok hstep
      obtain ⟨q, hlookup, hq, hrep, rfl⟩ := href.lookup hl
      cases hrest
      refine ⟨{ s with client := ((chain i).2.map Prod.snd).foldl callback s.client }, ?_, chain,
        ⟨href.shape.rep, href.shape.apart⟩, href.lists, ?_⟩
      · simp [QueueSystem.step, hlookup, hrep.foreach_spec]
      · rw [href.client]

/-! ### Runs -/

/-- The queue an operation works on. -/
def QueueOp.target : QueueOp ι σ → ι
  | .init i _ _ | .push i _ _ | .pop i | .clear i | .size i | .empty i | .foreach i _ => i

def QueueOp.isInit : QueueOp ι σ → Bool
  | .init .. => true
  | _ => false

/-- Every queue is set up by `e_queue_init` before it is used. -/
def Scoped (live : ι → Prop) : List (QueueOp ι σ) → Prop
  | [] => True
  | op :: ops => (live op.target ∨ op.isInit = true) ∧ Scoped (fun i => live i ∨ i = op.target) ops

theorem ListSystem.update_isSome (a : ListSystem ι σ) (i : ι) (l : ListQueue) (j : ι)
    (hj : j = i ∨ (a.queue j).isSome) : ((a.update i l).queue j).isSome := by
  simp only [ListSystem.update, Function.update_apply]
  split
  · rfl
  · next hne => exact hj.resolve_left hne

/-- On an initialised queue every operation on lists goes through. -/
theorem ListSystem.step_total {a : ListSystem ι σ} {op : QueueOp ι σ}
    (htarget : (a.queue op.target).isSome ∨ op.isInit = true) :
    ∃ b out, a.step op = .ok (b, out) ∧
      ∀ j, j = op.target ∨ (a.queue j).isSome → (b.queue j).isSome := by
  by_cases hinit : op.isInit = true
  · cases op with
    | init i M constData => exact ⟨_, _, rfl, a.update_isSome i _⟩
    | _ => cases hinit
  · have hsome := htarget.resolve_right hinit
    obtain ⟨l, hl⟩ := Option.isSome_iff_exists.mp hsome
    have hlookup : a.lookup op.target = .ok l := by rw [ListSystem.lookup, hl]
    have hsame : ∀ j, j = op.target ∨ (a.queue j).isSome → (a.queue j).isSome := by
      rintro j (rfl | hj)
      · exact hsome
      · exact hj
    cases op <;> simp only [QueueOp.target] at hlookup hsame <;>
      simp only [ListSystem.step, hlookup, ok_bind]
    case init => exact absurd rfl hinit
    case push i M data => exact ⟨_, _, rfl, a.update_isSome i _⟩
    case pop i => exact ⟨_, _, rfl, a.update_isSome i _⟩
    case clear i => exact ⟨_, _, rfl, a.update_isSome i _⟩
    case size i => exact ⟨_, _, rfl, hsame⟩
    case empty i => exact ⟨_, _, rfl, hsame⟩
    case foreach i callback => exact ⟨_, _, rfl, hsame⟩

theorem Scoped.exec {live : ι → Prop} {ops : List (QueueOp ι σ)} (hscoped : Scoped live ops)
    {a : ListSystem ι σ} (hlive : ∀ i, live i → (a.queue i).isSome) :
    ∃ b outs, Runs.exec ListSystem.step a ops = .ok (b, outs) := by
  induction ops generalizing live a with
  | nil => exact ⟨a, [], rfl⟩
  | cons op ops ih =>
      obtain ⟨htarget, hrest⟩ := hscoped
      obtain ⟨b, out, hstep, hsome⟩ := ListSystem.step_total (htarget.imp_left (hlive _))
      have hlive' : ∀ i, live i ∨ i = op.target → (b.queue i).isSome :=
        fun i hi => hsome i (hi.symm.imp_right (hlive i))
      obtain ⟨c, outs, hexec⟩ := ih hrest hlive'
      exact ⟨c, out :: outs, exec_cons_ok.mpr ⟨b, out, outs, hstep, hexec, rfl⟩⟩

omit [DecidableEq ι] in
theorem refines_start (client : σ) (chain : Chains ι) :
    Refines (QueueSystem.start client) chain (ListSystem.start client) where
  shape := by
    constructor
    · intro i q hq
      cases hq
    · intro i j q r _ hq
      cases hq
  lists _ := rfl
  client := rfl

/-- **Queues refine lists.** Every run on queues that were set up first goes through without a fault
and answers as the run on lists does. In the state it reaches, each queue's chain from `top` ends,
visits no node twice, has `rear` as its last node and `size` as the number of its data nodes, holds
the elements of its list in order, and shares no node with another queue's chain. -/
theorem queues_refine_lists (client : σ) (ops : List (QueueOp ι σ))
    (hscoped : Scoped (fun _ => False) ops) :
    ∃ s a outs, exec QueueSystem.step (QueueSystem.start client) ops = .ok (s, outs) ∧
      exec ListSystem.step (ListSystem.start client) ops = .ok (a, outs) ∧ s.client = a.client ∧
      ∃ chain : Chains ι,
        (∀ i, a.queue i = (s.queue i).map fun q => ⟨(chain i).2.map Prod.snd, q.constData⟩) ∧
        (∀ i q, s.queue i = some q →
          Seg s.heap q.top ((chain i).1 :: (chain i).2) none ∧ (chain.owned i).Nodup ∧
          q.rear = some (((chain i).1 :: (chain i).2).getLast (List.cons_ne_nil _ _)).1 ∧
          ((chain i).2 = [] → q.rear = q.top) ∧ q.size = (chain i).2.length) ∧
        ∀ i j q r, i ≠ j → s.queue i = some q → s.queue j = some r →
          (chain.owned i).Disjoint (chain.owned j) := by
  obtain ⟨a, outs, habs⟩ := hscoped.exec (a := ListSystem.start client) (fun _ h => h.elim)
  have hstart : ∃ chain : Chains ι,
      Refines (QueueSystem.start client) chain (ListSystem.start client) :=
    ⟨fun _ => ((0, none), []), refines_start client _⟩
  have hsim : ∀ (s : QueueSystem ι σ) (a : ListSystem ι σ) op b out,
      (∃ chain, Refines s chain a) → ListSystem.step a op = .ok (b, out) →
      ∃ t, QueueSystem.step s op = .ok (t, out) ∧ ∃ chain, Refines t chain b := by
    rintro s a op b out ⟨chain, href⟩ hstep
    exact href.step hstep
  obtain ⟨s, hexec, chain, href⟩ := exec_refines _ hsim hstart habs
  refine ⟨s, a, outs, hexec, habs, href.client, chain, href.lists, fun i q hq => ?_,
    href.shape.apart⟩
  have hrep := href.shape.rep i q hq
  refine ⟨hrep.links, hrep.links.nodup, hrep.rear, fun hnil => ?_, hrep.size⟩
  rw [hrep.rear, hrep.top_eq]
  simp [hnil]

/-- Two queues that exchange an element. -/
theorem queues_refine_lists_two :
    ∃ (s : QueueSystem Bool (List Ptr)) (a : ListSystem Bool (List Ptr)) (outs : List QueueOut),
      exec QueueSystem.step (QueueSystem.start [])
        [.init true (Malloc.bump ⟨none, none⟩) 0, .init false (Malloc.bump ⟨none, none⟩) 1,
          .push true (Malloc.bump ⟨none, none⟩) (some 7), .pop true,
          .push false (Malloc.bump ⟨none, none⟩) (some 7), .foreach false (fun l d => l ++ [d])] =
        .ok (s, outs) ∧ s.client = a.client := by
  obtain ⟨s, a, outs, hexec, -, hclient, -⟩ := queues_refine_lists ([] : List Ptr)
    [.init true (Malloc.bump ⟨none, none⟩) 0, .init false (Malloc.bump ⟨none, none⟩) 1,
      .push true (Malloc.bump ⟨none, none⟩) (some 7), .pop true,
      .push false (Malloc.bump ⟨none, none⟩) (some 7), .foreach false (fun l d => l ++ [d])]
    (by simp [Scoped, QueueOp.target, QueueOp.isInit])
  exact ⟨s, a, outs, hexec, hclient⟩

end LibEzmb.Queues
