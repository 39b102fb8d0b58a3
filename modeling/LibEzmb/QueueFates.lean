import LibEzmb.BaseLedger
import LibEzmb.QueueLife

/-! The fate of every value that is pushed: over any run of calls it is in one queue, has been
popped, has been freed by the queue that held it, or has been left to its owner by a queue of
constant data. -/

open CHeap Runs Ledgers

namespace LibEzmb.Queues

variable {ι σ : Type}

/-! ### The ledger -/

/-- What has become of the values: those pushed, those popped, those given to `free` and those taken
out of a queue without it, with the queue that held them. `stray` are values that a queue gave up
without holding them. -/
structure Ledger (ι : Type) where
  inits : List (ι × Int) := []
  pushed : List Ptr := []
  returned : List Ptr := []
  freed : List (ι × Ptr) := []
  left : List (ι × Ptr) := []
  stray : List (ι × Ptr) := []

/-- What a queue holds, which is nothing where it has not been set up or is destroyed. -/
def QueueSystem.held (s : QueueSystem ι σ) (i : ι) : List Ptr :=
  match s.elements i with
  | .ok l => l
  | .error _ => []

namespace Ledger

def names (L : Ledger ι) : List ι := L.inits.map Prod.fst

/-- How often a value has left the queues. -/
def gone (L : Ledger ι) (p : Ptr) : Nat :=
  L.returned.count p + (L.freed.map Prod.snd).count p + (L.left.map Prod.snd).count p

/-- A queue that held `held` is emptied, and `ps` are given to `free`. -/
def emptied (L : Ledger ι) (i : ι) (held ps : List Ptr) : Ledger ι :=
  { L with
    freed := L.freed ++ ps.map fun p => (i, p)
    left := L.left ++ (held.filter (· ∉ ps)).map fun p => (i, p)
    stray := L.stray ++ (ps.filter (· ∉ held)).map fun p => (i, p) }

/-- A pop on a queue that held `held` answered with `p`. -/
def popped (L : Ledger ι) (i : ι) (held : List Ptr) (p : Ptr) : Ledger ι :=
  if held = [] then L
  else { L with
    returned := L.returned ++ [p]
    stray := L.stray ++ ([p].filter (· ∉ held)).map fun p => (i, p) }

/-- Keep the books over a call on `s`. -/
def record (s : QueueSystem ι σ) (L : Ledger ι) : QueueCall ι σ → QueueOut → Ledger ι
  | .op (.init i _ constData), _ => { L with inits := L.inits ++ [(i, constData)] }
  | .op (.push _ _ data), _ => { L with pushed := L.pushed ++ [data] }
  | .op (.pop i), .data p => L.popped i (s.held i) p
  | .op (.clear i), .freed ps => L.emptied i (s.held i) ps
  | .destroy i, .freed ps => L.emptied i (s.held i) ps
  | _, _ => L

end Ledger

/-- The names a call uses. -/
def QueueCall.names : QueueCall ι σ → List ι
  | .op o => if o.isInit then [] else [o.target]
  | .merge dq sq _ => [dq, sq]
  | .destroy i => [i]

/-- Every queue is initialised once, and used between that and its destroy; only different queues
are merged. -/
def QueueCall.InLife (x : QueueSystem ι σ × Ledger ι) (c : QueueCall ι σ) : Prop :=
  (∀ i ∈ c.names, ∃ q, x.1.queue i = some q ∧ q.top ≠ none) ∧
    match c with
    | .op o => o.isInit = true → o.target ∉ x.2.names
    | .merge dq sq _ => dq ≠ sq
    | .destroy _ => True

/-- The value a call pushes. -/
def QueueCall.data : QueueCall ι σ → List Ptr
  | .op (.push _ _ data) => [data]
  | _ => []

/-- A call with its entry in the books. -/
def account [DecidableEq ι] (x : QueueSystem ι σ × Ledger ι) (c : QueueCall ι σ) :
    Except Fault ((QueueSystem ι σ × Ledger ι) × QueueOut) := do
  let (t, out) ← x.1.call c
  .ok ((t, x.2.record x.1 c out), out)

/-! ### The books over lists -/

/-- The elements of a list that may not be there. -/
def ListSystem.held (a : ListSystem ι σ) (i : ι) : List Ptr :=
  ((a.queue i).map ListQueue.elems).getD []

namespace ListSystem

variable {a : ListSystem ι σ} {i : ι} {l : ListQueue}

theorem held_of_queue (hl : a.queue i = some l) : a.held i = l.elems := by
  rw [held, hl]
  rfl

variable [DecidableEq ι]

theorem held_update (a : ListSystem ι σ) (i : ι) (l : ListQueue) :
    (a.update i l).held = Function.update a.held i l.elems := by
  funext j
  by_cases hj : j = i
  · subst hj
    rw [Function.update_self, held_of_queue (update_queue_self ..)]
  · rw [Function.update_of_ne hj, held, update_queue_of_ne a hj, held]

theorem held_remove (a : ListSystem ι σ) (i : ι) :
    (a.remove i).held = Function.update a.held i [] := by
  funext j
  by_cases hj : j = i
  · subst hj
    simp [held, remove]
  · simp [held, remove, hj]

end ListSystem

theorem Stands.held {s : QueueSystem ι σ} {a : ListSystem ι σ} (hstands : Stands s a) (i : ι) :
    s.held i = a.held i := by
  obtain ⟨chain, href⟩ := hstands.lists
  cases hl : a.queue i with
  | some l => rw [QueueSystem.held, hstands.elements hl, ListSystem.held_of_queue hl]
  | none =>
      rw [ListSystem.held, hl, QueueSystem.held]
      cases hq : s.queue i with
      | none =>
          rw [QueueSystem.elements, QueueSystem.lookup, hq]
          rfl
      | some q =>
          have htop : q.top = none := by
            by_contra htop
            obtain ⟨l, hl'⟩ := hstands.queue_of_top hq htop
            rw [hl] at hl'
            cases hl'
          rw [QueueSystem.elements, QueueSystem.lookup, hq, ok_bind, eQueueForeach,
            eQueueEmpty_destroyed htop]
          rfl

/-- The books are right: each value is accounted for as often as it was pushed, every list has its
entry, and what was done with a value agrees with the setting of the queue that held it. -/
structure Booked (a : ListSystem ι σ) (L : Ledger ι) : Prop where
  counts : ∀ p, L.pushed.count p = (spread L.names a.held).count p + L.gone p
  entry : ∀ i l, a.queue i = some l → (i, l.constData) ∈ L.inits
  once : L.names.Nodup
  freed : ∀ i p, (i, p) ∈ L.freed → (i, 0) ∈ L.inits
  left : ∀ i p, (i, p) ∈ L.left → ∃ c, c ≠ 0 ∧ (i, c) ∈ L.inits
  stray : L.stray = []

namespace Booked

variable {a b : ListSystem ι σ} {L : Ledger ι} {i : ι} {l : ListQueue}

theorem start (client : σ) : Booked (ListSystem.start client : ListSystem ι σ) {} where
  counts _ := rfl
  entry _ _ hl := by cases hl
  once := List.nodup_nil
  freed _ _ hp := by cases hp
  left _ _ hp := by cases hp
  stray := rfl

theorem mem_names (hbooked : Booked a L) (hl : a.queue i = some l) : i ∈ L.names :=
  List.mem_map.mpr ⟨_, hbooked.entry i l hl, rfl⟩

/-- A call that leaves the lists as they are. -/
theorem same (hbooked : Booked a L) (hqueue : b.queue = a.queue) : Booked b L where
  counts p := by
    have hheld : b.held = a.held := by
      unfold ListSystem.held
      rw [hqueue]
    rw [hheld]
    exact hbooked.counts p
  entry := hqueue ▸ hbooked.entry
  once := hbooked.once
  freed := hbooked.freed
  left := hbooked.left
  stray := hbooked.stray

variable [DecidableEq ι]

theorem init (hbooked : Booked a L) (hnew : i ∉ L.names) (constData : Int) :
    Booked (a.update i ⟨[], constData⟩) { L with inits := L.inits ++ [(i, constData)] } := by
  have hnames : ({ L with inits := L.inits ++ [(i, constData)] } : Ledger ι).names =
      L.names ++ [i] := List.map_append ..
  refine ⟨fun p => ?_, fun j m hm => ?_, ?_, fun j p hp => ?_, fun j p hp => ?_, hbooked.stray⟩
  · have hheld : (a.update i ⟨[], constData⟩).held i = [] :=
      ListSystem.held_of_queue (ListSystem.update_queue_self ..)
    have hspread : spread [i] (a.update i ⟨[], constData⟩).held = [] := by
      rw [spread, List.flatMap_singleton, hheld]
    rw [hnames, spread_append, hspread, List.append_nil, ListSystem.held_update,
      spread_update_of_notMem hnew]
    exact hbooked.counts p
  · by_cases hj : j = i
    · subst hj
      rw [ListSystem.update_queue_self, Option.some.injEq] at hm
      rw [← hm]
      exact List.mem_append_right _ (List.mem_singleton_self _)
    · rw [ListSystem.update_queue_of_ne a hj] at hm
      exact List.mem_append_left _ (hbooked.entry j m hm)
  · rw [hnames]
    exact hbooked.once.append (List.nodup_singleton i) (List.disjoint_singleton.mpr hnew)
  · exact List.mem_append_left _ (hbooked.freed j p hp)
  · obtain ⟨c, hc, hmem⟩ := hbooked.left j p hp
    exact ⟨c, hc, List.mem_append_left _ hmem⟩

/-- One queue holds other values afterwards, and the ledger accounts for the difference. -/
theorem change {L' : Ledger ι} {xs : List Ptr} (hbooked : Booked a L) (hl : a.queue i = some l)
    (hinits : L'.inits = L.inits) (hheld : b.held = Function.update a.held i xs)
    (hentry : ∀ j m, b.queue j = some m → ∃ m', a.queue j = some m' ∧ m'.constData = m.constData)
    (hcounts : ∀ p, L'.pushed.count p + l.elems.count p + L.gone p =
      L.pushed.count p + xs.count p + L'.gone p)
    (hfreed : ∀ j p, (j, p) ∈ L'.freed → (j, p) ∈ L.freed ∨ (j = i ∧ l.constData = 0))
    (hleft : ∀ j p, (j, p) ∈ L'.left → (j, p) ∈ L.left ∨ (j = i ∧ l.constData ≠ 0))
    (hstray : L'.stray = L.stray) : Booked b L' := by
  have hnames : L'.names = L.names := congrArg (List.map Prod.fst) hinits
  have hentry' := hbooked.entry i l hl
  refine ⟨fun p => ?_, fun j m hm => ?_, hnames ▸ hbooked.once, fun j p hp => ?_,
    fun j p hp => ?_, hstray.trans hbooked.stray⟩
  · have hspread := count_spread_update hbooked.once (hbooked.mem_names hl) a.held xs p
    have hold := hbooked.counts p
    have hnew := hcounts p
    rw [ListSystem.held_of_queue hl] at hspread
    rw [hnames, hheld]
    omega
  · obtain ⟨m', hm', hconst⟩ := hentry j m hm
    rw [hinits, ← hconst]
    exact hbooked.entry j m' hm'
  · rw [hinits]
    rcases hfreed j p hp with hold | ⟨rfl, hconst⟩
    · exact hbooked.freed j p hold
    · exact hconst ▸ hentry'
  · rw [hinits]
    rcases hleft j p hp with hold | ⟨rfl, hconst⟩
    · exact hbooked.left j p hold
    · exact ⟨_, hconst, hentry'⟩

theorem entry_update (hl : a.queue i = some l) (xs : List Ptr) (j : ι) (m : ListQueue)
    (hm : (a.update i { l with elems := xs }).queue j = some m) :
    ∃ m', a.queue j = some m' ∧ m'.constData = m.constData := by
  by_cases hj : j = i
  · subst hj
    rw [ListSystem.update_queue_self, Option.some.injEq] at hm
    exact ⟨l, hl, by rw [← hm]⟩
  · rw [ListSystem.update_queue_of_ne a hj] at hm
    exact ⟨m, hm, rfl⟩

theorem entry_remove (i j : ι) (m : ListQueue) (hm : (a.remove i).queue j = some m) :
    ∃ m', a.queue j = some m' ∧ m'.constData = m.constData := by
  by_cases hj : j = i
  · subst hj
    cases (Function.update_self ..).symm.trans hm
  · exact ⟨m, (Function.update_of_ne hj ..).symm.trans hm, rfl⟩

theorem push (hbooked : Booked a L) (hl : a.queue i = some l) (data : Ptr) :
    Booked (a.update i { l with elems := l.elems ++ [data] })
      { L with pushed := L.pushed ++ [data] } := by
  refine hbooked.change hl rfl (ListSystem.held_update ..) (entry_update hl _) (fun p => ?_)
    (fun _ _ hp => Or.inl hp) (fun _ _ hp => Or.inl hp) rfl
  simp only [Ledger.gone, List.count_append]
  omega

theorem pop (hbooked : Booked a L) (hl : a.queue i = some l) :
    Booked (a.update i { l with elems := l.elems.tail })
      (L.popped i l.elems (l.elems.head?.getD none)) := by
  obtain ⟨elems, constData⟩ := l
  cases elems with
  | nil =>
      apply hbooked.same
      exact congrArg ListSystem.queue (ListSystem.update_same hl)
  | cons x xs =>
      refine hbooked.change hl rfl (ListSystem.held_update ..) (entry_update hl _) (fun p => ?_)
        (fun _ _ hp => Or.inl hp) (fun _ _ hp => Or.inl hp) (by simp [Ledger.popped])
      simp only [Ledger.popped, Ledger.gone, List.cons_ne_nil, if_false, List.count_append,
        List.count_cons, List.count_nil, List.tail_cons, List.head?_cons, Option.getD_some]
      omega

/-- Emptying a queue, which it may outlive or not. -/
theorem emptied (hbooked : Booked a L) (hl : a.queue i = some l)
    (hheld : b.held = Function.update a.held i [])
    (hentry : ∀ j m, b.queue j = some m → ∃ m', a.queue j = some m' ∧ m'.constData = m.constData) :
    Booked b (L.emptied i l.elems (if l.constData = 0 then l.elems else [])) := by
  have hmap : ∀ ps : List Ptr, (ps.map fun p => (i, p)).map Prod.snd = ps := by
    intro ps
    rw [List.map_map]
    exact List.map_id ps
  by_cases hconst : l.constData = 0
  · have hnone : l.elems.filter (· ∉ l.elems) = [] := by simp
    rw [if_pos hconst]
    refine hbooked.change hl rfl hheld hentry (fun p => ?_) (fun j p hp => ?_)
      (fun j p hp => Or.inl ?_) (by simp [Ledger.emptied])
    · simp only [Ledger.emptied, Ledger.gone, hnone, List.map_append, hmap, List.count_append,
        List.map_nil, List.append_nil, List.count_nil]
      omega
    · rcases List.mem_append.mp hp with hp | hp
      · exact Or.inl hp
      · obtain ⟨p', -, heq⟩ := List.mem_map.mp hp
        exact Or.inr ⟨(congrArg Prod.fst heq).symm, hconst⟩
    · simpa [Ledger.emptied] using hp
  · rw [if_neg hconst]
    refine hbooked.change hl rfl hheld hentry (fun p => ?_)
      (fun j p hp => Or.inl (by simpa [Ledger.emptied] using hp)) (fun j p hp => ?_)
      (by simp [Ledger.emptied])
    · simp only [Ledger.emptied, Ledger.gone, List.not_mem_nil, not_false_eq_true, decide_true,
        List.filter_true, List.map_append, hmap, List.count_append, List.map_nil, List.append_nil,
        List.count_nil]
      omega
    · rcases List.mem_append.mp hp with hp | hp
      · exact Or.inl hp
      · obtain ⟨p', -, heq⟩ := List.mem_map.mp hp
        exact Or.inr ⟨(congrArg Prod.fst heq).symm, hconst⟩

theorem merge (hbooked : Booked a L) {dq sq : ι} {d q : ListQueue} (hne : dq ≠ sq)
    (hd : a.queue dq = some d) (hq : a.queue sq = some q) : Booked (a.merged dq sq d q) L where
  counts p := by
    have hmove := count_spread_move hbooked.once (hbooked.mem_names hq) (hbooked.mem_names hd) hne
      a.held p
    rw [ListSystem.held_of_queue hd, ListSystem.held_of_queue hq] at hmove
    rw [ListSystem.merged, ListSystem.held_update, ListSystem.held_update]
    exact (hbooked.counts p).trans (congrArg (· + L.gone p) hmove.symm)
  entry j m hm := by
    have hd' : (a.update sq { q with elems := [] }).queue dq = some d := by
      rw [ListSystem.update_queue_of_ne a hne, hd]
    obtain ⟨m', hm', hconst⟩ := entry_update hd' _ j m hm
    obtain ⟨m'', hm'', hconst'⟩ := entry_update hq _ j m' hm'
    rw [← hconst, ← hconst']
    exact hbooked.entry j m'' hm''
  once := hbooked.once
  freed := hbooked.freed
  left := hbooked.left
  stray := hbooked.stray

end Booked

/-! ### Runs -/

section Runs

variable [DecidableEq ι] {s : QueueSystem ι σ} {a : ListSystem ι σ} {L : Ledger ι}

omit [DecidableEq ι] in
theorem Stands.list_of_top (hstands : Stands s a) {i : ι}
    (htop : ∃ q, s.queue i = some q ∧ q.top ≠ none) :
    ∃ l, a.queue i = some l ∧ a.lookup i = .ok l ∧ s.held i = l.elems := by
  obtain ⟨q, hq, htop⟩ := htop
  obtain ⟨l, hl⟩ := hstands.queue_of_top hq htop
  exact ⟨l, hl, ListSystem.lookup_of_queue hl, (hstands.held i).trans (ListSystem.held_of_queue hl)⟩

/-- On lists every operation in the life of its queue goes through and keeps the books right. -/
theorem Stands.account_op (hstands : Stands s a) (hbooked : Booked a L) {o : QueueOp ι σ}
    (hlife : (QueueCall.op o).InLife (s, L)) :
    ∃ b out, a.step o = .ok (b, out) ∧ Booked b (L.record s (.op o) out) := by
  have hlist : ∀ i ∈ (QueueCall.op o).names, ∃ l, a.queue i = some l ∧ a.lookup i = .ok l ∧
      s.held i = l.elems := fun i hi => hstands.list_of_top (hlife.1 i hi)
  have hmem : ∀ i : ι, i ∈ [i] := List.mem_singleton_self
  cases o with
  | init i M constData => exact ⟨_, _, rfl, hbooked.init (hlife.2 rfl) constData⟩
  | push i M data =>
      obtain ⟨l, hl, hlookup, -⟩ := hlist i (hmem i)
      exact ⟨_, _, by rw [ListSystem.step, hlookup, ok_bind], hbooked.push hl data⟩
  | pop i =>
      obtain ⟨l, hl, hlookup, hheld⟩ := hlist i (hmem i)
      refine ⟨_, _, by rw [ListSystem.step, hlookup, ok_bind], ?_⟩
      rw [Ledger.record, hheld]
      exact hbooked.pop hl
  | clear i =>
      obtain ⟨l, hl, hlookup, hheld⟩ := hlist i (hmem i)
      refine ⟨_, _, by rw [ListSystem.step, hlookup, ok_bind], ?_⟩
      rw [Ledger.record, hheld]
      exact hbooked.emptied hl (ListSystem.held_update ..) (Booked.entry_update hl _)
  | size i =>
      obtain ⟨l, hl, hlookup, -⟩ := hlist i (hmem i)
      exact ⟨_, _, by rw [ListSystem.step, hlookup, ok_bind], hbooked⟩
  | empty i =>
      obtain ⟨l, hl, hlookup, -⟩ := hlist i (hmem i)
      exact ⟨_, _, by rw [ListSystem.step, hlookup, ok_bind], hbooked⟩
  | foreach i callback =>
      obtain ⟨l, hl, hlookup, -⟩ := hlist i (hmem i)
      exact ⟨{ a with client := l.elems.foldl callback a.client }, .unit,
        by rw [ListSystem.step, hlookup, ok_bind], hbooked.same rfl⟩

/-- Every call in the life of its queues goes through and keeps the books right. -/
theorem Stands.account (hstands : Stands s a) (hbooked : Booked a L) {c : QueueCall ι σ}
    (hlife : c.InLife (s, L)) :
    ∃ t b out, s.call c = .ok (t, out) ∧ Stands t b ∧ Booked b (L.record s c out) := by
  cases c with
  | op o =>
      obtain ⟨b, out, hlists, hbooked'⟩ := hstands.account_op hbooked hlife
      obtain ⟨t, ht, hnext⟩ := hstands.step hlists
      exact ⟨t, b, out, ht, hnext, hbooked'⟩
  | merge dq sq M =>
      obtain ⟨d, hd, -⟩ := hstands.list_of_top (hlife.1 dq List.mem_cons_self)
      obtain ⟨q, hq, -⟩ :=
        hstands.list_of_top (hlife.1 sq (List.mem_cons_of_mem _ (List.mem_singleton_self sq)))
      obtain ⟨t, hmerge, hnext⟩ := hstands.merge M hlife.2 hd hq (hstands.length_le_bound hq)
      exact ⟨t, _, _, QueueSystem.call_merge hmerge, hnext, hbooked.merge hlife.2 hd hq⟩
  | destroy i =>
      obtain ⟨l, hl, -, hheld⟩ := hstands.list_of_top (hlife.1 i (List.mem_singleton_self i))
      obtain ⟨q, h, q', hlookup, hdestroy, -, hnext⟩ := hstands.destroy hl
      refine ⟨_, _, _, QueueSystem.call_destroy hlookup hdestroy, hnext, ?_⟩
      rw [Ledger.record, hheld]
      exact hbooked.emptied hl (ListSystem.held_remove ..) (Booked.entry_remove i)

omit [DecidableEq ι] in
theorem Ledger.record_pushed (s : QueueSystem ι σ) (L : Ledger ι) (c : QueueCall ι σ)
    (out : QueueOut) : (L.record s c out).pushed = L.pushed ++ c.data := by
  have hpopped : ∀ i held p, (L.popped i held p).pushed = L.pushed := by
    intro i held p
    unfold Ledger.popped
    split <;> rfl
  unfold Ledger.record
  split <;> simp [QueueCall.data, Ledger.emptied, hpopped]

theorem exec_pushed {x y : QueueSystem ι σ × Ledger ι} {calls : List (QueueCall ι σ)}
    {outs : List QueueOut} (hexec : exec account x calls = .ok (y, outs)) :
    y.2.pushed = x.2.pushed ++ calls.flatMap QueueCall.data := by
  induction calls generalizing x outs with
  | nil => cases hexec; exact (List.append_nil _).symm
  | cons c calls ih =>
      obtain ⟨z, out, outs', hstep, hrest, -⟩ := exec_cons_ok.mp hexec
      obtain ⟨⟨t, out'⟩, -, hout⟩ := bind_eq_ok hstep
      cases hout
      rw [ih hrest, Ledger.record_pushed, List.append_assoc, List.flatMap_cons]

/-- **Every value has one fate.** Over any run of calls on queues that are each initialised once and
used until their destroy, where no value is pushed twice: each pushed value is exactly once among
those a queue holds, those returned by a pop, those freed by a clear or destroy of a queue that held
it and was set up with `const_data` zero, and those left unfreed by a clear or destroy of a queue
that held it and was set up with `const_data` non-zero. -/
theorem one_fate (client : σ) (calls : List (QueueCall ι σ))
    (hlife : Along account (fun x c => c.InLife x) (QueueSystem.start client, {}) calls)
    (honce : (calls.flatMap QueueCall.data).Nodup) :
    ∃ s L outs, exec account (QueueSystem.start client, {}) calls = .ok ((s, L), outs) ∧
      (calls.flatMap QueueCall.data).Perm (spread L.names s.held ++ (L.returned ++
        (L.freed.map Prod.snd ++ L.left.map Prod.snd))) ∧
      (spread L.names s.held ++ (L.returned ++
        (L.freed.map Prod.snd ++ L.left.map Prod.snd))).Nodup ∧
      (∀ i, s.held i ≠ [] → i ∈ L.names) ∧ L.names.Nodup ∧ L.stray = [] ∧
      (∀ i p, (i, p) ∈ L.freed → (i, 0) ∈ L.inits) ∧
      ∀ i p, (i, p) ∈ L.left → ∃ c, c ≠ 0 ∧ (i, c) ∈ L.inits := by
  obtain ⟨⟨s, L⟩, outs, hexec, a, hstands, hbooked⟩ := Along.exec_total
    (I := fun x : QueueSystem ι σ × Ledger ι => ∃ a, Stands x.1 a ∧ Booked a x.2)
    (fun x c ⟨a, hstands, hbooked⟩ hlife => by
      obtain ⟨t, b, out, hcall, hnext, hbooked'⟩ := hstands.account hbooked hlife
      exact ⟨(t, x.2.record x.1 c out), out, by rw [account, hcall, ok_bind],
        b, hnext, hbooked'⟩)
    ⟨_, Stands.start client, Booked.start client⟩ hlife
  have hheld : s.held = a.held := funext hstands.held
  have hpushed : L.pushed = calls.flatMap QueueCall.data := exec_pushed hexec
  have hperm : (calls.flatMap QueueCall.data).Perm (spread L.names s.held ++ (L.returned ++
      (L.freed.map Prod.snd ++ L.left.map Prod.snd))) := by
    rw [← hpushed, List.perm_iff_count]
    intro p
    rw [hbooked.counts p, hheld, Ledger.gone]
    simp only [List.count_append]
    omega
  refine ⟨s, L, outs, hexec, hperm, hperm.nodup honce, fun i hi => ?_, hbooked.once,
    hbooked.stray, hbooked.freed, hbooked.left⟩
  rw [hheld] at hi
  cases hl : a.queue i with
  | none => exact absurd (by rw [ListSystem.held, hl]; rfl) hi
  | some l => exact hbooked.mem_names hl

end Runs

/-! ### A queue of constant data -/

/-- A value pushed to a queue of constant data, which is then cleared. -/
def clearedConst : List (QueueCall Unit Unit) :=
  [.op (.init () (Malloc.bump ⟨none, none⟩) 1),
    .op (.push () (Malloc.bump ⟨none, none⟩) (some 7)), .op (.clear ())]

theorem clearedConst_inLife :
    Along account (fun x c => c.InLife x) (QueueSystem.start (), {}) clearedConst := by
  have hlive : ∀ q : EQueue, q.top ≠ none → ∀ i ∈ [()], ∃ r, some q = some r ∧ r.top ≠ none :=
    fun q htop _ _ => ⟨q, rfl, htop⟩
  refine ⟨⟨fun _ hi => absurd hi List.not_mem_nil, fun _ => List.not_mem_nil⟩, fun x _ hstep => ?_⟩
  cases hstep
  refine ⟨⟨hlive _ (Option.some_ne_none _), fun h => Bool.noConfusion h⟩, fun x _ hstep => ?_⟩
  cases hstep
  exact ⟨⟨hlive _ (Option.some_ne_none _), fun h => Bool.noConfusion h⟩, fun _ _ _ => trivial⟩

/-- Its value is in one of the four places. -/
theorem one_fate_const :
    ∃ s L outs, exec account (QueueSystem.start (), {}) clearedConst = .ok ((s, L), outs) ∧
      [some 7].Perm (spread L.names s.held ++ (L.returned ++
        (L.freed.map Prod.snd ++ L.left.map Prod.snd))) := by
  obtain ⟨s, L, outs, hexec, hperm, -⟩ :=
    one_fate () clearedConst clearedConst_inLife (List.nodup_singleton _)
  exact ⟨s, L, outs, hexec, hperm⟩

/-- It is in no queue, has not been returned and has not been freed. -/
theorem clearedConst_left :
    ∃ s L outs, exec account (QueueSystem.start (), {}) clearedConst = .ok ((s, L), outs) ∧
      L.pushed = [some 7] ∧ spread L.names s.held = [] ∧ L.returned = [] ∧ L.freed = [] :=
  ⟨_, _, _, rfl, rfl, rfl, rfl, rfl⟩

end LibEzmb.Queues
