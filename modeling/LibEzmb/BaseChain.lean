import LibEzmb.BaseLoop

/-! Singly linked cells on a heap: chains from a pointer to a pointer, what linking a cell in and
unlinking one does to a chain, and walks along a chain. -/

namespace CHeap

variable {δ : Type}

/-- A cell of a singly linked structure. -/
structure Cell (δ : Type) where
  data : δ
  next : Option Addr
  deriving DecidableEq, Repr

/-- Following `next` from `p` passes the cells of the list, with their data, and then stands at
`q`. -/
def Seg (h : Heap (Cell δ)) : Option Addr → List (Addr × δ) → Option Addr → Prop
  | p, [], q => p = q
  | p, x :: l, q => p = some x.1 ∧ ∃ next, h.cell x.1 = some ⟨x.2, next⟩ ∧ Seg h next l q

namespace Seg

variable {h h' : Heap (Cell δ)} {p q : Option Addr} {l l' : List (Addr × δ)}

@[simp] theorem nil_iff : Seg h p [] q ↔ p = q := Iff.rfl

@[simp] theorem cons_iff {x : Addr × δ} :
    Seg h p (x :: l) q ↔
      p = some x.1 ∧ ∃ next, h.cell x.1 = some ⟨x.2, next⟩ ∧ Seg h next l q := Iff.rfl

theorem live (hseg : Seg h p l q) {x : Addr × δ} (hx : x ∈ l) :
    ∃ next, h.cell x.1 = some ⟨x.2, next⟩ := by
  induction l generalizing p with
  | nil => cases hx
  | cons y l ih =>
      obtain ⟨_, next, hcell, hrest⟩ := hseg
      rcases List.mem_cons.mp hx with rfl | hx
      · exact ⟨next, hcell⟩
      · exact ih hrest hx

/-- A chain only depends on its own cells. -/
theorem congr (hseg : Seg h p l q) (hsame : ∀ x ∈ l, h'.cell x.1 = h.cell x.1) : Seg h' p l q := by
  induction l generalizing p with
  | nil => exact hseg
  | cons x l ih =>
      obtain ⟨hp, next, hcell, hrest⟩ := hseg
      refine ⟨hp, next, ?_, ih hrest fun y hy => hsame y (List.mem_cons_of_mem _ hy)⟩
      rw [hsame x List.mem_cons_self, hcell]

theorem append_iff : Seg h p (l ++ l') q ↔ ∃ r, Seg h p l r ∧ Seg h r l' q := by
  induction l generalizing p with
  | nil => simp
  | cons x l ih =>
      simp only [List.cons_append, cons_iff, ih]
      constructor
      · rintro ⟨hp, next, hcell, r, hl, hl'⟩
        exact ⟨r, ⟨hp, next, hcell, hl⟩, hl'⟩
      · rintro ⟨r, ⟨hp, next, hcell, hl⟩, hl'⟩
        exact ⟨hp, next, hcell, r, hl, hl'⟩

/-- There is one chain from a pointer to the null pointer. -/
theorem unique (hseg : Seg h p l none) (hseg' : Seg h p l' none) : l = l' := by
  induction l generalizing p l' with
  | nil =>
      cases l' with
      | nil => rfl
      | cons x l' => cases hseg.symm.trans hseg'.1
  | cons x l ih =>
      cases l' with
      | nil => cases hseg'.symm.trans hseg.1
      | cons y l' =>
          obtain ⟨hp, next, hcell, hrest⟩ := hseg
          obtain ⟨hp', next', hcell', hrest'⟩ := hseg'
          have haddr : x.1 = y.1 := Option.some.inj (hp.symm.trans hp')
          rw [← haddr, hcell] at hcell'
          have heq : (⟨x.2, next⟩ : Cell δ) = ⟨y.2, next'⟩ := Option.some.inj hcell'
          injection heq with hdata hnext
          rw [← hnext] at hrest'
          rw [ih hrest hrest', Prod.ext haddr hdata]

/-- A chain that ends is acyclic: it would not end if it came back to one of its cells. -/
theorem nodup (hseg : Seg h p l none) : (l.map Prod.fst).Nodup := by
  induction l generalizing p with
  | nil => simp
  | cons x l ih =>
      obtain ⟨hp, next, hcell, hrest⟩ := hseg
      refine List.nodup_cons.mpr ⟨fun hmem => ?_, ih hrest⟩
      obtain ⟨y, hy, haddr⟩ := List.mem_map.mp hmem
      obtain ⟨before, after, rfl⟩ := List.append_of_mem hy
      obtain ⟨r, -, hback⟩ := append_iff.mp hrest
      have hr : r = some x.1 := by rw [hback.1, haddr]
      have hwhole : Seg h r (x :: (before ++ y :: after)) none := ⟨hr, next, hcell, hrest⟩
      have hshort : y :: after = x :: (before ++ y :: after) := unique hback hwhole
      have hlen := congrArg List.length hshort
      simp only [List.length_cons, List.length_append] at hlen
      omega

theorem length_le_bound (hseg : Seg h p l none) : l.length ≤ h.bound := by
  have hle : (l.map Prod.fst).length ≤ h.bound := by
    apply Heap.length_le_bound hseg.nodup
    intro a ha
    obtain ⟨x, hx, rfl⟩ := List.mem_map.mp ha
    obtain ⟨next, hcell⟩ := hseg.live hx
    exact ⟨_, hcell⟩
  rwa [List.length_map] at hle

theorem ne_of_free (hseg : Seg h p l q) {a : Addr} (hfree : h.cell a = none) :
    ∀ x ∈ l, x.1 ≠ a := by
  rintro x hx rfl
  obtain ⟨next, hcell⟩ := hseg.live hx
  rw [hcell] at hfree
  cases hfree

/-- Linking a fresh cell in after the last one. -/
theorem extend {last : Addr × δ} (hseg : Seg h p (l ++ [last]) none) (new : Addr × δ)
    (hfree : h.cell new.1 = none) :
    Seg ((h.set new.1 ⟨new.2, none⟩).set last.1 ⟨last.2, some new.1⟩) p (l ++ [last] ++ [new]) none := by
  have hnodup := hseg.nodup
  obtain ⟨r, hinit, hlast⟩ := append_iff.mp hseg
  obtain ⟨hr, next, hcell, -⟩ := hlast
  have hne : new.1 ≠ last.1 := fun heq => by rw [heq, hcell] at hfree; cases hfree
  rw [List.append_assoc, append_iff]
  refine ⟨r, hinit.congr fun x hx => ?_, ?_⟩
  · have hx_last : x.1 ≠ last.1 := by
      rw [List.map_append, List.nodup_append] at hnodup
      exact hnodup.2.2 _ (List.mem_map_of_mem hx) _ (by simp)
    have hx_new : x.1 ≠ new.1 := hinit.ne_of_free hfree x hx
    simp [hx_last, hx_new]
  · simp [hr, hne]

/-- Unlinking the cell after the first one and giving it back. -/
theorem unlink {first second : Addr × δ} {next : Option Addr}
    (hseg : Seg h p (first :: second :: l) none) (hnext : h.cell second.1 = some ⟨second.2, next⟩) :
    Seg ((h.set first.1 ⟨first.2, next⟩).drop second.1) p (first :: l) none := by
  have hnodup := hseg.nodup
  obtain ⟨hp, n, hcell, -, n', hcell', hrest⟩ := hseg
  have hn : n' = next := by
    rw [hcell'] at hnext
    exact congrArg Cell.next (Option.some.inj hnext)
  subst hn
  simp only [List.map_cons, List.nodup_cons, List.mem_cons, List.mem_map, not_or, not_exists,
    not_and] at hnodup
  obtain ⟨⟨hne, hfirst⟩, hsecond, -⟩ := hnodup
  refine ⟨hp, n', by simp [hne], hrest.congr fun x hx => ?_⟩
  simp [hfirst x hx, hsecond x hx]

end Seg

/-! ### Walks -/

variable {σ : Type}

/-- `while (node) { body; node = node->next; }`, where the body may leave the loop. -/
def walk (h : Heap (Cell δ)) (body : σ → δ → Except Fault (σ × Bool)) :
    Nat → Option Addr → σ → Except Fault σ
  | _, none, s => .ok s
  | 0, some _, _ => .error .unbounded
  | rounds + 1, some a, s => do
      let node ← h.deref (some a)
      let (s, stop) ← body s node.data
      if stop then .ok s else walk h body rounds node.next s

/-- The body of a walk run on the elements of a list. -/
def visit (body : σ → δ → Except Fault (σ × Bool)) : List δ → σ → Except Fault σ
  | [], s => .ok s
  | d :: l, s => do
      let (s, stop) ← body s d
      if stop then .ok s else visit body l s

/-- A walk along a chain visits the data of its cells in order. -/
theorem walk_eq_visit {h : Heap (Cell δ)} {p : Option Addr} {l : List (Addr × δ)}
    (body : σ → δ → Except Fault (σ × Bool)) (rounds : Nat) (s : σ) (hseg : Seg h p l none)
    (hlen : l.length ≤ rounds) :
    walk h body rounds p s = visit body (l.map Prod.snd) s := by
  induction l generalizing p rounds s with
  | nil =>
      rw [Seg.nil_iff] at hseg
      subst hseg
      cases rounds <;> rfl
  | cons x l ih =>
      obtain ⟨rfl, next, hcell, hrest⟩ := hseg
      cases rounds with
      | zero => simp at hlen
      | succ rounds =>
          simp only [walk, Heap.deref_of_cell hcell, ok_bind, List.map_cons, visit]
          congr 1
          funext r
          split
          · rfl
          · exact ih rounds r.1 hrest (by simpa using hlen)

/-- On elements where the body neither leaves the loop nor faults, it folds over the list. -/
theorem visit_eq_foldl {body : σ → δ → Except Fault (σ × Bool)} {f : σ → δ → σ} {l : List δ}
    (hbody : ∀ s, ∀ d ∈ l, body s d = .ok (f s d, false)) (s : σ) :
    visit body l s = .ok (l.foldl f s) := by
  induction l generalizing s with
  | nil => rfl
  | cons d l ih =>
      rw [visit, hbody s d List.mem_cons_self, ok_bind]
      exact ih (fun s d hd => hbody s d (List.mem_cons_of_mem _ hd)) (f s d)

/-- What the body keeps, the visit keeps; and it goes through when the body does. -/
theorem visit_invariant {body : σ → δ → Except Fault (σ × Bool)} {I : σ → Prop} {l : List δ}
    (hbody : ∀ s, ∀ d ∈ l, I s → ∃ s' stop, body s d = .ok (s', stop) ∧ I s') {s : σ} (hs : I s) :
    ∃ s', visit body l s = .ok s' ∧ I s' := by
  induction l generalizing s with
  | nil => exact ⟨s, rfl, hs⟩
  | cons d l ih =>
      obtain ⟨s', stop, hstep, hs'⟩ := hbody s d List.mem_cons_self hs
      rw [visit, hstep, ok_bind]
      cases stop with
      | true => exact ⟨s', rfl, hs'⟩
      | false => exact ih (fun s d hd => hbody s d (List.mem_cons_of_mem _ hd)) hs'

/-- A visit that leaves no element out does to all of them what the body does to one. -/
theorem visit_each {body : σ → δ → Except Fault (σ × Bool)} {I : List δ → σ → Prop} {l : List δ}
    (hbody : ∀ done, ∀ d ∈ l, ∀ s, I done s → ∃ s', body s d = .ok (s', false) ∧ I (done ++ [d]) s')
    {done : List δ} {s : σ} (hs : I done s) : ∃ s', visit body l s = .ok s' ∧ I (done ++ l) s' := by
  induction l generalizing done s with
  | nil => exact ⟨s, rfl, by rwa [List.append_nil]⟩
  | cons d l ih =>
      obtain ⟨s', hstep, hs'⟩ := hbody done d List.mem_cons_self s hs
      obtain ⟨t, hvisit, ht⟩ := ih (fun done d hd => hbody done d (List.mem_cons_of_mem _ hd)) hs'
      refine ⟨t, ?_, by rwa [List.append_assoc] at ht⟩
      rw [visit, hstep, ok_bind]
      exact hvisit

/-- What the body keeps holds when a walk ends. -/
theorem walk_invariant {h : Heap (Cell δ)} {body : σ → δ → Except Fault (σ × Bool)} {I : σ → Prop}
    (hbody : ∀ s d s' stop, I s → body s d = .ok (s', stop) → I s') {rounds : Nat}
    {p : Option Addr} {s t : σ} (hs : I s) (hwalk : walk h body rounds p s = .ok t) : I t := by
  induction rounds generalizing p s with
  | zero =>
      cases p with
      | none =>
          cases hwalk
          exact hs
      | some a => cases hwalk
  | succ rounds ih =>
      cases p with
      | none =>
          cases hwalk
          exact hs
      | some a =>
          obtain ⟨node, -, hrest⟩ := bind_eq_ok hwalk
          obtain ⟨⟨s', stop⟩, hstep, hnext⟩ := bind_eq_ok hrest
          have hs' := hbody s node.data s' stop hs hstep
          cases stop with
          | true =>
              cases hnext
              exact hs'
          | false => exact ih hs' hnext

end CHeap
