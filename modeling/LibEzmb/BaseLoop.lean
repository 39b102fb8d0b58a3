import LibEzmb.BaseHeap

/-! Loops of a program that may fault, run for a bounded number of rounds, and the rule for a loop
that consumes a list: such a loop is a left fold. -/

namespace CHeap

@[simp] theorem ok_bind {ε α β : Type} (a : α) (f : α → Except ε β) :
    (Except.ok a >>= f) = f a := rfl

@[simp] theorem error_bind {ε α β : Type} (e : ε) (f : α → Except ε β) :
    ((Except.error e : Except ε α) >>= f) = .error e := rfl

theorem bind_eq_ok {ε α β : Type} {x : Except ε α} {f : α → Except ε β} {b : β}
    (h : (x >>= f) = .ok b) : ∃ a, x = .ok a ∧ f a = .ok b := by
  cases x with
  | error e => cases h
  | ok a => exact ⟨a, rfl, h⟩

/-- The faults of one part as faults of the whole. -/
def liftFault {ε ε' α : Type} (f : ε → ε') : Except ε α → Except ε' α
  | .error e => .error (f e)
  | .ok a => .ok a

theorem liftFault_ok {ε ε' α : Type} {f : ε → ε'} {x : Except ε α} {a : α}
    (hlift : liftFault f x = .ok a) : x = .ok a := by
  cases x with
  | error e => cases hlift
  | ok b => exact congrArg _ (Except.ok.inj hlift)

/-- A fold whose steps go through exactly for elements of some kind goes through exactly when all
elements are of that kind. -/
theorem foldlM_ok_iff {ε α β : Type} {f : β → α → Except ε β} {P : α → Prop}
    (hstep : ∀ s x, (∃ t, f s x = .ok t) ↔ P x) (xs : List α) (s : β) :
    (∃ t, xs.foldlM f s = .ok t) ↔ ∀ x ∈ xs, P x := by
  induction xs generalizing s with
  | nil => exact ⟨fun _ _ hx => absurd hx List.not_mem_nil, fun _ => ⟨s, rfl⟩⟩
  | cons x xs ih =>
      rw [List.forall_mem_cons, List.foldlM_cons, ← hstep s]
      constructor
      · rintro ⟨t, hfold⟩
        obtain ⟨u, hu, hrest⟩ := bind_eq_ok hfold
        exact ⟨⟨u, hu⟩, (ih u).mp ⟨t, hrest⟩⟩
      · rintro ⟨⟨u, hu⟩, hxs⟩
        rw [hu, ok_bind]
        exact (ih u).mpr hxs

variable {σ : Type} {β γ : Type*}

/-- `while (cond) body`, given up as unbounded when it has not ended after the given rounds. -/
def whileLoop (cond : σ → Except Fault Bool) (body : σ → Except Fault σ) : Nat → σ → Except Fault σ
  | 0, s => do
      if ← cond s then .error .unbounded else .ok s
  | rounds + 1, s => do
      if ← cond s then
        let s ← body s
        whileLoop cond body rounds s
      else .ok s

theorem whileLoop_of_false {cond : σ → Except Fault Bool} {s : σ} (hcond : cond s = .ok false)
    (body : σ → Except Fault σ) (rounds : Nat) : whileLoop cond body rounds s = .ok s := by
  cases rounds <;> simp [whileLoop, hcond]

/-- A loop whose rounds take the elements of a list one by one ends, unless a round faults, which
`Bad` has to allow. `R rest s` says that `s` has `rest` still to come. -/
theorem whileLoop_drain (cond : σ → Except Fault Bool) (body : σ → Except Fault σ)
    (R : List β → σ → Prop) (Bad : Prop) (hnil : ∀ s, R [] s → cond s = .ok false)
    (hcons : ∀ x rest s, R (x :: rest) s → cond s = .ok true ∧
      ((∃ s', body s = .ok s' ∧ R rest s') ∨ ((∃ e, body s = .error e) ∧ Bad)))
    (rest : List β) (rounds : Nat) (s : σ) (hlen : rest.length ≤ rounds) (hR : R rest s) :
    (∃ s', whileLoop cond body rounds s = .ok s' ∧ R [] s') ∨
      ((∃ e, whileLoop cond body rounds s = .error e) ∧ Bad) := by
  induction rest generalizing rounds s with
  | nil =>
      exact Or.inl ⟨s, whileLoop_of_false (hnil s hR) body rounds, hR⟩
  | cons x rest ih =>
      obtain ⟨hcond, hround⟩ := hcons x rest s hR
      cases rounds with
      | zero => simp at hlen
      | succ rounds =>
          rcases hround with ⟨s', hbody, hR'⟩ | ⟨⟨e, hbody⟩, hbad⟩
          · have hloop : whileLoop cond body (rounds + 1) s = whileLoop cond body rounds s' := by
              simp [whileLoop, hcond, hbody]
            rw [hloop]
            exact ih rounds s' (by simpa using hlen) hR'
          · exact Or.inr ⟨⟨e, by simp [whileLoop, hcond, hbody]⟩, hbad⟩

/-- A loop whose rounds take the elements of a list one by one ends in the state that folding the
list gives. `R rest acc s` says that `s` has `rest` still to come and stands at `acc`. -/
theorem whileLoop_foldl (cond : σ → Except Fault Bool) (body : σ → Except Fault σ)
    (R : List β → γ → σ → Prop) (f : γ → β → γ)
    (hnil : ∀ acc s, R [] acc s → cond s = .ok false)
    (hcons : ∀ x rest acc s, R (x :: rest) acc s →
      cond s = .ok true ∧ ∃ s', body s = .ok s' ∧ R rest (f acc x) s')
    (rest : List β) (rounds : Nat) (acc : γ) (s : σ) (hlen : rest.length ≤ rounds)
    (hR : R rest acc s) :
    ∃ s', whileLoop cond body rounds s = .ok s' ∧ R [] (rest.foldl f acc) s' := by
  have hdrain := whileLoop_drain cond body
    (fun rest' s => ∃ acc', R rest' acc' s ∧ rest'.foldl f acc' = rest.foldl f acc) False
    (fun s hs => by
      obtain ⟨acc', hR', -⟩ := hs
      exact hnil acc' s hR')
    (fun x rest' s hs => by
      obtain ⟨acc', hR', hfold⟩ := hs
      obtain ⟨hcond, s', hbody, hnext⟩ := hcons x rest' acc' s hR'
      exact ⟨hcond, Or.inl ⟨s', hbody, f acc' x, hnext, hfold⟩⟩)
    rest rounds s hlen ⟨acc, hR, rfl⟩
  rcases hdrain with ⟨s', hloop, acc', hR', hfold⟩ | ⟨-, hfalse⟩
  · rw [List.foldl_nil] at hfold
    exact ⟨s', hloop, hfold ▸ hR'⟩
  · exact hfalse.elim

/-- What every round keeps holds when the loop ends. -/
theorem whileLoop_invariant {cond : σ → Except Fault Bool} {body : σ → Except Fault σ} {I : σ → Prop}
    (hround : ∀ s t, I s → body s = .ok t → I t) {rounds : Nat} {s t : σ} (hs : I s)
    (hloop : whileLoop cond body rounds s = .ok t) : I t := by
  induction rounds generalizing s with
  | zero =>
      obtain ⟨more, -, hend⟩ := bind_eq_ok hloop
      cases more with
      | true => cases hend
      | false =>
          cases hend
          exact hs
  | succ rounds ih =>
      obtain ⟨more, -, hrest⟩ := bind_eq_ok hloop
      cases more with
      | true =>
          obtain ⟨u, hbody, hrest⟩ := bind_eq_ok hrest
          exact ih (hround s u hs hbody) hrest
      | false =>
          cases hrest
          exact hs

/-- A loop that can always take another round does not end in any number of them. -/
theorem whileLoop_endless (cond : σ → Except Fault Bool) (body : σ → Except Fault σ)
    (I : σ → Prop)
    (hround : ∀ s, I s → cond s = .ok true ∧ ∃ s', body s = .ok s' ∧ I s')
    (rounds : Nat) (s : σ) (hs : I s) : whileLoop cond body rounds s = .error .unbounded := by
  induction rounds generalizing s with
  | zero => simp [whileLoop, (hround s hs).1]
  | succ rounds ih =>
      obtain ⟨hcond, s', hbody, hs'⟩ := hround s hs
      simp only [whileLoop, hcond, hbody, ok_bind, if_true]
      exact ih s' hs'

end CHeap
