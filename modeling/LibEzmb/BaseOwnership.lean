import LibEzmb.BaseLedger

/-! Programs that acquire resources and give them back. A resource may belong to another one, which
has to be there when it is made and cannot be given back before it. A specification of a program says
what the program owns before and after, and that it leaves alone what others own. -/

open Ledgers

namespace Ownership

/-- What stops a program: a resource that is not there is used or given back, one is given back while
another one belongs to it, a null pointer is followed. No system gives an answer that is
impossible. -/
inductive OwnFault where
  | notHeld
  | inUse
  | nullDeref
  | impossible
  deriving DecidableEq, Repr

/-- The resource that another one belongs to, if it belongs to one. -/
class Nested (ρ : Type) where
  parent : ρ → Option ρ

/-- Resources that belong to no other ones. -/
class Flat (ρ : Type) [Nested ρ] : Prop where
  parent_none : ∀ r : ρ, Nested.parent r = none

/-- A block of memory. -/
structure Block where
  addr : Nat
  deriving DecidableEq, Repr

instance : Nested Block := ⟨fun _ => none⟩

instance : Flat Block := ⟨fun _ => rfl⟩

/-- A program over the resources that have been acquired. -/
abbrev Prog (ρ α : Type) := StateT (Account ρ) (Except OwnFault) α

variable {ρ α β ν : Type} [Nested ρ]

/-! ### The calls -/

section Calls

variable [DecidableEq ρ]

/-- A call that gives the name of a new resource, or fails. -/
def acquire (make : ν → ρ) (answer : Option ν) : Prog ρ (Option ν) := fun w =>
  match answer with
  | none => .ok (none, w)
  | some name =>
      if make name ∈ w.held then .error .impossible
      else match Nested.parent (make name) with
        | none => .ok (some name, w.take (make name))
        | some p =>
            if p ∈ w.held then .ok (some name, w.take (make name)) else .error .notHeld

/-- A call that looks at a resource. -/
def use (r : ρ) : Prog ρ Unit := fun w =>
  if r ∈ w.held then .ok ((), w) else .error .notHeld

/-- A call that gives a resource back. -/
def release (r : ρ) : Prog ρ Unit := fun w =>
  match w.give r with
  | none => .error .notHeld
  | some w' =>
      if w.held.any fun c => decide (Nested.parent c = some r) then .error .inUse else .ok ((), w')

/-- A call that gives a resource back, or does nothing when there is none. -/
def releaseOpt : Option ρ → Prog ρ Unit
  | none => pure ()
  | some r => release r

def malloc (answer : Option Nat) : Prog Block (Option Nat) := acquire Block.mk answer

/-- `free`, which does nothing on the null pointer. -/
def free (p : Option Nat) : Prog Block Unit := releaseOpt (p.map Block.mk)

end Calls

def fail (fault : OwnFault) : Prog ρ α := fun _ => .error fault

/-! ### Specifications -/

/-- Whatever belongs to something belongs to something among the resources. -/
def Closed (rs : List ρ) : Prop := ∀ r ∈ rs, ∀ p, Nested.parent r = some p → p ∈ rs

/-- Each resource is held once, and what it belongs to is held; what was taken and is not held was
given back. -/
structure Sound (w : Account ρ) : Prop where
  nodup : w.held.Nodup
  closed : Closed w.held
  balanced : w.Balanced

theorem Sound.empty : Sound (Account.empty : Account ρ) where
  nodup := List.nodup_nil
  closed _ hr := absurd hr List.not_mem_nil
  balanced := List.Perm.refl _

theorem Closed.append {rs rs' : List ρ} (hrs : Closed rs) (hrs' : Closed rs') :
    Closed (rs ++ rs') := by
  intro r hr p hp
  rcases List.mem_append.mp hr with hr | hr
  · exact List.mem_append_left _ (hrs r hr p hp)
  · exact List.mem_append_right _ (hrs' r hr p hp)

theorem Closed.flatMap {xs : List α} {resources : α → List ρ}
    (hall : ∀ x ∈ xs, Closed (resources x)) : Closed (xs.flatMap resources) := by
  intro r hr p hp
  obtain ⟨x, hx, hrx⟩ := List.mem_flatMap.mp hr
  exact List.mem_flatMap.mpr ⟨x, hx, hall x hx r hrx p hp⟩

/-- A program that owns `pre` stops with one of the faults, or ends with a value and with what it then
owns as `post` says; what others own is as before. -/
def Owns (faults : OwnFault → Prop) (pre : List ρ) (x : Prog ρ α) (post : α → List ρ → Prop) : Prop :=
  ∀ frame w, Closed frame → Sound w → w.held.Perm (pre ++ frame) →
    (∃ e, x w = .error e ∧ faults e) ∨
      ∃ a w' own, x w = .ok (a, w') ∧ post a own ∧ Sound w' ∧ w'.held.Perm (own ++ frame)

namespace Owns

variable {faults : OwnFault → Prop} {pre own : List ρ} {post : α → List ρ → Prop} {r : ρ}

theorem pure {a : α} (hpost : post a pre) : Owns faults pre (Pure.pure a) post :=
  fun _ w _ hsound hheld => Or.inr ⟨a, w, pre, rfl, hpost, hsound, hheld⟩

theorem bind {x : Prog ρ β} {f : β → Prog ρ α} {mid : β → List ρ → Prop}
    (hx : Owns faults pre x mid) (hf : ∀ b own, mid b own → Owns faults own (f b) post) :
    Owns faults pre (x >>= f) post := by
  intro frame w hframe hsound hheld
  rcases hx frame w hframe hsound hheld with ⟨e, he, hfault⟩ | ⟨b, w', own, hb, hmid, hsound', hheld'⟩
  · refine Or.inl ⟨e, ?_, hfault⟩
    show (x w).bind _ = _
    rw [he]
    rfl
  · have hrest : (x >>= f) w = f b w' := by
      show (x w).bind _ = _
      rw [hb]
      rfl
    rw [hrest]
    exact hf b own hmid frame w' hframe hsound' hheld'

theorem mono {x : Prog ρ α} {post' : α → List ρ → Prop} (hx : Owns faults pre x post)
    (hpost : ∀ a own, post a own → post' a own) : Owns faults pre x post' := by
  intro frame w hframe hsound hheld
  rcases hx frame w hframe hsound hheld with hfault | ⟨a, w', own, ha, hown, hend⟩
  · exact Or.inl hfault
  · exact Or.inr ⟨a, w', own, ha, hpost a own hown, hend⟩

/-- The order in which the resources are listed does not matter. -/
theorem perm {x : Prog ρ α} (hperm : pre.Perm own) (hx : Owns faults own x post) :
    Owns faults pre x post :=
  fun frame w hframe hsound hheld =>
    hx frame w hframe hsound (hheld.trans (hperm.append_right frame))

/-- A loop over a list keeps what each round keeps; the invariant may speak of the elements that the
loop has gone over. -/
theorem foldlM {xs : List β} {body : ν → β → Prog ρ ν} (inv : List β → ν → List ρ → Prop) {a : ν}
    (hbody : ∀ done x rest a own, xs = done ++ x :: rest → inv done a own →
      Owns faults own (body a x) (inv (done ++ [x])))
    (ha : inv [] a pre) : Owns faults pre (xs.foldlM body a) (inv xs) := by
  suffices hall : ∀ rest done a own, xs = done ++ rest → inv done a own →
      Owns faults own (rest.foldlM body a) (inv xs) from hall xs [] a pre rfl ha
  intro rest
  induction rest with
  | nil =>
      intro done a own hxs hinv
      rw [List.append_nil] at hxs
      exact .pure (hxs ▸ hinv)
  | cons x rest ih =>
      intro done a own hxs hinv
      rw [List.foldlM_cons]
      refine (hbody done x rest a own hxs hinv).bind fun b own' hb => ?_
      exact ih (done ++ [x]) b own' (by rw [hxs, List.append_assoc]; rfl) hb

theorem fail {e : OwnFault} (he : faults e) : Owns faults pre (Ownership.fail e) post :=
  fun _ _ _ _ _ => Or.inl ⟨e, rfl, he⟩

theorem fail_bind {e : OwnFault} {f : β → Prog ρ α} (he : faults e) :
    Owns faults pre (Ownership.fail e >>= f) post := fun _ _ _ _ _ => Or.inl ⟨e, rfl, he⟩

variable [DecidableEq ρ]

/-- What a call gives is owned from then on. -/
theorem acquire {make : ν → ρ} {answer : Option ν} {f : Option ν → Prog ρ α}
    (himpossible : faults .impossible)
    (hparent : ∀ name p, Nested.parent (make name) = some p → p ∈ pre)
    (hnone : answer = none → Owns faults pre (f none) post)
    (hsome : ∀ name, answer = some name → Owns faults (make name :: pre) (f (some name)) post) :
    Owns faults pre (Ownership.acquire make answer >>= f) post := by
  cases answer with
  | none => exact hnone rfl
  | some name =>
      intro frame w hframe hsound hheld
      by_cases hr : make name ∈ w.held
      · refine Or.inl ⟨.impossible, ?_, himpossible⟩
        show (Ownership.acquire make (some name) w).bind _ = _
        rw [Ownership.acquire]
        simp only [if_pos hr]
        rfl
      · have hparents : ∀ p, Nested.parent (make name) = some p → p ∈ w.held := fun p hp =>
          hheld.mem_iff.mpr (List.mem_append_left _ (hparent name p hp))
        have htake : Ownership.acquire make (some name) w = .ok (some name, w.take (make name)) := by
          rw [Ownership.acquire]
          simp only [if_neg hr]
          cases hp : Nested.parent (make name) with
          | none => rfl
          | some p => exact if_pos (hparents p hp)
        have hrest : (Ownership.acquire make (some name) >>= f) w =
            f (some name) (w.take (make name)) := by
          show (Ownership.acquire make (some name) w).bind _ = _
          rw [htake]
          rfl
        rw [hrest]
        refine hsome name rfl frame _ hframe ⟨List.nodup_cons.mpr ⟨hr, hsound.nodup⟩, ?_, ?_⟩ ?_
        · intro c hc p hp
          rcases List.mem_cons.mp hc with rfl | hc
          · exact List.mem_cons_of_mem _ (hparents p hp)
          · exact List.mem_cons_of_mem _ (hsound.closed c hc p hp)
        · exact hsound.balanced.take (make name)
        · exact hheld.cons (make name)

/-- Whatever a call gives is owned from then on. -/
theorem acquireOpt {make : ν → ρ} {answer : Option ν} {f : Option ν → Prog ρ α}
    (himpossible : faults .impossible)
    (hparent : ∀ name p, Nested.parent (make name) = some p → p ∈ pre)
    (hf : Owns faults ((answer.map make).toList ++ pre) (f answer) post) :
    Owns faults pre (Ownership.acquire make answer >>= f) post := by
  refine Owns.acquire himpossible hparent (fun hnone => ?_) fun name hname => ?_
  · subst hnone
    exact hf
  · subst hname
    exact hf

theorem use {f : Unit → Prog ρ α} (hr : r ∈ pre) (hf : Owns faults pre (f ()) post) :
    Owns faults pre (Ownership.use r >>= f) post := by
  intro frame w hframe hsound hheld
  have hmem : r ∈ w.held := hheld.mem_iff.mpr (List.mem_append_left _ hr)
  have hrest : (Ownership.use r >>= f) w = f () w := by
    show (Ownership.use r w).bind _ = _
    rw [Ownership.use, if_pos hmem]
    rfl
  rw [hrest]
  exact hf frame w hframe hsound hheld

/-- A resource that is owned, and that nothing else owned belongs to, can be given back. -/
theorem release {f : Unit → Prog ρ α} (hchild : ∀ c ∈ own, Nested.parent c ≠ some r)
    (hself : Nested.parent r ≠ some r) (hf : Owns faults own (f ()) post) :
    Owns faults (r :: own) (Ownership.release r >>= f) post := by
  intro frame w hframe hsound hheld
  have hr : r ∈ w.held := hheld.mem_iff.mpr List.mem_cons_self
  have hheld' : (w.held.erase r).Perm (own ++ frame) := by
    have herase := hheld.erase r
    rwa [List.cons_append, List.erase_cons_head] at herase
  have hnodup : (r :: (own ++ frame)).Nodup := hheld.nodup_iff.mp hsound.nodup
  have hothers : ∀ c ∈ own ++ frame, Nested.parent c ≠ some r := by
    intro c hc hp
    rcases List.mem_append.mp hc with hown | hfr
    · exact hchild c hown hp
    · exact (List.nodup_cons.mp hnodup).1 (List.mem_append_right _ (hframe c hfr r hp))
  have hfree : (w.held.any fun c => decide (Nested.parent c = some r)) = false := by
    rw [List.any_eq_false]
    intro c hc
    rw [decide_eq_true_eq]
    rcases List.mem_cons.mp (hheld.mem_iff.mp hc) with rfl | hc
    · exact hself
    · exact hothers c hc
  have hrest : (Ownership.release r >>= f) w =
      f () ⟨w.taken, w.held.erase r, r :: w.back⟩ := by
    show (Ownership.release r w).bind _ = _
    rw [Ownership.release, Account.give_of_mem hr]
    simp only [hfree]
    rfl
  rw [hrest]
  refine hf frame _ hframe ⟨hsound.nodup.erase r, fun c hc p hp => ?_, ?_⟩ hheld'
  · have hc' : c ∈ own ++ frame := hheld'.mem_iff.mp hc
    have hp' : p ∈ w.held := hsound.closed c (List.mem_of_mem_erase hc) p hp
    refine (List.mem_erase_of_ne ?_).mpr hp'
    rintro rfl
    exact hothers c hc' hp
  · exact hsound.balanced.give (Account.give_of_mem hr)

/-- Whatever it may be, it is given back. -/
theorem releaseOpt {x : Option ρ} {f : Unit → Prog ρ α}
    (hchild : ∀ r ∈ x, ∀ c ∈ own, Nested.parent c ≠ some r)
    (hself : ∀ r ∈ x, Nested.parent r ≠ some r) (hf : Owns faults own (f ()) post) :
    Owns faults (x.toList ++ own) (Ownership.releaseOpt x >>= f) post := by
  cases x with
  | none => exact hf
  | some r => exact Owns.release (hchild r rfl) (hself r rfl) hf

end Owns

/-! ### Flat resources and memory -/

theorem Flat.closed [Flat ρ] (rs : List ρ) : Closed rs := by
  intro r _ p hp
  rw [Flat.parent_none] at hp
  cases hp

namespace Owns

section Flat

variable [Flat ρ] [DecidableEq ρ] {faults : OwnFault → Prop} {pre own : List ρ}
  {post : α → List ρ → Prop} {r : ρ}

theorem acquireFlat {make : ν → ρ} {answer : Option ν} {f : Option ν → Prog ρ α}
    (himpossible : faults .impossible)
    (hnone : answer = none → Owns faults pre (f none) post)
    (hsome : ∀ name, answer = some name → Owns faults (make name :: pre) (f (some name)) post) :
    Owns faults pre (Ownership.acquire make answer >>= f) post := by
  refine Owns.acquire himpossible (fun name p hp => ?_) hnone hsome
  rw [Flat.parent_none] at hp
  cases hp

omit [Flat ρ] in
/-- A call that fails leaves nothing to own. -/
theorem acquireNone {make : ν → ρ} {f : Option ν → Prog ρ α} (hf : Owns faults pre (f none) post) :
    Owns faults pre (Ownership.acquire make none >>= f) post := hf

theorem acquireSome {make : ν → ρ} {name : ν} {f : Option ν → Prog ρ α}
    (himpossible : faults .impossible) (hf : Owns faults (make name :: pre) (f (some name)) post) :
    Owns faults pre (Ownership.acquire make (some name) >>= f) post := by
  refine Owns.acquireFlat himpossible (fun hnone => ?_) fun name' hname => ?_
  · cases hnone
  · cases hname
    exact hf

omit [DecidableEq ρ] in
theorem parent_ne (c r : ρ) : Nested.parent c ≠ some r := by
  rw [Flat.parent_none]
  exact (Option.some_ne_none r).symm

theorem releaseFlat {f : Unit → Prog ρ α} (hf : Owns faults own (f ()) post) :
    Owns faults (r :: own) (Ownership.release r >>= f) post :=
  Owns.release (fun c _ => parent_ne c r) (parent_ne r r) hf

theorem releaseOptFlat {x : Option ρ} {f : Unit → Prog ρ α} (hf : Owns faults own (f ()) post) :
    Owns faults (x.toList ++ own) (Ownership.releaseOpt x >>= f) post :=
  Owns.releaseOpt (fun r _ c _ => parent_ne c r) (fun r _ => parent_ne r r) hf

end Flat

section Memory

variable {faults : OwnFault → Prop} {pre own : List Block} {post : α → List Block → Prop}

theorem malloc {answer : Option Nat} {f : Option Nat → Prog Block α}
    (himpossible : faults .impossible)
    (hf : Owns faults ((answer.map Block.mk).toList ++ pre) (f answer) post) :
    Owns faults pre (Ownership.malloc answer >>= f) post :=
  Owns.acquireOpt himpossible nofun hf

theorem free {p : Option Nat} {f : Unit → Prog Block α} (hf : Owns faults own (f ()) post) :
    Owns faults ((p.map Block.mk).toList ++ own) (Ownership.free p >>= f) post :=
  Owns.releaseOptFlat hf

end Memory

end Owns

end Ownership
