import Mathlib.Data.List.Basic
import Mathlib.Tactic.Common

/-! Variables that are initialised, used and closed, as a program goes through them. A program that
may wait leaves the operations it has made behind; the rules of pre- and postconditions follow the
variables that are initialised at each point. -/

namespace Typestate

variable {ν α β : Type}

inductive Op (ν : Type) where
  | init (v : ν)
  | use (v : ν)
  | close (v : ν)
  deriving DecidableEq, Repr

/-- A program with the operations it makes; it has no value while it waits. -/
structure Traced (ν α : Type) where
  ops : List (Op ν)
  value : Option α

namespace Traced

def make (op : Op ν) : Traced ν Unit := ⟨[op], some ()⟩

/-- A step that makes no operation and may wait. -/
def await (value : Option α) : Traced ν α := ⟨[], value⟩

def bind (x : Traced ν α) (f : α → Traced ν β) : Traced ν β :=
  match x.value with
  | none => ⟨x.ops, none⟩
  | some a => ⟨x.ops ++ (f a).ops, (f a).value⟩

instance : Monad (Traced ν) where
  pure a := ⟨[], some a⟩
  bind := bind

@[simp] theorem pure_value (a : α) : (pure a : Traced ν α).value = some a := rfl

@[simp] theorem make_value (op : Op ν) : (make op).value = some () := rfl

@[simp] theorem await_value (value : Option α) : (await value : Traced ν α).value = value := rfl

@[simp] theorem bind_value (x : Traced ν α) (f : α → Traced ν β) :
    (x >>= f).value = x.value.bind fun a => (f a).value := by
  change (bind x f).value = _
  unfold bind
  cases x.value <;> rfl

end Traced

variable [DecidableEq ν]

/-- An operation on the variables that are initialised: one that is initialised is not initialised
again, and one that is not is neither used nor closed. -/
def Op.apply (held : List ν) : Op ν → Option (List ν)
  | .init v => if v ∈ held then none else some (v :: held)
  | .use v => if v ∈ held then some held else none
  | .close v => if v ∈ held then some (held.erase v) else none

/-- The variables that are initialised after the operations, if they follow the protocol. -/
def track (held : List ν) (ops : List (Op ν)) : Option (List ν) := ops.foldlM Op.apply held

@[simp] theorem track_nil (held : List ν) : track held [] = some held := rfl

@[simp] theorem track_cons (held : List ν) (op : Op ν) (ops : List (Op ν)) :
    track held (op :: ops) = (op.apply held).bind fun held => track held ops := rfl

theorem track_append (held : List ν) (ops ops' : List (Op ν)) :
    track held (ops ++ ops') = (track held ops).bind fun held => track held ops' :=
  List.foldlM_append ..

/-- What follows the protocol as a whole does so at every moment. -/
theorem track_prefix {held : List ν} {ops ops' : List (Op ν)}
    (htrack : (track held ops').isSome) (hpre : ops <+: ops') : (track held ops).isSome := by
  obtain ⟨rest, rfl⟩ := hpre
  rw [track_append] at htrack
  cases hops : track held ops with
  | some held' => rfl
  | none =>
      rw [hops] at htrack
      cases htrack

/-! ### Rules -/

/-- From `held` the program follows the protocol, and where it has a value it ends as `post` says. -/
def Leads (held : List ν) (x : Traced ν α) (post : α → List ν → Prop) : Prop :=
  ∃ held', track held x.ops = some held' ∧ ∀ a, x.value = some a → post a held'

namespace Leads

variable {held : List ν} {post : α → List ν → Prop} {v : ν}

theorem pure {a : α} (hpost : post a held) : Leads held (Pure.pure a) post :=
  ⟨held, rfl, fun b hb => by cases hb; exact hpost⟩

theorem await {value : Option α} (hpost : ∀ a, value = some a → post a held) :
    Leads held (Traced.await value) post :=
  ⟨held, rfl, hpost⟩

theorem bind {x : Traced ν β} {f : β → Traced ν α} {mid : β → List ν → Prop}
    (hx : Leads held x mid) (hf : ∀ b held', mid b held' → Leads held' (f b) post) :
    Leads held (x >>= f) post := by
  obtain ⟨held', htrack, hmid⟩ := hx
  change Leads held (Traced.bind x f) post
  unfold Traced.bind
  cases hvalue : x.value with
  | none => exact ⟨held', htrack, fun _ ha => (nomatch ha)⟩
  | some b =>
      obtain ⟨held'', htrack', hpost⟩ := hf b held' (hmid b hvalue)
      refine ⟨held'', ?_, hpost⟩
      change track held (x.ops ++ (f b).ops) = _
      rw [track_append, htrack]
      exact htrack'

theorem make {op : Op ν} {held' : List ν} {f : Unit → Traced ν α}
    (happly : op.apply held = some held') (hf : Leads held' (f ()) post) :
    Leads held (Traced.make op >>= f) post := by
  have hop : Leads held (Traced.make op) fun _ held'' => held'' = held' :=
    ⟨held', by rw [Traced.make, track_cons, happly]; rfl, fun _ _ => rfl⟩
  refine hop.bind ?_
  rintro _ _ rfl
  exact hf

theorem init {f : Unit → Traced ν α} (hnew : v ∉ held) (hf : Leads (v :: held) (f ()) post) :
    Leads held (Traced.make (.init v) >>= f) post :=
  make (if_neg hnew) hf

theorem use {f : Unit → Traced ν α} (hheld : v ∈ held) (hf : Leads held (f ()) post) :
    Leads held (Traced.make (.use v) >>= f) post :=
  make (if_pos hheld) hf

theorem close {f : Unit → Traced ν α} (hheld : v ∈ held) (hf : Leads (held.erase v) (f ()) post) :
    Leads held (Traced.make (.close v) >>= f) post :=
  make (if_pos hheld) hf

end Leads

/-! ### Rounds of a loop -/

/-- After every number of rounds all variables are closed, and the rounds have followed the protocol
so far. -/
def Closed (rounds : List (List (Op ν))) : Prop :=
  ∀ n, track [] (rounds.take n).flatten = some []

/-- A loop keeps its variables closed exactly when every round does. -/
theorem closed_iff (rounds : List (List (Op ν))) :
    Closed rounds ↔ ∀ ops ∈ rounds, track [] ops = some [] := by
  induction rounds with
  | nil => exact ⟨fun _ _ h => absurd h List.not_mem_nil, fun _ n => by rw [List.take_nil]; rfl⟩
  | cons ops rounds ih =>
      rw [List.forall_mem_cons, ← ih]
      constructor
      · intro hclosed
        have hfirst : track [] ops = some [] := by simpa using hclosed 1
        refine ⟨hfirst, fun n => ?_⟩
        have hnext := hclosed (n + 1)
        rwa [List.take_succ_cons, List.flatten_cons, track_append, hfirst] at hnext
      · rintro ⟨hfirst, hrest⟩ n
        cases n with
        | zero => rfl
        | succ n =>
            rw [List.take_succ_cons, List.flatten_cons, track_append, hfirst]
            exact hrest n

end Typestate
