import Mathlib.Data.List.Perm.Subperm
import Mathlib.Data.List.Range
import Mathlib.Order.Lattice
import Mathlib.Order.Nat
import Mathlib.Tactic.Common

/-! A heap of cells of one type at natural-number addresses, as a C program sees it: null and
dangling pointers are faults, and `malloc` may answer with any address that is free. The heap has
finite extent, so a loop over distinct cells can be bounded by it. -/

namespace CHeap

/-- The address of a cell. A pointer is an `Option Addr`, and `none` is the null pointer. -/
abbrev Addr := Nat

/-- What stops a program: a null pointer or one to no live cell was followed, or a loop went on
for more rounds than there are cells. -/
inductive Fault where
  | nullDeref
  | dangling
  | unbounded
  deriving DecidableEq, Repr

/-- The live cells. No cell lives at or above `bound`. -/
structure Heap (α : Type*) where
  cell : Addr → Option α
  bound : Addr
  cell_above : ∀ a, bound ≤ a → cell a = none

namespace Heap

variable {α : Type*} (h : Heap α)

def empty : Heap α := ⟨fun _ => none, 0, fun _ _ => rfl⟩

/-- Write a cell, whether it was live or not. -/
def set (a : Addr) (v : α) : Heap α where
  cell b := if b = a then some v else h.cell b
  bound := max h.bound (a + 1)
  cell_above b hb := by
    have hne : b ≠ a := Nat.ne_of_gt ((le_max_right _ _).trans hb)
    rw [if_neg hne, h.cell_above b ((le_max_left _ _).trans hb)]

/-- Give a cell back. -/
def drop (a : Addr) : Heap α where
  cell b := if b = a then none else h.cell b
  bound := h.bound
  cell_above b hb := by
    split
    · rfl
    · exact h.cell_above b hb

/-- `*p` as a value. -/
def deref : Option Addr → Except Fault α
  | none => .error .nullDeref
  | some a => match h.cell a with
    | none => .error .dangling
    | some v => .ok v

/-- `*p = v`. -/
def store (p : Option Addr) (v : α) : Except Fault (Heap α) :=
  match p with
  | none => .error .nullDeref
  | some a => match h.cell a with
    | none => .error .dangling
    | some _ => .ok (h.set a v)

/-- `free(p)`, which does nothing on the null pointer. -/
def release (p : Option Addr) : Except Fault (Heap α) :=
  match p with
  | none => .ok h
  | some a => match h.cell a with
    | none => .error .dangling
    | some _ => .ok (h.drop a)

@[simp] theorem empty_cell (a : Addr) : (empty : Heap α).cell a = none := rfl

@[simp] theorem set_cell (a b : Addr) (v : α) :
    (h.set a v).cell b = if b = a then some v else h.cell b := rfl

@[simp] theorem drop_cell (a b : Addr) :
    (h.drop a).cell b = if b = a then none else h.cell b := rfl

variable {h}

theorem lt_bound {a : Addr} {v : α} (hcell : h.cell a = some v) : a < h.bound := by
  by_contra hle
  rw [h.cell_above a (Nat.le_of_not_lt hle)] at hcell
  cases hcell

theorem deref_of_cell {a : Addr} {v : α} (hcell : h.cell a = some v) :
    h.deref (some a) = .ok v := by
  simp only [deref, hcell]

theorem cell_of_deref {a : Addr} {v : α} (hderef : h.deref (some a) = .ok v) : h.cell a = some v := by
  unfold deref at hderef
  dsimp only at hderef
  split at hderef
  · cases hderef
  · next hcell =>
      cases hderef
      exact hcell

theorem store_of_cell {a : Addr} {v : α} (hcell : h.cell a = some v) (w : α) :
    h.store (some a) w = .ok (h.set a w) := by
  simp only [store, hcell]

theorem release_of_cell {a : Addr} {v : α} (hcell : h.cell a = some v) :
    h.release (some a) = .ok (h.drop a) := by
  simp only [release, hcell]

/-- The two heaps hold the same cells except at the given addresses. -/
def AgreeOff (as : List Addr) (h h' : Heap α) : Prop :=
  ∀ a, a ∉ as → h'.cell a = h.cell a

theorem AgreeOff.refl (as : List Addr) (h : Heap α) : AgreeOff as h h := fun _ _ => rfl

theorem AgreeOff.trans {as : List Addr} {h h' h'' : Heap α} (hfst : AgreeOff as h h')
    (hsnd : AgreeOff as h' h'') : AgreeOff as h h'' :=
  fun a ha => (hsnd a ha).trans (hfst a ha)

theorem AgreeOff.mono {as bs : List Addr} {h h' : Heap α} (hagree : AgreeOff as h h')
    (hsub : as ⊆ bs) : AgreeOff bs h h' :=
  fun a ha => hagree a fun hmem => ha (hsub hmem)

/-- Distinct live addresses are at most as many as the heap is long. -/
theorem length_le_bound {as : List Addr} (hnodup : as.Nodup)
    (hlive : ∀ a ∈ as, ∃ v, h.cell a = some v) : as.length ≤ h.bound := by
  have hsub : as ⊆ List.range h.bound := by
    intro a ha
    obtain ⟨v, hv⟩ := hlive a ha
    exact List.mem_range.mpr (lt_bound hv)
  have hperm := (List.subperm_of_subset hnodup hsub).length_le
  rwa [List.length_range] at hperm

end Heap

/-- An allocator that does not run out: the address it answers with is free, and the fresh cell
holds whatever it happens to hold. -/
structure Malloc (α : Type*) where
  addr : Heap α → Addr
  fresh : ∀ h : Heap α, h.cell (addr h) = none
  junk : Heap α → α

/-- The allocator that always takes the first address past the end. -/
def Malloc.bump {α : Type*} (v : α) : Malloc α where
  addr h := h.bound
  fresh h := h.cell_above _ le_rfl
  junk _ := v

end CHeap
