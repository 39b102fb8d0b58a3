import Mathlib.Data.List.Nodup
import Mathlib.Tactic.Common

/-! Collections in the order of insertion whose elements carry their key, each key at most once. -/

namespace KeyedLists

/-- Elements in the order they came, no two with one key. -/
structure Keyed {α κ : Type} (key : α → κ) where
  items : List α
  nodup : (items.map key).Nodup

namespace Keyed

variable {α κ : Type} {key : α → κ}

def empty (key : α → κ) : Keyed key := ⟨[], List.nodup_nil⟩

def keys (w : Keyed key) : List κ := w.items.map key

def size (w : Keyed key) : Nat := w.items.length

/-- A new element goes to the end. -/
def append (w : Keyed key) (x : α) (hnew : key x ∉ w.keys) : Keyed key where
  items := w.items ++ [x]
  nodup := by
    rw [List.map_append, List.map_singleton, List.nodup_append]
    refine ⟨w.nodup, List.nodup_singleton _, fun k hk k' hk' => ?_⟩
    rw [List.mem_singleton] at hk'
    rintro rfl
    exact hnew (hk' ▸ hk)

theorem keys_append {w : Keyed key} {x : α} (hnew : key x ∉ w.keys) :
    (w.append x hnew).keys = w.keys ++ [key x] := List.map_append

/-- Elements changed in place, under their keys. -/
def mapItems (w : Keyed key) (f : α → α) (hkey : ∀ x ∈ w.items, key (f x) = key x) : Keyed key where
  items := w.items.map f
  nodup := by
    have hmap : (w.items.map f).map key = w.items.map key := by
      rw [List.map_map]
      exact List.map_congr_left hkey
    rw [hmap]
    exact w.nodup

theorem mem_keys {w : Keyed key} {x : α} (hx : x ∈ w.items) : key x ∈ w.keys :=
  List.mem_map_of_mem hx

variable [DecidableEq κ]

def find? (w : Keyed key) (k : κ) : Option α := w.items.find? fun x => decide (key x = k)

def erase (w : Keyed key) (k : κ) : Keyed key where
  items := w.items.filter fun x => decide (key x ≠ k)
  nodup := w.nodup.sublist (List.filter_sublist.map key)

theorem find?_of_mem {w : Keyed key} {x : α} (hx : x ∈ w.items) : w.find? (key x) = some x := by
  cases hfind : w.find? (key x) with
  | none =>
      have hnone := List.find?_eq_none.mp hfind x hx
      simp at hnone
  | some y =>
      have hkey : key y = key x := by
        have hpass := List.find?_some hfind
        exact of_decide_eq_true hpass
      rw [List.inj_on_of_nodup_map w.nodup (List.mem_of_find?_eq_some hfind) hx hkey]

theorem find?_of_notMem {w : Keyed key} {k : κ} (hk : k ∉ w.keys) : w.find? k = none := by
  rw [find?, List.find?_eq_none]
  intro x hx hpass
  exact hk (of_decide_eq_true hpass ▸ mem_keys hx)

theorem erase_of_notMem {w : Keyed key} {k : κ} (hk : k ∉ w.keys) : w.erase k = w := by
  have hitems : (w.erase k).items = w.items := by
    apply List.filter_eq_self.mpr
    intro x hx
    refine decide_eq_true fun heq => hk ?_
    rw [← heq]
    exact mem_keys hx
  cases w
  simpa only [erase, Keyed.mk.injEq] using hitems

end Keyed

/-! ### Tables -/

section Tables

variable {κ γ β : Type} [BEq κ] [LawfulBEq κ]

theorem lookup_eq_none {table : List (κ × γ)} {k : κ} (hk : k ∉ table.map Prod.fst) :
    table.lookup k = none := by
  rw [List.lookup_eq_none_iff]
  intro x hx
  rw [bne_iff_ne]
  rintro rfl
  exact hk (List.mem_map_of_mem hx)

/-- The entries of a table that have a value, with their values: a key is looked up in the table. -/
theorem lookup_filterMap {table : List (κ × γ)} (hnodup : (table.map Prod.fst).Nodup)
    (value : γ → Option β) (k : κ) :
    (table.filterMap fun x => (value x.2).map fun d => (x.1, d)).lookup k =
      (table.lookup k).bind value := by
  induction table with
  | nil => rfl
  | cons x table ih =>
      rw [List.map_cons, List.nodup_cons] at hnodup
      have hrest := ih hnodup.2
      rw [List.filterMap_cons, List.lookup_cons]
      by_cases hk : k = x.1
      · subst hk
        rw [lookup_eq_none hnodup.1] at hrest
        cases hvalue : value x.2 with
        | none => simpa [hvalue] using hrest
        | some d => simp [hvalue]
      · have hbeq : (k == x.1) = false := beq_false_of_ne hk
        cases hvalue : value x.2 with
        | none => simpa [hbeq, hvalue] using hrest
        | some d => simpa [hbeq, hvalue, List.lookup_cons] using hrest

end Tables

end KeyedLists
