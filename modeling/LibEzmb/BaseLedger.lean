import Mathlib.Data.List.Count
import Mathlib.Data.List.Nodup
import Mathlib.Logic.Function.Basic
import Mathlib.Tactic.Common

/-! Values spread over named places: how often a value occurs in all of them together when the
content of one place is replaced, or moved to another one. And handles that are taken and given back:
what has been taken is held or has been given back. -/

namespace Ledgers

variable {ι α : Type}

/-- What the named places hold together. -/
def spread (names : List ι) (place : ι → List α) : List α := names.flatMap place

theorem spread_cons (i : ι) (names : List ι) (place : ι → List α) :
    spread (i :: names) place = place i ++ spread names place := List.flatMap_cons ..

theorem spread_append (names names' : List ι) (place : ι → List α) :
    spread (names ++ names') place = spread names place ++ spread names' place :=
  List.flatMap_append ..

theorem spread_congr {names : List ι} {place place' : ι → List α}
    (hsame : ∀ i ∈ names, place i = place' i) : spread names place = spread names place' :=
  List.flatMap_congr hsame

variable [DecidableEq ι]

theorem spread_update_of_notMem {names : List ι} {i : ι} (hi : i ∉ names) (place : ι → List α)
    (xs : List α) : spread names (Function.update place i xs) = spread names place := by
  apply spread_congr
  intro j hj
  exact Function.update_of_ne (ne_of_mem_of_not_mem hj hi) ..

variable [BEq α]

/-- Replacing the content of one place takes the old values away and adds the new ones. -/
theorem count_spread_update {names : List ι} (hnodup : names.Nodup) {i : ι} (hi : i ∈ names)
    (place : ι → List α) (xs : List α) (x : α) :
    (spread names (Function.update place i xs)).count x + (place i).count x =
      (spread names place).count x + xs.count x := by
  induction names with
  | nil => cases hi
  | cons j names ih =>
      rw [List.nodup_cons] at hnodup
      simp only [spread_cons, List.count_append]
      by_cases hij : j = i
      · subst hij
        rw [spread_update_of_notMem hnodup.1, Function.update_self]
        omega
      · have hrest := ih hnodup.2 (List.mem_of_ne_of_mem (fun heq => hij heq.symm) hi)
        rw [Function.update_of_ne hij]
        omega

/-- Moving the content of one place behind that of another one changes no count. -/
theorem count_spread_move {names : List ι} (hnodup : names.Nodup) {i j : ι} (hi : i ∈ names)
    (hj : j ∈ names) (hne : j ≠ i) (place : ι → List α) (x : α) :
    (spread names (Function.update (Function.update place i []) j (place j ++ place i))).count x =
      (spread names place).count x := by
  have htake := count_spread_update hnodup hi place [] x
  have hput := count_spread_update hnodup hj (Function.update place i []) (place j ++ place i) x
  rw [Function.update_of_ne hne, List.count_append] at hput
  rw [List.count_nil] at htake
  omega

end Ledgers

namespace Ledgers

variable {α : Type}

/-- Handles of one kind: all that were ever taken, those held, and those given back. -/
structure Account (α : Type) where
  taken : List α
  held : List α
  back : List α

namespace Account

def empty : Account α := ⟨[], [], []⟩

def take (x : Account α) (a : α) : Account α := ⟨a :: x.taken, a :: x.held, x.back⟩

/-- Giving back what is not held fails. -/
def give [DecidableEq α] (x : Account α) (a : α) : Option (Account α) :=
  if a ∈ x.held then some ⟨x.taken, x.held.erase a, a :: x.back⟩ else none

/-- Each handle was given back as often as it was taken, but for those held. -/
def Balanced (x : Account α) : Prop := x.taken.Perm (x.held ++ x.back)

variable {x y : Account α} {a : α}

theorem Balanced.take (hbalanced : x.Balanced) (a : α) : (x.take a).Balanced :=
  List.Perm.cons a hbalanced

variable [DecidableEq α]

theorem give_of_mem (ha : a ∈ x.held) :
    x.give a = some ⟨x.taken, x.held.erase a, a :: x.back⟩ := if_pos ha

theorem Balanced.give (hbalanced : x.Balanced) (hgive : x.give a = some y) : y.Balanced := by
  unfold Account.give at hgive
  split at hgive
  · next ha =>
      cases hgive
      refine hbalanced.trans ?_
      calc
        (x.held ++ x.back).Perm (a :: x.held.erase a ++ x.back) :=
          (List.perm_cons_erase ha).append_right _
        (a :: x.held.erase a ++ x.back).Perm (x.held.erase a ++ a :: x.back) :=
          List.perm_middle.symm
  · cases hgive

end Account

/-! ### Handles and their owners -/

section Owners

variable {ι : Type} [DecidableEq ι] {owners : List ι} {handle : ι → Option α}
  {held : List α} {i : ι} {a : α}

theorem filterMap_erase_perm (hi : i ∈ owners) :
    (owners.filterMap handle).Perm ((handle i).toList ++ (owners.erase i).filterMap handle) := by
  have hperm := (List.perm_cons_erase hi).filterMap handle
  cases hhandle : handle i with
  | none => simpa [hhandle] using hperm
  | some a => simpa [hhandle] using hperm

/-- The handle of one of the owners is held, and the others hold the rest. -/
theorem held_erase [DecidableEq α] (hheld : held.Perm (owners.filterMap handle)) (hi : i ∈ owners)
    (hhandle : handle i = some a) :
    a ∈ held ∧ (held.erase a).Perm ((owners.erase i).filterMap handle) := by
  have hperm := hheld.trans (filterMap_erase_perm hi)
  rw [hhandle] at hperm
  refine ⟨hperm.symm.subset List.mem_cons_self, ?_⟩
  have herase := hperm.erase a
  rwa [Option.toList_some, List.singleton_append, List.erase_cons_head] at herase

theorem held_erase_none (hheld : held.Perm (owners.filterMap handle)) (hi : i ∈ owners)
    (hhandle : handle i = none) : held.Perm ((owners.erase i).filterMap handle) := by
  have hperm := hheld.trans (filterMap_erase_perm hi)
  rwa [hhandle] at hperm

/-- A handle that is held once has one owner. -/
theorem owner_unique {j : ι} (hnodup : (owners.filterMap handle).Nodup) (hi : i ∈ owners)
    (hj : j ∈ owners) (hhandle : handle i = some a) (hhandle' : handle j = some a) : i = j := by
  by_contra hne
  have hperm : (owners.filterMap handle).Perm _ := filterMap_erase_perm hi
  rw [hhandle] at hperm
  have hother : a ∈ (owners.erase i).filterMap handle :=
    List.mem_filterMap.mpr ⟨j, (List.mem_erase_of_ne fun heq => hne heq.symm).mpr hj, hhandle'⟩
  exact (List.nodup_cons.mp (hperm.nodup_iff.mp hnodup)).1 hother

theorem filterMap_erase_update (hnodup : owners.Nodup) (x : Option α) :
    (owners.erase i).filterMap (Function.update handle i x) = (owners.erase i).filterMap handle := by
  apply List.filterMap_congr
  intro j hj
  exact Function.update_of_ne (fun heq => hnodup.not_mem_erase (heq ▸ hj)) _ _

/-- One of the owners that holds nothing takes a handle. -/
theorem filterMap_update_some (hnodup : owners.Nodup) (hi : i ∈ owners) (hhandle : handle i = none)
    (a : α) : (owners.filterMap (Function.update handle i (some a))).Perm
      (a :: owners.filterMap handle) := by
  have hnew : (owners.filterMap (Function.update handle i (some a))).Perm _ :=
    filterMap_erase_perm hi
  have hold : (owners.filterMap handle).Perm _ := filterMap_erase_perm hi
  rw [filterMap_erase_update hnodup, Function.update_self] at hnew
  rw [hhandle] at hold
  exact hnew.trans (hold.symm.cons a)

/-- One of the owners gives up the handle it has. -/
theorem filterMap_update_none (hnodup : owners.Nodup) (hi : i ∈ owners) :
    (owners.filterMap (Function.update handle i none)).Perm ((owners.erase i).filterMap handle) := by
  have hnew : (owners.filterMap (Function.update handle i none)).Perm _ :=
    filterMap_erase_perm hi
  rwa [filterMap_erase_update hnodup, Function.update_self] at hnew

end Owners

end Ledgers
