import Mathlib.Data.List.Perm.Basic
import Mathlib.Tactic.Common

/-! An array of slots whose first slots are in use, without order: an element goes into the first
unused slot, and the last one moves into the hole when an element is taken out. -/

namespace Slots

variable {α : Type*}

/-- The elements in the first `n` slots. -/
def used (slots : List α) (n : Nat) : List α := slots.take n

theorem used_length {slots : List α} {n : Nat} (hfits : n ≤ slots.length) :
    (used slots n).length = n := by
  rw [used, List.length_take, Nat.min_eq_left hfits]

theorem used_append {slots : List α} {n : Nat} (hfits : n ≤ slots.length) (more : List α) :
    used (slots ++ more) n = used slots n := List.take_append_of_le_length hfits

/-- An element put into the first unused slot. -/
theorem used_set_next {slots : List α} {n : Nat} (hroom : n < slots.length) (a : α) :
    used (slots.set n a) (n + 1) = used slots n ++ [a] := by
  rw [used, List.take_add_one, List.take_set_of_le (Nat.le_refl _), List.getElem?_set_self hroom]
  rfl

/-- With the last element in the place of another one, the others are left. -/
theorem dropLast_set_getLast_perm {l : List α} {i : Nat} (hi : i < l.length) {last : α}
    (hlast : l.getLast? = some last) : (l.set i last).dropLast.Perm (l.eraseIdx i) := by
  obtain ⟨init, rfl⟩ := List.getLast?_eq_some_iff.mp hlast
  rw [List.length_append, List.length_singleton] at hi
  by_cases hend : i < init.length
  · rw [List.set_append_left _ _ hend, List.dropLast_concat, List.eraseIdx_append_of_lt_length hend]
    exact (List.set_perm_cons_eraseIdx hend last).trans (List.perm_append_singleton _ _).symm
  · obtain rfl : i = init.length := by omega
    rw [List.set_append_right _ _ (Nat.le_refl _), List.eraseIdx_append_of_length_le (Nat.le_refl _), Nat.sub_self]
    simp

/-- The last element in use moved into a used slot. -/
theorem used_swap_last_perm {slots : List α} {n i : Nat} (hfits : n ≤ slots.length) (hi : i < n)
    {last : α} (hlast : slots[n - 1]? = some last) :
    (used (slots.set i last) (n - 1)).Perm ((used slots n).eraseIdx i) := by
  have hlength := used_length hfits
  have hgetLast : (used slots n).getLast? = some last := by
    rw [List.getLast?_eq_getElem?, hlength, used, List.getElem?_take_of_lt (by omega), hlast]
  have htake : used (slots.set i last) (n - 1) = ((used slots n).set i last).dropLast := by
    rw [List.dropLast_eq_take, List.length_set, hlength, used, used, ← List.take_set, List.take_take,
      Nat.min_eq_left (by omega)]
  rw [htake]
  exact dropLast_set_getLast_perm (by omega) hgetLast

/-- A list around one of its elements, and the list with another element there. -/
theorem set_split {l : List α} {k : Nat} {x : α} (hx : l[k]? = some x) (y : α) :
    ∃ pre post, l = pre ++ x :: post ∧ l.set k y = pre ++ y :: post := by
  obtain ⟨hk, rfl⟩ := List.getElem?_eq_some_iff.mp hx
  refine ⟨l.take k, l.drop (k + 1), ?_, ?_⟩
  · rw [List.getElem_cons_drop, List.take_append_drop]
  · rw [List.set_eq_take_append_cons_drop, if_pos hk]

end Slots
