import LibEzmb.BaseChain

/-! An array of fixed size that a loop fills from its start: as long as there is room it holds what
was put, and a loop over a list that puts at most one entry for each element has room when the array
is as long as the list. -/

open CHeap

namespace Buffers

variable {α δ : Type}

/-- The cells, `none` where nothing has been written yet, and the index of the next one. -/
structure Buffer (α : Type) where
  cells : List (Option α)
  used : Nat
  deriving DecidableEq, Repr

namespace Buffer

def alloc (n : Nat) : Buffer α := ⟨List.replicate n none, 0⟩

/-- `cells[used] = x; used++;`. Past the end there is no memory of the array. -/
def put (b : Buffer α) (x : α) : Except Fault (Buffer α) :=
  if b.used < b.cells.length then .ok ⟨b.cells.set b.used (some x), b.used + 1⟩
  else .error .dangling

/-- `put`, when there is an entry to put. -/
def putSome (b : Buffer α) : Option α → Except Fault (Buffer α)
  | none => .ok b
  | some x => b.put x

/-- The array has this many cells, and these entries have been put. -/
structure Filled (b : Buffer α) (n : Nat) (xs : List α) : Prop where
  size : b.cells.length = n
  used : b.used = xs.length
  written : b.cells.take b.used = xs.map some

variable {b : Buffer α} {n : Nat} {xs : List α}

theorem Filled.alloc (n : Nat) : (alloc n : Buffer α).Filled n [] :=
  ⟨List.length_replicate, rfl, rfl⟩

theorem Filled.used_le (hfilled : b.Filled n xs) : b.used ≤ n := by
  have hlength := congrArg List.length hfilled.written
  rw [List.length_take, List.length_map, hfilled.size, ← hfilled.used] at hlength
  omega

theorem Filled.put (hfilled : b.Filled n xs) (hroom : xs.length < n) (x : α) :
    ∃ b', b.put x = .ok b' ∧ b'.Filled n (xs ++ [x]) := by
  have hlt : b.used < b.cells.length := by
    rw [hfilled.used, hfilled.size]
    exact hroom
  refine ⟨_, if_pos hlt, ?_, ?_, ?_⟩
  · rw [List.length_set, hfilled.size]
  · rw [List.length_append, hfilled.used, List.length_singleton]
  · calc (b.cells.set b.used (some x)).take (b.used + 1)
        = (b.cells.take b.used) ++ [some x] := by
          rw [List.take_succ_eq_append_getElem (by rwa [List.length_set]),
            List.take_set_of_le (Nat.le_refl _), List.getElem_set_self]
      _ = (xs ++ [x]).map some := by
          rw [hfilled.written, List.map_append, List.map_singleton]

theorem Filled.putSome (hfilled : b.Filled n xs) (hroom : xs.length < n) (o : Option α) :
    ∃ b', b.putSome o = .ok b' ∧ b'.Filled n (xs ++ o.toList) := by
  cases o with
  | none => exact ⟨b, rfl, by rwa [Option.toList_none, List.append_nil]⟩
  | some x => exact hfilled.put hroom x

/-- A loop that puts at most one entry for each element stays within an array that has room for as
many as there are elements. -/
theorem Filled.visit (hfilled : b.Filled n xs)
    {body : Buffer α → δ → Except Fault (Buffer α × Bool)} {g : δ → Option α} {l : List δ}
    (hbody : ∀ d ∈ l, ∀ b, body b d = (b.putSome (g d)).map fun b => (b, false))
    (hroom : xs.length + l.length ≤ n) :
    ∃ b', CHeap.visit body l b = .ok b' ∧ b'.Filled n (xs ++ l.filterMap g) := by
  induction l generalizing b xs with
  | nil => exact ⟨b, rfl, by rwa [List.filterMap_nil, List.append_nil]⟩
  | cons d l ih =>
      rw [List.length_cons] at hroom
      rw [List.forall_mem_cons] at hbody
      obtain ⟨b', hput, hfilled'⟩ := hfilled.putSome (by omega) (g d)
      have hlength : (g d).toList.length ≤ 1 := by cases g d <;> simp
      obtain ⟨b'', hvisit, hfilled''⟩ := ih hfilled' hbody.2
        (by rw [List.length_append]; omega)
      refine ⟨b'', ?_, ?_⟩
      · rw [CHeap.visit, hbody.1, hput]
        exact hvisit
      · cases hg : g d with
        | none => simpa [hg] using hfilled''
        | some x => simpa [hg] using hfilled''

end Buffer

end Buffers
