import Mathlib.Data.List.Nodup
import Mathlib.Tactic.Common

/-! References by number: a new one takes the number that was released last, or one that was never
given out. -/

namespace RefTables

/-- The released numbers, the last one first, and the first number that was never given out. -/
structure RefTable where
  free : List Nat
  next : Nat
  deriving DecidableEq, Repr

namespace RefTable

def ref (t : RefTable) : Nat × RefTable :=
  match t.free with
  | [] => (t.next, { t with next := t.next + 1 })
  | n :: free => (n, { t with free := free })

def unref (t : RefTable) (n : Nat) : RefTable := { t with free := n :: t.free }

/-- The numbers that are held and the free ones are all different and were given out. -/
structure Sound (t : RefTable) (held : List Nat) : Prop where
  nodup : (held ++ t.free).Nodup
  below : ∀ n ∈ held ++ t.free, n < t.next

variable {t : RefTable} {held held' : List Nat} {n : Nat}

theorem Sound.perm (hsound : t.Sound held) (hperm : held.Perm held') : t.Sound held' := by
  have hall := hperm.append_right t.free
  refine ⟨hall.nodup_iff.mp hsound.nodup, fun m hm => ?_⟩
  exact hsound.below m (hall.symm.subset hm)

/-- A new reference is held by nobody else. -/
theorem Sound.ref (hsound : t.Sound held) : t.ref.2.Sound (t.ref.1 :: held) := by
  obtain ⟨free, next⟩ := t
  cases free with
  | nil =>
      refine ⟨List.nodup_cons.mpr ⟨fun hmem => ?_, hsound.nodup⟩, fun m hm => ?_⟩
      · exact absurd (hsound.below next hmem) (Nat.lt_irrefl next)
      · rcases List.mem_cons.mp hm with rfl | hm
        · exact Nat.lt_succ_self _
        · exact Nat.lt_succ_of_lt (hsound.below m hm)
  | cons n free =>
      have hperm : (held ++ n :: free).Perm (n :: held ++ free) := List.perm_middle
      refine ⟨hperm.nodup_iff.mp hsound.nodup, fun m hm => ?_⟩
      exact hsound.below m (hperm.symm.subset hm)

/-- A reference that is held may be released. -/
theorem Sound.unref (hsound : t.Sound held) (hn : n ∈ held) : (t.unref n).Sound (held.erase n) := by
  have hperm : (held ++ t.free).Perm (held.erase n ++ n :: t.free) :=
    ((List.perm_cons_erase hn).append_right t.free).trans List.perm_middle.symm
  refine ⟨hperm.nodup_iff.mp hsound.nodup, fun m hm => ?_⟩
  exact hsound.below m (hperm.symm.subset hm)

theorem Sound.held_nodup (hsound : t.Sound held) : held.Nodup :=
  (List.nodup_append.mp hsound.nodup).1

end RefTable

end RefTables
