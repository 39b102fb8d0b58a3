import Mathlib.Data.List.Basic
import Mathlib.Data.List.TakeDrop
import Mathlib.Tactic.Common

/-! Byte strings, C strings, which hold no zero byte and are cut off by a bounded `snprintf`, and
strings that go on in two ways after the same bytes. -/

namespace CBytes

abbrev Bytes := List UInt8

/-- A C string without its terminator. -/
@[ext] structure CStr where
  bytes : Bytes
  nulFree : (0 : UInt8) ∉ bytes
  deriving DecidableEq

namespace CStr

def append (s t : CStr) : CStr where
  bytes := s.bytes ++ t.bytes
  nulFree := by
    rw [List.mem_append]
    exact not_or.mpr ⟨s.nulFree, t.nulFree⟩

/-- What `snprintf(buf, size, "%s", s)` leaves in `buf`. -/
def snprintf (size : Nat) (s : CStr) : CStr where
  bytes := s.bytes.take (size - 1)
  nulFree hmem := s.nulFree (List.mem_of_mem_take hmem)

/-- The string that a program finds at the start of these bytes, which a zero ends. -/
def ofBytes (s : Bytes) : CStr where
  bytes := s.takeWhile fun b => b ≠ 0
  nulFree hmem := by simpa using List.all_eq_true.mp List.all_takeWhile 0 hmem

@[simp] theorem append_bytes (s t : CStr) : (s.append t).bytes = s.bytes ++ t.bytes := rfl

@[simp] theorem snprintf_bytes (size : Nat) (s : CStr) :
    (s.snprintf size).bytes = s.bytes.take (size - 1) := rfl

end CStr

section Prefix

variable {α : Type*}

/-- The string does not occur in the other one, but perhaps at its start. -/
def OnlyLeads (s t : List α) : Prop := ∀ i, 0 < i → ¬s <+: t.drop i

theorem onlyLeads_of_lt {s t : List α} (hs : s ≠ [])
    (hlt : ∀ i < t.length, 0 < i → ¬s <+: t.drop i) : OnlyLeads s t := by
  intro i hi hpre
  by_cases hlen : i < t.length
  · exact hlt i hlen hi hpre
  · rw [List.drop_eq_nil_of_le (Nat.le_of_not_lt hlen), List.prefix_nil] at hpre
    exact hs hpre

/-- A prefix of `v ++ t` ends in the first `n` bytes of `t`, or holds one more. -/
theorem prefix_append_cases {x v t : List α} (n : Nat) (hpre : x <+: v ++ t) :
    x <+: v ++ t.take n ∨ v ++ t.take (n + 1) <+: x := by
  have hshort : v ++ t.take n <+: v ++ t :=
    (List.prefix_append_right_inj v).mpr (List.take_prefix n t)
  have hlong : v ++ t.take (n + 1) <+: v ++ t :=
    (List.prefix_append_right_inj v).mpr (List.take_prefix (n + 1) t)
  by_cases hlen : x.length ≤ (v ++ t.take n).length
  · exact Or.inl (List.prefix_of_prefix_length_le hpre hshort hlen)
  · refine Or.inr (List.prefix_of_prefix_length_le hlong hpre ?_)
    simp only [List.length_append, List.length_take] at hlen ⊢
    omega

/-- When one string goes on with `b` where the other one goes on with `a`, and the start of `b` does
not occur inside `a`, the two are the same. -/
theorem eq_of_append_prefix_append {u v a b : List α} (hlen : u.length ≤ v.length)
    (honly : OnlyLeads b a) (hpre : v ++ b <+: u ++ a) : u = v := by
  have hu : u <+: u ++ a := List.prefix_append u a
  have hv : v <+: u ++ a := (List.prefix_append v b).trans hpre
  obtain ⟨w, rfl⟩ := List.prefix_of_prefix_length_le hu hv hlen
  rw [List.append_assoc, List.prefix_append_right_inj] at hpre
  cases w with
  | nil => exact (List.append_nil u).symm
  | cons x w =>
      obtain ⟨rest, ha⟩ := hpre
      refine absurd ?_ (honly (w.length + 1) (Nat.succ_pos _))
      rw [← ha, List.append_assoc]
      simp

end Prefix

end CBytes
