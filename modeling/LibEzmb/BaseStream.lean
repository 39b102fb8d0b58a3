import Mathlib.Data.List.Basic
import Mathlib.Tactic.Common

/-! A stream that is read in chunks: what has arrived, what of it still waits, and the chunks that were
handed on. As long as whatever is read is handed on, nothing of it is lost. -/

namespace Streams

variable {α : Type}

structure Inflow (α : Type) where
  arrived : List α
  waiting : List α
  chunks : List (List α)

namespace Inflow

def empty : Inflow α := ⟨[], [], []⟩

def arrive (s : Inflow α) (xs : List α) : Inflow α :=
  { s with arrived := s.arrived ++ xs, waiting := s.waiting ++ xs }

/-- A read, which can only give what waits at the front, and what is then handed on. -/
def take [DecidableEq α] (s : Inflow α) (buf : List α) (handed : Option (List α)) :
    Option (Inflow α) :=
  if buf <+: s.waiting then
    some { s with waiting := s.waiting.drop buf.length, chunks := s.chunks ++ handed.toList }
  else none

/-- The chunks and what still waits are what has arrived, and each chunk has from one to `n`
elements. -/
structure Flows (n : Nat) (s : Inflow α) : Prop where
  conserved : s.chunks.flatten ++ s.waiting = s.arrived
  cut : ∀ chunk ∈ s.chunks, chunk ≠ [] ∧ chunk.length ≤ n

namespace Flows

variable {n : Nat} {s t : Inflow α} {buf : List α}

theorem empty (n : Nat) : Flows n (.empty : Inflow α) := ⟨rfl, by simp [Inflow.empty]⟩

theorem arrive (hs : Flows n s) (xs : List α) : Flows n (s.arrive xs) where
  conserved := by
    show s.chunks.flatten ++ (s.waiting ++ xs) = s.arrived ++ xs
    rw [← List.append_assoc, hs.conserved]
  cut := hs.cut

/-- A read that hands on what it gives, if it gives anything. -/
theorem take [DecidableEq α] (hs : Flows n s) (hlen : buf.length ≤ n)
    (htake : s.take buf (if buf = [] then none else some buf) = some t) : Flows n t := by
  unfold Inflow.take at htake
  split at htake
  · next hprefix =>
      cases htake
      have hwaiting : buf ++ s.waiting.drop buf.length = s.waiting :=
        List.prefix_iff_eq_append.mp hprefix
      by_cases hnil : buf = []
      · subst hnil
        refine ⟨?_, ?_⟩
        · simpa using hs.conserved
        · simpa using hs.cut
      · rw [if_neg hnil]
        refine ⟨?_, fun chunk hchunk => ?_⟩
        · calc (s.chunks ++ [buf]).flatten ++ s.waiting.drop buf.length
              = s.chunks.flatten ++ (buf ++ s.waiting.drop buf.length) := by simp
            _ = s.chunks.flatten ++ s.waiting := by rw [hwaiting]
            _ = s.arrived := hs.conserved
        · rcases List.mem_append.mp hchunk with hmem | hmem
          · exact hs.cut chunk hmem
          · rw [Option.toList_some, List.mem_singleton] at hmem
            rw [hmem]
            exact ⟨hnil, hlen⟩
  · cases htake

/-- Everything has been handed on exactly when nothing waits. -/
theorem flatten_eq_iff (hs : Flows n s) : s.chunks.flatten = s.arrived ↔ s.waiting = [] := by
  rw [← hs.conserved]
  constructor
  · intro heq
    exact List.append_right_eq_self.mp heq.symm
  · intro hnil
    rw [hnil, List.append_nil]

end Flows

/-! ### Reads that take everything -/

/-- The chunks and what still waits are what has arrived, and no chunk is empty. -/
structure Whole (s : Inflow α) : Prop where
  conserved : s.chunks.flatten ++ s.waiting = s.arrived
  nonempty : ∀ chunk ∈ s.chunks, chunk ≠ []

namespace Whole

variable {s : Inflow α}

theorem empty : Whole (.empty : Inflow α) := ⟨rfl, by simp [Inflow.empty]⟩

theorem arrive (hs : Whole s) (xs : List α) : Whole (s.arrive xs) where
  conserved := by
    show s.chunks.flatten ++ (s.waiting ++ xs) = s.arrived ++ xs
    rw [← List.append_assoc, hs.conserved]
  nonempty := hs.nonempty

end Whole

/-- All that waits is read, and handed on. -/
def takeAll (s : Inflow α) : Inflow α :=
  { s with waiting := [], chunks := s.chunks ++ [s.waiting] }

theorem Whole.takeAll {s : Inflow α} (hs : Whole s) (hsome : s.waiting ≠ []) :
    Whole s.takeAll where
  conserved := by
    show (s.chunks ++ [s.waiting]).flatten ++ [] = s.arrived
    rw [← hs.conserved]
    simp
  nonempty chunk hchunk := by
    rcases List.mem_append.mp hchunk with hmem | hmem
    · exact hs.nonempty chunk hmem
    · rw [List.mem_singleton.mp hmem]
      exact hsome

end Inflow

end Streams
