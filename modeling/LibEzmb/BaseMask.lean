import Mathlib.Tactic.Common

/-! Words of flags. An edit clears some bits of a word and sets some; a sequence of edits is one
again, and a second run of an edit finds everything as it wants it. -/

namespace Masks

variable {w : Nat}

/-- The bits of the word that stay, and the bits that are set. -/
structure Edit (w : Nat) where
  keep : BitVec w
  put : BitVec w

namespace Edit

def run (e : Edit w) (x : BitVec w) : BitVec w := (x &&& e.keep) ||| e.put

def clear (mask : BitVec w) : Edit w := ⟨~~~mask, 0⟩

def set (mask : BitVec w) : Edit w := ⟨~~~mask, mask⟩

/-- A field gets a new value. -/
def write (mask bits : BitVec w) : Edit w := ⟨~~~mask, bits⟩

def andThen (e f : Edit w) : Edit w := ⟨e.keep &&& f.keep, (e.put &&& f.keep) ||| f.put⟩

@[simp] theorem run_clear (mask x : BitVec w) : (clear mask).run x = x &&& ~~~mask := by
  rw [run, clear]
  exact BitVec.or_zero

@[simp] theorem run_set (mask x : BitVec w) : (set mask).run x = x ||| mask := by
  ext i hi
  simp only [run, set, BitVec.getElem_or, BitVec.getElem_and, BitVec.getElem_not]
  cases mask[i] <;> simp

@[simp] theorem run_write (mask bits x : BitVec w) :
    (write mask bits).run x = x &&& ~~~mask ||| bits := rfl

@[simp] theorem run_andThen (e f : Edit w) (x : BitVec w) :
    (e.andThen f).run x = f.run (e.run x) := by
  ext i hi
  simp only [run, andThen, BitVec.getElem_or, BitVec.getElem_and]
  cases x[i] <;> cases e.keep[i] <;> cases e.put[i] <;> simp

end Edit

end Masks
