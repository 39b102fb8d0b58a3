import Mathlib.Data.Nat.Digits.Defs
import LibEzmb.BaseCLib

/-! Decimal numerals: `atoi` reads the number a numeral stands for, if an `int` can hold it. -/

open CBytes

namespace CLib

def IsDigit (b : UInt8) : Prop := code '0' ≤ b ∧ b ≤ code '9'

/-- The number some digits stand for, the first of them counting most. -/
def digitsValue (ds : Bytes) : Nat := Nat.ofDigits 10 ((ds.map fun b => b.toNat - 48).reverse)

/-- One digit or more, with or without a minus sign. -/
def IsDecimal (s : Bytes) : Prop :=
  ∃ ds : Bytes, ds ≠ [] ∧ (∀ b ∈ ds, IsDigit b) ∧ (s = ds ∨ s = code '-' :: ds)

/-- The number a numeral stands for. -/
def decimalValue : Bytes → Int
  | [] => 0
  | b :: ds => if b = code '-' then -digitsValue ds else digitsValue (b :: ds)

theorem digitsValue_cons (b : UInt8) (ds : Bytes) :
    digitsValue (b :: ds) = (b.toNat - 48) * 10 ^ ds.length + digitsValue ds := by
  rw [digitsValue, List.map_cons, List.reverse_cons, Nat.ofDigits_append, Nat.ofDigits_singleton,
    List.length_reverse, List.length_map, Nat.add_comm, Nat.mul_comm, digitsValue]

/-- Reading digits behind others that have been read. -/
theorem digitsFrom_digits {ds : Bytes} (hds : ∀ b ∈ ds, IsDigit b) (acc : Nat) :
    digitsFrom acc ds = (acc * 10 ^ ds.length + digitsValue ds : Nat) := by
  induction ds generalizing acc with
  | nil => simp [digitsFrom, digitsValue]
  | cons b ds ih =>
      rw [List.forall_mem_cons] at hds
      have hacc : 10 * (acc : Int) + (b.toNat - 48 : Nat) = ((10 * acc + (b.toNat - 48) : Nat) : Int) :=
        by omega
      have hdigit : code '0' ≤ b ∧ b ≤ code '9' := hds.1
      rw [digitsFrom, if_pos hdigit, hacc, ih hds.2, digitsValue_cons, List.length_cons]
      congr 1
      ring

/-- A digit is no space and no sign. -/
theorem IsDigit.plain {b : UInt8} (hb : IsDigit b) :
    isspace b = false ∧ b ≠ code '-' ∧ b ≠ code '+' := by
  obtain ⟨hlow, -⟩ := hb
  refine ⟨?_, ?_, ?_⟩
  · rw [Bool.eq_false_iff]
    intro hspace
    simp only [isspace, Bool.or_eq_true, beq_iff_eq, Bool.and_eq_true, decide_eq_true_eq] at hspace
    rcases hspace with rfl | ⟨-, hle⟩
    · exact absurd hlow (by decide)
    · exact absurd (UInt8.le_trans hlow hle) (by decide)
  · rintro rfl
    exact absurd hlow (by decide)
  · rintro rfl
    exact absurd hlow (by decide)

/-- Before the bounds of a `long`, `strtol` has the number the numeral stands for. -/
theorem strtol_decimal {s : Bytes} (hs : IsDecimal s) :
    strtol s = max (-2 ^ 63) (min (2 ^ 63 - 1) (decimalValue s)) := by
  obtain ⟨ds, hne, hds, hs⟩ := hs
  have hread := digitsFrom_digits hds 0
  rw [Nat.zero_mul, Nat.zero_add] at hread
  rcases hs with rfl | rfl
  · obtain ⟨b, bs, rfl⟩ := List.exists_cons_of_ne_nil hne
    obtain ⟨hspace, hminus, hplus⟩ := (hds b List.mem_cons_self).plain
    rw [strtol, List.dropWhile_cons_of_neg (by simp [hspace])]
    simp only [if_neg hminus, if_neg hplus, decimalValue]
    rw [← hread]
    rfl
  · have hspace : isspace (code '-') = false := rfl
    rw [strtol, List.dropWhile_cons_of_neg (by simp [hspace])]
    simp only [if_true, decimalValue]
    rw [← hread]
    rfl

/-- `atoi` reads a numeral that an `int` can hold. -/
theorem atoi_decimal {s : Bytes} (hs : IsDecimal s) (hlow : -2 ^ 31 ≤ decimalValue s)
    (hhigh : decimalValue s < 2 ^ 31) : atoi s = decimalValue s := by
  have hlong : strtol s = decimalValue s := by
    rw [strtol_decimal hs]
    omega
  rw [atoi, hlong]
  exact toInt_eq_self hlow hhigh

end CLib
