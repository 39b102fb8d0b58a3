import Mathlib.Data.Nat.Digits.Lemmas
import LibEzmb.BaseCLib

/-! Numbers in upper-case hexadecimal digits, as `printf` writes them for `%X`, and what is read back
from them. -/

open CBytes

namespace CLib

def hexDigit (n : Nat) : UInt8 :=
  if n < 10 then code '0' + UInt8.ofNat n else code 'A' + UInt8.ofNat (n - 10)

def hexDigitValue (b : UInt8) : Option Nat :=
  if code '0' ≤ b ∧ b ≤ code '9' then some (b.toNat - 48)
  else if code 'A' ≤ b ∧ b ≤ code 'F' then some (b.toNat - 55)
  else none

/-- `%X` with so many digits at least, zeros in front. -/
def hexPadded (width n : Nat) : Bytes :=
  ((Nat.digits 16 n).reverse.map hexDigit).leftpad width (code '0')

/-- The number that some digits stand for, behind others that have been read. -/
def hexValueFrom : Nat → Bytes → Option Nat
  | acc, [] => some acc
  | acc, b :: bs => do
      let n ← hexDigitValue b
      hexValueFrom (16 * acc + n) bs

def hexValue (bs : Bytes) : Option Nat := hexValueFrom 0 bs

theorem hexDigitValue_hexDigit : ∀ n < 16, hexDigitValue (hexDigit n) = some n := by decide

/-- A digit is none of the characters that may stand around it. -/
theorem hexDigit_plain : ∀ n < 16, code '0' ≤ hexDigit n ∧ hexDigit n ≤ code 'F' ∧
    hexDigit n ≠ code ':' := by decide

theorem hexValueFrom_append (acc : Nat) (bs cs : Bytes) :
    hexValueFrom acc (bs ++ cs) = (hexValueFrom acc bs).bind fun acc => hexValueFrom acc cs := by
  induction bs generalizing acc with
  | nil => rfl
  | cons b bs ih =>
      rw [List.cons_append, hexValueFrom, hexValueFrom]
      cases hexDigitValue b with
      | none => rfl
      | some n => exact ih _

theorem hexValueFrom_zeros (n : Nat) : hexValueFrom 0 (List.replicate n (code '0')) = some 0 := by
  induction n with
  | zero => rfl
  | succ n ih =>
      rw [List.replicate_succ, hexValueFrom, show hexDigitValue (code '0') = some 0 from rfl]
      exact ih

theorem hexValueFrom_digits {ds : List Nat} (hds : ∀ d ∈ ds, d < 16) :
    hexValueFrom 0 (ds.reverse.map hexDigit) = some (Nat.ofDigits 16 ds) := by
  induction ds with
  | nil => rfl
  | cons d ds ih =>
      rw [List.forall_mem_cons] at hds
      rw [List.reverse_cons, List.map_append, hexValueFrom_append, ih hds.2, Option.bind_some,
        List.map_singleton, hexValueFrom, hexDigitValue_hexDigit d hds.1, Nat.ofDigits_cons,
        Nat.add_comm]
      rfl

/-- What is written is read back. -/
theorem hexValue_hexPadded (width n : Nat) : hexValue (hexPadded width n) = some n := by
  have hdigits : ∀ d ∈ Nat.digits 16 n, d < 16 := fun d hd => Nat.digits_lt_base (by decide) hd
  rw [hexValue, hexPadded, List.leftpad, hexValueFrom_append, hexValueFrom_zeros, Option.bind_some,
    hexValueFrom_digits hdigits, Nat.ofDigits_digits]

theorem mem_hexPadded {width n : Nat} {b : UInt8} (hb : b ∈ hexPadded width n) :
    code '0' ≤ b ∧ b ≤ code 'F' ∧ b ≠ code ':' := by
  rw [hexPadded, List.leftpad, List.mem_append] at hb
  rcases hb with hb | hb
  · rw [List.eq_of_mem_replicate hb]
    decide
  · obtain ⟨d, hd, rfl⟩ := List.mem_map.mp hb
    exact hexDigit_plain d (Nat.digits_lt_base (by decide) (List.mem_reverse.mp hd))

/-- A number that fits is written with just so many digits. -/
theorem hexPadded_length {width n : Nat} (hfits : n < 16 ^ width) :
    (hexPadded width n).length = width := by
  have hle : (Nat.digits 16 n).length ≤ width := Nat.digits_length_le_iff (by decide) n |>.mpr hfits
  rw [hexPadded, List.length_leftpad, List.length_map, List.length_reverse, max_eq_left hle]

end CLib
