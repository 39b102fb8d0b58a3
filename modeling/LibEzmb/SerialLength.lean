import Mathlib.Algebra.Group.Int.Defs
import Mathlib.Algebra.Group.Nat.Defs
import LibEzmb.SerialOptions

/-! The length of a configuration file on its way through e_serial_config_load_json: a `long` that
becomes the size of a buffer, the number of bytes to read and an index, next to a number of bytes
that is kept in an `int`. -/

open CHeap CBytes CLib

namespace LibEzmb

/-- What the loader does with a length: the buffer it asks for, the bytes it asks `fread` for, the
index at which it puts the terminator, and whether it goes on to parse. -/
structure TextRead where
  allocated : Nat
  requested : Option Nat
  terminator : Option Int
  parses : Bool
  deriving DecidableEq, Repr

/-- From `malloc(len + 1)` to `json_str[len] = '\0'`, given whether there is memory and how many
bytes `fread` delivers. -/
def readText (len : BitVec 64) (okText : Bool) (delivered : Nat) : TextRead :=
  let allocated := (len + 1).toNat
  if !okText then ⟨allocated, none, none, false⟩
  else
    let ret := toInt delivered
    if ret ≠ len.toInt then ⟨allocated, some len.toNat, none, false⟩
    else ⟨allocated, some len.toNat, some len.toInt, true⟩

/-- The bytes asked for leave room for the terminator, the terminator is put into the buffer, and a
text that was asked for is parsed exactly when all bytes of the file were delivered. -/
structure TextRead.Fits (r : TextRead) (len : BitVec 64) (delivered : Nat) : Prop where
  request : ∀ n, r.requested = some n → n + 1 ≤ r.allocated
  terminator : ∀ i, r.terminator = some i → 0 ≤ i ∧ i < r.allocated
  parses : r.requested.isSome → (r.parses = true ↔ (delivered : Int) = len.toInt)

theorem toInt_eq_iff (n m : Int) :
    toInt n = m ↔ -2 ^ 31 ≤ m ∧ m < 2 ^ 31 ∧ (n - m) % 2 ^ 32 = 0 := by
  rw [toInt, BitVec.toInt_ofInt, Int.bmod_def]
  split <;> omega

/-- The length as a `long` and as a `size_t`, and one more than it. -/
theorem length_cases (len : BitVec 64) :
    (len.toInt = len.toNat ∧ len.toNat < 2 ^ 63 ∧ (len + 1).toNat = len.toNat + 1) ∨
      (len.toInt = -1 ∧ len.toNat = 2 ^ 64 - 1 ∧ (len + 1).toNat = 0) ∨
      (len.toInt = len.toNat - 2 ^ 64 ∧ len.toInt < -1 ∧ (len + 1).toNat = len.toNat + 1) := by
  have hlt := len.isLt
  have hone : (1 : BitVec 64).toNat = 1 := rfl
  rw [BitVec.toInt_eq_toNat_cond, BitVec.toNat_add, hone]
  split <;> omega

/-- The length and the delivered bytes agree as far as the loader compares them, or do not. -/
theorem readText_fits_iff (len : BitVec 64) (delivered : Nat) :
    (readText len true delivered).Fits len delivered ↔
      len.toNat + 1 ≤ (len + 1).toNat ∧
        (toInt delivered = len.toInt ↔ (delivered : Int) = len.toInt) ∧
        (toInt delivered = len.toInt → 0 ≤ len.toInt ∧ len.toInt < (len + 1).toNat) := by
  by_cases hret : toInt delivered = len.toInt
  · have hread : readText len true delivered =
        ⟨(len + 1).toNat, some len.toNat, some len.toInt, true⟩ := by simp [readText, hret]
    rw [hread]
    constructor
    · rintro ⟨hrequest, hterminator, hparses⟩
      refine ⟨hrequest _ rfl, ?_, fun _ => hterminator _ rfl⟩
      simpa [hret] using hparses rfl
    · rintro ⟨hrequest, hparses, hterminator⟩
      refine ⟨fun n hn => ?_, fun i hi => ?_, fun _ => ?_⟩
      · cases hn
        exact hrequest
      · cases hi
        exact hterminator hret
      · simpa [hret] using hparses
  · have hread : readText len true delivered =
        ⟨(len + 1).toNat, some len.toNat, none, false⟩ := by simp [readText, hret]
    rw [hread]
    constructor
    · rintro ⟨hrequest, -, hparses⟩
      refine ⟨hrequest _ rfl, ?_, fun h => absurd h hret⟩
      simpa [hret] using hparses rfl
    · rintro ⟨hrequest, hparses, -⟩
      refine ⟨fun n hn => ?_, fun i hi => (nomatch hi), fun _ => ?_⟩
      · cases hn
        exact hrequest
      · simpa [hret] using hparses

/-- The lengths and counts for which the arithmetic is right: without memory there is none; a length
is that of a file an `int` can count, or one of which not everything is delivered; or it is below
minus one and the count is not congruent to it. -/
def LengthCounts (len : BitVec 64) (okText : Bool) (delivered : Nat) : Prop :=
  okText = false ∨
    (0 ≤ len.toInt ∧ (len.toInt < 2 ^ 31 ∨ (delivered : Int) < len.toInt)) ∨
    (len.toInt < -1 ∧ (len.toInt < -2 ^ 31 ∨ ((delivered : Int) - len.toInt) % 2 ^ 32 ≠ 0))

/-- **File length.** For every length and every number of bytes that `fread` may deliver, the buffer
holds what is asked for and the terminator, and exactly a text that was read in whole is parsed, if
and only if the length counts. -/
theorem file_length_iff (len : BitVec 64) (okText : Bool) {delivered : Nat}
    (hdelivered : delivered ≤ len.toNat) :
    (readText len okText delivered).Fits len delivered ↔ LengthCounts len okText delivered := by
  cases okText with
  | false =>
      have hread : readText len false delivered = ⟨(len + 1).toNat, none, none, false⟩ := rfl
      rw [hread]
      exact ⟨fun _ => Or.inl rfl, fun _ => ⟨fun _ h => (nomatch h), fun _ h => (nomatch h),
        fun h => (nomatch h)⟩⟩
  | true =>
      rw [readText_fits_iff, toInt_eq_iff]
      simp only [LengthCounts, Bool.true_eq_false, false_or]
      rcases length_cases len with ⟨hint, hlt, hnext⟩ | ⟨hint, hnat, hnext⟩ | ⟨hint, hlt, hnext⟩
      · rw [hnext, hint]
        omega
      · rw [hnext, hint, hnat]
        omega
      · rw [hnext]
        omega

/-! ### The loader -/

/-- The bytes that `fread` delivers of a file. -/
def ConfigFile.delivered (file : ConfigFile) : Nat := (file.content.take file.len.toNat).length

/-- The `ports` array in a text. -/
def portsIn {J : Type} (json : JsonC J) (text : Bytes) : Option (Option J) := do
  let root ← json.tokenerParse (.ofBytes text)
  let ports ← json.objectGetEx (some root) ['p', 'o', 'r', 't', 's']
  if json.isArray ports then some ports else none

/-- The loader goes on to parse where `readText` says so, for every file with a length. -/
theorem portsOf_readText {J : Type} (json : JsonC J) {file : ConfigFile} {len : BitVec 64}
    (hlen : file.len = len.toInt) (hnonneg : 0 ≤ file.len) :
    portsOf json file =
      .ok (if (readText len file.okText file.delivered).parses then
        portsIn json (file.content.take file.len.toNat) else none) := by
  cases htext : file.okText with
  | false =>
      rw [portsOf, htext]
      rfl
  | true =>
      have hread : file.read = .ok (file.content.take file.len.toNat) := by
        rw [ConfigFile.read, if_neg (by omega)]
      simp only [portsOf, htext, hread, ok_bind, readText, ConfigFile.delivered, ← hlen,
        Bool.not_true, Bool.false_eq_true, if_false]
      by_cases hret : toInt (file.content.take file.len.toNat).length = file.len
      · rw [if_neg (not_not_intro hret), if_neg (not_not_intro hret), if_pos rfl, portsIn]
        cases json.tokenerParse (.ofBytes (file.content.take file.len.toNat)) with
        | none => rfl
        | some root =>
            cases hports : json.objectGetEx (some root) ['p', 'o', 'r', 't', 's'] with
            | none => simp [hports]
            | some ports => simp [hports]
      · rw [if_pos hret, if_pos hret]
        rfl

/-- A file of ten bytes of which six are delivered. -/
theorem file_length_iff_ten :
    6 ≤ (10 : BitVec 64).toNat ∧
      ((readText 10 true 6).Fits 10 6 ↔ LengthCounts 10 true 6) :=
  ⟨by decide, file_length_iff 10 true (by decide)⟩

/-- A file that cannot be positioned: nothing is allocated, everything is asked for. And a file of
2 to the 31st bytes: all are delivered, and it is not parsed. -/
theorem file_length_counterexample :
    (readText (-1) true 0 = ⟨0, some 0xffffffffffffffff, none, false⟩ ∧
        ¬(readText (-1) true 0).Fits (-1) 0) ∧
      readText 0x80000000 true 0x80000000 = ⟨0x80000001, some 0x80000000, none, false⟩ ∧
        ¬(readText 0x80000000 true 0x80000000).Fits 0x80000000 0x80000000 := by
  have hnone : readText (-1) true 0 = ⟨0, some 0xffffffffffffffff, none, false⟩ := by decide
  have hlong : readText 0x80000000 true 0x80000000 = ⟨0x80000001, some 0x80000000, none, false⟩ := by
    decide
  refine ⟨⟨hnone, fun hfits => ?_⟩, hlong, fun hfits => ?_⟩
  · rw [hnone] at hfits
    exact absurd (hfits.request _ rfl) (by decide)
  · rw [hlong] at hfits
    exact absurd ((hfits.parses rfl).mpr (by decide)) (by decide)

end LibEzmb
