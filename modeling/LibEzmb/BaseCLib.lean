import Mathlib.Algebra.Group.Int.Defs
import LibEzmb.BaseBytes

/-! What the C library makes of numbers and of command lines: `tolower`, `atoi` and `getopt_long`, as
documented for the C locale and, for numbers out of range, as the library does it. -/

open CBytes

namespace CLib

/-- The byte of a character literal. -/
def code (c : Char) : UInt8 := UInt8.ofNat c.toNat

def tolower (b : UInt8) : UInt8 := if code 'A' ≤ b ∧ b ≤ code 'Z' then b + 32 else b

def isspace (b : UInt8) : Bool := b == 32 || (9 ≤ b && b ≤ 13)

/-- A wider integer converted to `int`. -/
def toInt (n : Int) : Int := (BitVec.ofInt 32 n).toInt

theorem toInt_eq_self {n : Int} (hlow : -2 ^ 31 ≤ n) (hhigh : n < 2 ^ 31) : toInt n = n := by
  rw [toInt, BitVec.toInt_ofInt]
  apply Int.bmod_eq_of_le <;> omega

theorem toInt_lt (n : Int) : toInt n < 2 ^ 31 := BitVec.toInt_lt

def digitsFrom : Int → Bytes → Int
  | acc, [] => acc
  | acc, b :: bs =>
      if code '0' ≤ b ∧ b ≤ code '9' then digitsFrom (10 * acc + (b.toNat - 48 : Nat)) bs else acc

/-- `strtol(s, NULL, 10)`, which saturates. -/
def strtol (s : Bytes) : Int :=
  let n := match s.dropWhile isspace with
    | [] => 0
    | b :: bs =>
        if b = code '-' then -digitsFrom 0 bs
        else if b = code '+' then digitsFrom 0 bs
        else digitsFrom 0 (b :: bs)
  max (-2 ^ 63) (min (2 ^ 63 - 1) n)

def atoi (s : Bytes) : Int := toInt (strtol s)

/-! ### Command lines -/

/-- `struct option`, without a flag. -/
structure LongOption where
  name : List Char
  hasArg : Bool
  val : Char
  deriving DecidableEq

/-- The option letters, each with or without an argument, and the long options. -/
structure OptionTable where
  short : List (Char × Bool)
  long : List LongOption

/-- One answer of `getopt_long`: an option with what is in `optarg`, or `'?'`. -/
inductive Opt where
  | opt (val : Char) (arg : Option Bytes)
  | unknown
  deriving DecidableEq

namespace OptionTable

variable (table : OptionTable)

/-- An exact name, or the start of one that is not the start of another option. -/
def findLong (name : Bytes) : Option LongOption :=
  match table.long.find? fun o => o.name.map code = name with
  | some o => some o
  | none => match table.long.filter fun o => name.isPrefixOf (o.name.map code) with
    | [] => none
    | o :: os => if os.all fun o' => o'.hasArg = o.hasArg ∧ o'.val = o.val then some o else none

/-- An element after its two dashes: its options, and the one whose argument is the next element. -/
def scanLong (body : Bytes) : List Opt × Option Char :=
  let value := (body.dropWhile (· ≠ code '=')).tail?
  match table.findLong (body.takeWhile (· ≠ code '=')) with
  | none => ([.unknown], none)
  | some o => match o.hasArg, value with
    | true, some arg => ([.opt o.val (some arg)], none)
    | true, none => ([], some o.val)
    | false, some _ => ([.unknown], none)
    | false, none => ([.opt o.val none], none)

/-- An element after its one dash. -/
def scanShort : Bytes → List Opt × Option Char
  | [] => ([], none)
  | b :: rest => match table.short.find? fun o => code o.1 = b with
    | none => (.unknown :: (scanShort rest).1, (scanShort rest).2)
    | some (c, false) => (.opt c none :: (scanShort rest).1, (scanShort rest).2)
    | some (c, true) => if rest = [] then ([], some c) else ([.opt c (some rest)], none)

/-- All answers of `getopt_long` before it answers -1, when an option may be waiting for its argument.
Other arguments are passed over, or end the options when the environment asks for it. -/
def getoptLong (posixlyCorrect : Bool) : Option Char → List Bytes → List Opt
  | some _, [] => [.unknown]
  | some c, arg :: args => .opt c (some arg) :: getoptLong posixlyCorrect none args
  | none, [] => []
  | none, arg :: args =>
      if arg = [code '-', code '-'] then []
      else if [code '-', code '-'].isPrefixOf arg then
        (table.scanLong (arg.drop 2)).1 ++
          getoptLong posixlyCorrect (table.scanLong (arg.drop 2)).2 args
      else if [code '-'].isPrefixOf arg && arg.length ≠ 1 then
        (table.scanShort (arg.drop 1)).1 ++
          getoptLong posixlyCorrect (table.scanShort (arg.drop 1)).2 args
      else if posixlyCorrect then []
      else getoptLong posixlyCorrect none args

end OptionTable

/-! ### Options that are given again -/

section LastWrite

variable {α β : Type}

/-- What the last of some writes leaves, or what was there. -/
def lastWrite (write : α → Option β) (xs : List α) (old : β) : β :=
  (xs.filterMap write).getLast?.getD old

@[simp] theorem lastWrite_nil (write : α → Option β) (old : β) : lastWrite write [] old = old := rfl

theorem lastWrite_cons (write : α → Option β) (x : α) (xs : List α) (old : β) :
    lastWrite write (x :: xs) old = lastWrite write xs ((write x).getD old) := by
  rw [lastWrite, lastWrite, List.filterMap_cons]
  cases write x with
  | none => rfl
  | some b => rw [List.getLast?_cons, Option.getD_some, Option.getD_some]

end LastWrite

end CLib
