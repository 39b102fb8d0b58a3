import LibEzmb.BaseBytes
import LibEzmb.BaseLoop
import LibEzmb.BaseRefs
import Mathlib.Logic.Function.Basic

/-! A Lua interpreter as a C program sees it: a stack of values, references in the registry and
protected calls. What Lua code does by itself is a parameter. -/

open CBytes RefTables

namespace LuaApi

/-- A value, over the functions, numbers and tables of the interpreter. -/
inductive Value (F N T : Type) where
  | nil
  | boolean (b : Bool)
  | number (n : N)
  | string (s : Bytes)
  | function (f : F)
  | table (t : T)
  | other

/-- What Lua does on its own memory. A call ends with an error object or with its first result; a
chunk with an error object or all its results, the last one first. Lua code reaches neither the stack
of its caller nor, short of the debug library, the registry. -/
structure Interp (F N T μ : Type) where
  ofInteger : Int → N
  text : N → Bytes
  call : Value F N T → List (Value F N T) → μ → μ × Except (Value F N T) (Value F N T)
  dofile : CStr → μ → μ × Except (Value F N T) (List (Value F N T))
  newTable : μ → μ × T
  getGlobal : Bytes → μ → μ × Value F N T
  getField : Value F N T → Bytes → μ → μ × Value F N T

/-- A call of the C API that finds too little on the stack. -/
inductive ApiFault where
  | underflow
  deriving DecidableEq, Repr

/-- The stack with its top first, the registry, the memory of Lua code. `calls` are the protected
calls that were made, each with its function and arguments. -/
structure State (F N T μ : Type) where
  stack : List (Value F N T)
  refs : RefTable
  slots : Nat → Value F N T
  memory : μ
  calls : List (Value F N T × List (Value F N T))

variable {F N T μ : Type}

def Value.isFunction : Value F N T → Bool
  | .function _ => true
  | _ => false

def Value.isTable : Value F N T → Bool
  | .table _ => true
  | _ => false

/-- The bytes that `lua_tolstring` finds in a value. -/
def Interp.bytesOf (I : Interp F N T μ) : Value F N T → Option Bytes
  | .string s => some s
  | .number n => some (I.text n)
  | _ => none

namespace State

variable (I : Interp F N T μ) (s : State F N T μ)

/-- `luaL_newstate`. -/
def new (memory : μ) : State F N T μ := ⟨[], ⟨[], 1⟩, fun _ => .nil, memory, []⟩

def push (v : Value F N T) : State F N T μ := { s with stack := v :: s.stack }

/-- `lua_pop(L, n)`. -/
def pop (n : Nat) : Except ApiFault (State F N T μ) :=
  if n ≤ s.stack.length then .ok { s with stack := s.stack.drop n } else .error .underflow

/-- The value at index -1. -/
def top : Except ApiFault (Value F N T) :=
  match s.stack with
  | [] => .error .underflow
  | v :: _ => .ok v

/-- `lua_rawgeti(L, LUA_REGISTRYINDEX, n)`. -/
def rawgeti (n : Nat) : State F N T μ := s.push (s.slots n)

/-- `luaL_ref(L, LUA_REGISTRYINDEX)` of a value that is not nil. -/
def ref : Except ApiFault (State F N T μ × Nat) :=
  match s.stack with
  | [] => .error .underflow
  | v :: rest => .ok ({ s with
      stack := rest
      refs := s.refs.ref.2
      slots := Function.update s.slots s.refs.ref.1 v }, s.refs.ref.1)

/-- `lua_pcall(L, nargs, 1, 0)`, with whether it returns 0. -/
def pcall (nargs : Nat) : Except ApiFault (State F N T μ × Bool) :=
  match s.stack.drop nargs with
  | [] => .error .underflow
  | f :: rest =>
      let args := (s.stack.take nargs).reverse
      let r := I.call f args s.memory
      let calls := s.calls ++ [(f, args)]
      match r.2 with
      | .error e => .ok ({ s with stack := e :: rest, memory := r.1, calls := calls }, false)
      | .ok v => .ok ({ s with stack := v :: rest, memory := r.1, calls := calls }, true)

/-- `lua_tolstring(L, -1, &len)`, which turns a number into a string where it is. -/
def tolstring : Except ApiFault (State F N T μ × Option Bytes) :=
  match s.stack with
  | [] => .error .underflow
  | .number n :: rest =>
      .ok ({ s with stack := .string (I.text n) :: rest }, some (I.text n))
  | v :: _ => .ok (s, I.bytesOf v)

/-- `luaL_dofile`, with whether it returns 0. -/
def dofile (filename : CStr) : State F N T μ × Bool :=
  let r := I.dofile filename s.memory
  match r.2 with
  | .error e => ({ s with stack := e :: s.stack, memory := r.1 }, false)
  | .ok vs => ({ s with stack := vs ++ s.stack, memory := r.1 }, true)

def newtable : State F N T μ :=
  let r := I.newTable s.memory
  { s with stack := .table r.2 :: s.stack, memory := r.1 }

def getglobal (name : Bytes) : State F N T μ :=
  let r := I.getGlobal name s.memory
  { s with stack := r.2 :: s.stack, memory := r.1 }

/-- `lua_getfield(L, -1, name)`. -/
def getfield (name : Bytes) : Except ApiFault (State F N T μ) :=
  match s.stack with
  | [] => .error .underflow
  | v :: rest =>
      let r := I.getField v name s.memory
      .ok { s with stack := r.2 :: v :: rest, memory := r.1 }

/-! ### What the operations do to the stack -/

variable {I s}
variable {v f : Value F N T} {rest : List (Value F N T)}

theorem pop_one (hstack : s.stack = v :: rest) : s.pop 1 = .ok { s with stack := rest } := by
  rw [pop, hstack, if_pos (by simp)]
  rfl

/-- A protected call takes the function and its arguments and leaves one value, whether it fails or
not. -/
theorem pcall_eq {args : List (Value F N T)} (hstack : s.stack = args.reverse ++ f :: rest) :
    s.pcall I args.length = .ok (match (I.call f args s.memory).2 with
      | .error e => (⟨e :: rest, s.refs, s.slots, (I.call f args s.memory).1,
          s.calls ++ [(f, args)]⟩, false)
      | .ok v => (⟨v :: rest, s.refs, s.slots, (I.call f args s.memory).1,
          s.calls ++ [(f, args)]⟩, true)) := by
  have hdrop : s.stack.drop args.length = f :: rest := by
    rw [hstack, List.drop_left' (List.length_reverse)]
  have htake : (s.stack.take args.length).reverse = args := by
    rw [hstack, List.take_left' (List.length_reverse), List.reverse_reverse]
  rw [pcall, hdrop]
  simp only [htake]
  cases (I.call f args s.memory).2 <;> rfl

/-- Looking for a string in the value on top leaves one value there, which can be popped. -/
theorem tolstring_pop (hstack : s.stack = v :: rest) :
    ∃ t, s.tolstring I = .ok (t, I.bytesOf v) ∧ t.pop 1 = .ok { s with stack := rest } := by
  obtain ⟨stack, refs, slots, memory, calls⟩ := s
  cases hstack
  cases v with
  | number n => exact ⟨_, rfl, pop_one rfl⟩
  | _ => exact ⟨_, rfl, pop_one rfl⟩

/-! ### What the operations do to the registry -/

variable {t : State F N T μ}

/-- The registry is the same in both states. -/
structure SameRegistry (s t : State F N T μ) : Prop where
  refs : t.refs = s.refs
  slots : t.slots = s.slots

theorem SameRegistry.trans {u : State F N T μ} (hst : SameRegistry s t) (htu : SameRegistry t u) :
    SameRegistry s u :=
  ⟨htu.refs.trans hst.refs, htu.slots.trans hst.slots⟩

theorem dofile_registry (filename : CStr) : SameRegistry s (s.dofile I filename).1 := by
  rw [dofile]
  cases (I.dofile filename s.memory).2 <;> exact ⟨rfl, rfl⟩

theorem getglobal_registry (name : Bytes) : SameRegistry s (s.getglobal I name) := ⟨rfl, rfl⟩

theorem newtable_registry : SameRegistry s (s.newtable I) := ⟨rfl, rfl⟩

theorem pcall_registry {nargs : Nat} {ok : Bool} (hcall : s.pcall I nargs = .ok (t, ok)) :
    SameRegistry s t := by
  rw [pcall] at hcall
  split at hcall
  · cases hcall
  · next f rest _ =>
      dsimp only at hcall
      split at hcall <;> cases hcall <;> exact ⟨rfl, rfl⟩

theorem getfield_registry {name : Bytes} (hget : s.getfield I name = .ok t) :
    SameRegistry s t := by
  rw [getfield] at hget
  split at hget <;> cases hget
  exact ⟨rfl, rfl⟩

theorem pop_registry {n : Nat} (hpop : s.pop n = .ok t) : SameRegistry s t := by
  rw [pop] at hpop
  split at hpop <;> cases hpop
  exact ⟨rfl, rfl⟩

/-- A new reference is to the value on top. -/
theorem ref_registry {n : Nat} (htop : s.top = .ok v) (href : s.ref = .ok (t, n)) :
    n = s.refs.ref.1 ∧ t.refs = s.refs.ref.2 ∧ t.slots = Function.update s.slots n v := by
  rw [top] at htop
  rw [ref] at href
  split at href
  · cases href
  · next w rest hstack =>
      rw [hstack] at htop
      cases htop
      cases href
      exact ⟨rfl, rfl, rfl⟩

theorem new_sound (memory : μ) : (new memory : State F N T μ).refs.Sound [] :=
  ⟨List.nodup_nil, fun _ hmem => absurd hmem List.not_mem_nil⟩

/-- The references to two values, one kept after the other, are different and lead to the values. -/
theorem ref_twice {kept u u' : State F N T μ} {m n : Nat} {w : Value F N T}
    (hsound : s.refs.Sound []) (hv : s.top = .ok v) (href : s.ref = .ok (kept, n))
    (hsame : SameRegistry kept u) (hw : u.top = .ok w) (href' : u.ref = .ok (u', m)) :
    n ≠ m ∧ u'.slots n = v ∧ u'.slots m = w := by
  obtain ⟨hn, hrefs, hslots⟩ := ref_registry hv href
  obtain ⟨hm, -, hslots'⟩ := ref_registry hw href'
  have hne : n ≠ m := by
    have hkept : u.refs.Sound [n] := by
      rw [hsame.refs, hrefs, hn]
      exact hsound.ref
    have hnodup := hkept.ref.held_nodup
    rw [← hm] at hnodup
    simpa [eq_comm] using hnodup
  refine ⟨hne, ?_, ?_⟩
  · rw [hslots', Function.update_of_ne hne, hsame.slots, hslots, Function.update_self]
  · rw [hslots', Function.update_self]

end State

theorem Value.isFunction_iff {v : Value F N T} : v.isFunction = true ↔ ∃ f, v = .function f := by
  cases v <;> simp [Value.isFunction]

end LuaApi
