import Mathlib.Algebra.Group.Nat.Defs
import LibEzmb.BaseCLib
import LibEzmb.BaseHeap
import LibEzmb.BaseLua
import LibEzmb.BaseRun

/-! The transforms of a Lua plugin in e_plugin_driver.c: loading keeps a reference to each of the
two functions, and `call_lua_ref` calls one of them with a message and copies what it returns. -/

open CBytes CHeap CLib LuaApi RefTables Runs

namespace LibEzmb

variable {F N T μ : Type}

/-- `lua_plugin_t`, apart from its interpreter. -/
structure LuaPlugin where
  northRef : Nat
  southRef : Nat
  deriving DecidableEq, Repr

/-- `"register_plugin"`. -/
def registerPluginName : Bytes :=
  ['r', 'e', 'g', 'i', 's', 't', 'e', 'r', '_', 'p', 'l', 'u', 'g', 'i', 'n'].map code

/-- `"north_transform"`. -/
def northTransformName : Bytes :=
  ['n', 'o', 'r', 't', 'h', '_', 't', 'r', 'a', 'n', 's', 'f', 'o', 'r', 'm'].map code

/-- `"south_transform"`. -/
def southTransformName : Bytes :=
  ['s', 'o', 'u', 't', 'h', '_', 't', 'r', 'a', 'n', 's', 'f', 'o', 'r', 'm'].map code

namespace LuaPlugin

/-- `e_plugin_load_from_lua_script` on an interpreter that `luaL_newstate` gave. Whatever goes wrong
closes it. -/
def ePluginLoadFromLuaScript (I : Interp F N T μ) (filename : CStr) (lua : State F N T μ) :
    Except ApiFault (Option (LuaPlugin × State F N T μ)) := do
  let (lua, ok) := lua.dofile I filename
  if !ok then return none
  let lua := lua.getglobal I registerPluginName
  if !(← lua.top).isFunction then return none
  let lua := lua.newtable I
  let (lua, ok) ← lua.pcall I 1
  if !ok then return none
  if !(← lua.top).isTable then return none
  let lua ← lua.getfield I northTransformName
  if !(← lua.top).isFunction then return none
  let (lua, northRef) ← lua.ref
  let lua ← lua.getfield I southTransformName
  if !(← lua.top).isFunction then return none
  let (lua, southRef) ← lua.ref
  let lua ← lua.pop 1
  return some (⟨northRef, southRef⟩, lua)

end LuaPlugin

/-- Bytes in memory with their `size_t`; no object is larger than `PTRDIFF_MAX`. -/
structure InData where
  bytes : Bytes
  fits : bytes.length < 2 ^ 63

/-- A `size_t` as the `lua_Integer` for `lua_pushinteger`. -/
def toLuaInteger (n : Nat) : Int := (BitVec.ofNat 64 n).toInt

/-- The interpreter of a plugin, and the blocks that `malloc` has given for outputs. -/
structure PluginHost (F N T μ : Type) where
  lua : State F N T μ
  blocks : Heap Bytes

/-- `*out_data` and `*out_size`. -/
structure OutData where
  data : Option Addr
  size : Nat
  deriving DecidableEq, Repr

/-- The outputs for what `lua_tolstring` returned: `malloc`, `memcpy` and the length. -/
def copyOut (M : Malloc Bytes) (blocks : Heap Bytes) : Option Bytes → Heap Bytes × OutData
  | none => (blocks, ⟨none, 0⟩)
  | some res => (blocks.set (M.addr blocks) res, ⟨some (M.addr blocks), res.length⟩)

def callLuaRef (I : Interp F N T μ) (M : Malloc Bytes) (ref : Nat) (input : InData)
    (s : PluginHost F N T μ) : Except ApiFault (PluginHost F N T μ × OutData) := do
  let lua := s.lua.rawgeti ref
  let lua := lua.push (.string input.bytes)
  let lua := lua.push (.number (I.ofInteger (toLuaInteger input.bytes.length)))
  let (lua, ok) ← lua.pcall I 2
  if !ok then
    let (lua, _) ← lua.tolstring I
    let lua ← lua.pop 1
    return (⟨lua, s.blocks⟩, ⟨none, 0⟩)
  let (lua, res) ← lua.tolstring I
  let (blocks, out) := copyOut M s.blocks res
  let lua ← lua.pop 1
  return (⟨lua, blocks⟩, out)

def luaNorthCb (I : Interp F N T μ) (M : Malloc Bytes) (plugin : LuaPlugin) :
    InData → PluginHost F N T μ → Except ApiFault (PluginHost F N T μ × OutData) :=
  callLuaRef I M plugin.northRef

def luaSouthCb (I : Interp F N T μ) (M : Malloc Bytes) (plugin : LuaPlugin) :
    InData → PluginHost F N T μ → Except ApiFault (PluginHost F N T μ × OutData) :=
  callLuaRef I M plugin.southRef

/-- A call of one of the two callbacks. -/
inductive Transform where
  | north (input : InData)
  | south (input : InData)

def Transform.input : Transform → InData
  | .north input => input
  | .south input => input

/-- Which of two things a transform uses. -/
def Transform.pick {α : Type} (north south : α) : Transform → α
  | .north _ => north
  | .south _ => south

def transform (I : Interp F N T μ) (M : Malloc Bytes) (plugin : LuaPlugin)
    (s : PluginHost F N T μ) : Transform → Except ApiFault (PluginHost F N T μ × OutData)
  | .north input => luaNorthCb I M plugin input s
  | .south input => luaSouthCb I M plugin input s

/-! ### What a transform is for -/

/-- What the function gets: the bytes and their count. -/
def Transform.args (I : Interp F N T μ) (c : Transform) : List (Value F N T) :=
  [.string c.input.bytes, .number (I.ofInteger c.input.bytes.length)]

/-- What the function makes of it: its memory, and the string it returns, if it does. -/
def reply (I : Interp F N T μ) (north south : F) (c : Transform) (memory : μ) :
    μ × Option Bytes :=
  let r := I.call (.function (c.pick north south)) (c.args I) memory
  (r.1, match r.2 with
    | .error _ => none
    | .ok v => I.bytesOf v)

/-- The replies one after another. Only the memory of Lua code goes from one to the next. -/
def replies (I : Interp F N T μ) (north south : F) : List Transform → μ → List (Option Bytes)
  | [], _ => []
  | c :: cs, memory =>
      let r := reply I north south c memory
      r.2 :: replies I north south cs r.1

/-- The output is a new block with these bytes and their length, or null and 0. -/
def OutData.Gives (out : OutData) (blocks blocks' : Heap Bytes) : Option Bytes → Prop
  | none => out = ⟨none, 0⟩ ∧ blocks' = blocks
  | some res => ∃ a, blocks.cell a = none ∧ blocks' = blocks.set a res ∧ out = ⟨some a, res.length⟩

/-- What the caller finds in an output. -/
def OutData.read (blocks : Heap Bytes) (out : OutData) : Option Bytes × Nat :=
  (out.data.bind blocks.cell, out.size)

/-- The plugin has references to these functions. -/
structure Loaded (plugin : LuaPlugin) (north south : F) (lua : State F N T μ) : Prop where
  north : lua.slots plugin.northRef = .function north
  south : lua.slots plugin.southRef = .function south
  distinct : plugin.northRef ≠ plugin.southRef

/-- A transform leaves the stack and the registry as they were, gives its function exactly its input
and its caller exactly the reply. -/
structure Exact (I : Interp F N T μ) (north south : F) (s : PluginHost F N T μ)
    (x : Transform × OutData) (t : PluginHost F N T μ) : Prop where
  stack : t.lua.stack = s.lua.stack
  slots : t.lua.slots = s.lua.slots
  refs : t.lua.refs = s.lua.refs
  calls : t.lua.calls =
    s.lua.calls ++ [(.function (x.1.pick north south), x.1.args I)]
  memory : t.lua.memory = (reply I north south x.1 s.lua.memory).1
  gives : x.2.Gives s.blocks t.blocks (reply I north south x.1 s.lua.memory).2

section Transforms

variable {I : Interp F N T μ} {M : Malloc Bytes} {plugin : LuaPlugin} {north south : F}
  {s : PluginHost F N T μ}

/-- The count that the function gets is the number of bytes. -/
theorem toLuaInteger_length (input : InData) :
    toLuaInteger input.bytes.length = input.bytes.length := by
  have hfits := input.fits
  rw [toLuaInteger, BitVec.toInt_eq_toNat_of_lt] <;> rw [BitVec.toNat_ofNat] <;> omega

theorem copyOut_gives (M : Malloc Bytes) (blocks : Heap Bytes) (res : Option Bytes) :
    (copyOut M blocks res).2.Gives blocks (copyOut M blocks res).1 res := by
  cases res with
  | none => exact ⟨rfl, rfl⟩
  | some res => exact ⟨M.addr blocks, M.fresh blocks, rfl, rfl⟩

/-- **One call.** -/
theorem callLuaRef_exact (c : Transform) {ref : Nat}
    (href : s.lua.slots ref = .function (c.pick north south)) :
    ∃ t out, callLuaRef I M ref c.input s = .ok (t, out) ∧ Exact I north south s (c, out) t := by
  let f : Value F N T := .function (c.pick north south)
  let pushed : State F N T μ :=
    ((s.lua.rawgeti ref).push (.string c.input.bytes)).push
      (.number (I.ofInteger (toLuaInteger c.input.bytes.length)))
  have hstack : pushed.stack = (c.args I).reverse ++ f :: s.lua.stack := by
    simp [pushed, State.push, State.rawgeti, Transform.args, toLuaInteger_length, href, f]
  have hcall : pushed.pcall I 2 = _ := State.pcall_eq hstack
  have hmemory : pushed.memory = s.lua.memory := rfl
  simp only [callLuaRef]
  rw [show (((s.lua.rawgeti ref).push (.string c.input.bytes)).push
      (.number (I.ofInteger (toLuaInteger c.input.bytes.length)))) = pushed from rfl, hcall]
  simp only [hmemory]
  have hpopped : ∀ v, ∃ lua, State.tolstring I ⟨v :: s.lua.stack, pushed.refs, pushed.slots,
      (I.call f (c.args I) s.lua.memory).1, pushed.calls ++ [(f, c.args I)]⟩ =
        .ok (lua, I.bytesOf v) ∧ lua.pop 1 = .ok ⟨s.lua.stack, pushed.refs, pushed.slots,
          (I.call f (c.args I) s.lua.memory).1, pushed.calls ++ [(f, c.args I)]⟩ :=
    fun v => State.tolstring_pop rfl
  cases houtcome : (I.call f (c.args I) s.lua.memory).2 with
  | error e =>
      have hreply : (reply I north south c s.lua.memory).2 = none := by
        simp only [reply, houtcome, f]
      obtain ⟨lua, htop, hpop⟩ := hpopped e
      simp only [ok_bind, Bool.not_false, if_true, htop, hpop]
      exact ⟨_, _, rfl, rfl, rfl, rfl, rfl, rfl, by rw [hreply]; exact ⟨rfl, rfl⟩⟩
  | ok v =>
      have hreply : (reply I north south c s.lua.memory).2 = I.bytesOf v := by
        simp only [reply, houtcome, f]
      obtain ⟨lua, htop, hpop⟩ := hpopped v
      simp only [ok_bind, Bool.not_true, Bool.false_eq_true, if_false, htop, hpop]
      exact ⟨_, _, rfl, rfl, rfl, rfl, rfl, rfl, by rw [hreply]; exact copyOut_gives M _ _⟩

theorem Loaded.transform (hloaded : Loaded plugin north south s.lua) (c : Transform) :
    ∃ t out, LibEzmb.transform I M plugin s c = .ok (t, out) ∧
      Exact I north south s (c, out) t := by
  cases c with
  | north input => exact callLuaRef_exact (.north input) hloaded.north
  | south input => exact callLuaRef_exact (.south input) hloaded.south

theorem Exact.loaded {x : Transform × OutData} {t : PluginHost F N T μ}
    (hexact : Exact I north south s x t) (hloaded : Loaded plugin north south s.lua) :
    Loaded plugin north south t.lua := by
  refine ⟨?_, ?_, hloaded.distinct⟩
  · rw [hexact.slots, hloaded.north]
  · rw [hexact.slots, hloaded.south]

/-- No block that was given to a caller is written again. -/
theorem Exact.keeps {x : Transform × OutData} {t : PluginHost F N T μ}
    (hexact : Exact I north south s x t) {a : Addr} {res : Bytes}
    (hcell : s.blocks.cell a = some res) : t.blocks.cell a = some res := by
  have hgives := hexact.gives
  cases hreply : (reply I north south x.1 s.lua.memory).2 with
  | none =>
      rw [hreply] at hgives
      rw [hgives.2, hcell]
  | some bytes =>
      rw [hreply] at hgives
      obtain ⟨b, hfresh, hblocks, -⟩ := hgives
      rw [hblocks, Heap.set_cell, if_neg, hcell]
      rintro rfl
      rw [hfresh] at hcell
      cases hcell

theorem OutData.Gives.read {out : OutData} {blocks blocks' later : Heap Bytes}
    {res : Option Bytes} (hgives : out.Gives blocks blocks' res)
    (hkeeps : ∀ a bytes, blocks'.cell a = some bytes → later.cell a = some bytes) :
    out.read later = (res, (res.getD []).length) := by
  cases res with
  | none =>
      obtain ⟨rfl, -⟩ := hgives
      rfl
  | some bytes =>
      obtain ⟨a, -, rfl, rfl⟩ := hgives
      have hcell := hkeeps a bytes (by rw [Heap.set_cell, if_pos rfl])
      rw [OutData.read, Option.bind_some, hcell]
      rfl

theorem Loaded.transforms (hloaded : Loaded plugin north south s.lua) (cs : List Transform) :
    ∃ t outs, exec (LibEzmb.transform I M plugin) s cs = .ok (t, outs) ∧
      Run (Exact I north south) s (cs.zip outs) t ∧
      outs.map (OutData.read t.blocks) =
        (replies I north south cs s.lua.memory).map fun res => (res, (res.getD []).length) := by
  induction cs generalizing s with
  | nil => exact ⟨s, [], rfl, .nil s, rfl⟩
  | cons c cs ih =>
      obtain ⟨u, out, htransform, hexact⟩ := hloaded.transform (I := I) (M := M) c
      obtain ⟨t, outs, hexec, hrun, hreads⟩ := ih (hexact.loaded hloaded)
      have hkeeps : ∀ a bytes, u.blocks.cell a = some bytes → t.blocks.cell a = some bytes := by
        intro a bytes hcell
        exact hrun.invariant (I := fun v => v.blocks.cell a = some bytes)
          (fun _ _ _ hv hstep => hstep.keeps hv) hcell
      refine ⟨t, out :: outs, ?_, .cons hexact hrun, ?_⟩
      · exact exec_cons_ok.mpr ⟨u, out, outs, htransform, hexec, rfl⟩
      · rw [List.map_cons, replies, List.map_cons, hexact.gives.read hkeeps, hreads,
          hexact.memory]

/-- Going on past a check that returns null. -/
theorem past_check {α : Type} {failed : Bool} {rest : Except ApiFault (Option α)} {a : α}
    (hload : (if failed = true then pure none else rest) = .ok (some a)) :
    failed = false ∧ rest = .ok (some a) := by
  cases failed with
  | true => cases hload
  | false => exact ⟨rfl, hload⟩

/-- Loading keeps a reference to each of the two functions. -/
theorem load_loaded {filename : CStr} {memory : μ} {lua : State F N T μ}
    (hload : LuaPlugin.ePluginLoadFromLuaScript I filename (.new memory) =
      .ok (some (plugin, lua))) : ∃ north south, Loaded plugin north south lua := by
  simp only [LuaPlugin.ePluginLoadFromLuaScript] at hload
  obtain ⟨-, hload⟩ := past_check hload
  obtain ⟨_, -, hload⟩ := bind_eq_ok hload
  obtain ⟨-, hload⟩ := past_check hload
  obtain ⟨⟨called, _⟩, hcall, hload⟩ := bind_eq_ok hload
  obtain ⟨-, hload⟩ := past_check hload
  obtain ⟨_, -, hload⟩ := bind_eq_ok hload
  obtain ⟨-, hload⟩ := past_check hload
  obtain ⟨fielded, hfield, hload⟩ := bind_eq_ok hload
  obtain ⟨north, hnorth, hload⟩ := bind_eq_ok hload
  obtain ⟨hfunction, hload⟩ := past_check hload
  obtain ⟨⟨kept, northRef⟩, href, hload⟩ := bind_eq_ok hload
  obtain ⟨fielded', hfield', hload⟩ := bind_eq_ok hload
  obtain ⟨south, hsouth, hload⟩ := bind_eq_ok hload
  obtain ⟨hfunction', hload⟩ := past_check hload
  obtain ⟨⟨kept', southRef⟩, href', hload⟩ := bind_eq_ok hload
  obtain ⟨popped, hpop, hload⟩ := bind_eq_ok hload
  cases hload
  have hfielded : State.SameRegistry (.new memory) fielded :=
    (State.dofile_registry filename).trans ((State.getglobal_registry _).trans
      (State.newtable_registry.trans ((State.pcall_registry hcall).trans
        (State.getfield_registry hfield))))
  have hsound : fielded.refs.Sound [] := by
    rw [hfielded.refs]
    exact State.new_sound memory
  obtain ⟨hne, hslot, hslot'⟩ :=
    State.ref_twice hsound hnorth href (State.getfield_registry hfield') hsouth href'
  obtain ⟨f, rfl⟩ := Value.isFunction_iff.mp (by simpa using hfunction)
  obtain ⟨g, rfl⟩ := Value.isFunction_iff.mp (by simpa using hfunction')
  have hslots := (State.pop_registry hpop).slots
  refine ⟨f, g, ?_, ?_, hne⟩
  · rw [hslots, hslot]
  · rw [hslots, hslot']

/-- **Lua transforms.** On a plugin that was loaded, every sequence of transforms goes through. Each
leaves the stack and the registry as it found them, gives the function that was loaded for it
exactly its input, and returns a copy of the string it gets or nothing. The outputs are still there
at the end, and they are those of the functions on their own. -/
theorem lua_transforms_exact (M : Malloc Bytes) {filename : CStr} {memory : μ}
    {lua : State F N T μ}
    (hload : LuaPlugin.ePluginLoadFromLuaScript I filename (.new memory) =
      .ok (some (plugin, lua))) (blocks : Heap Bytes) (cs : List Transform) :
    ∃ north south t outs, Loaded plugin north south lua ∧
      exec (LibEzmb.transform I M plugin) ⟨lua, blocks⟩ cs = .ok (t, outs) ∧
      Run (Exact I north south) ⟨lua, blocks⟩ (cs.zip outs) t ∧
      outs.map (OutData.read t.blocks) =
        (replies I north south cs lua.memory).map fun res => (res, (res.getD []).length) := by
  obtain ⟨north, south, hloaded⟩ := load_loaded hload
  obtain ⟨t, outs, hexec, hrun, hreads⟩ :=
    Loaded.transforms (I := I) (M := M) (s := ⟨lua, blocks⟩) hloaded cs
  exact ⟨north, south, t, outs, hloaded, hexec, hrun, hreads⟩

end Transforms

/-- The functions of the script plug.lua of the tests. -/
inductive PlugFunction where
  | registerPlugin
  | reverse
  | increment
  deriving DecidableEq, Repr

/-- What plug.lua does: `register_plugin` stores the two transforms in the table it is given, one of
which reverses its input while the other adds one to each byte. The memory is whether the table has
them. -/
def plugLua : Interp PlugFunction Int Unit Bool where
  ofInteger n := n
  text n := (toString n).toList.map code
  call
    | .function .registerPlugin, [.table t], _ => (true, .ok (.table t))
    | .function .reverse, [.string input, _], filled => (filled, .ok (.string input.reverse))
    | .function .increment, [.string input, _], filled =>
        (filled, .ok (.string (input.map fun byte => byte + 1)))
    | _, _, filled => (filled, .error .other)
  dofile _ _ := (false, .ok [])
  newTable filled := (filled, ())
  getGlobal name filled :=
    (filled, if name = registerPluginName then .function .registerPlugin else .nil)
  getField _ name filled :=
    (filled, if filled = false then .nil
      else if name = northTransformName then .function .reverse
      else if name = southTransformName then .function .increment
      else .nil)

/-- A message with a zero in it, north and then south. -/
def plugTransforms : List Transform :=
  [.north ⟨[1, 0, 2], by decide⟩, .south ⟨[1, 0, 255], by decide⟩]

theorem lua_transforms_exact_plug : ∃ plugin lua north south t outs,
    LuaPlugin.ePluginLoadFromLuaScript plugLua ⟨[], List.not_mem_nil⟩ (.new false) =
      .ok (some (plugin, lua)) ∧
    Loaded plugin north south lua ∧
    exec (LibEzmb.transform plugLua (.bump []) plugin) ⟨lua, .empty⟩ plugTransforms =
      .ok (t, outs) ∧
    Run (Exact plugLua north south) ⟨lua, .empty⟩ (plugTransforms.zip outs) t ∧
    outs.map (OutData.read t.blocks) = (replies plugLua north south plugTransforms lua.memory).map
      fun res => (res, (res.getD []).length) := by
  obtain ⟨plugin, lua, hload⟩ : ∃ plugin lua, LuaPlugin.ePluginLoadFromLuaScript plugLua
      ⟨[], List.not_mem_nil⟩ (.new false) = .ok (some (plugin, lua)) := ⟨_, _, rfl⟩
  obtain ⟨north, south, t, outs, htransforms⟩ :=
    lua_transforms_exact (.bump []) hload .empty plugTransforms
  exact ⟨plugin, lua, north, south, t, outs, hload, htransforms⟩

end LibEzmb
