import LibEzmb.BaseBytes
import LibEzmb.BaseLedger
import LibEzmb.BaseLoop
import LibEzmb.BaseRun

/-! The contexts of e_plugin_driver.c: a plugin is a Lua script with an interpreter of its own or a
library that is opened, and its context says which in a tag next to a union of the two. -/

open CHeap CBytes Ledgers Runs

namespace LibEzmb

/-- `e_plugin_type_t`. -/
inductive PluginType where
  | none
  | lua
  | elf
  deriving DecidableEq, Repr

/-- The union `impl` by the member that was last written. `calloc` leaves zeros. -/
inductive PluginImpl where
  | zero
  | lua (L : Addr) (northRef southRef : Int)
  | elf (handle : Addr)
  deriving DecidableEq, Repr

/-- `e_plugin_context_t`, without the driver, which no function here reads. -/
structure PluginContext where
  type : PluginType
  impl : PluginImpl
  deriving DecidableEq, Repr

/-- What stops the program: a fault of memory, a member of the union that was not the last one
written, or an interpreter or a library that is closed and was not open. -/
inductive PluginFault where
  | memory (fault : Fault)
  | wrongMember
  | notOpen
  deriving DecidableEq, Repr

/-- `impl.lua.L`. -/
def PluginImpl.luaState : PluginImpl → Except PluginFault (Option Addr)
  | .zero => .ok none
  | .lua L _ _ => .ok (some L)
  | .elf _ => .error .wrongMember

/-- `impl.elf.handle`. -/
def PluginImpl.elfHandle : PluginImpl → Except PluginFault (Option Addr)
  | .zero => .ok none
  | .lua .. => .error .wrongMember
  | .elf handle => .ok (some handle)

/-- The contexts, the interpreters and the libraries, and the references made in each interpreter.
`live` are the contexts that were returned and not destroyed. -/
structure PluginSystem where
  heap : Heap PluginContext
  lua : Account Addr
  elf : Account Addr
  refs : List (Addr × Int)
  live : List Addr

/-- What Lua answers while a script is loaded: the interpreter, whether the script runs, whether it
defines `register_plugin`, whether that runs and gives a table, and the references to the two
transforms where they are functions. -/
structure LuaEnv where
  L : Addr
  dofile : Bool
  registerPlugin : Bool
  pcall : Bool
  table : Bool
  north : Option Int
  south : Option Int
  deriving DecidableEq, Repr

/-- What `dlopen` and `dlsym` answer, and what `register_plugin` of the library returns. -/
structure ElfEnv where
  dlopen : Option Addr
  dlsym : Bool
  reg : Int
  deriving DecidableEq, Repr

/-- What a call of `e_plugin_create` meets: memory, which does not run out, what can be read of the
file, Lua and the dynamic linker. -/
structure PluginEnv where
  malloc : Malloc PluginContext
  file : Option Bytes
  lua : LuaEnv
  elf : ElfEnv

/-- `"\x7f""ELF"` -/
def elfMagic : Bytes := [0x7f, 0x45, 0x4c, 0x46]

def fileIsElf (file : Option Bytes) : Bool :=
  match file with
  | none => false
  | some content => if (content.take 4).length ≠ 4 then false else content.take 4 = elfMagic

def onHeap {α : Type} (x : Except Fault α) : Except PluginFault α :=
  match x with
  | .error fault => .error (.memory fault)
  | .ok a => .ok a

namespace PluginSystem

def start : PluginSystem := ⟨Heap.empty, .empty, .empty, [], []⟩

def luaClose (s : PluginSystem) (L : Addr) : Except PluginFault PluginSystem :=
  match s.lua.give L with
  | none => .error .notOpen
  | some lua => .ok { s with lua := lua, refs := s.refs.filter fun x => x.1 ≠ L }

def dlclose (s : PluginSystem) (handle : Addr) : Except PluginFault PluginSystem :=
  match s.elf.give handle with
  | none => .error .notOpen
  | some elf => .ok { s with elf := elf }

/-- `free(ctx)`. -/
def free (s : PluginSystem) (ctx : Option Addr) : Except PluginFault PluginSystem := do
  let heap ← onHeap (s.heap.release ctx)
  .ok { s with heap := heap }

def ePluginDestroy (s : PluginSystem) : Option Addr → Except PluginFault PluginSystem
  | none => .ok s
  | some ctx => do
      let c ← onHeap (s.heap.deref (some ctx))
      let s ← if c.type = .lua then do
          match ← c.impl.luaState with
          | none => .ok s
          | some L => s.luaClose L
        else .ok s
      let s ← if c.type = .elf then do
          match ← c.impl.elfHandle with
          | none => .ok s
          | some handle => s.dlclose handle
        else .ok s
      s.free (some ctx)

/-- `lua_close(ctx->impl.lua.L); free(ctx); return NULL;` -/
def abandonLua (s : PluginSystem) (ctx : Addr) :
    Except PluginFault (PluginSystem × Option Addr) := do
  let c ← onHeap (s.heap.deref (some ctx))
  let s ← match ← c.impl.luaState with
    | none => .error (.memory .nullDeref)
    | some L => s.luaClose L
  let s ← s.free (some ctx)
  .ok (s, none)

def ePluginLoadFromLuaScript (malloc : Malloc PluginContext) (env : LuaEnv) (s : PluginSystem) :
    Except PluginFault (PluginSystem × Option Addr) :=
  let ctx := malloc.addr s.heap
  let s := { s with heap := s.heap.set ctx ⟨.none, .lua env.L 0 0⟩, lua := s.lua.take env.L }
  if !env.dofile then s.abandonLua ctx
  else if !env.registerPlugin then s.abandonLua ctx
  else if !env.pcall then s.abandonLua ctx
  else if !env.table then s.abandonLua ctx
  else match env.north with
    | none => s.abandonLua ctx
    | some northRef =>
        let s := { s with
          heap := s.heap.set ctx ⟨.none, .lua env.L northRef 0⟩
          refs := (env.L, northRef) :: s.refs }
        match env.south with
        | none => s.abandonLua ctx
        | some southRef => .ok ({ s with
            heap := s.heap.set ctx ⟨.lua, .lua env.L northRef southRef⟩
            refs := (env.L, southRef) :: s.refs }, some ctx)

/-- A failure after `dlopen` closes the library and destroys the context, whose tag is still
`PLUGIN_NONE`; a failure of `dlopen` leaves the context allocated. -/
def ePluginLoadFromElf (malloc : Malloc PluginContext) (env : ElfEnv) (s : PluginSystem) :
    Except PluginFault (PluginSystem × Option Addr) :=
  let ctx := malloc.addr s.heap
  let s := { s with heap := s.heap.set ctx ⟨.none, .zero⟩ }
  match env.dlopen with
  | none => .ok (s, none)
  | some handle =>
      let s := { s with elf := s.elf.take handle }
      if !env.dlsym then do
        let s ← s.dlclose handle
        let s ← s.ePluginDestroy (some ctx)
        .ok (s, none)
      else if env.reg ≠ 0 then do
        let s ← s.dlclose handle
        let s ← s.ePluginDestroy (some ctx)
        .ok (s, none)
      else .ok ({ s with heap := s.heap.set ctx ⟨.elf, .elf handle⟩ }, some ctx)

/-- `e_plugin_create`. The loaders get the name only when there is one; the context allocated here is
lost when theirs takes its place. -/
def ePluginCreate (env : PluginEnv) (filename : Option CStr) (s : PluginSystem) :
    Except PluginFault (PluginSystem × Option Addr) :=
  match filename with
  | none => .ok (s, none)
  | some _ =>
      let s := { s with heap := s.heap.set (env.malloc.addr s.heap) ⟨.none, .zero⟩ }
      if fileIsElf env.file then ePluginLoadFromElf env.malloc env.elf s
      else ePluginLoadFromLuaScript env.malloc env.lua s

end PluginSystem

/-- A call of the plugin driver. -/
inductive PluginCall where
  | create (env : PluginEnv) (filename : Option CStr)
  | destroy (ctx : Option Addr)

namespace PluginSystem

def step (s : PluginSystem) : PluginCall → Except PluginFault (PluginSystem × Option Addr)
  | .create env filename => do
      let (s, ctx) ← ePluginCreate env filename s
      .ok ({ s with live := ctx.toList ++ s.live }, ctx)
  | .destroy ctx => do
      let s ← s.ePluginDestroy ctx
      .ok ({ s with live := match ctx with
        | none => s.live
        | some a => s.live.erase a }, none)

end PluginSystem

/-! ### What the tag says -/

namespace PluginContext

/-- The interpreter of a context that says it has one. -/
def lua? (c : PluginContext) : Option Addr :=
  match c.type, c.impl with
  | .lua, .lua L _ _ => some L
  | _, _ => none

/-- The library of a context that says it has one. -/
def elf? (c : PluginContext) : Option Addr :=
  match c.type, c.impl with
  | .elf, .elf handle => some handle
  | _, _ => none

/-- The tag is set and names the member of the union, and both transforms are referenced. -/
def Ready (c : PluginContext) (refs : List (Addr × Int)) : Prop :=
  match c.impl with
  | .zero => False
  | .lua L northRef southRef => c.type = .lua ∧ (L, northRef) ∈ refs ∧ (L, southRef) ∈ refs
  | .elf _ => c.type = .elf

theorem Ready.cases {c : PluginContext} {refs : List (Addr × Int)} (hready : c.Ready refs) :
    (∃ L northRef southRef, c = ⟨.lua, .lua L northRef southRef⟩ ∧
      (L, northRef) ∈ refs ∧ (L, southRef) ∈ refs) ∨ ∃ handle, c = ⟨.elf, .elf handle⟩ := by
  obtain ⟨type, impl⟩ := c
  cases impl with
  | zero => exact hready.elim
  | lua L northRef southRef =>
      obtain ⟨rfl, hrefs⟩ := hready
      exact Or.inl ⟨L, northRef, southRef, rfl, hrefs⟩
  | elf handle =>
      cases hready
      exact Or.inr ⟨handle, rfl⟩

/-- A context stays ready while the references in its interpreter are kept. -/
theorem Ready.keep {c : PluginContext} {refs refs' : List (Addr × Int)} (hready : c.Ready refs)
    (hkept : ∀ L ref, c.lua? = some L → (L, ref) ∈ refs → (L, ref) ∈ refs') : c.Ready refs' := by
  rcases hready.cases with ⟨L, northRef, southRef, rfl, hnorth, hsouth⟩ | ⟨handle, rfl⟩
  · exact ⟨rfl, hkept L northRef rfl hnorth, hkept L southRef rfl hsouth⟩
  · rfl

end PluginContext

namespace PluginSystem

/-- The interpreter held by a context. -/
def luaOf (s : PluginSystem) (a : Addr) : Option Addr := (s.heap.cell a).bind PluginContext.lua?

/-- The library held by a context. -/
def elfOf (s : PluginSystem) (a : Addr) : Option Addr := (s.heap.cell a).bind PluginContext.elf?

/-- The interpreters and the libraries that are open are those of the live contexts, which are ready;
a context that is allocated and not live has no tag. -/
structure Inv (s : PluginSystem) : Prop where
  nodup : s.live.Nodup
  ready : ∀ a ∈ s.live, ∃ c, s.heap.cell a = some c ∧ c.Ready s.refs
  spare : ∀ a c, s.heap.cell a = some c → a ∉ s.live → c.type = .none
  lua : s.lua.held.Perm (s.live.filterMap s.luaOf)
  elf : s.elf.held.Perm (s.live.filterMap s.elfOf)
  distinct : s.lua.held.Nodup
  luaBalanced : s.lua.Balanced
  elfBalanced : s.elf.Balanced

variable {s t : PluginSystem} {a : Addr}

theorem Inv.start : PluginSystem.start.Inv where
  nodup := List.nodup_nil
  ready _ ha := absurd ha List.not_mem_nil
  spare _ _ hc := by cases hc
  lua := List.Perm.refl _
  elf := List.Perm.refl _
  distinct := List.nodup_nil
  luaBalanced := List.Perm.refl _
  elfBalanced := List.Perm.refl _

/-- Contexts that have not changed hold the same interpreters and libraries. -/
theorem handles_congr {live : List Addr} (hsame : ∀ b ∈ live, t.heap.cell b = s.heap.cell b) :
    live.filterMap t.luaOf = live.filterMap s.luaOf ∧
      live.filterMap t.elfOf = live.filterMap s.elfOf := by
  constructor
  · exact List.filterMap_congr fun b hb => by rw [luaOf, luaOf, hsame b hb]
  · exact List.filterMap_congr fun b hb => by rw [elfOf, elfOf, hsame b hb]

/-- An interpreter that one of the contexts names is among those of the contexts. -/
theorem mem_luaOf {live : List Addr} {L : Addr} {c : PluginContext} (ha : a ∈ live)
    (hc : s.heap.cell a = some c) (hlua : c.lua? = some L) : L ∈ live.filterMap s.luaOf :=
  List.mem_filterMap.mpr ⟨a, ha, by rw [luaOf, hc]; exact hlua⟩

theorem Inv.not_live (hinv : s.Inv) (hfree : s.heap.cell a = none) : a ∉ s.live := by
  intro ha
  obtain ⟨c, hc, -⟩ := hinv.ready a ha
  rw [hfree] at hc
  cases hc

/-- Nothing has changed for the live contexts, and what else is allocated has no tag. -/
theorem Inv.congr (hinv : s.Inv)
    (hlive : t.live = s.live) (hsame : ∀ a ∈ s.live, t.heap.cell a = s.heap.cell a)
    (hspare : ∀ a c, t.heap.cell a = some c → a ∉ s.live → c.type = .none)
    (hlua : t.lua.held = s.lua.held) (helf : t.elf.held = s.elf.held)
    (hluaBalanced : t.lua.Balanced) (helfBalanced : t.elf.Balanced)
    (hrefs : ∀ x ∈ s.refs, x.1 ∈ s.lua.held → x ∈ t.refs) : t.Inv := by
  obtain ⟨hluaOf, helfOf⟩ := handles_congr hsame
  refine ⟨hlive ▸ hinv.nodup, fun a ha => ?_, fun a c hc ha => ?_, ?_, ?_, hlua ▸ hinv.distinct,
    hluaBalanced, helfBalanced⟩
  · rw [hlive] at ha
    obtain ⟨c, hc, hready⟩ := hinv.ready a ha
    refine ⟨c, (hsame a ha).trans hc, hready.keep fun L ref hL href => hrefs _ href ?_⟩
    exact hinv.lua.symm.subset (mem_luaOf ha hc hL)
  · exact hspare a c hc (hlive ▸ ha)
  · rw [hlua, hlive, hluaOf]
    exact hinv.lua
  · rw [helf, hlive, helfOf]
    exact hinv.elf

/-- A context that nobody has a pointer to does no harm as long as it has no tag. -/
theorem Inv.leak (hinv : s.Inv) (hfree : s.heap.cell a = none) (impl : PluginImpl) :
    Inv { s with heap := s.heap.set a ⟨.none, impl⟩ } := by
  have hnew := hinv.not_live hfree
  refine hinv.congr rfl (fun b hb => ?_) (fun b c hc hb => ?_) rfl rfl hinv.luaBalanced
    hinv.elfBalanced fun x hx _ => hx
  · rw [Heap.set_cell, if_neg (ne_of_mem_of_not_mem hb hnew)]
  · by_cases hba : b = a
    · rw [hba, Heap.set_cell, if_pos rfl, Option.some.injEq] at hc
      rw [← hc]
    · rw [Heap.set_cell, if_neg hba] at hc
      exact hinv.spare b c hc hb

/-- A new live context, with what its tag says is open. -/
theorem Inv.add (hinv : s.Inv) (hfree : s.heap.cell a = none) {c : PluginContext}
    (hcell : t.heap.cell a = some c) (hothers : ∀ b, b ≠ a → t.heap.cell b = s.heap.cell b)
    (hready : c.Ready t.refs) (hlua : t.lua.held = c.lua?.toList ++ s.lua.held)
    (helf : t.elf.held = c.elf?.toList ++ s.elf.held) (hdistinct : t.lua.held.Nodup)
    (hluaBalanced : t.lua.Balanced) (helfBalanced : t.elf.Balanced) (hrefs : s.refs ⊆ t.refs) :
    Inv { t with live := a :: s.live } := by
  have hnew := hinv.not_live hfree
  have hsame : ∀ b ∈ s.live, t.heap.cell b = s.heap.cell b :=
    fun b hb => hothers b (ne_of_mem_of_not_mem hb hnew)
  obtain ⟨hluaOf, helfOf⟩ := handles_congr hsame
  refine ⟨List.nodup_cons.mpr ⟨hnew, hinv.nodup⟩, fun b hb => ?_, fun b d hd hb => ?_, ?_, ?_,
    hdistinct, hluaBalanced, helfBalanced⟩
  · rcases List.mem_cons.mp hb with rfl | hb
    · exact ⟨c, hcell, hready⟩
    · obtain ⟨d, hd, hready'⟩ := hinv.ready b hb
      exact ⟨d, (hsame b hb).trans hd, hready'.keep fun _ _ _ href => hrefs href⟩
  · rw [List.mem_cons, not_or] at hb
    exact hinv.spare b d ((hothers b hb.1).symm.trans hd) hb.2
  · have hhead : t.luaOf a = c.lua? := by rw [luaOf, hcell]; rfl
    change t.lua.held.Perm ((a :: s.live).filterMap t.luaOf)
    rw [hlua, List.filterMap_cons, hhead, hluaOf]
    cases c.lua? with
    | none => exact hinv.lua
    | some L => exact hinv.lua.cons L
  · have hhead : t.elfOf a = c.elf? := by rw [elfOf, hcell]; rfl
    change t.elf.held.Perm ((a :: s.live).filterMap t.elfOf)
    rw [helf, List.filterMap_cons, hhead, helfOf]
    cases c.elf? with
    | none => exact hinv.elf
    | some handle => exact hinv.elf.cons handle

/-! ### Loading a Lua script -/

/-- A context is being built next to those of `s`, with an interpreter of its own and no tag. -/
structure Building (s : PluginSystem) (ctx L : Addr) (t : PluginSystem) : Prop where
  cell : ∃ northRef southRef, t.heap.cell ctx = some ⟨.none, .lua L northRef southRef⟩
  others : ∀ b, b ≠ ctx → t.heap.cell b = s.heap.cell b
  lua : t.lua = s.lua.take L
  elf : t.elf = s.elf
  live : t.live = s.live
  refs : s.refs ⊆ t.refs

/-- An exit that closes the interpreter and frees the context leaves the others as they were. -/
theorem Building.abandon {ctx L : Addr} (hbuilding : Building s ctx L t) (hinv : s.Inv)
    (hfree : s.heap.cell ctx = none) (hL : L ∉ s.lua.held) :
    ∃ u, t.abandonLua ctx = .ok (u, none) ∧ u.Inv := by
  obtain ⟨northRef, southRef, hcell⟩ := hbuilding.cell
  have hgive : t.lua.give L = some ⟨L :: s.lua.taken, s.lua.held, L :: s.lua.back⟩ := by
    rw [hbuilding.lua, Account.give_of_mem List.mem_cons_self]
    simp [Account.take]
  have hbalanced : Account.Balanced ⟨L :: s.lua.taken, s.lua.held, L :: s.lua.back⟩ := by
    refine Account.Balanced.give ?_ hgive
    rw [hbuilding.lua]
    exact hinv.luaBalanced.take L
  have hdone : t.abandonLua ctx = .ok ({ t with
      heap := t.heap.drop ctx
      lua := ⟨L :: s.lua.taken, s.lua.held, L :: s.lua.back⟩
      refs := t.refs.filter fun x => x.1 ≠ L }, none) := by
    simp [abandonLua, onHeap, Heap.deref_of_cell hcell, PluginImpl.luaState, luaClose, hgive, free,
      Heap.release_of_cell hcell]
  have hothers : ∀ b, b ≠ ctx → (t.heap.drop ctx).cell b = s.heap.cell b := by
    intro b hb
    rw [Heap.drop_cell, if_neg hb, hbuilding.others b hb]
  refine ⟨_, hdone, hinv.congr hbuilding.live (fun b hb => ?_) (fun b c hc hb => ?_) rfl
    (congrArg Account.held hbuilding.elf) hbalanced (hbuilding.elf ▸ hinv.elfBalanced)
    fun x hx hopen => ?_⟩
  · exact hothers b (ne_of_mem_of_not_mem hb (hinv.not_live hfree))
  · by_cases hb' : b = ctx
    · subst hb'
      simp at hc
    · exact hinv.spare b c ((hothers b hb').symm.trans hc) hb
  · refine List.mem_filter.mpr ⟨hbuilding.refs hx, decide_eq_true ?_⟩
    exact ne_of_mem_of_not_mem hopen hL

/-- Whatever Lua answers, loading a script keeps the contexts in order. -/
theorem Inv.loadLua (hinv : s.Inv) (malloc : Malloc PluginContext) {env : LuaEnv}
    (hL : env.L ∉ s.lua.held) :
    ∃ t out, ePluginLoadFromLuaScript malloc env s = .ok (t, out) ∧
      Inv { t with live := out.toList ++ t.live } := by
  have hfree := malloc.fresh s.heap
  have hbuilding : Building s (malloc.addr s.heap) env.L { s with
      heap := s.heap.set (malloc.addr s.heap) ⟨.none, .lua env.L 0 0⟩
      lua := s.lua.take env.L } :=
    ⟨⟨0, 0, by simp⟩, fun b hb => by simp [hb], rfl, rfl, rfl, List.Subset.refl _⟩
  obtain ⟨u, habandon, hinv'⟩ := hbuilding.abandon hinv hfree hL
  unfold ePluginLoadFromLuaScript
  cases env.dofile with
  | false => exact ⟨u, none, habandon, hinv'⟩
  | true =>
  cases env.registerPlugin with
  | false => exact ⟨u, none, habandon, hinv'⟩
  | true =>
  cases env.pcall with
  | false => exact ⟨u, none, habandon, hinv'⟩
  | true =>
  cases env.table with
  | false => exact ⟨u, none, habandon, hinv'⟩
  | true =>
  cases env.north with
  | none => exact ⟨u, none, habandon, hinv'⟩
  | some northRef =>
  have hbuilding' : Building s (malloc.addr s.heap) env.L { s with
      heap := (s.heap.set (malloc.addr s.heap) ⟨.none, .lua env.L 0 0⟩).set (malloc.addr s.heap)
        ⟨.none, .lua env.L northRef 0⟩
      lua := s.lua.take env.L
      refs := (env.L, northRef) :: s.refs } :=
    ⟨⟨northRef, 0, by simp⟩, fun b hb => by simp [hb], rfl, rfl, rfl, List.subset_cons_self _ _⟩
  obtain ⟨u', habandon', hinv''⟩ := hbuilding'.abandon hinv hfree hL
  cases env.south with
  | none => exact ⟨u', none, habandon', hinv''⟩
  | some southRef =>
      refine ⟨_, _, rfl, hinv.add hfree (c := ⟨.lua, .lua env.L northRef southRef⟩) (by simp)
        (fun b hb => by simp [hb]) ⟨rfl, by simp, by simp⟩ rfl rfl
        (List.nodup_cons.mpr ⟨hL, hinv.distinct⟩) (hinv.luaBalanced.take env.L) hinv.elfBalanced
        fun x hx => List.mem_cons_of_mem _ (List.mem_cons_of_mem _ hx)⟩

/-! ### Loading a library -/

/-- A context without a tag is destroyed without a look at its union. -/
theorem ePluginDestroy_untagged {impl : PluginImpl} (hcell : s.heap.cell a = some ⟨.none, impl⟩) :
    s.ePluginDestroy (some a) = .ok { s with heap := s.heap.drop a } := by
  simp [ePluginDestroy, onHeap, Heap.deref_of_cell hcell, free, Heap.release_of_cell hcell]

/-- Whatever the dynamic linker and the library answer, loading a library keeps the contexts in
order. -/
theorem Inv.loadElf (hinv : s.Inv) (malloc : Malloc PluginContext) (env : ElfEnv) :
    ∃ t out, ePluginLoadFromElf malloc env s = .ok (t, out) ∧
      Inv { t with live := out.toList ++ t.live } := by
  have hfree := malloc.fresh s.heap
  have hothers : ∀ b ∈ s.live, b ≠ malloc.addr s.heap :=
    fun b hb => ne_of_mem_of_not_mem hb (hinv.not_live hfree)
  unfold ePluginLoadFromElf
  cases env.dlopen with
  | none => exact ⟨_, none, rfl, hinv.leak hfree .zero⟩
  | some handle =>
      have hgive : (s.elf.take handle).give handle =
          some ⟨handle :: s.elf.taken, s.elf.held, handle :: s.elf.back⟩ := by
        rw [Account.give_of_mem List.mem_cons_self]
        simp [Account.take]
      have hundone : Inv { s with
          heap := (s.heap.set (malloc.addr s.heap) ⟨.none, .zero⟩).drop (malloc.addr s.heap)
          elf := ⟨handle :: s.elf.taken, s.elf.held, handle :: s.elf.back⟩ } := by
        refine hinv.congr rfl (fun b hb => by simp [hothers b hb]) (fun b c hc hb => ?_) rfl rfl
          hinv.luaBalanced ((hinv.elfBalanced.take handle).give hgive) fun x hx _ => hx
        by_cases hb' : b = malloc.addr s.heap
        · simp [hb'] at hc
        · exact hinv.spare b c (by simpa [hb'] using hc) hb
      by_cases hfails : env.dlsym = false ∨ env.reg ≠ 0
      · refine ⟨⟨(s.heap.set (malloc.addr s.heap) ⟨.none, .zero⟩).drop (malloc.addr s.heap), s.lua,
          ⟨handle :: s.elf.taken, s.elf.held, handle :: s.elf.back⟩, s.refs, s.live⟩, none, ?_,
          hundone⟩
        rcases hfails with hdlsym | hreg
        · simp [hdlsym, dlclose, hgive, ePluginDestroy_untagged]
        · simp [hreg, dlclose, hgive, ePluginDestroy_untagged]
      · rw [not_or, Bool.not_eq_false, not_not] at hfails
        rw [hfails.1, hfails.2]
        exact ⟨_, _, rfl, hinv.add hfree (c := ⟨.elf, .elf handle⟩) (by simp)
          (fun b hb => by simp [hb]) rfl rfl rfl hinv.distinct hinv.luaBalanced
          (hinv.elfBalanced.take handle) (List.Subset.refl _)⟩

/-! ### Destroying a context -/

/-- The context is gone, and what its tag named is closed. -/
theorem Inv.remove (hinv : s.Inv) (hheap : t.heap = s.heap.drop a) (hlive : t.live = s.live.erase a)
    (hlua : t.lua.held.Perm ((s.live.erase a).filterMap s.luaOf))
    (helf : t.elf.held.Perm ((s.live.erase a).filterMap s.elfOf)) (hdistinct : t.lua.held.Nodup)
    (hluaBalanced : t.lua.Balanced) (helfBalanced : t.elf.Balanced)
    (hrefs : ∀ x ∈ s.refs, x.1 ∈ t.lua.held → x ∈ t.refs) : t.Inv := by
  have hne : ∀ b ∈ s.live.erase a, b ≠ a := fun b hb heq => hinv.nodup.not_mem_erase (heq ▸ hb)
  have hsame : ∀ b ∈ s.live.erase a, t.heap.cell b = s.heap.cell b :=
    fun b hb => by rw [hheap, Heap.drop_cell, if_neg (hne b hb)]
  obtain ⟨hluaOf, helfOf⟩ := handles_congr hsame
  rw [← hluaOf, ← hlive] at hlua
  rw [← helfOf, ← hlive] at helf
  refine ⟨hlive ▸ hinv.nodup.erase a, fun b hb => ?_, fun b d hd hb => ?_, hlua, helf, hdistinct,
    hluaBalanced, helfBalanced⟩
  · have hb' : b ∈ s.live.erase a := hlive ▸ hb
    obtain ⟨d, hd, hready⟩ := hinv.ready b (List.mem_of_mem_erase hb')
    have hd' := (hsame b hb').trans hd
    refine ⟨d, hd', hready.keep fun L ref hL href => hrefs _ href ?_⟩
    exact hlua.symm.subset (mem_luaOf hb hd' hL)
  · rw [hlive] at hb
    by_cases hba : b = a
    · simp [hheap, hba] at hd
    · rw [hheap, Heap.drop_cell, if_neg hba] at hd
      exact hinv.spare b d hd fun hb' => hb ((List.mem_erase_of_ne hba).mpr hb')

/-- Destroying a live context closes what its tag names and nothing else. -/
theorem Inv.destroy (hinv : s.Inv) (ha : a ∈ s.live) :
    ∃ t, s.ePluginDestroy (some a) = .ok t ∧ Inv { t with live := t.live.erase a } := by
  obtain ⟨c, hc, hready⟩ := hinv.ready a ha
  rcases hready.cases with ⟨L, northRef, southRef, rfl, -, -⟩ | ⟨handle, rfl⟩
  · have hluaOf : s.luaOf a = some L := by rw [luaOf, hc]; rfl
    have helfOf : s.elfOf a = none := by rw [elfOf, hc]; rfl
    obtain ⟨hopen, hrest⟩ := held_erase hinv.lua ha hluaOf
    have hgive := Account.give_of_mem hopen
    refine ⟨⟨s.heap.drop a, ⟨s.lua.taken, s.lua.held.erase L, L :: s.lua.back⟩, s.elf,
      s.refs.filter fun x => x.1 ≠ L, s.live⟩, ?_, ?_⟩
    · simp [ePluginDestroy, onHeap, Heap.deref_of_cell hc, PluginImpl.luaState, luaClose, hgive,
        free, Heap.release_of_cell hc]
    · refine hinv.remove rfl rfl hrest (held_erase_none hinv.elf ha helfOf)
        (hinv.distinct.erase L) (hinv.luaBalanced.give hgive) hinv.elfBalanced fun x hx hheld => ?_
      -- an interpreter belongs to one context, so the references of the others stay
      have hne : x.1 ≠ L := fun heq => hinv.distinct.not_mem_erase (heq ▸ hheld)
      exact List.mem_filter.mpr ⟨hx, decide_eq_true hne⟩
  · have hluaOf : s.luaOf a = none := by rw [luaOf, hc]; rfl
    have helfOf : s.elfOf a = some handle := by rw [elfOf, hc]; rfl
    obtain ⟨hopen, hrest⟩ := held_erase hinv.elf ha helfOf
    have hgive := Account.give_of_mem hopen
    refine ⟨⟨s.heap.drop a, s.lua, ⟨s.elf.taken, s.elf.held.erase handle, handle :: s.elf.back⟩,
      s.refs, s.live⟩, ?_, ?_⟩
    · simp [ePluginDestroy, onHeap, Heap.deref_of_cell hc, PluginImpl.elfHandle, dlclose, hgive,
        free, Heap.release_of_cell hc]
    · exact hinv.remove rfl rfl (held_erase_none hinv.lua ha hluaOf) hrest hinv.distinct
        hinv.luaBalanced (hinv.elfBalanced.give hgive) fun x hx _ => hx

/-! ### Any run of the driver -/

/-- Lua opens an interpreter that is not open already, and a context that is destroyed was returned
and not destroyed before. -/
def Allowed (s : PluginSystem) : PluginCall → Prop
  | .create env _ => env.lua.L ∉ s.lua.held
  | .destroy ctx => ∀ a ∈ ctx, a ∈ s.live

theorem Inv.create (hinv : s.Inv) {env : PluginEnv} (filename : Option CStr)
    (hL : env.lua.L ∉ s.lua.held) :
    ∃ t out, ePluginCreate env filename s = .ok (t, out) ∧
      Inv { t with live := out.toList ++ t.live } := by
  cases filename with
  | none => exact ⟨s, none, rfl, hinv⟩
  | some filename =>
      have hlost := hinv.leak (env.malloc.fresh s.heap) .zero
      unfold ePluginCreate
      cases fileIsElf env.file with
      | true => exact hlost.loadElf env.malloc env.elf
      | false => exact hlost.loadLua env.malloc hL

theorem Inv.step (hinv : s.Inv) {call : PluginCall} (hallowed : s.Allowed call) :
    ∃ t out, s.step call = .ok (t, out) ∧ t.Inv := by
  cases call with
  | create env filename =>
      obtain ⟨t, out, hcreate, hinv'⟩ := hinv.create filename hallowed
      exact ⟨_, out, by simp [PluginSystem.step, hcreate], hinv'⟩
  | destroy ctx =>
      cases ctx with
      | none => exact ⟨s, none, rfl, hinv⟩
      | some a =>
          obtain ⟨t, hdestroy, hinv'⟩ := hinv.destroy (hallowed a rfl)
          exact ⟨_, none, by simp [PluginSystem.step, hdestroy], hinv'⟩

/-- A context is returned only when it is ready. -/
theorem Inv.created_ready (hinv : s.Inv) {env : PluginEnv} (filename : Option CStr)
    (hL : env.lua.L ∉ s.lua.held) :
    ∃ t out, s.step (.create env filename) = .ok (t, out) ∧
      ∀ a ∈ out, ∃ c, t.heap.cell a = some c ∧ c.Ready t.refs := by
  obtain ⟨t, out, hcreate, hinv'⟩ := hinv.create filename hL
  refine ⟨{ t with live := out.toList ++ t.live }, out, by simp [PluginSystem.step, hcreate],
    fun a ha => ?_⟩
  rw [Option.mem_def] at ha
  subst ha
  exact hinv'.ready a List.mem_cons_self

/-- Whatever each step of a load answers, the calls of a run go through: no union is read as the wrong
member and nothing is closed that is not open. Then the interpreters and the libraries that are open
are those that the tags of the live contexts name, everything else that was opened was closed once,
and the live contexts are ready, the next one that is returned with them. -/
theorem plugin_handles_paired (calls : List PluginCall)
    (hallowed : Along PluginSystem.step Allowed start calls) :
    ∃ s outs, exec PluginSystem.step start calls = .ok (s, outs) ∧
      s.lua.held.Perm (s.live.filterMap s.luaOf) ∧ s.elf.held.Perm (s.live.filterMap s.elfOf) ∧
      s.lua.Balanced ∧ s.elf.Balanced ∧
      (∀ a ∈ s.live, ∃ c, s.heap.cell a = some c ∧ c.Ready s.refs) ∧
      ∀ env filename, s.Allowed (.create env filename) →
        ∃ t out, s.step (.create env filename) = .ok (t, out) ∧
          ∀ a ∈ out, ∃ c, t.heap.cell a = some c ∧ c.Ready t.refs := by
  obtain ⟨s, outs, hexec, hinv⟩ :=
    Along.exec_total (fun s call hinv hcall => Inv.step hinv hcall) Inv.start hallowed
  exact ⟨s, outs, hexec, hinv.lua, hinv.elf, hinv.luaBalanced, hinv.elfBalanced, hinv.ready,
    fun env filename hL => hinv.created_ready filename hL⟩

/-- What a run meets that loads the file, with an interpreter at `L`. -/
def pluginEnv (file : Bytes) (L : Addr) (south : Option Int) (reg : Int) : PluginEnv :=
  ⟨Malloc.bump ⟨.none, .zero⟩, some file, ⟨L, true, true, true, true, some 1, south⟩,
    ⟨some 9, true, reg⟩⟩

/-- A script is loaded, a library fails to register, a second script has no `south_transform`, and
the first context is destroyed. -/
def pluginRun : List PluginCall :=
  [.create (pluginEnv [] 5 (some 2) 0) (some (CStr.ofBytes [])),
    .create (pluginEnv elfMagic 6 none 1) (some (CStr.ofBytes [])),
    .create (pluginEnv [] 6 none 0) (some (CStr.ofBytes [])), .destroy (some 1)]

theorem pluginRun_allowed : Along PluginSystem.step Allowed start pluginRun :=
  Along.cons_ok rfl (List.not_mem_nil : (5 : Addr) ∉ []) <|
    Along.cons_ok rfl (by decide : (6 : Addr) ∉ [5]) <|
    Along.cons_ok rfl (by decide : (6 : Addr) ∉ [5]) <|
    Along.cons_ok rfl (by decide : ∀ a ∈ some (1 : Addr), a ∈ [(1 : Addr)]) trivial

theorem plugin_handles_paired_run :
    ∃ s outs, exec PluginSystem.step start pluginRun = .ok (s, outs) ∧
      s.lua.held.Perm (s.live.filterMap s.luaOf) ∧ s.elf.held.Perm (s.live.filterMap s.elfOf) := by
  obtain ⟨s, outs, hexec, hlua, helf, -⟩ := plugin_handles_paired pluginRun pluginRun_allowed
  exact ⟨s, outs, hexec, hlua, helf⟩

end PluginSystem

end LibEzmb
