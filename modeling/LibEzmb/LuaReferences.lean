import LibEzmb.BaseHeap
import LibEzmb.BaseLedger
import LibEzmb.BaseLoop
import LibEzmb.BaseRefs
import LibEzmb.BaseRun

/-! The callbacks of e_device_lua.c: each Lua device object keeps the number of a reference in the
registry, which set_callback, destroy and the collector release. -/

open CHeap Ledgers RefTables Runs

namespace LibEzmb

/-- `lua_e_device_t` as the calls of a script change it: `device` is none for the null pointer,
`callbackRef` for `LUA_NOREF`. -/
structure LuaObject where
  device : Option Addr
  callbackRef : Option Nat
  deriving DecidableEq, Repr

/-- A call on an object that does not exist, or that has been collected. -/
inductive LuaFault where
  | noObject
  deriving DecidableEq, Repr

/-- The registry, and the objects in the order of their creation, `none` where one was collected.
`holds` is what `luaL_ref` gave for an object and the object has not given to `luaL_unref`. -/
structure LuaDevices where
  registry : RefTable
  objects : List (Option LuaObject)
  holds : Nat → Option Nat

/-- The calls on the objects, with arguments that pass the checks of the Lua library. -/
inductive LuaCall where
  | create (device : Addr)
  | setCallback (i : Nat)
  | destroy (i : Nat)
  | gc (i : Nat)
  deriving DecidableEq, Repr

namespace LuaDevices

def start (registry : RefTable) : LuaDevices := ⟨registry, [], fun _ => none⟩

/-- `luaL_checkudata(L, 1, "e_device")`. -/
def checkUdata (s : LuaDevices) (i : Nat) : Except LuaFault LuaObject :=
  match s.objects[i]? with
  | some (some ud) => .ok ud
  | _ => .error .noObject

def setObject (s : LuaDevices) (i : Nat) (ud : Option LuaObject) : LuaDevices :=
  { s with objects := s.objects.set i ud }

/-- `if (ud->callback_ref != LUA_NOREF) luaL_unref(L, LUA_REGISTRYINDEX, ud->callback_ref);` -/
def unrefCallback (s : LuaDevices) (i : Nat) (ud : LuaObject) : LuaDevices :=
  match ud.callbackRef with
  | none => s
  | some n => { s with
      registry := s.registry.unref n
      holds := if s.holds i = some n then Function.update s.holds i none else s.holds }

/-- `ud->callback_ref = luaL_ref(L, LUA_REGISTRYINDEX);` -/
def refCallback (s : LuaDevices) (i : Nat) (ud : LuaObject) : LuaDevices where
  registry := s.registry.ref.2
  objects := s.objects.set i (some { ud with callbackRef := some s.registry.ref.1 })
  holds := Function.update s.holds i (some s.registry.ref.1)

/-- `l_collector_create` and `l_monitor_create`, whose device was created. -/
def lDeviceCreate (s : LuaDevices) (device : Addr) : LuaDevices :=
  { s with objects := s.objects ++ [some ⟨some device, none⟩] }

def lDeviceSetCallback (s : LuaDevices) (i : Nat) : Except LuaFault LuaDevices := do
  let ud ← s.checkUdata i
  .ok ((s.unrefCallback i ud).refCallback i ud)

def lDeviceDestroy (s : LuaDevices) (i : Nat) : Except LuaFault LuaDevices := do
  let ud ← s.checkUdata i
  .ok ((s.unrefCallback i ud).setObject i (some { ud with device := none }))

/-- `__gc` is `l_device_destroy`, and the object is gone. -/
def collect (s : LuaDevices) (i : Nat) : Except LuaFault LuaDevices := do
  let s ← s.lDeviceDestroy i
  .ok (s.setObject i none)

end LuaDevices

/-- The object that a call is on. -/
def LuaCall.target : LuaCall → Option Nat
  | .create _ => none
  | .setCallback i => some i
  | .destroy i => some i
  | .gc i => some i

namespace LuaDevices

/-- `callback_ref` of an object. -/
def callback (s : LuaDevices) (i : Nat) : Option Nat := do
  let ud ← (s.objects[i]?).join
  ud.callbackRef

def perform (s : LuaDevices) : LuaCall → Except LuaFault LuaDevices
  | .create device => .ok (s.lDeviceCreate device)
  | .setCallback i => s.lDeviceSetCallback i
  | .destroy i => s.lDeviceDestroy i
  | .gc i => s.collect i

/-- What a call changes, and the reference that it gives to `luaL_unref`. -/
def step (s : LuaDevices) (call : LuaCall) : Except LuaFault (LuaDevices × Option Nat) := do
  let t ← s.perform call
  .ok (t, call.target.bind s.callback)

/-- No reference is held by two objects. -/
def Distinct (s : LuaDevices) : Prop :=
  ∀ i j n, s.holds i = some n → s.holds j = some n → i = j

/-- What the call gives to `luaL_unref` is held by the object it is on, and no two objects hold one
reference after it. -/
def Safe (s : LuaDevices) (call : LuaCall) : Prop :=
  ∀ t out, s.step call = .ok (t, out) →
    (∀ i ∈ call.target, ∀ n ∈ out, s.holds i = some n) ∧ t.Distinct

/-- The references that are held are those of the registry, each in the field of its object. -/
structure Inv (s : LuaDevices) : Prop where
  sound : s.registry.Sound ((List.range s.objects.length).filterMap s.holds)
  field : ∀ i n, s.holds i = some n →
    ∃ ud, s.objects[i]? = some (some ud) ∧ ud.callbackRef = some n

variable {s t : LuaDevices} {i : Nat}

theorem Inv.start {registry : RefTable} (hregistry : registry.Sound []) :
    (LuaDevices.start registry).Inv :=
  ⟨hregistry, fun _ _ hholds => by cases hholds⟩

/-- What an object holds is what its field says. -/
theorem Inv.field_eq (hinv : s.Inv) {ud : LuaObject} {n : Nat} (hud : s.objects[i]? = some (some ud))
    (hholds : s.holds i = some n) : ud.callbackRef = some n := by
  obtain ⟨ud', hud', hfield⟩ := hinv.field i n hholds
  rw [hud, Option.some.injEq, Option.some.injEq] at hud'
  exact hud' ▸ hfield

theorem Inv.mem_range (hinv : s.Inv) {n : Nat} (hholds : s.holds i = some n) :
    i ∈ List.range s.objects.length := by
  obtain ⟨ud, hud, -⟩ := hinv.field i n hholds
  exact List.mem_range.mpr (List.getElem?_eq_some_iff.mp hud).1

theorem Inv.distinct (hinv : s.Inv) : s.Distinct := by
  intro i j n hi hj
  exact owner_unique hinv.sound.held_nodup (hinv.mem_range hi) (hinv.mem_range hj) hi hj

/-- An object that holds nothing may be changed or collected. -/
theorem Inv.setObject (hinv : s.Inv) (hnone : s.holds i = none) (ud : Option LuaObject) :
    (s.setObject i ud).Inv := by
  refine ⟨?_, fun j n hholds => ?_⟩
  · change s.registry.Sound ((List.range (s.objects.set i ud).length).filterMap s.holds)
    rw [List.length_set]
    exact hinv.sound
  · have hne : i ≠ j := by
      rintro rfl
      rw [show s.holds i = some n from hholds] at hnone
      cases hnone
    obtain ⟨ud', hud', hfield⟩ := hinv.field j n hholds
    exact ⟨ud', (List.getElem?_set_ne hne).trans hud', hfield⟩

/-- The object holds what its field says. -/
def Owns (s : LuaDevices) (i : Nat) (ud : LuaObject) : Prop :=
  ∀ n, ud.callbackRef = some n → s.holds i = some n

theorem unrefCallback_none {ud : LuaObject} (hfield : ud.callbackRef = none) :
    s.unrefCallback i ud = s := by
  rw [LuaDevices.unrefCallback, hfield]

theorem unrefCallback_held {ud : LuaObject} {n : Nat} (hfield : ud.callbackRef = some n)
    (hheld : s.holds i = some n) : s.unrefCallback i ud =
      ⟨s.registry.unref n, s.objects, Function.update s.holds i none⟩ := by
  rw [LuaDevices.unrefCallback, hfield]
  simp only [hheld, if_true]

@[simp] theorem unrefCallback_objects (s : LuaDevices) (i : Nat) (ud : LuaObject) :
    (s.unrefCallback i ud).objects = s.objects := by
  unfold LuaDevices.unrefCallback
  split <;> rfl

theorem unrefCallback_holds_of_ne {j : Nat} (hne : j ≠ i) (ud : LuaObject) :
    (s.unrefCallback i ud).holds j = s.holds j := by
  unfold LuaDevices.unrefCallback
  split
  · rfl
  · dsimp only
    split
    · exact Function.update_of_ne hne _ _
    · rfl

/-- An object that holds what its field says holds nothing after a release. -/
theorem Inv.unrefCallback (hinv : s.Inv) {ud : LuaObject} (hud : s.objects[i]? = some (some ud))
    (howns : s.Owns i ud) : (s.unrefCallback i ud).Inv ∧ (s.unrefCallback i ud).holds i = none := by
  cases hfield : ud.callbackRef with
  | none =>
      rw [unrefCallback_none hfield]
      refine ⟨hinv, ?_⟩
      by_contra hsome
      obtain ⟨n, hn⟩ := Option.ne_none_iff_exists'.mp hsome
      have hfield' := hinv.field_eq hud hn
      rw [hfield] at hfield'
      cases hfield'
  | some n =>
      have hi : i ∈ List.range s.objects.length :=
        List.mem_range.mpr (List.getElem?_eq_some_iff.mp hud).1
      obtain ⟨hmem, hrest⟩ := held_erase (List.Perm.refl _) hi (howns n hfield)
      rw [unrefCallback_held hfield (howns n hfield)]
      refine ⟨⟨?_, fun j m hholds => ?_⟩, Function.update_self ..⟩
      · refine (hinv.sound.unref hmem).perm (hrest.trans ?_)
        exact (filterMap_update_none List.nodup_range hi).symm
      · by_cases hji : j = i
        · simp [hji] at hholds
        · exact hinv.field j m (by simpa [hji] using hholds)

/-- An object that holds nothing takes a new reference. -/
theorem Inv.refCallback (hinv : s.Inv) {ud : LuaObject} (hi : i < s.objects.length)
    (hnone : s.holds i = none) : (s.refCallback i ud).Inv := by
  refine ⟨?_, fun j n hholds => ?_⟩
  · change s.registry.ref.2.Sound ((List.range (s.objects.set i _).length).filterMap
      (Function.update s.holds i (some s.registry.ref.1)))
    rw [List.length_set]
    refine hinv.sound.ref.perm ?_
    exact (filterMap_update_some List.nodup_range (List.mem_range.mpr hi) hnone _).symm
  · change Function.update s.holds i (some s.registry.ref.1) j = some n at hholds
    change ∃ ud', (s.objects.set i _)[j]? = _ ∧ _
    by_cases hji : j = i
    · subst hji
      rw [Function.update_self] at hholds
      exact ⟨_, List.getElem?_set_self hi, hholds⟩
    · rw [Function.update_of_ne hji] at hholds
      obtain ⟨ud', hud', hfield⟩ := hinv.field j n hholds
      exact ⟨ud', (List.getElem?_set_ne fun heq => hji heq.symm).trans hud', hfield⟩

theorem Inv.create (hinv : s.Inv) (device : Addr) : (s.lDeviceCreate device).Inv := by
  have hnew : s.holds s.objects.length = none := by
    by_contra hsome
    obtain ⟨n, hn⟩ := Option.ne_none_iff_exists'.mp hsome
    exact absurd (List.mem_range.mp (hinv.mem_range hn)) (Nat.lt_irrefl _)
  refine ⟨?_, fun j n hholds => ?_⟩
  · change s.registry.Sound ((List.range (s.objects ++ [_]).length).filterMap s.holds)
    rw [List.length_append, List.length_singleton, List.range_succ, List.filterMap_append]
    simpa [hnew] using hinv.sound
  · obtain ⟨ud, hud, hfield⟩ := hinv.field j n hholds
    exact ⟨ud, (List.getElem?_append_left (List.getElem?_eq_some_iff.mp hud).1).trans hud, hfield⟩

/-! ### What a call can do -/

theorem checkUdata_ok {ud : LuaObject} (hcheck : s.checkUdata i = .ok ud) :
    s.objects[i]? = some (some ud) := by
  unfold checkUdata at hcheck
  split at hcheck
  · next ud' hud =>
      cases hcheck
      exact hud
  · cases hcheck

theorem callback_of_object {ud : LuaObject} (hud : s.objects[i]? = some (some ud)) :
    s.callback i = ud.callbackRef := by
  rw [callback, hud]
  rfl

/-- What a call on the object `i` makes of the state. -/
def after (s : LuaDevices) (i : Nat) (ud : LuaObject) : LuaCall → LuaDevices
  | .create device => s.lDeviceCreate device
  | .setCallback _ => (s.unrefCallback i ud).refCallback i ud
  | .destroy _ => (s.unrefCallback i ud).setObject i (some { ud with device := none })
  | .gc _ => (s.unrefCallback i ud).setObject i none

/-- A call on an object goes through only when the object exists. -/
theorem step_target {call : LuaCall} {out : Option Nat} (hstep : s.step call = .ok (t, out))
    (htarget : call.target = some i) : ∃ ud, s.objects[i]? = some (some ud) ∧
      out = ud.callbackRef ∧ t = s.after i ud call := by
  obtain ⟨t', ht', hout⟩ := bind_eq_ok hstep
  rw [Except.ok.injEq, Prod.mk.injEq, htarget, Option.bind_some] at hout
  obtain ⟨rfl, rfl⟩ := hout
  cases call with
  | create device => cases htarget
  | setCallback j =>
      cases htarget
      obtain ⟨ud, hcheck, hafter⟩ := bind_eq_ok ht'
      cases hafter
      exact ⟨ud, checkUdata_ok hcheck, callback_of_object (checkUdata_ok hcheck), rfl⟩
  | destroy j =>
      cases htarget
      obtain ⟨ud, hcheck, hafter⟩ := bind_eq_ok ht'
      cases hafter
      exact ⟨ud, checkUdata_ok hcheck, callback_of_object (checkUdata_ok hcheck), rfl⟩
  | gc j =>
      cases htarget
      obtain ⟨u, hdestroy, hafter⟩ := bind_eq_ok ht'
      obtain ⟨ud, hcheck, hu⟩ := bind_eq_ok hdestroy
      cases hu
      cases hafter
      refine ⟨ud, checkUdata_ok hcheck, callback_of_object (checkUdata_ok hcheck), ?_⟩
      simp [LuaDevices.setObject, after]

/-- The only call that is on no object creates one. -/
theorem step_create {call : LuaCall} {out : Option Nat} (hstep : s.step call = .ok (t, out))
    (htarget : call.target = none) : ∃ device, t = s.lDeviceCreate device := by
  cases call with
  | create device =>
      cases hstep
      exact ⟨device, rfl⟩
  | setCallback i => cases htarget
  | destroy i => cases htarget
  | gc i => cases htarget

/-- The calls that keep the references in order are those on objects that hold what their field
says. -/
theorem Inv.step (hinv : s.Inv) {call : LuaCall} {out : Option Nat}
    (hstep : s.step call = .ok (t, out))
    (howns : ∀ i ∈ call.target, ∀ n ∈ out, s.holds i = some n) : t.Inv := by
  cases htarget : call.target with
  | none =>
      obtain ⟨device, rfl⟩ := step_create hstep htarget
      exact hinv.create device
  | some i =>
      obtain ⟨ud, hud, rfl, rfl⟩ := step_target hstep htarget
      obtain ⟨hinv', hnone⟩ := hinv.unrefCallback hud (howns i htarget)
      have hi : i < s.objects.length := (List.getElem?_eq_some_iff.mp hud).1
      cases call with
      | create device => cases htarget
      | setCallback j => exact hinv'.refCallback (by rwa [unrefCallback_objects]) hnone
      | destroy j => exact hinv'.setObject hnone _
      | gc j => exact hinv'.setObject hnone _

/-- A call on an object leaves the others alone. -/
theorem after_frame {call : LuaCall} (htarget : call.target = some i) {j : Nat} (hne : j ≠ i)
    (ud : LuaObject) : (s.after i ud call).objects[j]? = s.objects[j]? ∧
      (s.after i ud call).holds j = s.holds j := by
  have hholds := unrefCallback_holds_of_ne (s := s) hne ud
  have hset : ∀ o, ((s.unrefCallback i ud).objects.set i o)[j]? = s.objects[j]? := by
    intro o
    rw [List.getElem?_set_ne fun heq => hne heq.symm, unrefCallback_objects]
  cases call with
  | create device => cases htarget
  | setCallback k => exact ⟨hset _, (Function.update_of_ne hne _ _).trans hholds⟩
  | destroy k => exact ⟨hset _, hholds⟩
  | gc k => exact ⟨hset _, hholds⟩

theorem create_callback (s : LuaDevices) (device : Addr) (j : Nat) :
    (s.lDeviceCreate device).callback j = s.callback j := by
  unfold callback lDeviceCreate
  dsimp only
  rcases Nat.lt_trichotomy j s.objects.length with hlt | rfl | hgt
  · rw [List.getElem?_append_left hlt]
  · simp
  · rw [List.getElem?_eq_none (by simp; omega), List.getElem?_eq_none hgt.le]

/-- A call changes what is known of an object only when it is on it. -/
theorem step_frame {call : LuaCall} {out : Option Nat} (hstep : s.step call = .ok (t, out))
    {j : Nat} (hne : call.target ≠ some j) : t.callback j = s.callback j ∧ t.holds j = s.holds j := by
  cases htarget : call.target with
  | none =>
      obtain ⟨device, rfl⟩ := step_create hstep htarget
      exact ⟨create_callback s device j, rfl⟩
  | some i =>
      obtain ⟨ud, -, -, rfl⟩ := step_target hstep htarget
      have hji : j ≠ i := fun heq => hne (heq ▸ htarget)
      obtain ⟨hobject, hholds⟩ := after_frame htarget hji ud
      exact ⟨by rw [callback, callback, hobject], hholds⟩

/-- An object that was collected is not called any more. -/
theorem step_collected {call : LuaCall} {out : Option Nat} (hstep : s.step call = .ok (t, out))
    (hgone : s.objects[i]? = some none) :
    call.target ≠ some i ∧ t.objects[i]? = some none := by
  cases htarget : call.target with
  | none =>
      obtain ⟨device, rfl⟩ := step_create hstep htarget
      have hlt := (List.getElem?_eq_some_iff.mp hgone).1
      exact ⟨(Option.some_ne_none i).symm, (List.getElem?_append_left hlt).trans hgone⟩
  | some j =>
      obtain ⟨ud, hud, -, rfl⟩ := step_target hstep htarget
      have hij : i ≠ j := by
        rintro rfl
        rw [hgone] at hud
        cases hud
      exact ⟨fun heq => hij (Option.some.inj heq).symm, (after_frame htarget hij ud).1.trans hgone⟩

theorem exec_collected {ls : List LuaCall} {outs : List (Option Nat)}
    (hrun : exec LuaDevices.step s ls = .ok (t, outs)) (hgone : s.objects[i]? = some none) :
    ∀ call ∈ ls, call.target ≠ some i := by
  induction ls generalizing s outs with
  | nil => exact fun _ hcall => absurd hcall List.not_mem_nil
  | cons call ls ih =>
      obtain ⟨u, out, outs', hstep, hrest, -⟩ := exec_cons_ok.mp hrun
      obtain ⟨htarget, hgone'⟩ := step_collected hstep hgone
      exact List.forall_mem_cons.mpr ⟨htarget, ih hrest hgone'⟩

/-! ### In which order the calls may come -/

/-- What is still to come before a call on the object is one too many: a `set_callback` and a
`destroy`, or the `destroy`, or nothing. -/
def ahead (s : LuaDevices) (i : Nat) : List LuaCall :=
  match s.callback i, s.holds i with
  | none, _ => [.setCallback i, .destroy i]
  | some _, some _ => [.destroy i]
  | some _, none => []

/-- No call on an object comes when nothing is to come any more. -/
def OrderlyFrom (s : LuaDevices) (calls : List LuaCall) : Prop :=
  ∀ i call, call.target = some i → ¬ (s.ahead i ++ [call]).Sublist calls

theorem sublist_cons_of_ne {α : Type} {x y : α} (hne : x ≠ y) (xs ys : List α) :
    (x :: xs).Sublist (y :: ys) ↔ (x :: xs).Sublist ys := by
  rw [List.cons_sublist_cons']
  exact or_iff_left fun hhead => hne hhead.1

theorem ahead_congr (hcallback : t.callback i = s.callback i) (hholds : t.holds i = s.holds i) :
    t.ahead i = s.ahead i := by
  rw [ahead, ahead, hcallback, hholds]

theorem ahead_none (hcallback : s.callback i = none) :
    s.ahead i = [.setCallback i, .destroy i] := by
  rw [ahead, hcallback]

theorem ahead_held {n m : Nat} (hcallback : s.callback i = some n) (hholds : s.holds i = some m) :
    s.ahead i = [.destroy i] := by
  rw [ahead, hcallback, hholds]

theorem ahead_stale {n : Nat} (hcallback : s.callback i = some n) (hholds : s.holds i = none) :
    s.ahead i = [] := by
  rw [ahead, hcallback, hholds]

/-- What is still to come for another object is not this call. -/
theorem ahead_skips {call call' : LuaCall} (htarget : call'.target = some i)
    (hne : call.target ≠ some i) (ls : List LuaCall) :
    (s.ahead i ++ [call']).Sublist (call :: ls) ↔ (s.ahead i ++ [call']).Sublist ls := by
  have hother : ∀ c : LuaCall, c.target = some i → c ≠ call := by
    rintro c hc rfl
    exact hne hc
  unfold ahead
  split
  · exact sublist_cons_of_ne (hother _ rfl) _ _
  · exact sublist_cons_of_ne (hother _ rfl) _ _
  · exact sublist_cons_of_ne (hother _ htarget) _ _

section Owned

variable {ud : LuaObject} {ls : List LuaCall}

/-- For an object that holds what its field says, a `destroy` is to come, and a `set_callback` before
it when the field is empty. -/
theorem ahead_of_owns (hud : s.objects[i]? = some (some ud)) (howns : s.Owns i ud) :
    s.ahead i = if ud.callbackRef = none then [.setCallback i, .destroy i] else [.destroy i] := by
  have hcallback := callback_of_object hud
  cases hfield : ud.callbackRef with
  | none => exact ahead_none (hcallback.trans hfield)
  | some n => exact ahead_held (hcallback.trans hfield) (howns n hfield)

theorem unrefCallback_lt (hud : s.objects[i]? = some (some ud)) :
    i < (s.unrefCallback i ud).objects.length := by
  rw [unrefCallback_objects]
  exact (List.getElem?_eq_some_iff.mp hud).1

theorem ahead_setCallback (hud : s.objects[i]? = some (some ud)) (howns : s.Owns i ud)
    (call' : LuaCall) : (s.ahead i ++ [call']).Sublist (.setCallback i :: ls) ↔
      ((s.after i ud (.setCallback i)).ahead i ++ [call']).Sublist ls := by
  have hobject : (s.after i ud (.setCallback i)).objects[i]? = some (some
      { ud with callbackRef := some (s.unrefCallback i ud).registry.ref.1 }) :=
    List.getElem?_set_self (unrefCallback_lt hud)
  have hafter : (s.after i ud (.setCallback i)).ahead i = [.destroy i] :=
    ahead_held (callback_of_object hobject) (Function.update_self ..)
  rw [ahead_of_owns hud howns, hafter]
  split
  · exact List.cons_sublist_cons
  · exact sublist_cons_of_ne (by simp) _ _

theorem ahead_destroy (hinv : s.Inv) (hud : s.objects[i]? = some (some ud)) (howns : s.Owns i ud)
    (call' : LuaCall) : (s.ahead i ++ [call']).Sublist (.destroy i :: ls) ↔
      ((s.after i ud (.destroy i)).ahead i ++ [call']).Sublist ls := by
  obtain ⟨-, hnone⟩ := hinv.unrefCallback hud howns
  have hobject : (s.after i ud (.destroy i)).objects[i]? = some (some { ud with device := none }) :=
    List.getElem?_set_self (unrefCallback_lt hud)
  have hcallback := callback_of_object hobject
  rw [ahead_of_owns hud howns]
  cases hfield : ud.callbackRef with
  | none =>
      rw [if_pos rfl, ahead_none (hcallback.trans hfield)]
      exact sublist_cons_of_ne (by simp) _ _
  | some n =>
      rw [if_neg (Option.some_ne_none n), ahead_stale (hcallback.trans hfield) hnone]
      exact List.cons_sublist_cons

/-- After the collection of an object nothing that is on it comes any more. -/
theorem ahead_gc (hud : s.objects[i]? = some (some ud)) (howns : s.Owns i ud) {call' : LuaCall}
    (hunused : call' ∉ ls) : (s.ahead i ++ [call']).Sublist (.gc i :: ls) ↔
      ((s.after i ud (.gc i)).ahead i ++ [call']).Sublist ls := by
  have hnever : ∀ p : List LuaCall, ¬ (p ++ [call']).Sublist ls :=
    fun p hsub => hunused (hsub.subset (List.mem_append_right p List.mem_cons_self))
  refine iff_of_false ?_ (hnever _)
  rw [ahead_of_owns hud howns]
  split
  · rw [List.cons_append, sublist_cons_of_ne (by simp)]
    exact hnever [.setCallback i, .destroy i]
  · rw [List.cons_append, sublist_cons_of_ne (by simp)]
    exact hnever [.destroy i]

end Owned

/-- A call on an object that holds what its field says: what is to come after it is what was to come,
with the call taken off when it is the first of it. -/
theorem ahead_step (hinv : s.Inv) {call call' : LuaCall} {out : Option Nat}
    (hstep : s.step call = .ok (t, out)) (htarget : call.target = some i)
    (howns : ∀ n ∈ out, s.holds i = some n) (htarget' : call'.target = some i) {ls : List LuaCall}
    {u : LuaDevices} {outs : List (Option Nat)} (hrun : exec LuaDevices.step t ls = .ok (u, outs)) :
    (s.ahead i ++ [call']).Sublist (call :: ls) ↔ (t.ahead i ++ [call']).Sublist ls := by
  obtain ⟨ud, hud, rfl, rfl⟩ := step_target hstep htarget
  cases call with
  | create device => cases htarget
  | setCallback j =>
      cases htarget
      exact ahead_setCallback hud howns call'
  | destroy j =>
      cases htarget
      exact ahead_destroy hinv hud howns call'
  | gc j =>
      cases htarget
      have hgone : (s.after i ud (.gc i)).objects[i]? = some none :=
        List.getElem?_set_self (unrefCallback_lt hud)
      exact ahead_gc hud howns fun hmem => exec_collected hrun hgone call' hmem htarget'

theorem orderly_step (hinv : s.Inv) {call : LuaCall} {out : Option Nat}
    (hstep : s.step call = .ok (t, out))
    (howns : ∀ i ∈ call.target, ∀ n ∈ out, s.holds i = some n) {ls : List LuaCall}
    {u : LuaDevices} {outs : List (Option Nat)} (hrun : exec LuaDevices.step t ls = .ok (u, outs)) :
    s.OrderlyFrom (call :: ls) ↔ t.OrderlyFrom ls := by
  apply forall_congr'
  intro i
  apply forall_congr'
  intro call'
  apply imp_congr_right
  intro htarget'
  apply not_congr
  by_cases htarget : call.target = some i
  · exact ahead_step hinv hstep htarget (howns i htarget) htarget' hrun
  · obtain ⟨hcallback, hholds⟩ := step_frame hstep htarget
    rw [ahead_skips htarget' htarget, ahead_congr hcallback hholds]

/-- A run is safe exactly when its calls come in order. -/
theorem Inv.safe_iff (hinv : s.Inv) {ls : List LuaCall} {outs : List (Option Nat)}
    (hrun : exec LuaDevices.step s ls = .ok (t, outs)) :
    Along LuaDevices.step Safe s ls ↔ s.OrderlyFrom ls := by
  induction ls generalizing s outs with
  | nil =>
      refine iff_of_true trivial fun i call _ hsub => ?_
      exact List.append_ne_nil_of_right_ne_nil _ (List.cons_ne_nil _ _) (List.sublist_nil.mp hsub)
  | cons call ls ih =>
      obtain ⟨u, out, outs', hstep, hrest, -⟩ := exec_cons_ok.mp hrun
      by_cases howns : ∀ i ∈ call.target, ∀ n ∈ out, s.holds i = some n
      · have hinv' := hinv.step hstep howns
        rw [orderly_step hinv hstep howns hrest, ← ih hinv' hrest]
        constructor
        · intro halong
          exact halong.2 u out hstep
        · intro halong
          refine Along.cons_ok hstep (fun u' out' hstep' => ?_) halong
          rw [hstep, Except.ok.injEq, Prod.mk.injEq] at hstep'
          obtain ⟨rfl, rfl⟩ := hstep'
          exact ⟨howns, hinv'.distinct⟩
      · refine iff_of_false (fun halong => howns (halong.1 u out hstep).1) fun horderly => ?_
        push Not at howns
        obtain ⟨i, htarget, n, hn, hnot⟩ := howns
        obtain ⟨ud, hud, rfl, -⟩ := step_target hstep htarget
        have hnone : s.holds i = none := by
          by_contra hsome
          obtain ⟨m, hm⟩ := Option.ne_none_iff_exists'.mp hsome
          have hfield := hinv.field_eq hud hm
          exact hnot (hm.trans (hfield.symm.trans hn))
        refine horderly i call htarget ?_
        rw [ahead_stale ((callback_of_object hud).trans hn) hnone]
        exact (List.nil_sublist ls).cons_cons call

/-- **Callback references.** In a run of calls on any number of objects, every call releases a
reference that its object holds and leaves no reference with two objects, exactly when no call on an
object comes after a `destroy` of it that comes after a `set_callback` of it. -/
theorem released_once_iff {registry : RefTable} (hregistry : registry.Sound []) {calls : List LuaCall}
    {outs : List (Option Nat)}
    (hrun : exec LuaDevices.step (start registry) calls = .ok (s, outs)) :
    Along LuaDevices.step Safe (start registry) calls ↔ ∀ i call, call.target = some i →
      ¬ [.setCallback i, .destroy i, call].Sublist calls :=
  (Inv.start hregistry).safe_iff hrun

/-- A registry in which nothing was released. -/
def newRegistry : RefTable := ⟨[], 1⟩

theorem newRegistry_sound : newRegistry.Sound [] :=
  ⟨List.nodup_nil, fun _ hmem => absurd hmem List.not_mem_nil⟩

/-- Two objects with callbacks, one of which gets another one; the first is destroyed by hand, the
second is collected. -/
def orderlyRun : List LuaCall :=
  [.create 1, .create 2, .setCallback 0, .setCallback 1, .setCallback 1, .destroy 0, .gc 1]

theorem released_once_iff_orderlyRun :
    Along LuaDevices.step Safe (start newRegistry) orderlyRun ↔ ∀ i call, call.target = some i →
      ¬ [.setCallback i, .destroy i, call].Sublist orderlyRun := by
  obtain ⟨s, outs, hrun⟩ : ∃ s outs, exec LuaDevices.step (start newRegistry) orderlyRun =
      .ok (s, outs) := ⟨_, _, rfl⟩
  exact released_once_iff newRegistry_sound hrun

/-- The first object is destroyed by hand, the second one gets its reference, the first is collected
and releases it again, and the third one gets it, too. -/
def sharedRun : List LuaCall :=
  [.create 1, .create 2, .create 3, .setCallback 0, .destroy 0, .setCallback 1, .gc 0, .setCallback 2]

theorem callback_ref_shared :
    (∃ s outs, exec LuaDevices.step (start newRegistry) sharedRun = .ok (s, outs) ∧
      outs = [none, none, none, none, some 1, none, some 1, none] ∧
      s.callback 1 = some 1 ∧ s.callback 2 = some 1 ∧ ¬ s.Distinct) ∧
      ¬ Along LuaDevices.step Safe (start newRegistry) sharedRun := by
  refine ⟨⟨_, _, rfl, rfl, rfl, rfl, fun hdistinct => ?_⟩, fun halong => ?_⟩
  · exact absurd (hdistinct 1 2 1 rfl rfl) (by decide)
  · have hcollect := ((((((halong.2 _ _ rfl).2 _ _ rfl).2 _ _ rfl).2 _ _ rfl).2 _ _ rfl).2 _ _ rfl).1
    have hholds := (hcollect _ _ rfl).1 0 rfl 1 rfl
    cases hholds

end LuaDevices

end LibEzmb
