import LibEzmb.BaseLoop
import LibEzmb.BaseRun
import LibEzmb.ListenThreads
import LibEzmb.LuaDevice
import LibEzmb.LuaSend

/-! A script at work on its devices and the listener threads it starts: where e_device_lua.c follows
the pointer of a userdata, and when that pointer is null. -/

open CBytes CHeap Runs Workers Workers.Pool

namespace LibEzmb

/-- `lua_e_device_t` and what belongs to it. The flag in `pool` is `running`, the handle there tells
whether `device` is still in the userdata or was replaced by the null pointer. -/
structure LuaUserdata where
  device : EDevice
  pool : Pool LuaPlace
  callbackRef : Option Nat
  north : OutSocket
  collected : Bool

/-- The operations on an object. `close`, `free` and `forget` are the parts of `l_device_destroy`,
between which threads may run; after them, as `__gc`, comes `collect`. `thread` is the next step of
a listener thread. -/
inductive UserdataOp where
  | setCallback (ref : Nat)
  | listen
  | send (msg : Bytes) (okTopic okPayload : Bool)
  | stop
  | index (key : CStr)
  | close
  | free
  | forget
  | collect
  | thread (k : Nat) (answer : ListenAnswer)

def UserdataOp.byThread : UserdataOp → Bool
  | .thread _ _ => true
  | _ => false

inductive ScriptOp where
  | create (type : EDeviceType) (env : CreateEnv) (uid : CStr) (southUrl northUrl : Option CStr)
  | on (i : Nat) (op : UserdataOp)

/-- What an operation gives to the script. -/
inductive ScriptAnswer where
  | nothing
  | created
  | sent (ok : Bool) (out : List Msg)
  | field (value : LuaField)

namespace LuaUserdata

/-- `ud->device`. -/
def pointer (ud : LuaUserdata) : Option EDevice :=
  if ud.pool.shared.handle then some { ud.device with running := ud.pool.shared.flag } else none

/-- The device is used through the pointer, if the operation uses it at all. -/
def use (ud : LuaUserdata) (uses : Bool) : Except LuaStop Unit :=
  if uses && ud.pool.shared.handle && decide (ud.pool.shared.life = .freed) then
    .error (.fault .dangling)
  else .ok ()

def move (ud : LuaUserdata) (l : Label ListenAnswer) :
    Except LuaStop (LuaUserdata × ScriptAnswer) :=
  match ud.pool.step luaListenThread l with
  | .ok pool => .ok ({ ud with pool := pool }, .nothing)
  | .error e => .error (.fault e)

/-- The thread's next step reads the userdata. -/
def readBy (ud : LuaUserdata) (k : Nat) : Bool :=
  (ud.pool.workers[k]?).any fun w => decide (w.place = .entry) || decide (w.place = .call)

def perform (ud : LuaUserdata) : UserdataOp → Except LuaStop (LuaUserdata × ScriptAnswer)
  | .setCallback ref => .ok ({ ud with callbackRef := some ref }, .nothing)
  | .listen => ud.move .spawn
  | .send msg okTopic okPayload => do
      ud.use (!msg.isEmpty)
      let r := lDeviceSend ud.pointer msg okTopic okPayload ud.north
      .ok ({ ud with north := r.1 }, .sent r.2.1 r.2.2)
  | .stop => ud.move .stop
  | .index key => do
      ud.use (deviceField key).isSome
      let value ← lDeviceIndex ud.pointer key
      .ok (ud, .field value)
  | .close => ud.move .close
  | .free => ud.move .free
  | .forget => ud.move .forget
  | .collect =>
      if ud.pool.shared.handle then .error (.fault .disabled)
      else .ok ({ ud with collected := true }, .nothing)
  | .thread k answer =>
      if ud.collected && ud.readBy k then .error (.fault .dangling) else ud.move (.work k answer)

/-- What a script does takes an object that has not been collected; threads go on without it. -/
def run (ud : LuaUserdata) (op : UserdataOp) : Except LuaStop (LuaUserdata × ScriptAnswer) :=
  if ud.collected && !op.byThread then .error (.fault .disabled) else ud.perform op

/-- The userdata is there, and its pointer is null. -/
def Nulled (ud : LuaUserdata) : Prop := ud.pool.shared.handle = false ∧ ud.collected = false

/-- No thread holds a null pointer that it is about to follow. -/
def NoneHeld (ud : LuaUserdata) : Prop := ∀ w ∈ ud.pool.workers, w.place ≠ .items false

end LuaUserdata

/-- The objects of a script in the order of their creation. -/
abbrev LuaScript := List LuaUserdata

namespace LuaScript

def step (s : LuaScript) : ScriptOp → Except LuaStop (LuaScript × ScriptAnswer)
  | .create type env uid southUrl northUrl =>
      (lDeviceCreate type env uid southUrl northUrl).map fun d =>
        (s ++ [⟨d, .start d.running, none, ⟨[]⟩, false⟩], .created)
  | .on i op => match s[i]? with
    | none => .error (.fault .disabled)
    | some ud => (ud.run op).map fun r => (s.set i r.1, r.2)

/-- The operation does not follow a null pointer, if it is a creation that fails it is reported as
an error, and it leaves no thread about to follow a null pointer. -/
structure Safe (s : LuaScript) (op : ScriptOp) : Prop where
  step : s.step op ≠ .error (.fault .nullDeref)
  creation : ∀ type env uid southUrl northUrl, op = .create type env uid southUrl northUrl →
    eCommonCreate env (some uid) (some (southUrl.getD EZMB_DEFAULT_SOUTH_URL))
      (some (northUrl.getD EZMB_DEFAULT_NORTH_URL)) none type = none →
    ∃ text, s.step op = .error (.raised text)
  threads : ∀ t out, s.step op = .ok (t, out) → ∀ i k answer,
    t.step (.on i (.thread k answer)) ≠ .error (.fault .nullDeref)

/-- A creation succeeds; no field is read of a destroyed object; and no thread begins, with its
first read of the pointer, on a destroyed object. -/
def NonNull (s : LuaScript) : ScriptOp → Prop
  | .create _ env _ _ _ => env.Succeeds
  | .on i (.index key) => (deviceField key).isSome → ∀ ud ∈ s[i]?, ¬ud.Nulled
  | .on i (.thread k _) => ∀ ud ∈ s[i]?, ∀ w ∈ ud.pool.workers[k]?, w.place = .entry → ¬ud.Nulled
  | _ => True

end LuaScript

/-! ### One object -/

theorem luaNext_none_iff {running handle : Bool} {answer : ListenAnswer} {r : LuaPlace} :
    luaNext running handle answer r = none ↔ r = .items false := by
  cases r with
  | items device => cases device <;> simp [luaNext]
  | _ => simp [luaNext]

theorem luaNext_items_iff {running handle : Bool} {answer : ListenAnswer} {r : LuaPlace} :
    luaNext running handle answer r = some (.items false) ↔ r = .entry ∧ handle = false := by
  cases r with
  | items device => cases device <;> simp [luaNext]
  | poll | recvTopic | recvData | test => simp only [luaNext]; split <;> simp
  | _ => simp [luaNext]

namespace LuaUserdata

variable {ud : LuaUserdata} {r : LuaUserdata × ScriptAnswer}

theorem move_ok {l : Label ListenAnswer} (hmove : ud.move l = .ok r) :
    ∃ pool, Step luaListenThread ud.pool l pool ∧ r = ({ ud with pool := pool }, .nothing) := by
  unfold move at hmove
  split at hmove
  · next pool hstep =>
      cases hmove
      exact ⟨pool, hstep, rfl⟩
  · cases hmove

/-- A thread follows a null pointer only when it holds one. -/
theorem move_null_iff {l : Label ListenAnswer} : ud.move l = .error (.fault .nullDeref) ↔
    ∃ k answer w, l = .work k answer ∧ ud.pool.workers[k]? = some w ∧ w.place = .items false := by
  have hmove : ud.move l = .error (.fault .nullDeref) ↔
      ud.pool.step luaListenThread l = .error .nullDeref := by
    unfold move
    split
    · next hstep => simp [hstep]
    · next hstep => simp [hstep]
  rw [hmove, step_nullDeref_iff]
  constructor
  · rintro ⟨k, answer, w, hl, hw, -, hnext⟩
    exact ⟨k, answer, w, hl, hw, luaNext_none_iff.mp hnext⟩
  · rintro ⟨k, answer, w, hl, hw, hplace⟩
    refine ⟨k, answer, w, hl, hw, ?_, luaNext_none_iff.mpr hplace⟩
    simp [hplace, luaListenThread]

theorem NoneHeld.move_ne_null (hnone : ud.NoneHeld) (l : Label ListenAnswer) :
    ud.move l ≠ .error (.fault .nullDeref) := by
  intro hnull
  obtain ⟨k, answer, w, -, hw, hplace⟩ := move_null_iff.mp hnull
  exact hnone w (List.mem_of_getElem? hw) hplace

/-- What the script does gives no thread a null pointer. -/
theorem NoneHeld.move (hnone : ud.NoneHeld) {l : Label ListenAnswer}
    (hl : ∀ k answer, l ≠ .work k answer) (hmove : ud.move l = .ok r) : r.1.NoneHeld := by
  obtain ⟨pool, hstep, rfl⟩ := move_ok hmove
  cases hstep.did with
  | spawned =>
      intro w hw
      rcases List.mem_append.mp hw with hw | hw
      · exact hnone w hw
      · cases List.mem_singleton.mp hw
        simp [luaListenThread]
  | worked => exact absurd rfl (hl _ _)
  | owned => exact hnone

/-- A thread takes a null pointer when it begins where the handle is gone. -/
theorem NoneHeld.move_work_iff (hnone : ud.NoneHeld) {k : Nat} {answer : ListenAnswer}
    (hmove : ud.move (.work k answer) = .ok r) : r.1.NoneHeld ↔
      ∀ w ∈ ud.pool.workers[k]?, w.place = .entry → ud.pool.shared.handle = true := by
  obtain ⟨pool, hstep, rfl⟩ := move_ok hmove
  obtain ⟨w, place, hw, -, hnext, rfl⟩ := hstep.work_inv
  have hk : k < ud.pool.workers.length := (List.getElem?_eq_some_iff.mp hw).1
  have hplace : place = .items false ↔ w.place = .entry ∧ ud.pool.shared.handle = false := by
    have hiff : luaNext ud.pool.shared.flag ud.pool.shared.handle answer w.place =
        some (.items false) ↔ _ := luaNext_items_iff
    simp only [luaListenThread] at hnext
    rwa [hnext, Option.some.injEq] at hiff
  constructor
  · intro hafter v hv hentry
    rw [hw] at hv
    cases hv
    by_contra hgone
    rw [Bool.not_eq_true] at hgone
    exact hafter _ (List.mem_set hk _) (hplace.mpr ⟨hentry, hgone⟩)
  · intro hentry v hv
    rcases List.mem_or_eq_of_mem_set hv with hv | rfl
    · exact hnone v hv
    · intro hitems
      obtain ⟨hstart, hgone⟩ := hplace.mp hitems
      rw [hentry w hw hstart] at hgone
      cases hgone

theorem pointer_eq_none_iff : ud.pointer = none ↔ ud.pool.shared.handle = false := by
  rw [pointer]
  cases ud.pool.shared.handle <;> simp

theorem use_error {uses : Bool} {e : LuaStop} (huse : ud.use uses = .error e) :
    e = .fault .dangling ∧ ud.pool.shared.handle = true := by
  unfold use at huse
  split at huse
  · next hfreed =>
      cases huse
      simp only [Bool.and_eq_true] at hfreed
      exact ⟨rfl, hfreed.1.2⟩
  · cases huse

theorem perform_index_null_iff (key : CStr) :
    ud.perform (.index key) = .error (.fault .nullDeref) ↔
      (deviceField key).isSome ∧ ud.pool.shared.handle = false := by
  rw [perform, ← pointer_eq_none_iff]
  cases huse : ud.use (deviceField key).isSome with
  | error e =>
      obtain ⟨rfl, hhandle⟩ := use_error huse
      refine iff_of_false (by simp [bind, Except.bind]) ?_
      rintro ⟨-, hnull⟩
      rw [pointer_eq_none_iff, hhandle] at hnull
      cases hnull
  | ok u =>
      rw [← lDeviceIndex_null_iff]
      cases lDeviceIndex ud.pointer key <;> simp [bind, Except.bind]

/-- Besides the threads only the reading of a field follows the pointer unchecked. -/
theorem NoneHeld.run_null_iff (hnone : ud.NoneHeld) (op : UserdataOp) :
    ud.run op = .error (.fault .nullDeref) ↔
      ∃ key, op = .index key ∧ (deviceField key).isSome ∧ ud.Nulled := by
  by_cases hgone : ud.collected && !op.byThread
  · rw [run, if_pos hgone]
    refine iff_of_false (by simp) ?_
    rintro ⟨key, -, -, -, hkept⟩
    simp [hkept] at hgone
  · rw [run, if_neg hgone]
    cases op with
    | index key =>
        have hkept : ud.collected = false := by simpa [UserdataOp.byThread] using hgone
        rw [perform_index_null_iff]
        simp [Nulled, hkept]
    | setCallback ref => simp [perform]
    | send msg okTopic okPayload =>
        refine iff_of_false ?_ (by simp)
        rw [perform, use]
        split <;> simp [bind, Except.bind]
    | collect =>
        rw [perform]
        split <;> simp
    | thread k answer =>
        refine iff_of_false ?_ (by simp)
        rw [perform]
        split
        · simp
        · exact hnone.move_ne_null _
    | listen | stop | close | free | forget =>
        rw [perform]
        exact iff_of_false (hnone.move_ne_null _) (by simp)

/-- A step of a thread makes it hold a null pointer when it begins on a destroyed object. -/
theorem NoneHeld.perform_thread_iff (hnone : ud.NoneHeld) {k : Nat} {answer : ListenAnswer}
    (hperform : ud.perform (.thread k answer) = .ok r) :
    r.1.NoneHeld ↔ ∀ w ∈ ud.pool.workers[k]?, w.place = .entry → ¬ud.Nulled := by
  rw [perform] at hperform
  split at hperform
  · cases hperform
  · next hread =>
      rw [hnone.move_work_iff hperform]
      constructor
      · rintro hentry w hw hplace ⟨hnull, -⟩
        rw [hentry w hw hplace] at hnull
        cases hnull
      · intro hentry w hw hplace
        by_contra hnull
        apply hentry w hw hplace
        refine ⟨by simpa using hnull, ?_⟩
        -- the userdata is there, because the thread has read it
        by_contra hcollected
        apply hread
        rw [Option.mem_def] at hw
        simp [readBy, hw, hplace, hcollected]

/-- No thread comes to hold a null pointer but one that begins on a destroyed object. -/
theorem NoneHeld.run_iff (hnone : ud.NoneHeld) {op : UserdataOp} (hrun : ud.run op = .ok r) :
    r.1.NoneHeld ↔ ∀ k answer, op = .thread k answer →
      ∀ w ∈ ud.pool.workers[k]?, w.place = .entry → ¬ud.Nulled := by
  by_cases hgone : ud.collected && !op.byThread
  · rw [run, if_pos hgone] at hrun
    cases hrun
  · rw [run, if_neg hgone] at hrun
    cases op with
    | thread k answer =>
        rw [hnone.perform_thread_iff hrun]
        constructor
        · rintro hbegin k' answer' heq
          cases heq
          exact hbegin
        · intro hbegin
          exact hbegin k answer rfl
    | setCallback ref =>
        cases hrun
        exact iff_of_true hnone (by simp)
    | send msg okTopic okPayload =>
        refine iff_of_true ?_ (by simp)
        obtain ⟨_, _, hsent⟩ := bind_eq_ok hrun
        cases hsent
        exact hnone
    | index key =>
        refine iff_of_true ?_ (by simp)
        obtain ⟨_, _, hindex⟩ := bind_eq_ok hrun
        obtain ⟨_, _, hfield⟩ := bind_eq_ok hindex
        cases hfield
        exact hnone
    | collect =>
        rw [perform] at hrun
        split at hrun
        · cases hrun
        · cases hrun
          exact iff_of_true hnone (by simp)
    | listen | stop | close | free | forget =>
        rw [perform] at hrun
        exact iff_of_true (hnone.move (by simp) hrun) (by simp)

/-- Nothing keeps a thread from beginning. -/
theorem run_entry {k : Nat} {w : Worker LuaPlace} (hw : ud.pool.workers[k]? = some w)
    (hplace : w.place = .entry) (hkept : ud.collected = false) (answer : ListenAnswer) :
    ∃ r, ud.run (.thread k answer) = .ok r := by
  have hstep := step_work_of (P := luaListenThread) (o := answer) hw
    (by simp [hplace, luaListenThread]) (by rw [hplace]; rfl)
  have hmove : ∃ r, ud.move (.work k answer) = .ok r := by
    rw [Step] at hstep
    rw [move, hstep]
    exact ⟨_, rfl⟩
  simpa [run, perform, hkept, UserdataOp.byThread] using hmove

end LuaUserdata

/-! ### Scripts -/

namespace LuaScript

/-- No thread of any object holds a null pointer. -/
def NoneHeld (s : LuaScript) : Prop := ∀ ud ∈ s, ud.NoneHeld

variable {s t : LuaScript}

theorem step_on_ok {i : Nat} {op : UserdataOp} {out : ScriptAnswer}
    (hstep : s.step (.on i op) = .ok (t, out)) :
    ∃ ud r, s[i]? = some ud ∧ ud.run op = .ok r ∧ t = s.set i r.1 := by
  rw [step] at hstep
  split at hstep
  · cases hstep
  · next ud hud =>
      cases hrun : ud.run op with
      | error e => simp [hrun, Except.map] at hstep
      | ok r =>
          rw [hrun] at hstep
          cases hstep
          exact ⟨ud, r, hud, hrun, rfl⟩

theorem step_on_null_iff {i : Nat} {op : UserdataOp} :
    s.step (.on i op) = .error (.fault .nullDeref) ↔
      ∃ ud ∈ s[i]?, ud.run op = .error (.fault .nullDeref) := by
  rw [step]
  cases s[i]? with
  | none => simp
  | some ud => cases hrun : ud.run op <;> simp [hrun, Except.map]

/-- No thread is about to follow a null pointer exactly when none holds one. -/
theorem noneHeld_iff : s.NoneHeld ↔
    ∀ i k answer, s.step (.on i (.thread k answer)) ≠ .error (.fault .nullDeref) := by
  constructor
  · intro hnone i k answer hnull
    obtain ⟨ud, hud, hrun⟩ := step_on_null_iff.mp hnull
    have hud' := hnone ud (List.mem_of_getElem? hud)
    obtain ⟨key, hkey, -⟩ := (hud'.run_null_iff _).mp hrun
    cases hkey
  · intro hthreads ud hud w hw hplace
    obtain ⟨i, hi⟩ := List.mem_iff_getElem?.mp hud
    obtain ⟨k, hk⟩ := List.mem_iff_getElem?.mp hw
    apply hthreads i k .quiet
    rw [step_on_null_iff]
    refine ⟨ud, hi, ?_⟩
    have hread : ud.readBy k = false := by simp [LuaUserdata.readBy, hk, hplace]
    have hnull : ud.move (.work k .quiet) = .error (.fault .nullDeref) :=
      LuaUserdata.move_null_iff.mpr ⟨k, .quiet, w, rfl, hk, hplace⟩
    simpa [LuaUserdata.run, UserdataOp.byThread, LuaUserdata.perform, hread] using hnull

/-- A creation is safe exactly when it succeeds: one that fails is not reported. -/
theorem NoneHeld.create_safe_iff (hnone : s.NoneHeld) (type : EDeviceType) (env : CreateEnv)
    (uid : CStr) (southUrl northUrl : Option CStr) :
    s.Safe (.create type env uid southUrl northUrl) ↔ env.Succeeds := by
  have hiff := eCommonCreate_isSome_iff env uid (southUrl.getD EZMB_DEFAULT_SOUTH_URL)
    (northUrl.getD EZMB_DEFAULT_NORTH_URL) none type
  rcases lDeviceCreate_cases type env uid southUrl northUrl with
    ⟨henv, d, -, -, hcreate⟩ | ⟨henv, hcreate⟩
  · refine iff_of_true ⟨?_, ?_, ?_⟩ henv
    · simp [step, hcreate, Except.map]
    · intro type' env' uid' southUrl' northUrl' heq hfails
      cases heq
      rw [hfails] at hiff
      simpa using hiff.mpr henv
    · intro t out hstep
      rw [← noneHeld_iff]
      simp only [step, hcreate, Except.map, Except.ok.injEq, Prod.mk.injEq] at hstep
      rw [← hstep.1]
      intro ud hud
      rcases List.mem_append.mp hud with hud | hud
      · exact hnone ud hud
      · cases List.mem_singleton.mp hud
        intro w hw
        cases hw
  · refine iff_of_false (fun hsafe => hsafe.step ?_) henv
    rw [step, hcreate]
    rfl

/-- What it takes for an operation on an object not to follow a null pointer. -/
theorem NoneHeld.on_step_iff (hnone : s.NoneHeld) (i : Nat) (op : UserdataOp) :
    s.step (.on i op) ≠ .error (.fault .nullDeref) ↔
      ∀ key, op = .index key → (deviceField key).isSome → ∀ ud ∈ s[i]?, ¬ud.Nulled := by
  rw [Ne, step_on_null_iff]
  constructor
  · rintro hno key rfl hfield ud hud hnulled
    apply hno
    exact ⟨ud, hud, ((hnone ud (List.mem_of_getElem? hud)).run_null_iff _).mpr
      ⟨key, rfl, hfield, hnulled⟩⟩
  · rintro hno ⟨ud, hud, hrun⟩
    obtain ⟨key, rfl, hfield, hnulled⟩ :=
      ((hnone ud (List.mem_of_getElem? hud)).run_null_iff _).mp hrun
    exact hno key rfl hfield ud hud hnulled

/-- What it takes for no thread to hold a null pointer after it. -/
theorem NoneHeld.on_held_iff (hnone : s.NoneHeld) (i : Nat) (op : UserdataOp) :
    (∀ t out, s.step (.on i op) = .ok (t, out) → NoneHeld t) ↔
      ∀ k answer, op = .thread k answer → ∀ ud ∈ s[i]?, ∀ w ∈ ud.pool.workers[k]?,
        w.place = .entry → ¬ud.Nulled := by
  constructor
  · rintro hafter k answer rfl ud hud w hw hplace hnulled
    obtain ⟨r, hrun⟩ := ud.run_entry hw hplace hnulled.2 answer
    have hstep : s.step (.on i (.thread k answer)) = .ok (s.set i r.1, r.2) := by
      rw [Option.mem_def] at hud
      simp [step, hud, hrun, Except.map]
    have hi : i < s.length := (List.getElem?_eq_some_iff.mp hud).1
    have hheld := hafter _ _ hstep r.1 (List.mem_set hi _)
    rw [(hnone ud (List.mem_of_getElem? hud)).run_iff hrun] at hheld
    exact hheld k answer rfl w hw hplace hnulled
  · intro hbegin t out hstep
    obtain ⟨ud, r, hud, hrun, rfl⟩ := step_on_ok hstep
    intro v hv
    rcases List.mem_or_eq_of_mem_set hv with hv | rfl
    · exact hnone v hv
    · rw [(hnone ud (List.mem_of_getElem? hud)).run_iff hrun]
      exact fun k answer heq => hbegin k answer heq ud hud

/-- An operation on an object is safe exactly when it does not read a field of a destroyed object
and is not the beginning of a thread on one. -/
theorem NoneHeld.on_safe_iff (hnone : s.NoneHeld) (i : Nat) (op : UserdataOp) :
    s.Safe (.on i op) ↔ s.NonNull (.on i op) := by
  have hsafe : s.Safe (.on i op) ↔ s.step (.on i op) ≠ .error (.fault .nullDeref) ∧
      ∀ t out, s.step (.on i op) = .ok (t, out) → NoneHeld t := by
    simp only [noneHeld_iff]
    constructor
    · exact fun hsafe => ⟨hsafe.step, hsafe.threads⟩
    · exact fun h => ⟨h.1, fun _ _ _ _ _ heq => (by cases heq), h.2⟩
  rw [hsafe, hnone.on_step_iff, hnone.on_held_iff]
  cases op <;> simp [NonNull]

end LuaScript

/-- **Null devices.** Along every sequence of operations no null device pointer is followed, by the
operation or by a thread it starts, and failed creations are reported, exactly when creations do not
fail, no field is read of a destroyed object and no thread begins on one. -/
theorem lua_no_null_iff (ops : List ScriptOp) :
    Along LuaScript.step LuaScript.Safe [] ops ↔
      Along LuaScript.step LuaScript.NonNull [] ops := by
  apply Along.iff_of (I := LuaScript.NoneHeld) (A := fun _ _ => True)
  · intro s op hnone _
    cases op with
    | create type env uid southUrl northUrl => exact hnone.create_safe_iff ..
    | on i op => exact hnone.on_safe_iff i op
  · intro s op t out _ _ hsafe hstep
    exact LuaScript.noneHeld_iff.mpr (hsafe.threads t out hstep)
  · exact fun ud hud => by cases hud
  · exact Along.of_forall fun _ _ => trivial

/-- A monitor is created. -/
def createMonitor (env : CreateEnv) : ScriptOp :=
  .create .monitor env listeningDevice.uid none none

/-- A monitor is created and destroyed. -/
def destroyedMonitor : List ScriptOp :=
  [createMonitor ⟨true, true, true, true, true, true⟩, .on 0 .close, .on 0 .free, .on 0 .forget]

/-- The null pointer is followed when a creation fails, when a field of a destroyed object is read
and by the thread that a listen on a destroyed object starts. -/
theorem lua_null_counterexample :
    ¬Along LuaScript.step LuaScript.Safe []
      [createMonitor ⟨true, true, true, true, false, true⟩] ∧
    ¬Along LuaScript.step LuaScript.Safe []
      (destroyedMonitor ++ [.on 0 (.index ⟨ascii ['u', 'i', 'd'], by decide⟩)]) ∧
    ¬Along LuaScript.step LuaScript.Safe []
      (destroyedMonitor ++ [.on 0 .listen, .on 0 (.thread 0 .quiet)]) := by
  refine ⟨fun halong => ?_, fun halong => ?_, fun halong => ?_⟩
  · exact halong.1.step rfl
  · have hindex := (((halong.2 _ _ rfl).2 _ _ rfl).2 _ _ rfl).2 _ _ rfl
    exact hindex.1.step rfl
  · have hlisten := (((halong.2 _ _ rfl).2 _ _ rfl).2 _ _ rfl).2 _ _ rfl
    have hthread := hlisten.2 _ _ rfl
    exact hthread.1.threads _ _ rfl 0 0 .quiet rfl

end LibEzmb
