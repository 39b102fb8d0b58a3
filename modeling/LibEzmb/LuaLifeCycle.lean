import LibEzmb.BaseWorkerCalls
import LibEzmb.ListenThreads
import LibEzmb.LuaDevice

/-! The life cycle of a device made from C and of one made from a script: `e_device_listen_thread`
sets `running` when it starts, `lua_listen_thread` finds it as creation and `stop` left it. -/

open Relation Runs Workers Workers.Pool

namespace LibEzmb

/-- The thread is inside its receive loop. -/
def LuaPlace.InLoop : LuaPlace → Prop
  | .test | .poll | .recvTopic | .recvData | .call => True
  | .entry | .items _ | .done => False

/-- The messages the round a thread is in may still take. -/
def LuaPlace.left : LuaPlace → Nat
  | .poll | .recvTopic => 1
  | _ => 0

/-- Places that a thread does not leave for a receive while `running` is false. -/
def LuaPlace.Idle : LuaPlace → Prop
  | .entry | .items _ | .test | .done => True
  | _ => False

/-- A system call that succeeds, with input for a receive. -/
def ListenAnswer.input : ListenAnswer := ⟨true, true, false⟩

section Device

variable (device : EDevice)

theorem device_alone {flag : Bool} {r r' : DevicePlace} (answer : ListenAnswer)
    (hnext : deviceNext device flag true answer r = some r') (hquiet : r ≠ .store) :
    Alone (eDeviceListenThread device) (flag, r) (flag, r') := by
  refine ⟨answer, hnext, ?_⟩
  cases r <;> simp_all [eDeviceListenThread]

/-- From everywhere in the loop a thread comes back to its test. -/
theorem device_test (flag : Bool) {r : DevicePlace} (hloop : r.InLoop) :
    ReflTransGen (Alone (eDeviceListenThread device)) (flag, r) (flag, .test) := by
  cases r with
  | test => exact .refl
  | poll => exact .single (device_alone device .quiet rfl (by simp))
  | recvTopic => exact .single (device_alone device ⟨false, false, false⟩ rfl (by simp))
  | recvData => exact .single (device_alone device ⟨false, false, false⟩ rfl (by simp))
  | call => exact .single (device_alone device .quiet rfl (by simp))
  | entry | store | items | done => exact absurd hloop id

theorem device_loops (hcb : device.cb.isSome) : Loops (eDeviceListenThread device)
    DevicePlace.InLoop (fun place => ¬place.BeforeStore device) DevicePlace.left where
  settled := device_settled device
  inside r hr hbefore := by
    rcases hr with hr | rfl
    · cases r <;> first | exact hr | exact hbefore
    · exact hbefore
  done_left := rfl
  stays answer r r' hlive hnext := by
    obtain ⟨cb, hcb⟩ := Option.isSome_iff_exists.mp hcb
    cases r <;> simp only [eDeviceListenThread, deviceNext, hcb, Option.some.injEq] at hnext <;>
      subst hnext
    case done => exact absurd rfl hlive
    case poll | recvTopic | recvData => split <;> simp [eDeviceListenThread]
    all_goals simp [eDeviceListenThread]
  enters flag := by
    obtain ⟨cb, hcb⟩ := Option.isSome_iff_exists.mp hcb
    refine ⟨true, .test, trivial, ?_⟩
    have hentry : Alone (eDeviceListenThread device) (flag, .entry) (flag, .store) :=
      device_alone device .quiet (by simp [deviceNext, hcb]) (by simp)
    have hstore : Alone (eDeviceListenThread device) (flag, .store) (true, .items) :=
      ⟨.quiet, rfl, by simp [eDeviceListenThread]⟩
    have hitems : Alone (eDeviceListenThread device) (true, .items) (true, .test) :=
      device_alone device .quiet rfl (by simp)
    exact ((ReflTransGen.single hentry).tail hstore).tail hitems
  takes r hloop := by
    refine ⟨.recvTopic, .input, ?_, rfl, rfl⟩
    have htest : Alone (eDeviceListenThread device) (true, .test) (true, .poll) :=
      device_alone device .quiet rfl (by simp)
    have hpoll : Alone (eDeviceListenThread device) (true, .poll) (true, .recvTopic) :=
      device_alone device .input rfl (by simp)
    exact ((device_test device true hloop).tail htest).tail hpoll
  leaves r hloop :=
    (device_test device false hloop).tail (device_alone device .quiet rfl (by simp))

/-- A thread with a callback sets `running` before it comes to its loop. -/
theorem device_raising (hcb : device.cb.isSome) : Raising (eDeviceListenThread device)
    DevicePlace.InLoop (DevicePlace.BeforeStore device) where
  rises flag answer r r' hbefore hnext := by
    obtain ⟨cb, hcb⟩ := Option.isSome_iff_exists.mp hcb
    cases r with
    | entry =>
        simp only [eDeviceListenThread, deviceNext, hcb, Option.some.injEq] at hnext
        subst hnext
        exact Or.inl trivial
    | store =>
        cases hnext
        exact Or.inr ⟨rfl, by simp [eDeviceListenThread]⟩
    | _ => exact absurd hbefore id
  outside r hbefore hr := by
    rcases hr with hr | rfl
    · cases r <;> first | exact hr | exact hbefore
    · exact hbefore

end Device

theorem lua_alone {flag : Bool} {r r' : LuaPlace} (answer : ListenAnswer)
    (hnext : luaNext flag true answer r = some r') :
    Alone luaListenThread (flag, r) (flag, r') :=
  ⟨answer, hnext, by simp [luaListenThread]⟩

theorem lua_test (flag : Bool) {r : LuaPlace} (hloop : r.InLoop) :
    ReflTransGen (Alone luaListenThread) (flag, r) (flag, .test) := by
  cases r with
  | test => exact .refl
  | poll => exact .single (lua_alone .quiet rfl)
  | recvTopic => exact .single (lua_alone ⟨false, false, false⟩ rfl)
  | recvData => exact .single (lua_alone ⟨false, false, false⟩ rfl)
  | call => exact .single (lua_alone .quiet rfl)
  | entry | items _ | done => exact absurd hloop id

theorem lua_settled : Settled luaListenThread (fun _ => True) LuaPlace.left where
  keeps _ _ _ _ _ _ := trivial
  quiet _ _ := rfl
  pays handle answer r r' _ hnext := by
    simp only [luaListenThread] at hnext ⊢
    cases r <;> simp only [luaNext, Option.some.injEq] at hnext
    case items device => split at hnext <;> cases hnext; rfl
    case recvTopic => subst hnext; cases hok : answer.ok <;> simp [hok, LuaPlace.left]
    case poll | recvData => subst hnext; dsimp only; split <;> simp [LuaPlace.left]
    all_goals subst hnext; simp [LuaPlace.left]

/-- A thread that has not come to its poll does not do so while `running` is false. -/
theorem lua_idle : Settled luaListenThread LuaPlace.Idle fun _ => 0 where
  keeps handle answer r r' hidle hnext := by
    simp only [luaListenThread] at hnext
    cases r <;> simp only [luaNext, Option.some.injEq] at hnext
    case items device => split at hnext <;> cases hnext; trivial
    case poll | recvTopic | recvData | call => exact absurd hidle id
    all_goals subst hnext; exact trivial
  quiet _ _ := rfl
  pays handle answer r r' hidle hnext := by
    cases r with
    | poll | recvTopic | recvData | call => exact absurd hidle id
    | _ => exact Nat.le_refl _

theorem lua_loops :
    Loops luaListenThread LuaPlace.InLoop (fun _ => True) LuaPlace.left where
  settled := lua_settled
  inside _ _ := trivial
  done_left := rfl
  stays answer r r' hlive hnext := by
    simp only [luaListenThread] at hnext
    cases r <;> simp only [luaNext, if_true, Option.some.injEq] at hnext
    case done => exact absurd rfl hlive
    case items device => split at hnext <;> cases hnext; simp [luaListenThread]
    case poll | recvTopic | recvData => subst hnext; split <;> simp [luaListenThread]
    all_goals subst hnext; simp [luaListenThread]
  enters flag := by
    refine ⟨flag, .test, trivial, ?_⟩
    have hentry : Alone luaListenThread (flag, .entry) (flag, .items true) := lua_alone .quiet rfl
    have hitems : Alone luaListenThread (flag, .items true) (flag, .test) := lua_alone .quiet rfl
    exact (ReflTransGen.single hentry).tail hitems
  takes r hloop := by
    refine ⟨.recvTopic, .input, ?_, rfl, rfl⟩
    have htest : Alone luaListenThread (true, .test) (true, .poll) := lua_alone .quiet rfl
    have hpoll : Alone luaListenThread (true, .poll) (true, .recvTopic) := lua_alone .input rfl
    exact ((lua_test true hloop).tail htest).tail hpoll
  leaves r hloop := (lua_test false hloop).tail (lua_alone .quiet rfl)

/-! ### Sequences of calls -/

/-- Listens are starts of a worker; a device receives when one of its threads takes a message that
arrives. After the calls both devices receive or neither does. -/
def LifeCyclesAgree (device luaDevice : EDevice) (calls : List OwnerCall) : Prop :=
  ∀ s t,
    Run (Called (eDeviceListenThread device) DevicePlace.InLoop) (.start device.running) calls s →
    Run (Called luaListenThread LuaPlace.InLoop) (.start luaDevice.running) calls t →
    (Working (eDeviceListenThread device) s ↔ Working luaListenThread t)

section Calls

variable {device luaDevice : EDevice} {calls : List OwnerCall}

/-- The device of a C program receives when the last call was a listen. -/
theorem device_receives_iff (hcb : device.cb.isSome) {flag : Bool} {s : Pool DevicePlace}
    (hrun : Run (Called (eDeviceListenThread device) DevicePlace.InLoop) (.start flag) calls s) :
    Working (eDeviceListenThread device) s ↔ calls.getLast? = some .spawn :=
  (device_loops device hcb).working_iff_last (device_raising device hcb) hcb hrun

/-- The device of a script receives when there was a listen and no stop. -/
theorem lua_receives_iff {t : Pool LuaPlace}
    (hrun : Run (Called luaListenThread LuaPlace.InLoop) (.start true) calls t) :
    Working luaListenThread t ↔ calls ≠ [] ∧ .stop ∉ calls :=
  lua_loops.working_iff_unstopped (by simp [luaListenThread]) lua_idle trivial trivial hrun

theorem last_listen_iff : (calls.getLast? = some .spawn ↔ calls ≠ [] ∧ .stop ∉ calls) ↔
    (.stop ∈ calls → calls.getLast? ≠ some .spawn) := by
  constructor
  · intro hiff hstop hlast
    exact (hiff.mp hlast).2 hstop
  · intro hrestart
    constructor
    · intro hlast
      refine ⟨?_, fun hstop => hrestart hstop hlast⟩
      rintro rfl
      cases hlast
    · rintro ⟨hne, hstop⟩
      cases hlast : calls.getLast hne with
      | spawn => rw [List.getLast?_eq_some_getLast hne, hlast]
      | stop => exact absurd (hlast ▸ List.getLast_mem hne) hstop

theorem lifeCyclesAgree_iff (hcb : device.cb.isSome) (hrunning : luaDevice.running = true) :
    LifeCyclesAgree device luaDevice calls ↔ (.stop ∈ calls → calls.getLast? ≠ some .spawn) := by
  rw [← last_listen_iff, LifeCyclesAgree, hrunning]
  constructor
  · intro hagree
    obtain ⟨s, hs⟩ := (device_loops device hcb).exists_calls (.start device.running) calls
    obtain ⟨t, ht⟩ := lua_loops.exists_calls (.start true) calls
    rw [← device_receives_iff hcb hs, ← lua_receives_iff ht]
    exact hagree s t hs ht
  · intro hiff s t hs ht
    rw [device_receives_iff hcb hs, lua_receives_iff ht, hiff]

end Calls

/-- **One life cycle.** After a sequence of listens and stops, each of which takes effect before the
next, the device made by a script receives when the one made by a C program does, or both do not,
exactly when no stop comes before a last listen. -/
theorem life_cycles_agree_iff {env luaEnv : CreateEnv} {uid southUrl northUrl : Option CBytes.CStr}
    {cb : CHeap.Addr} {type luaType : EDeviceType} {luaUid : CBytes.CStr}
    {luaSouth luaNorth : Option CBytes.CStr} {device luaDevice : EDevice}
    (hdevice : eCommonCreate env uid southUrl northUrl (some cb) type = some device)
    (hlua : lDeviceCreate luaType luaEnv luaUid luaSouth luaNorth = .ok luaDevice)
    (calls : List OwnerCall) :
    LifeCyclesAgree device luaDevice calls ↔
      (.stop ∈ calls → calls.getLast? ≠ some .spawn) := by
  have hcb : device.cb = some cb := (eCommonCreate_spec hdevice).2.2.1
  apply lifeCyclesAgree_iff
  · rw [hcb]
    rfl
  · rcases lDeviceCreate_cases luaType luaEnv luaUid luaSouth luaNorth with
      ⟨-, d, hrunning, -, hcreate⟩ | ⟨-, hcreate⟩
    · rw [hlua, Except.ok.injEq] at hcreate
      rw [hcreate, hrunning]
    · rw [hlua] at hcreate
      cases hcreate

/-- The outcome of a creation in which no call fails. -/
def CreateEnv.good : CreateEnv := ⟨true, true, true, true, true, true⟩

/-- A C program and a script listen with a monitor and stop it. -/
theorem life_cycles_agree_stopped : ∃ device luaDevice : EDevice,
    device.cb.isSome ∧ luaDevice.running = true ∧
      (LifeCyclesAgree device luaDevice [.spawn, .stop] ↔
        (.stop ∈ [OwnerCall.spawn, .stop] → [OwnerCall.spawn, .stop].getLast? ≠ some .spawn)) := by
  let uid : CBytes.CStr := ⟨ascii ['d'], by decide⟩
  let url : CBytes.CStr := ⟨[], List.not_mem_nil⟩
  have hdevice : eCommonCreate .good (some uid) (some url) (some url) (some 0) .monitor =
    some (freshDevice uid .monitor (some 0)) := rfl
  obtain ⟨luaDevice, hrunning, hlua⟩ : ∃ luaDevice : EDevice, luaDevice.running = true ∧
    lMonitorCreate .good uid none none = .ok luaDevice := ⟨_, rfl, rfl⟩
  exact ⟨_, luaDevice, rfl, hrunning, life_cycles_agree_iff hdevice hlua _⟩

/-- A listen after a stop resumes reception in the C program alone. -/
theorem life_cycles_counterexample : ∃ device luaDevice : EDevice,
    device.Created ∧ device.cb.isSome ∧
      lMonitorCreate .good ⟨ascii ['d'], by decide⟩ none none = .ok luaDevice ∧
      ¬LifeCyclesAgree device luaDevice [.spawn, .stop, .spawn] := by
  refine ⟨freshDevice ⟨ascii ['d'], by decide⟩ .monitor (some 0), _, freshDevice_created _ _ _, rfl,
    rfl, fun hagree => ?_⟩
  exact (lifeCyclesAgree_iff rfl rfl).mp hagree (by decide) rfl

end LibEzmb
