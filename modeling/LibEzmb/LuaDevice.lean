import LibEzmb.BaseWorkers
import LibEzmb.BusDevice

/-! Creation of a device from a script and the reading of its fields, in e_device_lua.c. Both follow
the pointer in the userdata. -/

open CBytes

namespace LibEzmb

/-- What keeps an operation from returning: a fault, or an error raised to the script. -/
inductive LuaStop where
  | fault (e : Workers.Fault)
  | raised (text : String)
  deriving DecidableEq, Repr

/-- The device that the pointer in the userdata leads to. -/
def derefDevice (device : Option EDevice) : Except LuaStop EDevice :=
  match device with
  | some d => .ok d
  | none => .error (.fault .nullDeref)

/-- The text for `luaL_error`. -/
def creationFailed : EDeviceType → String
  | .collector => "Failed to create collector device"
  | .monitor => "Failed to create monitor device"

/-- The common body of `l_collector_create` and `l_monitor_create`. It stores to `running` before it
looks whether there is a device. -/
def lDeviceCreate (type : EDeviceType) (env : CreateEnv) (uid : CStr)
    (southUrl northUrl : Option CStr) : Except LuaStop EDevice := do
  let device := eCommonCreate env (some uid) (some (southUrl.getD EZMB_DEFAULT_SOUTH_URL))
    (some (northUrl.getD EZMB_DEFAULT_NORTH_URL)) none type
  let d ← derefDevice device
  if device.isNone then .error (.raised (creationFailed type))
  else .ok { d with running := true }

def lCollectorCreate : CreateEnv → CStr → Option CStr → Option CStr → Except LuaStop EDevice :=
  lDeviceCreate .collector

def lMonitorCreate : CreateEnv → CStr → Option CStr → Option CStr → Except LuaStop EDevice :=
  lDeviceCreate .monitor

/-- What `l_device_index` pushes. -/
inductive LuaField where
  | string (s : CStr)
  | integer (n : Int)
  | boolean (b : Bool)
  | method (key : CStr)
  deriving DecidableEq

def EDeviceType.code : EDeviceType → Int
  | .collector => 0
  | .monitor => 1

/-- The comparisons of `l_device_index`, with the field that each of them reads. -/
def deviceField (key : CStr) : Option (EDevice → LuaField) :=
  if key.bytes = ascii ['u', 'i', 'd'] then some fun dev => .string dev.uid
  else if key.bytes = ascii ['t', 'y', 'p', 'e'] then some fun dev => .integer dev.type.code
  else if key.bytes = ascii ['s', 'o', 'u', 't', 'h', '_', 'u', 'r', 'l'] then
    some fun dev => .string dev.southUrl
  else if key.bytes = ascii ['n', 'o', 'r', 't', 'h', '_', 'u', 'r', 'l'] then
    some fun dev => .string dev.northUrl
  else if key.bytes = ascii ['s', 'o', 'u', 't', 'h', '_', 't', 'o', 'p', 'i', 'c'] then
    some fun dev => .string dev.southTopic
  else if key.bytes = ascii ['n', 'o', 'r', 't', 'h', '_', 't', 'o', 'p', 'i', 'c'] then
    some fun dev => .string dev.northTopic
  else if key.bytes = ascii ['r', 'u', 'n', 'n', 'i', 'n', 'g'] then
    some fun dev => .boolean dev.running
  else none

/-- `l_device_index`. Other keys are looked up in the metatable. -/
def lDeviceIndex (dev : Option EDevice) (key : CStr) : Except LuaStop LuaField :=
  match deviceField key with
  | some read => (derefDevice dev).map read
  | none => .ok (.method key)

/-- Creation returns a running device without a callback, or follows the null pointer that
`e_common_create` returned. -/
theorem lDeviceCreate_cases (type : EDeviceType) (env : CreateEnv) (uid : CStr)
    (southUrl northUrl : Option CStr) :
    (env.Succeeds ∧ ∃ d : EDevice, d.running = true ∧ d.cb = none ∧
      lDeviceCreate type env uid southUrl northUrl = .ok d) ∨
    (¬env.Succeeds ∧
      lDeviceCreate type env uid southUrl northUrl = .error (.fault .nullDeref)) := by
  have hiff := eCommonCreate_isSome_iff env uid (southUrl.getD EZMB_DEFAULT_SOUTH_URL)
    (northUrl.getD EZMB_DEFAULT_NORTH_URL) none type
  rw [lDeviceCreate]
  cases hdevice : eCommonCreate env (some uid) (some (southUrl.getD EZMB_DEFAULT_SOUTH_URL))
      (some (northUrl.getD EZMB_DEFAULT_NORTH_URL)) none type with
  | none =>
      rw [hdevice] at hiff
      exact Or.inr ⟨fun henv => by simpa using hiff.mpr henv, rfl⟩
  | some d =>
      rw [hdevice] at hiff
      refine Or.inl ⟨hiff.mp rfl, { d with running := true }, rfl, ?_, rfl⟩
      exact (eCommonCreate_spec hdevice).2.2.1

/-- Reading a field follows the pointer, reading another key does not. -/
theorem lDeviceIndex_null_iff (dev : Option EDevice) (key : CStr) :
    lDeviceIndex dev key = .error (.fault .nullDeref) ↔ (deviceField key).isSome ∧ dev = none := by
  unfold lDeviceIndex
  cases deviceField key with
  | none => simp
  | some read => cases dev <;> simp [derefDevice, Except.map]

end LibEzmb
