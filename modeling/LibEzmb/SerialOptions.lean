import LibEzmb.BaseCLib
import LibEzmb.BaseLoop
import LibEzmb.SerialPort

/-! The configurations of e_serial_config.c: one from the options of the command line, which checks
each of them, or one from each item of a JSON file, which checks none. -/

open CHeap CBytes CLib

namespace LibEzmb

def DEFAULT_BUF_MAX : Int := 1024
def DEFAULT_SERIAL_BAUDRATE : Int := 115200
def DEFAULT_SERIAL_REV_TIMEOUT : Int := 100

def eSerialConfigInit : SerialConfig where
  uid := none
  device := none
  baudrate := DEFAULT_SERIAL_BAUDRATE
  databits := 8
  stopbits := 1
  parity := 'n'
  minDelayMs := 0
  maxlen := DEFAULT_BUF_MAX
  timeoutMs := DEFAULT_SERIAL_REV_TIMEOUT

/-- Whether there is memory for a configuration and the copies of its two strings. -/
structure CopyEnv where
  config : Bool
  uid : Bool
  device : Bool

def eSerialConfigCopy (env : CopyEnv) (src : SerialConfig) : Option SerialConfig :=
  if !env.config then none
  else some { src with
    uid := if env.uid then src.uid else none
    device := if env.device then src.device else none }

/-- `tolower(s[0])`, as it is stored in a `char`. -/
def parityChar (s : Bytes) : Char := Char.ofNat (tolower (s.headD 0)).toNat

/-! ### The JSON file -/

/-- What e_serial_config.c uses of json-c. A JSON `null` is a null pointer. -/
structure JsonC (J : Type) where
  tokenerParse : CStr → Option J
  objectGetEx : Option J → List Char → Option (Option J)
  isArray : Option J → Bool
  arrayLength : Option J → Nat
  arrayGetIdx : Option J → Nat → Option J
  getString : Option J → Option CStr
  getInt : Option J → Int

section Json

variable {J : Type} (json : JsonC J)

/-- `strdup(json_object_get_string(j))`. -/
def strdupJson (ok : Bool) (j : Option J) : Except Fault (Option CStr) :=
  match json.getString j with
  | none => .error .nullDeref
  | some s => .ok (if ok then some s else none)

/-- The string under a key, or what was there. -/
def stringField (ok : Bool) (item : Option J) (key : List Char) (old : Option CStr) :
    Except Fault (Option CStr) :=
  match json.objectGetEx item key with
  | none => .ok old
  | some j => strdupJson json ok j

/-- The number under a key, or what was there. -/
def intField (item : Option J) (key : List Char) (old : Int) : Int :=
  match json.objectGetEx item key with
  | none => old
  | some j => json.getInt j

def parityField (item : Option J) (old : Char) : Char :=
  match json.objectGetEx item ['p', 'a', 'r', 'i', 't', 'y'] with
  | none => old
  | some j => match json.getString j with
    | none => old
    | some s => parityChar s.bytes

/-- The body of the loop over the array: the configuration it pushes, if any. -/
def loadItem (env : CopyEnv) (item : Option J) : Except Fault (Option SerialConfig) :=
  if !env.config then .ok none
  else do
    let init := eSerialConfigInit
    let uid ← stringField json env.uid item ['u', 'i', 'd'] init.uid
    let device ← stringField json env.device item ['d', 'e', 'v', 'i', 'c', 'e'] init.device
    let config : SerialConfig :=
      { uid := uid
        device := device
        baudrate := intField json item ['b', 'a', 'u', 'd'] init.baudrate
        databits := intField json item ['d', 'a', 't', 'a', 'b', 'i', 't', 's'] init.databits
        stopbits := intField json item ['s', 't', 'o', 'p', 'b', 'i', 't', 's'] init.stopbits
        parity := parityField json item init.parity
        minDelayMs := intField json item ['m', 'i', 'n', 'd', 'e', 'l', 'a', 'y'] init.minDelayMs
        maxlen := intField json item ['m', 'a', 'x', 'l', 'e', 'n'] init.maxlen
        timeoutMs := intField json item ['t', 'i', 'm', 'e', 'o', 'u', 't'] init.timeoutMs }
    .ok (if config.device.isNone then none else some config)

/-- A file that can be opened: what `ftell` answers at its end, whether there is memory for its text,
and what can be read of it. -/
structure ConfigFile where
  len : Int
  okText : Bool
  content : Bytes

/-- What is read of the file, a negative length being a huge one: it does not fit the buffer. -/
def ConfigFile.read (file : ConfigFile) : Except Fault Bytes :=
  if file.len < 0 then
    if file.content = [] then .ok [] else .error .dangling
  else .ok (file.content.take file.len.toNat)

/-- The `ports` array of a file, if the file gets so far. -/
def portsOf (file : ConfigFile) : Except Fault (Option (Option J)) :=
  if !file.okText then .ok none
  else do
    let text ← file.read
    if toInt text.length ≠ file.len then .ok none
    else
      match json.tokenerParse (.ofBytes text) with
      | none => .ok none
      | some root =>
          match json.objectGetEx (some root) ['p', 'o', 'r', 't', 's'] with
          | none => .ok none
          | some ports => .ok (if json.isArray ports then some ports else none)

/-- `array_len`. -/
def arrayLen (ports : Option J) : Nat := (toInt (json.arrayLength ports)).toNat

/-- One round of the loop over the array. -/
def pushItem (env : Nat → CopyEnv) (ports : Option J) (queue : List SerialConfig) (i : Nat) :
    Except Fault (List SerialConfig) := do
  let config ← loadItem json (env i) (json.arrayGetIdx ports i)
  .ok (queue ++ config.toList)

def eSerialConfigLoadJson (env : Nat → CopyEnv) (file : Option ConfigFile)
    (queue : List SerialConfig) : Except Fault (Int × List SerialConfig) :=
  match file with
  | none => .ok (-1, queue)
  | some file => do
      match ← portsOf json file with
      | none => .ok (-1, queue)
      | some ports => do
          let queue ← (List.range (arrayLen json ports)).foldlM (pushItem json env ports) queue
          .ok (0, queue)

end Json

/-! ### The command line -/

/-- `"u:D:b:d:s:p:m:l:t:C:h"` and `long_options`. -/
def serialOptions : OptionTable where
  short := [('u', true), ('D', true), ('b', true), ('d', true), ('s', true), ('p', true),
    ('m', true), ('l', true), ('t', true), ('C', true), ('h', false)]
  long := [⟨['u', 'i', 'd'], true, 'u'⟩, ⟨['d', 'e', 'v', 'i', 'c', 'e'], true, 'D'⟩,
    ⟨['b', 'a', 'u', 'd'], true, 'b'⟩, ⟨['d', 'a', 't', 'a', 'b', 'i', 't', 's'], true, 'd'⟩,
    ⟨['s', 't', 'o', 'p', 'b', 'i', 't', 's'], true, 's'⟩,
    ⟨['p', 'a', 'r', 'i', 't', 'y'], true, 'p'⟩,
    ⟨['m', 'i', 'n', 'd', 'e', 'l', 'a', 'y'], true, 'm'⟩,
    ⟨['m', 'a', 'x', 'l', 'e', 'n'], true, 'l'⟩, ⟨['t', 'i', 'm', 'e', 'o', 'u', 't'], true, 't'⟩,
    ⟨['c', 'o', 'n', 'f', 'i', 'g'], true, 'C'⟩, ⟨['h', 'e', 'l', 'p'], false, 'h'⟩]

/-- Where an option leaves the loop: it goes on, or the function returns -1, or the program ends. -/
inductive OptionResult where
  | next (config : SerialConfig) (configFile : Option CStr)
  | fails
  | exits (status : Int)

/-- The body of the loop over the options. -/
def handleOption (okName : Bool) (config : SerialConfig) (configFile : Option CStr) :
    Opt → OptionResult
  | .opt 'u' (some arg) => .next { config with uid := some (.ofBytes arg) } configFile
  | .opt 'D' (some arg) => .next { config with device := some (.ofBytes arg) } configFile
  | .opt 'b' (some arg) => .next { config with baudrate := atoi arg } configFile
  | .opt 'd' (some arg) =>
      if atoi arg < 5 ∨ 8 < atoi arg then .fails
      else .next { config with databits := atoi arg } configFile
  | .opt 's' (some arg) =>
      if atoi arg ≠ 1 ∧ atoi arg ≠ 2 then .fails
      else .next { config with stopbits := atoi arg } configFile
  | .opt 'p' (some arg) =>
      if parityChar arg ≠ 'n' ∧ parityChar arg ≠ 'e' ∧ parityChar arg ≠ 'o' then .fails
      else .next { config with parity := parityChar arg } configFile
  | .opt 'm' (some arg) =>
      if atoi arg < 0 then .fails else .next { config with minDelayMs := atoi arg } configFile
  | .opt 'l' (some arg) =>
      if atoi arg ≤ 0 then .fails else .next { config with maxlen := atoi arg } configFile
  | .opt 't' (some arg) =>
      if atoi arg ≤ 0 then .fails else .next { config with timeoutMs := atoi arg } configFile
  | .opt 'C' (some arg) => .next config (if okName then some (.ofBytes arg) else none)
  | .opt 'h' _ => .exits 0
  | _ => .fails

/-- The loop over the options, from the one with number `i` on. -/
def handleOptions (okName : Nat → Bool) : Nat → List Opt → SerialConfig → Option CStr → OptionResult
  | _, [], config, configFile => .next config configFile
  | i, o :: os, config, configFile =>
      match handleOption (okName i) config configFile o with
      | .next config configFile => handleOptions okName (i + 1) os config configFile
      | result => result

/-- What the system gives the parser: memory for the name of the file at each option, for the copy and
for each item; the files; and whether the environment asks for the POSIX order of arguments. -/
structure ParseEnv where
  okName : Nat → Bool
  copy : CopyEnv
  item : Nat → CopyEnv
  file : CStr → Option ConfigFile
  posixlyCorrect : Bool

inductive ParseResult where
  | returns (r : Int)
  | exits (status : Int)
  deriving DecidableEq, Repr

/-- The options of an argument vector. -/
def optionsOf (env : ParseEnv) (argv : List CStr) : List Opt :=
  serialOptions.getoptLong env.posixlyCorrect none (argv.tail.map CStr.bytes)

def eSerialConfigParse {J : Type} (json : JsonC J) (env : ParseEnv) (argv : List CStr)
    (queue : List SerialConfig) : Except Fault (ParseResult × List SerialConfig) :=
  match handleOptions env.okName 0 (optionsOf env argv) eSerialConfigInit none with
  | .fails => .ok (.returns (-1), queue)
  | .exits status => .ok (.exits status, queue)
  | .next _ (some configFile) => do
      let (r, queue) ← eSerialConfigLoadJson json env.item (env.file configFile) queue
      .ok (.returns (if r ≠ 0 then -1 else 0), queue)
  | .next config none =>
      if config.device.isSome && config.uid.isSome then
        .ok (.returns 0, queue ++ (eSerialConfigCopy env.copy config).toList)
      else .ok (.exits 1, queue)

end LibEzmb
