import Mathlib.Logic.Function.Basic
import LibEzmb.BaseBytes
import LibEzmb.BaseHeap
import LibEzmb.QueueModel

/-! The serial port of e_serialport.c: configuration, context, and the setting up of a terminal. The
flag words and speeds carry the values of the Linux headers. -/

open CHeap CBytes

namespace LibEzmb

/-- `serial_config_t`; a string that is not there is a null pointer. -/
structure SerialConfig where
  uid : Option CStr
  device : Option CStr
  baudrate : Int
  databits : Int
  stopbits : Int
  parity : Char
  minDelayMs : Int
  maxlen : Int
  timeoutMs : Int
  deriving DecidableEq

/-- `serial_context_t`, without its mutex. -/
structure SerialContext where
  fd : Int
  running : Bool
  recvCb : Option Addr
  ser : SerialConfig
  data : Ptr
  deriving DecidableEq

/-- `struct termios`. -/
structure Termios where
  iflag : BitVec 32
  oflag : BitVec 32
  cflag : BitVec 32
  lflag : BitVec 32
  cc : Nat → UInt8
  ispeed : Nat
  ospeed : Nat

def IGNBRK : BitVec 32 := 0x1
def BRKINT : BitVec 32 := 0x2
def PARMRK : BitVec 32 := 0x8
def ISTRIP : BitVec 32 := 0x20
def INLCR : BitVec 32 := 0x40
def IGNCR : BitVec 32 := 0x80
def ICRNL : BitVec 32 := 0x100
def IXON : BitVec 32 := 0x400
def IXANY : BitVec 32 := 0x800
def IXOFF : BitVec 32 := 0x1000
def OPOST : BitVec 32 := 0x1
def IBAUD0 : BitVec 32 := 0x80000000
def CBAUD : BitVec 32 := 0x100f
def CS5 : BitVec 32 := 0x0
def CS6 : BitVec 32 := 0x10
def CS7 : BitVec 32 := 0x20
def CS8 : BitVec 32 := 0x30
def CSIZE : BitVec 32 := 0x30
def CSTOPB : BitVec 32 := 0x40
def CREAD : BitVec 32 := 0x80
def PARENB : BitVec 32 := 0x100
def PARODD : BitVec 32 := 0x200
def CLOCAL : BitVec 32 := 0x800
def CRTSCTS : BitVec 32 := 0x80000000
def ISIG : BitVec 32 := 0x1
def ICANON : BitVec 32 := 0x2
def ECHO : BitVec 32 := 0x8
def ECHOE : BitVec 32 := 0x10
def ECHONL : BitVec 32 := 0x40
def IEXTEN : BitVec 32 := 0x8000
def VTIME : Nat := 5
def VMIN : Nat := 6

def cfmakeraw (t : Termios) : Termios :=
  { t with
    iflag := t.iflag &&& ~~~(IGNBRK ||| BRKINT ||| PARMRK ||| ISTRIP ||| INLCR ||| IGNCR ||| ICRNL
      ||| IXON)
    oflag := t.oflag &&& ~~~OPOST
    lflag := t.lflag &&& ~~~(ECHO ||| ECHONL ||| ICANON ||| ISIG ||| IEXTEN)
    cflag := (t.cflag &&& ~~~(CSIZE ||| PARENB)) ||| CS8
    cc := Function.update (Function.update t.cc VMIN 1) VTIME 0 }

/-- `speed_t` constants; `B0` is zero. -/
def getBaudConstant (baudrate : Int) : Nat :=
  match baudrate with
  | 50 => 0x1
  | 75 => 0x2
  | 110 => 0x3
  | 134 => 0x4
  | 150 => 0x5
  | 200 => 0x6
  | 300 => 0x7
  | 600 => 0x8
  | 1200 => 0x9
  | 1800 => 0xa
  | 2400 => 0xb
  | 4800 => 0xc
  | 9600 => 0xd
  | 19200 => 0xe
  | 38400 => 0xf
  | 57600 => 0x1001
  | 115200 => 0x1002
  | 230400 => 0x1003
  | 460800 => 0x1004
  | 500000 => 0x1005
  | 576000 => 0x1006
  | 921600 => 0x1007
  | 1000000 => 0x1008
  | 1152000 => 0x1009
  | 1500000 => 0x100a
  | 2000000 => 0x100b
  | 2500000 => 0x100c
  | 3000000 => 0x100d
  | 3500000 => 0x100e
  | 4000000 => 0x100f
  | _ => 0

/-- The C library keeps the one speed of both directions in `c_cflag`. -/
def cfsetospeed (t : Termios) (speed : Nat) : Termios :=
  { t with cflag := (t.cflag &&& ~~~CBAUD) ||| BitVec.ofNat 32 speed, ospeed := speed }

def cfsetispeed (t : Termios) (speed : Nat) : Termios :=
  if speed = 0 then { t with iflag := t.iflag ||| IBAUD0, ispeed := speed }
  else
    { t with
      iflag := t.iflag &&& ~~~IBAUD0
      cflag := (t.cflag &&& ~~~CBAUD) ||| BitVec.ofNat 32 speed
      ispeed := speed }

def databitsFlag (databits : Int) : Option (BitVec 32) :=
  match databits with
  | 5 => some CS5
  | 6 => some CS6
  | 7 => some CS7
  | 8 => some CS8
  | _ => none

def setParity (parity : Char) (cflag : BitVec 32) : Option (BitVec 32) :=
  match parity with
  | 'n' | 'N' => some (cflag &&& ~~~PARENB)
  | 'o' | 'O' => some (cflag ||| PARENB ||| PARODD)
  | 'e' | 'E' => some ((cflag ||| PARENB) &&& ~~~PARODD)
  | _ => none

/-- `serial_configure`, given what `tcgetattr` stores and whether `tcsetattr` succeeds: the settings
of the terminal when it returns 0, none when it returns -1. -/
def serialConfigure (attrs : Option Termios) (okSet : Bool) (cfg : SerialConfig) :
    Option Termios := do
  let options ← attrs
  let options := cfmakeraw options
  let baud := getBaudConstant cfg.baudrate
  if baud = 0 then none
  else
    let options := cfsetospeed (cfsetispeed options baud) baud
    let bits ← databitsFlag cfg.databits
    let cflag := (options.cflag &&& ~~~CSIZE) ||| bits
    let cflag ← setParity cfg.parity cflag
    let cflag := if cfg.stopbits = 2 then cflag ||| CSTOPB else cflag &&& ~~~CSTOPB
    let options := { options with
      cflag := (cflag ||| (CLOCAL ||| CREAD)) &&& ~~~CRTSCTS
      iflag := options.iflag &&& ~~~(IXON ||| IXOFF ||| IXANY) &&& ~~~(INLCR ||| ICRNL)
      oflag := options.oflag &&& ~~~OPOST
      lflag := options.lflag &&& ~~~(ICANON ||| ECHO ||| ECHOE ||| ISIG)
      cc := Function.update (Function.update options.cc VMIN 0) VTIME 0 }
    if okSet then some options else none

/-! ### Descriptors -/

/-- One successful `open`, numbered, with the context it was made for. -/
structure Opening where
  serial : Nat
  port : Addr
  deriving DecidableEq, Repr

/-- What the library has opened and not closed, how often it has opened anything, and how many of
its `close` calls were on a descriptor that was not open. -/
structure Kernel where
  files : Int → Option Opening
  opened : Nat
  ebadf : Nat

namespace Kernel

def start : Kernel := ⟨fun _ => none, 0, 0⟩

/-- `open` for a context, with the number it would answer; it only grants one that is not open. -/
def openFile (k : Kernel) (port : Addr) (answer : Option Nat) : Kernel × Int :=
  match answer with
  | none => (k, -1)
  | some n =>
      if (k.files n).isSome then (k, -1)
      else
        ({ k with files := Function.update k.files n (some ⟨k.opened, port⟩), opened := k.opened + 1 },
          (n : Int))

def closeFile (k : Kernel) (fd : Int) : Kernel :=
  match k.files fd with
  | none => { k with ebadf := k.ebadf + 1 }
  | some _ => { k with files := Function.update k.files fd none }

end Kernel

/-- What the calls of `serial_open`, and the `access` before it, give for one port. -/
structure OpenEnv where
  access : Bool
  answer : Option Nat
  attrs : Option Termios
  okSet : Bool

/-- `serial_close`, with the descriptor it leaves. -/
def serialClose (k : Kernel) (fd : Int) : Kernel × Int :=
  if 0 ≤ fd then (k.closeFile fd, -1) else (k, fd)

/-- `serial_open` for a context. -/
def serialOpen (k : Kernel) (port : Addr) (env : OpenEnv) (cfg : SerialConfig) : Kernel × Int :=
  let (k, fd) := k.openFile port env.answer
  if fd < 0 then (k, -1)
  else
    match serialConfigure env.attrs env.okSet cfg with
    | none => ((serialClose k fd).1, -1)
    | some _ => (k, fd)

theorem Kernel.openFile_refused {k : Kernel} {n : Nat} {o : Opening} (port : Addr)
    (hopen : k.files n = some o) : k.openFile port (some n) = (k, -1) := by
  simp only [openFile, hopen, Option.isSome_some, if_true]

theorem Kernel.openFile_granted {k : Kernel} {n : Nat} (port : Addr) (hfree : k.files n = none) :
    k.openFile port (some n) =
      ({ k with files := Function.update k.files n (some ⟨k.opened, port⟩), opened := k.opened + 1 },
        (n : Int)) := by
  simp only [openFile, hfree, Option.isSome_none, Bool.false_eq_true, if_false]

/-- Closing one number leaves the others. -/
theorem closeFile_files_of_ne {k : Kernel} {fd fd' : Int} (hne : fd' ≠ fd) :
    (k.closeFile fd).files fd' = k.files fd' := by
  unfold Kernel.closeFile
  cases k.files fd with
  | none => rfl
  | some o => exact Function.update_of_ne hne _ _

/-- `serial_open` returns a descriptor that was not open before, or leaves open what was. -/
theorem serialOpen_cases (k : Kernel) (port : Addr) (env : OpenEnv) (cfg : SerialConfig) :
    (∃ n : Nat, env.answer = some n ∧ (serialConfigure env.attrs env.okSet cfg).isSome ∧
      k.files n = none ∧
      serialOpen k port env cfg = ({ k with
        files := Function.update k.files n (some ⟨k.opened, port⟩), opened := k.opened + 1 },
        (n : Int))) ∨
    ∃ opened, serialOpen k port env cfg = ({ k with opened := opened }, (-1 : Int)) := by
  cases hanswer : env.answer with
  | none => exact Or.inr ⟨k.opened, by simp [serialOpen, hanswer, Kernel.openFile]⟩
  | some n =>
      have hpos : ¬(n : Int) < 0 := Int.not_lt.mpr (Int.natCast_nonneg n)
      cases hfree : k.files n with
      | some o =>
          exact Or.inr ⟨k.opened, by simp [serialOpen, hanswer, Kernel.openFile_refused port hfree]⟩
      | none =>
          simp only [serialOpen, hanswer, Kernel.openFile_granted port hfree, if_neg hpos]
          cases hconf : serialConfigure env.attrs env.okSet cfg with
          | some t => exact Or.inl ⟨n, rfl, rfl, hfree, rfl⟩
          | none =>
              -- closing what was just opened restores the table
              refine Or.inr ⟨k.opened + 1, ?_⟩
              simp only [serialClose, Int.natCast_nonneg, if_true, Kernel.closeFile,
                Function.update_self, Function.update_idem]
              rw [← hfree, Function.update_eq_self]

end LibEzmb
