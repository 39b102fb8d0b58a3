import LibEzmb.BaseMask
import LibEzmb.SerialConfigs

/-! What `serial_configure` makes of a line. Each flag word of the terminal is edited, the edit being
that of the configuration whatever was there before; one bit that decides the parity and two that
decide what becomes of bytes with errors are in no edit. -/

open Masks

namespace LibEzmb

def iflagEdit : Edit 32 :=
  ((((Edit.clear (IGNBRK ||| BRKINT ||| PARMRK ||| ISTRIP ||| INLCR ||| IGNCR ||| ICRNL
    ||| IXON)).andThen (.clear IBAUD0)).andThen (.clear (IXON ||| IXOFF ||| IXANY))).andThen
      (.clear (INLCR ||| ICRNL)))

def oflagEdit : Edit 32 := (Edit.clear OPOST).andThen (.clear OPOST)

def lflagEdit : Edit 32 :=
  (Edit.clear (ECHO ||| ECHONL ||| ICANON ||| ISIG ||| IEXTEN)).andThen
    (.clear (ICANON ||| ECHO ||| ECHOE ||| ISIG))

def speedEdit (speed : Nat) : Edit 32 := .write CBAUD (BitVec.ofNat 32 speed)

def databitsEdit (bits : BitVec 32) : Edit 32 := .write CSIZE bits

def parityEdit (parity : Char) : Option (Edit 32) :=
  match parity with
  | 'n' | 'N' => some (.clear PARENB)
  | 'o' | 'O' => some ((Edit.set PARENB).andThen (.set PARODD))
  | 'e' | 'E' => some ((Edit.set PARENB).andThen (.clear PARODD))
  | _ => none

def stopbitsEdit (stopbits : Int) : Edit 32 := if stopbits = 2 then .set CSTOPB else .clear CSTOPB

def modemEdit : Edit 32 := (Edit.set (CLOCAL ||| CREAD)).andThen (.clear CRTSCTS)

def rawEdit : Edit 32 := (Edit.clear (CSIZE ||| PARENB)).andThen (.set CS8)

/-- The edit of the control flags, after that of `cfmakeraw`. -/
def controlEdit (speed : Nat) (bits : BitVec 32) (parity : Edit 32) (stopbits : Int) : Edit 32 :=
  (((((speedEdit speed).andThen (speedEdit speed)).andThen (databitsEdit bits)).andThen
    parity).andThen (stopbitsEdit stopbits)).andThen modemEdit

/-- The settings of a terminal after the edits. -/
def Termios.edited (t : Termios) (speed : Nat) (bits : BitVec 32) (parity : Edit 32)
    (stopbits : Int) : Termios where
  iflag := iflagEdit.run t.iflag
  oflag := oflagEdit.run t.oflag
  cflag := (rawEdit.andThen (controlEdit speed bits parity stopbits)).run t.cflag
  lflag := lflagEdit.run t.lflag
  cc := Function.update (Function.update t.cc VMIN 0) VTIME 0
  ispeed := speed
  ospeed := speed

theorem setParity_eq (parity : Char) (cflag : BitVec 32) :
    setParity parity cflag = (parityEdit parity).map fun e => e.run cflag := by
  unfold setParity parityEdit
  split <;> simp

theorem cc_edited (cc : Nat → UInt8) (vmin : UInt8) :
    Function.update (Function.update (Function.update (Function.update cc VMIN vmin) VTIME 0) VMIN 0)
      VTIME 0 = Function.update (Function.update cc VMIN 0) VTIME 0 := by
  rw [Function.update_comm (show VTIME ≠ VMIN by decide) 0 0, Function.update_idem,
    Function.update_idem]

/-- The settings that are written when every step is passed. -/
theorem serialConfigure_edited {t : Termios} {cfg : SerialConfig} {bits : BitVec 32}
    {parity : Edit 32} (hbaud : getBaudConstant cfg.baudrate ≠ 0)
    (hbits : databitsFlag cfg.databits = some bits) (hparity : parityEdit cfg.parity = some parity) :
    serialConfigure (some t) true cfg =
      some (t.edited (getBaudConstant cfg.baudrate) bits parity cfg.stopbits) := by
  have hstop (cflag : BitVec 32) : (if cfg.stopbits = 2 then cflag ||| CSTOPB
      else cflag &&& ~~~CSTOPB) = (stopbitsEdit cfg.stopbits).run cflag := by
    rw [stopbitsEdit]
    split
    · exact (Edit.run_set _ _).symm
    · exact (Edit.run_clear _ _).symm
  simp only [serialConfigure, Option.bind_eq_bind, Option.bind_some, if_neg hbaud, hbits,
    setParity_eq, hparity, Option.map_some, hstop, if_true, cfsetospeed, cfsetispeed, cfmakeraw,
    cc_edited, Termios.edited, iflagEdit, oflagEdit, lflagEdit, rawEdit, controlEdit, speedEdit,
    databitsEdit, modemEdit, Edit.run_andThen, Edit.run_clear, Edit.run_set, Edit.run_write]

/-- **The edits are what the code does**: it returns 0 exactly when the calls succeed and the
configuration has edits, and then the terminal has been edited. -/
theorem serialConfigure_eq_some_iff {attrs : Option Termios} {okSet : Bool} {cfg : SerialConfig}
    {t' : Termios} :
    serialConfigure attrs okSet cfg = some t' ↔
      ∃ t bits parity, attrs = some t ∧ okSet = true ∧ getBaudConstant cfg.baudrate ≠ 0 ∧
        databitsFlag cfg.databits = some bits ∧ parityEdit cfg.parity = some parity ∧
        t' = t.edited (getBaudConstant cfg.baudrate) bits parity cfg.stopbits := by
  constructor
  · intro hset
    cases attrs with
    | none => cases hset
    | some t =>
        by_cases hbaud : getBaudConstant cfg.baudrate = 0
        · simp [serialConfigure, hbaud] at hset
        · cases hbits : databitsFlag cfg.databits with
          | none => simp [serialConfigure, hbaud, hbits] at hset
          | some bits =>
              cases hparity : parityEdit cfg.parity with
              | none => simp [serialConfigure, hbaud, hbits, setParity_eq, hparity] at hset
              | some parity =>
                  cases okSet with
                  | false => simp [serialConfigure, hbaud, hbits, setParity_eq, hparity] at hset
                  | true =>
                      rw [serialConfigure_edited hbaud hbits hparity] at hset
                      exact ⟨t, bits, parity, rfl, rfl, hbaud, rfl, rfl, (Option.some.inj hset).symm⟩
  · rintro ⟨t, bits, parity, rfl, rfl, hbaud, hbits, hparity, rfl⟩
    exact serialConfigure_edited hbaud hbits hparity

/-! ### The settings of a line -/

/-- The two parts of the edit that a configuration may lack. -/
structure SerialConfig.HasEdits (cfg : SerialConfig) (bits : BitVec 32) (e : Edit 32) : Prop where
  databits : databitsFlag cfg.databits = some bits
  parity : parityEdit cfg.parity = some e

section Control

variable {cfg : SerialConfig} {bits : BitVec 32} {e : Edit 32}

end Control

/-! ### Calls on a terminal -/

/-- `serial_configure` on a terminal with these settings: what it returns, and the settings it
leaves. -/
def configureTerminal (okGet okSet : Bool) (t : Termios) (cfg : SerialConfig) : Int × Termios :=
  match serialConfigure (if okGet then some t else none) okSet cfg with
  | none => (-1, t)
  | some options => (0, options)

theorem configureTerminal_zero {okGet okSet : Bool} {t t' : Termios} {cfg : SerialConfig}
    (hzero : configureTerminal okGet okSet t cfg = (0, t')) :
    ∃ bits e, getBaudConstant cfg.baudrate ≠ 0 ∧ cfg.HasEdits bits e ∧
      t' = t.edited (getBaudConstant cfg.baudrate) bits e cfg.stopbits := by
  unfold configureTerminal at hzero
  split at hzero
  · cases hzero
  · next options hset =>
      cases hzero
      obtain ⟨t₀, bits, e, hget, -, hbaud, hbits, hparity, rfl⟩ := serialConfigure_eq_some_iff.mp hset
      obtain ⟨-, ht₀⟩ : okGet = true ∧ t = t₀ := by simpa using hget
      exact ⟨bits, e, hbaud, ⟨hbits, hparity⟩, by rw [ht₀]⟩

theorem configureTerminal_edited {t : Termios} {cfg : SerialConfig} {bits : BitVec 32} {e : Edit 32}
    (hbaud : getBaudConstant cfg.baudrate ≠ 0) (hedits : cfg.HasEdits bits e) :
    configureTerminal true true t cfg =
      (0, t.edited (getBaudConstant cfg.baudrate) bits e cfg.stopbits) := by
  rw [configureTerminal, if_pos rfl, serialConfigure_edited hbaud hedits.databits hedits.parity]

/-- Data bits and a parity that the options accept have their edits. -/
theorem exists_hasEdits {cfg : SerialConfig} (hdatabits : 5 ≤ cfg.databits ∧ cfg.databits ≤ 8)
    (hparity : ParityKnown cfg.parity) : ∃ bits e, cfg.HasEdits bits e := by
  obtain ⟨bits, hbits⟩ : ∃ bits, databitsFlag cfg.databits = some bits := by
    obtain h | h | h | h : cfg.databits = 5 ∨ cfg.databits = 6 ∨ cfg.databits = 7 ∨
      cfg.databits = 8 := by omega
    all_goals exact ⟨_, by rw [h]; rfl⟩
  obtain ⟨e, he⟩ : ∃ e, parityEdit cfg.parity = some e := by
    rcases hparity with h | h | h
    all_goals exact ⟨_, by rw [h]; rfl⟩
  exact ⟨bits, e, hbits, he⟩

end LibEzmb
