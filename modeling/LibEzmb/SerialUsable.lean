import LibEzmb.SerialLine
import LibEzmb.SerialReference

/-! Whether the port layer can use what the parser accepts. The options check what the edits of a line
need, but for the rate. -/

open CBytes CLib

namespace LibEzmb

/-- A configuration with numbers in range is accepted on a working terminal exactly when its rate has a
constant. -/
theorem configureTerminal_iff {cfg : SerialConfig} (hcfg : cfg.InRange) (t : Termios) :
    (configureTerminal true true t cfg).1 = 0 ↔ getBaudConstant cfg.baudrate ≠ 0 := by
  constructor
  · intro hzero
    obtain ⟨bits, e, hbaud, -, -⟩ := configureTerminal_zero (Prod.ext hzero rfl)
    exact hbaud
  · intro hbaud
    obtain ⟨bits, e, hedits⟩ := exists_hasEdits hcfg.databits hcfg.parity
    rw [configureTerminal_edited hbaud hedits]

/-- The rate of the options has a constant exactly when that of the last `-b` has one. -/
theorem configAfter_baudrate (os : List Opt) :
    getBaudConstant (configAfter eSerialConfigInit os).baudrate ≠ 0 ↔
      ∀ arg, lastArg 'b' os = some arg → getBaudConstant (atoi arg) ≠ 0 := by
  have hdefault : getBaudConstant eSerialConfigInit.baudrate ≠ 0 := by decide
  rw [configAfter]
  cases lastArg 'b' os with
  | none => exact iff_of_true hdefault (by simp)
  | some arg => simp

/-- The copy is usable when what was copied is. -/
theorem eSerialConfigCopy_usable {env : CopyEnv} {c d : SerialConfig}
    (hcopy : eSerialConfigCopy env c = some d) (t : Termios) :
    configureTerminal true true t d = configureTerminal true true t c := by
  unfold eSerialConfigCopy at hcopy
  split at hcopy <;> cases hcopy
  rfl

/-- **Accepted and usable.** Without a file, each configuration that is queued is accepted by every
working terminal, exactly when nothing could be queued or the rate of the last `-b`, if there is one,
has a constant. -/
theorem usable_iff {J : Type} {json : JsonC J} {env : ParseEnv} {argv : List CStr}
    {queue pushed : List SerialConfig}
    (hnone : configFileOf env.okName 0 (optionsOf env argv) none = none)
    (hparse : eSerialConfigParse json env argv queue = .ok (.returns 0, queue ++ pushed)) :
    (∀ c ∈ pushed, ∀ t, (configureTerminal true true t c).1 = 0) ↔
      (env.copy.config = true → ∀ arg, lastArg 'b' (optionsOf env argv) = some arg →
        getBaudConstant (atoi arg) ≠ 0) := by
  obtain ⟨hrange, -, -, hqueue⟩ := parse_command hnone hparse
  rw [← configAfter_baudrate, List.append_cancel_left hqueue]
  cases hcopy : eSerialConfigCopy env.copy (configAfter eSerialConfigInit (optionsOf env argv)) with
  | none =>
      have hconfig : env.copy.config = false := by
        simpa [eSerialConfigCopy] using hcopy
      simp [hconfig]
  | some c =>
      have hconfig : env.copy.config = true := by
        by_contra hfalse
        simp [eSerialConfigCopy, hfalse] at hcopy
      constructor
      · intro hall _
        have hzero := hall c (List.mem_singleton_self c) ⟨0, 0, 0, 0, fun _ => 0, 0, 0⟩
        rw [eSerialConfigCopy_usable hcopy] at hzero
        exact (configureTerminal_iff hrange _).mp hzero
      · intro hbaud d hd t
        rw [List.mem_singleton.mp hd, eSerialConfigCopy_usable hcopy]
        exact (configureTerminal_iff hrange t).mpr (hbaud hconfig)

/-- The configuration of `-u a -D b -b 9600 -d 7 -p e -s 2` is accepted by every working terminal. -/
theorem usable_even : ∃ c,
    eSerialConfigParse sampleJson sampleEnv evenArgv [] = .ok (.returns 0, [] ++ [c]) ∧
      c.baudrate = 9600 ∧ c.databits = 7 ∧ c.parity = 'e' ∧ c.stopbits = 2 ∧
      ∀ t, (configureTerminal true true t c).1 = 0 := by
  obtain ⟨c, hparse, hbaud, hdata, hparity, hstop⟩ : ∃ c,
      eSerialConfigParse sampleJson sampleEnv evenArgv [] = .ok (.returns 0, [] ++ [c]) ∧
        c.baudrate = 9600 ∧ c.databits = 7 ∧ c.parity = 'e' ∧ c.stopbits = 2 :=
    ⟨_, rfl, rfl, rfl, rfl, rfl⟩
  have hrate : ∀ arg, lastArg 'b' (optionsOf sampleEnv evenArgv) = some arg →
      getBaudConstant (atoi arg) ≠ 0 := by
    intro arg harg
    cases harg
    decide
  have husable := (usable_iff rfl hparse).mpr fun _ => hrate
  exact ⟨c, hparse, hbaud, hdata, hparity, hstop, husable c (List.mem_singleton_self c)⟩

/-- `-u a -D b -b 12345` is accepted, and no terminal can be set up for it. -/
theorem usable_counterexample : ∃ c,
    eSerialConfigParse sampleJson sampleEnv (plainArgv ++ [.ofBytes [code '-', code 'b'],
      .ofBytes (['1', '2', '3', '4', '5'].map code)]) [] = .ok (.returns 0, [c]) ∧
        ∀ t, configureTerminal true true t c = (-1, t) :=
  ⟨_, rfl, fun _ => rfl⟩

end LibEzmb
