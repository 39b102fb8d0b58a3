import LibEzmb.SerialOptions

/-! Which configurations get into the queue: those of the command line are valid, those of a file are
what the file says. -/

open CHeap CBytes CLib

namespace LibEzmb

def ParityKnown (c : Char) : Prop := c = 'n' ∨ c = 'e' ∨ c = 'o'

/-- What the options check. -/
structure SerialConfig.InRange (c : SerialConfig) : Prop where
  databits : 5 ≤ c.databits ∧ c.databits ≤ 8
  stopbits : c.stopbits = 1 ∨ c.stopbits = 2
  parity : ParityKnown c.parity
  minDelayMs : 0 ≤ c.minDelayMs
  maxlen : 0 < c.maxlen
  timeoutMs : 0 < c.timeoutMs

/-- What the code that uses a configuration relies on. -/
structure SerialConfig.Valid (c : SerialConfig) : Prop extends c.InRange where
  uid : c.uid ≠ none
  device : c.device ≠ none

theorem eSerialConfigInit_inRange : eSerialConfigInit.InRange where
  databits := by decide
  stopbits := Or.inl rfl
  parity := Or.inl rfl
  minDelayMs := by decide
  maxlen := by decide
  timeoutMs := by decide

/-! ### The command line -/

/-- The name of the file after these options: that of the last `-C`, if there was memory for it. -/
def configFileOf (okName : Nat → Bool) : Nat → List Opt → Option CStr → Option CStr
  | _, [], file => file
  | i, .opt 'C' (some arg) :: os, _ =>
      configFileOf okName (i + 1) os (if okName i then some (.ofBytes arg) else none)
  | i, _ :: os, file => configFileOf okName (i + 1) os file

/-- An option that is accepted leaves the numbers in range. -/
theorem handleOption_next {okName : Nat → Bool} {i : Nat} {c c' : SerialConfig}
    {file file' : Option CStr} {o : Opt} (hnext : handleOption (okName i) c file o = .next c' file') :
    (c.InRange → c'.InRange) ∧
      ∀ os, configFileOf okName i (o :: os) file = configFileOf okName (i + 1) os file' := by
  unfold handleOption at hnext
  split at hnext
  · cases hnext
    exact ⟨fun hc => { hc with }, fun _ => rfl⟩
  · cases hnext
    exact ⟨fun hc => { hc with }, fun _ => rfl⟩
  · cases hnext
    exact ⟨fun hc => { hc with }, fun _ => rfl⟩
  · split at hnext
    · cases hnext
    · cases hnext
      exact ⟨fun hc => { hc with databits := by dsimp only; omega }, fun _ => rfl⟩
  · split at hnext
    · cases hnext
    · cases hnext
      exact ⟨fun hc => { hc with stopbits := by dsimp only; omega }, fun _ => rfl⟩
  · split at hnext
    · cases hnext
    · next hparity =>
        cases hnext
        exact ⟨fun hc => { hc with parity := by unfold ParityKnown; tauto }, fun _ => rfl⟩
  · split at hnext
    · cases hnext
    · cases hnext
      exact ⟨fun hc => { hc with minDelayMs := by dsimp only; omega }, fun _ => rfl⟩
  · split at hnext
    · cases hnext
    · cases hnext
      exact ⟨fun hc => { hc with maxlen := by dsimp only; omega }, fun _ => rfl⟩
  · split at hnext
    · cases hnext
    · cases hnext
      exact ⟨fun hc => { hc with timeoutMs := by dsimp only; omega }, fun _ => rfl⟩
  · cases hnext
    exact ⟨id, fun _ => rfl⟩
  · cases hnext
  · cases hnext

/-- The options go through one by one. -/
theorem handleOptions_cons {okName : Nat → Bool} {i : Nat} {o : Opt} {os : List Opt}
    {c c' : SerialConfig} {file file' : Option CStr}
    (hnext : handleOptions okName i (o :: os) c file = .next c' file') :
    ∃ d file₁, handleOption (okName i) c file o = .next d file₁ ∧
      handleOptions okName (i + 1) os d file₁ = .next c' file' := by
  rw [handleOptions] at hnext
  cases hoption : handleOption (okName i) c file o with
  | next d file₁ =>
      rw [hoption] at hnext
      exact ⟨d, file₁, rfl, hnext⟩
  | fails =>
      rw [hoption] at hnext
      cases hnext
  | exits status =>
      rw [hoption] at hnext
      cases hnext

theorem handleOptions_next {okName : Nat → Bool} {i : Nat} {os : List Opt} {c c' : SerialConfig}
    {file file' : Option CStr} (hnext : handleOptions okName i os c file = .next c' file')
    (hc : c.InRange) : c'.InRange ∧ file' = configFileOf okName i os file := by
  induction os generalizing i c file with
  | nil =>
      cases hnext
      exact ⟨hc, rfl⟩
  | cons o os ih =>
      obtain ⟨d, file₁, hoption, hrest⟩ := handleOptions_cons hnext
      obtain ⟨hrange, hfile⟩ := handleOption_next hoption
      obtain ⟨hc', hfile'⟩ := ih hrest (hrange hc)
      exact ⟨hc', hfile'.trans (hfile os).symm⟩

/-- The copy is valid exactly when there was memory for its strings. -/
theorem eSerialConfigCopy_valid_iff {env : CopyEnv} {c : SerialConfig} (hc : c.InRange)
    (huid : c.uid ≠ none) (hdevice : c.device ≠ none) :
    (∀ d ∈ (eSerialConfigCopy env c).toList, d.Valid) ↔
      (env.config = true → env.uid = true ∧ env.device = true) := by
  unfold eSerialConfigCopy
  cases env.config with
  | false => simp
  | true =>
      simp only [Bool.not_true, Bool.false_eq_true, if_false, Option.toList_some,
        List.forall_mem_singleton, forall_const]
      constructor
      · intro hvalid
        refine ⟨?_, ?_⟩
        · by_contra hfails
          exact hvalid.uid (if_neg hfails)
        · by_contra hfails
          exact hvalid.device (if_neg hfails)
      · rintro ⟨hokUid, hokDevice⟩
        simp only [hokUid, hokDevice, if_true]
        exact { hc with uid := huid, device := hdevice }

/-! ### The JSON file -/

section Json

variable {J : Type} {json : JsonC J} {env : CopyEnv} {item : Option J}

/-- If the item has a value under the key, its number passes. -/
def NumberIn (json : JsonC J) (item : Option J) (key : List Char) (p : Int → Prop) : Prop :=
  ∀ j, json.objectGetEx item key = some j → p (json.getInt j)

/-- The item has a uid, and every other value it has is one that the options would accept. -/
structure GoodItem (json : JsonC J) (env : CopyEnv) (item : Option J) : Prop where
  uid : (json.objectGetEx item ['u', 'i', 'd']).isSome = true ∧ env.uid = true
  databits : NumberIn json item ['d', 'a', 't', 'a', 'b', 'i', 't', 's'] fun n => 5 ≤ n ∧ n ≤ 8
  stopbits : NumberIn json item ['s', 't', 'o', 'p', 'b', 'i', 't', 's'] fun n => n = 1 ∨ n = 2
  parity : ∀ j s, json.objectGetEx item ['p', 'a', 'r', 'i', 't', 'y'] = some j →
    json.getString j = some s → ParityKnown (parityChar s.bytes)
  minDelayMs : NumberIn json item ['m', 'i', 'n', 'd', 'e', 'l', 'a', 'y'] fun n => 0 ≤ n
  maxlen : NumberIn json item ['m', 'a', 'x', 'l', 'e', 'n'] fun n => 0 < n
  timeoutMs : NumberIn json item ['t', 'i', 'm', 'e', 'o', 'u', 't'] fun n => 0 < n

/-- The item names a device, and there is memory for a configuration with that name. -/
def HasDevice (json : JsonC J) (env : CopyEnv) (item : Option J) : Prop :=
  env.config = true ∧ env.device = true ∧
    (json.objectGetEx item ['d', 'e', 'v', 'i', 'c', 'e']).isSome = true

theorem stringField_spec {ok : Bool} {key : List Char} {s : Option CStr}
    (hfield : stringField json ok item key none = .ok s) :
    s ≠ none ↔ (json.objectGetEx item key).isSome = true ∧ ok = true := by
  unfold stringField strdupJson at hfield
  split at hfield
  · next hnone =>
      cases hfield
      simp [hnone]
  · next j hj =>
      split at hfield
      · cases hfield
      · cases hfield
        cases ok <;> simp [hj]

theorem intField_iff {key : List Char} {old : Int} {p : Int → Prop} (hold : p old) :
    p (intField json item key old) ↔ NumberIn json item key p := by
  unfold intField NumberIn
  cases hfield : json.objectGetEx item key with
  | none => simp [hold]
  | some j => simp

theorem parityField_iff {old : Char} (hold : ParityKnown old) :
    ParityKnown (parityField json item old) ↔
      ∀ j s, json.objectGetEx item ['p', 'a', 'r', 'i', 't', 'y'] = some j →
        json.getString j = some s → ParityKnown (parityChar s.bytes) := by
  unfold parityField
  split
  · next hnone => simp [hnone, hold]
  · next j hj =>
      split
      · next hnone =>
          refine iff_of_true hold fun j' s hj' hs => ?_
          rw [hj] at hj'
          cases hj'
          rw [hnone] at hs
          cases hs
      · next s hs =>
          refine ⟨fun hparity j' s' hj' hs' => ?_, fun hall => hall j s hj hs⟩
          rw [hj] at hj'
          cases hj'
          rw [hs] at hs'
          cases hs'
          exact hparity

/-- An item is pushed exactly when it names a device, and is then as valid as its values. -/
theorem loadItem_spec {pushed : Option SerialConfig} (hload : loadItem json env item = .ok pushed) :
    (pushed = none ∧ ¬HasDevice json env item) ∨
      ∃ c, pushed = some c ∧ HasDevice json env item ∧ (c.Valid ↔ GoodItem json env item) := by
  unfold loadItem at hload
  split at hload
  · next hconfig =>
      cases hload
      refine Or.inl ⟨rfl, fun hhas => ?_⟩
      rw [hhas.1] at hconfig
      cases hconfig
  · next hconfig =>
      have hokConfig : env.config = true := by simpa using hconfig
      obtain ⟨uid, huid, hload⟩ := bind_eq_ok hload
      obtain ⟨device, hdevice, hload⟩ := bind_eq_ok hload
      have huid' := stringField_spec huid
      have hdevice' := stringField_spec hdevice
      cases device with
      | none =>
          cases hload
          refine Or.inl ⟨rfl, fun hhas => ?_⟩
          exact hdevice'.mpr ⟨hhas.2.2, hhas.2.1⟩ rfl
      | some name =>
          cases hload
          obtain ⟨hhas, hokDevice⟩ := hdevice'.mp (Option.some_ne_none name)
          refine Or.inr ⟨_, rfl, ⟨hokConfig, hokDevice, hhas⟩, ?_⟩
          have hinit := eSerialConfigInit_inRange
          constructor
          · intro hvalid
            exact ⟨huid'.mp hvalid.uid, (intField_iff hinit.databits).mp hvalid.databits,
              (intField_iff hinit.stopbits).mp hvalid.stopbits,
              (parityField_iff hinit.parity).mp hvalid.parity,
              (intField_iff hinit.minDelayMs).mp hvalid.minDelayMs,
              (intField_iff hinit.maxlen).mp hvalid.maxlen,
              (intField_iff hinit.timeoutMs).mp hvalid.timeoutMs⟩
          · intro hgood
            exact {
              databits := (intField_iff hinit.databits).mpr hgood.databits
              stopbits := (intField_iff hinit.stopbits).mpr hgood.stopbits
              parity := (parityField_iff hinit.parity).mpr hgood.parity
              minDelayMs := (intField_iff hinit.minDelayMs).mpr hgood.minDelayMs
              maxlen := (intField_iff hinit.maxlen).mpr hgood.maxlen
              timeoutMs := (intField_iff hinit.timeoutMs).mpr hgood.timeoutMs
              uid := huid'.mpr hgood.uid
              device := Option.some_ne_none name }

/-- The loop over the array goes item by item. -/
theorem pushItems_cons {env : Nat → CopyEnv} {ports : Option J} {i : Nat} {is : List Nat}
    {queue queue' : List SerialConfig}
    (hloop : (i :: is).foldlM (pushItem json env ports) queue = .ok queue') :
    ∃ pushed, loadItem json (env i) (json.arrayGetIdx ports i) = .ok pushed ∧
      is.foldlM (pushItem json env ports) (queue ++ pushed.toList) = .ok queue' := by
  rw [List.foldlM_cons] at hloop
  obtain ⟨queue₁, hfst, hrest⟩ := bind_eq_ok hloop
  obtain ⟨pushed, hload, hpush⟩ := bind_eq_ok hfst
  cases hpush
  exact ⟨pushed, hload, hrest⟩

/-- The configurations that the loop pushes are valid exactly when their items are good. -/
theorem pushItems_spec {env : Nat → CopyEnv} {ports : Option J} {is : List Nat}
    {queue queue' : List SerialConfig}
    (hloop : is.foldlM (pushItem json env ports) queue = .ok queue') :
    ∃ pushed, queue' = queue ++ pushed ∧ ((∀ c ∈ pushed, c.Valid) ↔ ∀ i ∈ is,
      HasDevice json (env i) (json.arrayGetIdx ports i) →
        GoodItem json (env i) (json.arrayGetIdx ports i)) := by
  induction is generalizing queue with
  | nil =>
      cases hloop
      exact ⟨[], (List.append_nil _).symm, by simp⟩
  | cons i is ih =>
      obtain ⟨config, hload, hrest⟩ := pushItems_cons hloop
      obtain ⟨pushed, hqueue, hiff⟩ := ih hrest
      refine ⟨config.toList ++ pushed, by rw [hqueue, List.append_assoc], ?_⟩
      rw [List.forall_mem_append, List.forall_mem_cons, hiff]
      refine and_congr_left' ?_
      rcases loadItem_spec hload with ⟨rfl, hnot⟩ | ⟨c, rfl, hhas, hvalid⟩
      · simp [hnot]
      · simp [hhas, hvalid]

/-- The file is only accepted with an array of ports. -/
theorem eSerialConfigLoadJson_zero {env : Nat → CopyEnv} {file : Option ConfigFile}
    {queue queue' : List SerialConfig}
    (hload : eSerialConfigLoadJson json env file queue = .ok (0, queue')) :
    ∃ f ports, file = some f ∧ portsOf json f = .ok (some ports) ∧
      (List.range (arrayLen json ports)).foldlM (pushItem json env ports) queue = .ok queue' := by
  unfold eSerialConfigLoadJson at hload
  split at hload
  · cases hload
  · next f =>
      obtain ⟨found, hfound, hload⟩ := bind_eq_ok hload
      cases found with
      | none => cases hload
      | some ports =>
          obtain ⟨queue₁, hloop, hok⟩ := bind_eq_ok hload
          cases hok
          exact ⟨f, ports, rfl, hfound, hloop⟩

/-- What is accepted is a file that the options name, whose items are pushed; or, when they name none,
a configuration with both names, of which a copy is queued. -/
theorem eSerialConfigParse_zero {env : ParseEnv} {argv : List CStr}
    {queue queue' : List SerialConfig}
    (hparse : eSerialConfigParse json env argv queue = .ok (.returns 0, queue')) :
    (∃ name f ports, configFileOf env.okName 0 (optionsOf env argv) none = some name ∧
      env.file name = some f ∧ portsOf json f = .ok (some ports) ∧
      (List.range (arrayLen json ports)).foldlM (pushItem json env.item ports) queue =
        .ok queue') ∨
    ∃ config, configFileOf env.okName 0 (optionsOf env argv) none = none ∧
      handleOptions env.okName 0 (optionsOf env argv) eSerialConfigInit none = .next config none ∧
      config.InRange ∧ config.device.isSome ∧ config.uid.isSome ∧
      queue' = queue ++ (eSerialConfigCopy env.copy config).toList := by
  unfold eSerialConfigParse at hparse
  split at hparse
  · cases hparse
  · cases hparse
  · next config name hoptions =>
      obtain ⟨-, hname⟩ := handleOptions_next hoptions eSerialConfigInit_inRange
      obtain ⟨⟨r, queue₁⟩, hload, hok⟩ := bind_eq_ok hparse
      have hzero : r = 0 ∧ queue₁ = queue' := by simpa using hok
      obtain ⟨rfl, rfl⟩ := hzero
      obtain ⟨f, ports, hfile, hports, hloop⟩ := eSerialConfigLoadJson_zero hload
      exact Or.inl ⟨name, f, ports, hname.symm, hfile, hports, hloop⟩
  · next config hoptions =>
      obtain ⟨hrange, hname⟩ := handleOptions_next hoptions eSerialConfigInit_inRange
      split at hparse
      · next hboth =>
          cases hparse
          rw [Bool.and_eq_true] at hboth
          exact Or.inr ⟨config, hname.symm, hoptions, hrange, hboth.1, hboth.2, rfl⟩
      · cases hparse

end Json

/-- There was memory for the strings of the one configuration of the command line; or, when a file is
named, each item of its array that names a device has a uid and values that the options would
accept. -/
def GoodInput {J : Type} (json : JsonC J) (env : ParseEnv) (argv : List CStr) : Prop :=
  match configFileOf env.okName 0 (optionsOf env argv) none with
  | none => env.copy.config = true → env.copy.uid = true ∧ env.copy.device = true
  | some name => ∀ file ports, env.file name = some file → portsOf json file = .ok (some ports) →
      ∀ i < arrayLen json ports, HasDevice json (env.item i) (json.arrayGetIdx ports i) →
        GoodItem json (env.item i) (json.arrayGetIdx ports i)

/-- **Every queued configuration is valid**, exactly when the input is good. -/
theorem queued_valid_iff {J : Type} {json : JsonC J} {env : ParseEnv} {argv : List CStr}
    {queue queue' : List SerialConfig}
    (hparse : eSerialConfigParse json env argv queue = .ok (.returns 0, queue')) :
    ∃ pushed, queue' = queue ++ pushed ∧
      ((∀ c ∈ pushed, c.Valid) ↔ GoodInput json env argv) := by
  unfold GoodInput
  rcases eSerialConfigParse_zero hparse with
    ⟨name, f, ports, hname, hfile, hports, hloop⟩ |
    ⟨config, hname, -, hrange, hdevice, huid, rfl⟩
  · obtain ⟨pushed, hqueue, hiff⟩ := pushItems_spec hloop
    rw [hname]
    refine ⟨pushed, hqueue, hiff.trans ⟨fun hgood f' ports' hfile' hports' i hi => ?_,
      fun hgood i hi => ?_⟩⟩
    · rw [hfile] at hfile'
      cases hfile'
      rw [hports] at hports'
      cases hports'
      exact hgood i (List.mem_range.mpr hi)
    · exact hgood f ports hfile hports i (List.mem_range.mp hi)
  · rw [Option.isSome_iff_ne_none] at hdevice huid
    rw [hname]
    exact ⟨_, rfl, eSerialConfigCopy_valid_iff hrange huid hdevice⟩

/-! ### A file on which the parser is tried -/

/-- The values of a JSON text with one port, which has a device and a length of zero and no uid. -/
inductive SampleValue where
  | root
  | ports
  | port
  | device
  | maxlen
  deriving DecidableEq

def deviceName : CStr := .ofBytes (['t', 't', 'y', 'S', '0'].map code)

/-- `{"ports":[{"device":"ttyS0","maxlen":0}]}` -/
def sampleText : Bytes :=
  (['{', '"', 'p', 'o', 'r', 't', 's', '"', ':', '[', '{', '"', 'd', 'e', 'v', 'i', 'c', 'e', '"',
    ':', '"', 't', 't', 'y', 'S', '0', '"', ',', '"', 'm', 'a', 'x', 'l', 'e', 'n', '"', ':', '0',
    '}', ']', '}']).map code

/-- What json-c answers about them. -/
def sampleJson : JsonC SampleValue where
  tokenerParse text := if text = .ofBytes sampleText then some .root else none
  objectGetEx item key :=
    if item = some .root ∧ key = ['p', 'o', 'r', 't', 's'] then some (some .ports)
    else if item = some .port ∧ key = ['d', 'e', 'v', 'i', 'c', 'e'] then some (some .device)
    else if item = some .port ∧ key = ['m', 'a', 'x', 'l', 'e', 'n'] then some (some .maxlen)
    else none
  isArray j := j = some .ports
  arrayLength j := if j = some .ports then 1 else 0
  arrayGetIdx j i := if j = some .ports ∧ i = 0 then some .port else none
  getString j := if j = some .device then some deviceName else none
  getInt _ := 0

def plentyToCopy : CopyEnv := ⟨true, true, true⟩

def sampleEnv : ParseEnv where
  okName _ := true
  copy := plentyToCopy
  item _ := plentyToCopy
  file _ := some ⟨sampleText.length, true, sampleText⟩
  posixlyCorrect := false

def sampleArgv : List CStr := [deviceName, .ofBytes (['-', 'C', 'f'].map code)]

theorem sampleParse : ∃ c, eSerialConfigParse sampleJson sampleEnv sampleArgv [] =
    .ok (.returns 0, [c]) ∧ c.uid = none ∧ c.maxlen = 0 :=
  ⟨_, rfl, rfl, rfl⟩

theorem queued_valid_iff_sample : ∃ c, eSerialConfigParse sampleJson sampleEnv sampleArgv [] =
    .ok (.returns 0, [c]) ∧ ∃ pushed, [c] = [] ++ pushed ∧
      ((∀ c ∈ pushed, c.Valid) ↔ GoodInput sampleJson sampleEnv sampleArgv) := by
  obtain ⟨c, hparse, -, -⟩ := sampleParse
  exact ⟨c, hparse, queued_valid_iff hparse⟩

/-- The port of the sample is queued without a uid and with no room for a byte. -/
theorem queued_counterexample :
    ¬∀ (env : ParseEnv) (argv : List CStr) (queue pushed : List SerialConfig),
      eSerialConfigParse sampleJson env argv queue = .ok (.returns 0, queue ++ pushed) →
        ∀ c ∈ pushed, c.Valid := by
  intro h
  obtain ⟨c, hparse, huid, -⟩ := sampleParse
  exact (h sampleEnv sampleArgv [] [c] hparse c (List.mem_singleton_self c)).uid huid

end LibEzmb
