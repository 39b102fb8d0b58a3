import Mathlib.Algebra.Group.Nat.Defs
import LibEzmb.SerialConfigs

/-! What loading a configuration is for: the last value given for each option, or one configuration
for each item of the file that names a device, with the defaults for the rest. The parser does this
when no allocation fails. -/

open CHeap CBytes CLib

namespace LibEzmb

/-! ### The reference -/

/-- The argument an answer of `getopt_long` gives to an option. -/
def argOf (c : Char) : Opt → Option Bytes
  | .opt val (some arg) => if val = c then some arg else none
  | _ => none

/-- The last value given for an option. -/
def lastArg (c : Char) (os : List Opt) : Option Bytes := (os.filterMap (argOf c)).getLast?

/-- A configuration with the last value given for each option in the place of what it has. -/
def configAfter (config : SerialConfig) (os : List Opt) : SerialConfig where
  uid := ((lastArg 'u' os).map CStr.ofBytes).or config.uid
  device := ((lastArg 'D' os).map CStr.ofBytes).or config.device
  baudrate := ((lastArg 'b' os).map atoi).getD config.baudrate
  databits := ((lastArg 'd' os).map atoi).getD config.databits
  stopbits := ((lastArg 's' os).map atoi).getD config.stopbits
  parity := ((lastArg 'p' os).map parityChar).getD config.parity
  minDelayMs := ((lastArg 'm' os).map atoi).getD config.minDelayMs
  maxlen := ((lastArg 'l' os).map atoi).getD config.maxlen
  timeoutMs := ((lastArg 't' os).map atoi).getD config.timeoutMs

section Json

variable {J : Type} (json : JsonC J)

/-- The string an item has under a key. -/
def stringOf (item : Option J) (key : List Char) : Option CStr :=
  (json.objectGetEx item key).bind json.getString

/-- The number an item has under a key. -/
def intOf (item : Option J) (key : List Char) : Option Int :=
  (json.objectGetEx item key).map json.getInt

/-- The configuration of an item: what the item has, and the defaults for the rest. -/
def configOfItem (item : Option J) : SerialConfig :=
  let init := eSerialConfigInit
  { uid := stringOf json item ['u', 'i', 'd']
    device := stringOf json item ['d', 'e', 'v', 'i', 'c', 'e']
    baudrate := (intOf json item ['b', 'a', 'u', 'd']).getD init.baudrate
    databits := (intOf json item ['d', 'a', 't', 'a', 'b', 'i', 't', 's']).getD init.databits
    stopbits := (intOf json item ['s', 't', 'o', 'p', 'b', 'i', 't', 's']).getD init.stopbits
    parity := ((stringOf json item ['p', 'a', 'r', 'i', 't', 'y']).map
      fun s => parityChar s.bytes).getD init.parity
    minDelayMs := (intOf json item ['m', 'i', 'n', 'd', 'e', 'l', 'a', 'y']).getD init.minDelayMs
    maxlen := (intOf json item ['m', 'a', 'x', 'l', 'e', 'n']).getD init.maxlen
    timeoutMs := (intOf json item ['t', 'i', 'm', 'e', 'o', 'u', 't']).getD init.timeoutMs }

def namesDevice (item : Option J) : Bool :=
  (json.objectGetEx item ['d', 'e', 'v', 'i', 'c', 'e']).isSome

/-- The items of an array, in order. -/
def itemsOf (ports : Option J) : List (Option J) :=
  (List.range (json.arrayLength ports)).map (json.arrayGetIdx ports)

/-- The configurations of a file. -/
def configsOfPorts (ports : Option J) : List SerialConfig :=
  ((itemsOf json ports).filter (namesDevice json)).map (configOfItem json)

/-- Each element of an array takes up a byte of the text it was parsed from, or more. -/
def JsonC.Written : Prop :=
  ∀ text root key ports, json.tokenerParse text = some root →
    json.objectGetEx (some root) key = some ports → json.isArray ports = true →
      json.arrayLength ports ≤ text.bytes.length

end Json

/-- No allocation fails. -/
structure ParseEnv.Plenty (env : ParseEnv) : Prop where
  okName : ∀ i, env.okName i = true
  copy : env.copy = plentyToCopy
  item : ∀ i, env.item i = plentyToCopy

/-! ### The command line -/

theorem lastArg_cons (c : Char) (o : Opt) (os : List Opt) :
    lastArg c (o :: os) = (lastArg c os).or (argOf c o) := by
  rw [lastArg, lastArg, List.filterMap_cons]
  cases argOf c o with
  | none => exact (Option.or_none).symm
  | some arg =>
      dsimp only
      rw [List.getLast?_cons]
      cases (os.filterMap (argOf c)).getLast? <;> rfl

theorem argOf_eq_some {c : Char} {o : Opt} {arg : Bytes} :
    argOf c o = some arg ↔ o = .opt c (some arg) := by
  constructor
  · intro harg
    unfold argOf at harg
    split at harg
    · split at harg
      · next hval =>
          cases harg
          rw [hval]
      · cases harg
    · cases harg
  · rintro rfl
    exact if_pos rfl

/-- An option that is accepted does what its last value does when none follows. -/
theorem configAfter_next {ok : Bool} {c c' : SerialConfig} {file file' : Option CStr} {o : Opt}
    (hnext : handleOption ok c file o = .next c' file') (os : List Opt) :
    configAfter c' os = configAfter c (o :: os) := by
  unfold handleOption at hnext
  split at hnext
  case h_10 =>
      cases hnext
      simp [configAfter, lastArg_cons, argOf]
  case h_11 => cases hnext
  case h_12 => cases hnext
  -- the other options put the value into one field, the last six only when it passes a check
  case h_1 | h_2 | h_3 =>
      cases hnext
      simp [configAfter, lastArg_cons, argOf]
  all_goals
      split at hnext
      · cases hnext
      · cases hnext
        simp [configAfter, lastArg_cons, argOf]

theorem handleOptions_config {okName : Nat → Bool} {i : Nat} {os : List Opt} {c c' : SerialConfig}
    {file file' : Option CStr} (hnext : handleOptions okName i os c file = .next c' file') :
    c' = configAfter c os := by
  induction os generalizing i c file with
  | nil =>
      cases hnext
      rfl
  | cons o os ih =>
      obtain ⟨d, file₁, hoption, hrest⟩ := handleOptions_cons hnext
      rw [← configAfter_next hoption os]
      exact ih hrest

/-- With memory for every name, the file is that of the last `-C`. -/
theorem configFileOf_plenty {okName : Nat → Bool} (hok : ∀ i, okName i = true) (i : Nat)
    (os : List Opt) (file : Option CStr) :
    configFileOf okName i os file = ((lastArg 'C' os).map CStr.ofBytes).or file := by
  induction os generalizing i file with
  | nil => rfl
  | cons o os ih =>
      rw [lastArg_cons]
      cases harg : argOf 'C' o with
      | none =>
          have hskip : configFileOf okName i (o :: os) file = configFileOf okName (i + 1) os file := by
            rw [configFileOf]
            rintro arg rfl
            cases harg
          rw [hskip, ih, Option.or_none]
      | some arg =>
          obtain rfl := argOf_eq_some.mp harg
          rw [configFileOf, if_pos (hok i), ih]
          cases lastArg 'C' os <;> rfl

/-! ### The JSON file -/

section Json

variable {J : Type} {json : JsonC J} {item : Option J}

theorem stringField_eq {key : List Char} {s : Option CStr}
    (hfield : stringField json true item key none = .ok s) :
    s = stringOf json item key ∧ s.isSome = (json.objectGetEx item key).isSome := by
  unfold stringField strdupJson at hfield
  unfold stringOf
  cases hkey : json.objectGetEx item key with
  | none =>
      rw [hkey] at hfield
      cases hfield
      exact ⟨rfl, rfl⟩
  | some j =>
      simp only [hkey] at hfield
      cases hstring : json.getString j with
      | none => simp [hstring] at hfield
      | some text =>
          simp only [hstring, if_true, Except.ok.injEq] at hfield
          subst hfield
          exact ⟨hstring.symm, rfl⟩

theorem intField_eq (key : List Char) (old : Int) :
    intField json item key old = (intOf json item key).getD old := by
  unfold intField intOf
  cases json.objectGetEx item key <;> rfl

theorem parityField_eq (old : Char) :
    parityField json item old = ((stringOf json item ['p', 'a', 'r', 'i', 't', 'y']).map
      fun s => parityChar s.bytes).getD old := by
  unfold parityField stringOf
  cases json.objectGetEx item ['p', 'a', 'r', 'i', 't', 'y'] with
  | none => rfl
  | some j => cases hstring : json.getString j <;> simp [hstring]

/-- With memory for it, an item that names a device is pushed as the reference has it. -/
theorem loadItem_plenty {pushed : Option SerialConfig}
    (hload : loadItem json plentyToCopy item = .ok pushed) :
    pushed = if namesDevice json item then some (configOfItem json item) else none := by
  rw [loadItem, if_neg (by decide)] at hload
  obtain ⟨uid, huid, hload⟩ := bind_eq_ok hload
  obtain ⟨device, hdevice, hload⟩ := bind_eq_ok hload
  obtain ⟨rfl, -⟩ := stringField_eq huid
  obtain ⟨rfl, hsome⟩ := stringField_eq hdevice
  have hnames : namesDevice json item =
      (stringOf json item ['d', 'e', 'v', 'i', 'c', 'e']).isSome := hsome.symm
  simp only [intField_eq, parityField_eq] at hload
  rw [hnames]
  cases hload
  cases hstring : stringOf json item ['d', 'e', 'v', 'i', 'c', 'e'] with
  | none => rfl
  | some name =>
      simp only [Option.isNone_some, Option.isSome_some, if_true, Bool.false_eq_true, if_false,
        configOfItem, hstring]

/-- The loop over the array pushes the items that name a device, in order. -/
theorem pushItems_plenty {env : Nat → CopyEnv} (henv : ∀ i, env i = plentyToCopy)
    {ports : Option J} {is : List Nat} {queue queue' : List SerialConfig}
    (hloop : is.foldlM (pushItem json env ports) queue = .ok queue') :
    queue' = queue ++ (((is.map (json.arrayGetIdx ports)).filter (namesDevice json)).map
      (configOfItem json)) := by
  induction is generalizing queue with
  | nil =>
      cases hloop
      exact (List.append_nil _).symm
  | cons i is ih =>
      obtain ⟨config, hload, hrest⟩ := pushItems_cons hloop
      rw [henv i] at hload
      rw [ih hrest, loadItem_plenty hload, List.map_cons, List.filter_cons]
      cases namesDevice json (json.arrayGetIdx ports i) <;> simp

/-- A text that was read in full is no longer than an `int` can count. -/
theorem portsOf_some {file : ConfigFile} {ports : Option J}
    (hports : portsOf json file = .ok (some ports)) :
    ∃ text root, text.length < 2 ^ 31 ∧ json.tokenerParse (.ofBytes text) = some root ∧
      json.objectGetEx (some root) ['p', 'o', 'r', 't', 's'] = some ports ∧
      json.isArray ports = true := by
  unfold portsOf at hports
  split at hports
  · cases hports
  · obtain ⟨text, hread, hports⟩ := bind_eq_ok hports
    split at hports
    · cases hports
    · next hcount =>
        have hlen : toInt text.length = file.len := not_not.mp hcount
        have hshort : (text.length : Int) ≤ max 0 file.len := by
          unfold ConfigFile.read at hread
          split at hread
          · split at hread <;> cases hread
            exact Int.le_max_left _ _
          · cases hread
            rw [List.length_take]
            omega
        have hlt := toInt_lt text.length
        split at hports
        · cases hports
        · next root hroot =>
            split at hports
            · cases hports
            · next ports' hobject =>
                split at hports
                · next harray =>
                    cases hports
                    exact ⟨text, root, by omega, hroot, hobject, harray⟩
                · cases hports

theorem arrayLen_eq (hwritten : json.Written) {file : ConfigFile} {ports : Option J}
    (hports : portsOf json file = .ok (some ports)) : arrayLen json ports = json.arrayLength ports := by
  obtain ⟨text, root, hshort, hroot, hobject, harray⟩ := portsOf_some hports
  have hle := hwritten _ _ _ _ hroot hobject harray
  have htext : (CStr.ofBytes text).bytes.length ≤ text.length :=
    (List.takeWhile_sublist _).length_le
  rw [arrayLen, toInt_eq_self (by omega) (by omega), Int.toNat_natCast]

/-- A file that is refused leaves the queue alone, and no other result than -1 says so. -/
theorem eSerialConfigLoadJson_cases {env : Nat → CopyEnv} {file : Option ConfigFile} {r : Int}
    {queue queue' : List SerialConfig}
    (hload : eSerialConfigLoadJson json env file queue = .ok (r, queue')) :
    (r = -1 ∧ queue' = queue) ∨ r = 0 := by
  unfold eSerialConfigLoadJson at hload
  split at hload
  · cases hload
    exact Or.inl ⟨rfl, rfl⟩
  · obtain ⟨found, -, hload⟩ := bind_eq_ok hload
    cases found with
    | none =>
        cases hload
        exact Or.inl ⟨rfl, rfl⟩
    | some ports =>
        obtain ⟨queue₁, -, hok⟩ := bind_eq_ok hload
        cases hok
        exact Or.inr rfl

theorem eSerialConfigParse_failed {env : ParseEnv} {argv : List CStr}
    {queue queue' : List SerialConfig}
    (hparse : eSerialConfigParse json env argv queue = .ok (.returns (-1), queue')) :
    queue' = queue := by
  unfold eSerialConfigParse at hparse
  split at hparse
  · cases hparse
    rfl
  · cases hparse
  · obtain ⟨⟨r, queue₁⟩, hload, hok⟩ := bind_eq_ok hparse
    rcases eSerialConfigLoadJson_cases hload with ⟨rfl, rfl⟩ | rfl
    · cases hok
      rfl
    · cases hok
  · split at hparse <;> cases hparse

/-- The queue after a file: what the file's items say comes behind what was there. -/
def FileReference (json : JsonC J) (file : Option ConfigFile)
    (queue queue' : List SerialConfig) : Prop :=
  ∃ f ports, file = some f ∧ portsOf json f = .ok (some ports) ∧
    queue' = queue ++ configsOfPorts json ports

/-- Without a file, what is accepted is a configuration of the options with numbers in range and both
names, and a copy of it is queued. -/
theorem parse_command {env : ParseEnv} {argv : List CStr}
    (hnone : configFileOf env.okName 0 (optionsOf env argv) none = none)
    {queue queue' : List SerialConfig}
    (hparse : eSerialConfigParse json env argv queue = .ok (.returns 0, queue')) :
    let config := configAfter eSerialConfigInit (optionsOf env argv)
    config.InRange ∧ config.device.isSome ∧ config.uid.isSome ∧
      queue' = queue ++ (eSerialConfigCopy env.copy config).toList := by
  rcases eSerialConfigParse_zero hparse with
    ⟨name, -, -, hname, -⟩ | ⟨config, -, hoptions, hrange, hdevice, huid, hqueue⟩
  · rw [hnone] at hname
    cases hname
  · have hconfig := handleOptions_config hoptions
    subst hconfig
    exact ⟨hrange, hdevice, huid, hqueue⟩

/-- Without `-C`, what is accepted names a uid and a device, and the configuration of the options is
queued. -/
theorem parse_options {env : ParseEnv} (henv : env.Plenty) {argv : List CStr}
    (hnone : lastArg 'C' (optionsOf env argv) = none) {queue queue' : List SerialConfig}
    (hparse : eSerialConfigParse json env argv queue = .ok (.returns 0, queue')) :
    queue' = queue ++ [configAfter eSerialConfigInit (optionsOf env argv)] ∧
      lastArg 'u' (optionsOf env argv) ≠ none ∧ lastArg 'D' (optionsOf env argv) ≠ none := by
  have hfile : configFileOf env.okName 0 (optionsOf env argv) none = none := by
    rw [configFileOf_plenty henv.okName, hnone]
    rfl
  obtain ⟨-, hdevice, huid, hqueue⟩ := parse_command hfile hparse
  refine ⟨?_, fun hnouid => ?_, fun hnodevice => ?_⟩
  · rw [hqueue, henv.copy]
    rfl
  · simp [configAfter, hnouid, eSerialConfigInit] at huid
  · simp [configAfter, hnodevice, eSerialConfigInit] at hdevice

/-- With `-C`, the configurations of the last file named are queued. -/
theorem parse_file (hwritten : json.Written) {env : ParseEnv} (henv : env.Plenty)
    {argv : List CStr} {name : Bytes} (hfile : lastArg 'C' (optionsOf env argv) = some name)
    {queue queue' : List SerialConfig}
    (hparse : eSerialConfigParse json env argv queue = .ok (.returns 0, queue')) :
    FileReference json (env.file (.ofBytes name)) queue queue' := by
  have hnamed : configFileOf env.okName 0 (optionsOf env argv) none = some (.ofBytes name) := by
    rw [configFileOf_plenty henv.okName, hfile]
    rfl
  rcases eSerialConfigParse_zero hparse with
    ⟨name', f, ports, hname, hopened, hports, hloop⟩ | ⟨config, hnone, -⟩
  · rw [hnamed] at hname
    cases hname
    rw [arrayLen_eq hwritten hports] at hloop
    exact ⟨f, ports, hopened, hports, pushItems_plenty henv.item hloop⟩
  · rw [hnamed] at hnone
    cases hnone

/-- **Configuration loading.** When no allocation fails, the queue is unchanged if -1 is returned; if
0 is, the configurations of the last file named, or the one of the options when no file is named, come
behind what was there. -/
theorem parse_reference (hwritten : json.Written) {env : ParseEnv} (henv : env.Plenty)
    (argv : List CStr) (queue queue' : List SerialConfig) :
    (eSerialConfigParse json env argv queue = .ok (.returns (-1), queue') → queue' = queue) ∧
      (eSerialConfigParse json env argv queue = .ok (.returns 0, queue') →
        match lastArg 'C' (optionsOf env argv) with
        | some name => FileReference json (env.file (.ofBytes name)) queue queue'
        | none => queue' = queue ++ [configAfter eSerialConfigInit (optionsOf env argv)]) := by
  refine ⟨eSerialConfigParse_failed, fun hparse => ?_⟩
  cases hfile : lastArg 'C' (optionsOf env argv) with
  | none => exact (parse_options henv hfile hparse).1
  | some name => exact parse_file hwritten henv hfile hparse

end Json

/-! ### Runs of the parser -/

theorem sampleJson_written : sampleJson.Written := by
  intro text value key ports hparse _ _
  have htext : text = .ofBytes sampleText := by
    by_contra hne
    have hnone : sampleJson.tokenerParse text = none := if_neg hne
    rw [hnone] at hparse
    cases hparse
  have hle : sampleJson.arrayLength ports ≤ 1 := by
    change (if ports = some .ports then 1 else 0) ≤ 1
    split <;> decide
  rw [htext]
  exact hle.trans (by decide)

theorem sampleEnv_plenty : sampleEnv.Plenty := ⟨fun _ => rfl, rfl, fun _ => rfl⟩

theorem parse_reference_sample : ∃ c,
    eSerialConfigParse sampleJson sampleEnv sampleArgv [] = .ok (.returns 0, [c]) ∧
      match lastArg 'C' (optionsOf sampleEnv sampleArgv) with
      | some name => FileReference sampleJson (sampleEnv.file (.ofBytes name)) [] [c]
      | none => [c] = [] ++ [configAfter eSerialConfigInit (optionsOf sampleEnv sampleArgv)] := by
  obtain ⟨c, hparse, -, -⟩ := sampleParse
  exact ⟨c, hparse, (parse_reference sampleJson_written sampleEnv_plenty _ _ _).2 hparse⟩

/-- `-u a -D b`. -/
def plainArgv : List CStr :=
  [deviceName, .ofBytes [code '-', code 'u'], .ofBytes [code 'a'], .ofBytes [code '-', code 'D'],
    .ofBytes [code 'b']]

/-- `-u a -D b -b 9600 -d 7 -p e -s 2`. -/
def evenArgv : List CStr :=
  plainArgv ++ [.ofBytes [code '-', code 'b'], .ofBytes (['9', '6', '0', '0'].map code),
    .ofBytes [code '-', code 'd'], .ofBytes [code '7'], .ofBytes [code '-', code 'p'],
    .ofBytes [code 'e'], .ofBytes [code '-', code 's'], .ofBytes [code '2']]

/-- Without memory for the copy, the parser returns 0 and has queued nothing. -/
theorem parse_reference_counterexample : ∃ env,
    lastArg 'C' (optionsOf env plainArgv) = none ∧
      eSerialConfigParse sampleJson env plainArgv [] = .ok (.returns 0, []) :=
  ⟨{ sampleEnv with copy := ⟨false, true, true⟩ }, rfl, rfl⟩

end LibEzmb
