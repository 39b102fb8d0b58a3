import LibEzmb.SerialConfigs

/-! A JSON configuration of any shape: what e_serial_config_load_json does with absent keys, values
of other types and `null`. Only the two strings it copies without a check can stop it. -/

open CHeap CBytes CLib

namespace LibEzmb

/-- The text of the file is read in whole, and is JSON with this root. -/
def ConfigFile.Parses {J : Type} (file : ConfigFile) (json : JsonC J) (root : J) : Prop :=
  file.okText = true ∧ ∃ text, file.read = .ok text ∧ toInt text.length = file.len ∧
    json.tokenerParse (.ofBytes text) = some root

section Nulls

variable {J : Type} (json : JsonC J)

/-- The string of a JSON value is the null pointer for `null` alone. -/
def JsonC.NullString : Prop := ∀ j, json.getString j = none ↔ j = none

/-- The keys whose strings are copied. -/
def copiedKeys : List (List Char) := [['u', 'i', 'd'], ['d', 'e', 'v', 'i', 'c', 'e']]

/-- No item that gets a configuration has `null` under a key whose string is copied. -/
def NoNullCopied (env : Nat → CopyEnv) (root : J) : Prop :=
  ∀ ports, json.objectGetEx (some root) ['p', 'o', 'r', 't', 's'] = some ports →
    json.isArray ports = true → ∀ i < arrayLen json ports, (env i).config = true →
      ∀ key ∈ copiedKeys, json.objectGetEx (json.arrayGetIdx ports i) key ≠ some none

variable {json}

theorem stringField_ok_iff (hnull : json.NullString) (ok : Bool) (item : Option J)
    (key : List Char) (old : Option CStr) :
    (∃ s, stringField json ok item key old = .ok s) ↔ json.objectGetEx item key ≠ some none := by
  unfold stringField
  cases hkey : json.objectGetEx item key with
  | none => exact ⟨fun _ h => (nomatch h), fun _ => ⟨old, rfl⟩⟩
  | some j =>
      cases j with
      | none =>
          simp [strdupJson, (hnull none).mpr rfl]
      | some j =>
          obtain ⟨s, hs⟩ := Option.ne_none_iff_exists'.mp
            (fun h => Option.some_ne_none j ((hnull (some j)).mp h))
          simp [strdupJson, hs]

/-- Of the nine keys, the two whose strings are copied decide whether an item can be read. -/
theorem loadItem_ok_iff (hnull : json.NullString) (env : CopyEnv) (item : Option J) :
    (∃ pushed, loadItem json env item = .ok pushed) ↔
      (env.config = true → ∀ key ∈ copiedKeys, json.objectGetEx item key ≠ some none) := by
  have huid := stringField_ok_iff hnull env.uid item ['u', 'i', 'd'] eSerialConfigInit.uid
  have hdevice :=
    stringField_ok_iff hnull env.device item ['d', 'e', 'v', 'i', 'c', 'e'] eSerialConfigInit.device
  unfold loadItem
  cases henv : env.config with
  | false => simp
  | true =>
      simp only [copiedKeys, List.forall_mem_cons, List.not_mem_nil, false_implies, implies_true,
        and_true, ← huid, ← hdevice, Bool.not_true, Bool.false_eq_true, if_false, true_implies]
      constructor
      · rintro ⟨pushed, hload⟩
        obtain ⟨uid, huid, hrest⟩ := bind_eq_ok hload
        obtain ⟨device, hdevice, -⟩ := bind_eq_ok hrest
        exact ⟨⟨uid, huid⟩, device, hdevice⟩
      · rintro ⟨⟨uid, huid⟩, device, hdevice⟩
        exact ⟨_, by rw [huid, ok_bind, hdevice, ok_bind]⟩

/-- The loop over the array ends unless an item stops it. -/
theorem pushItems_ok_iff (hnull : json.NullString) (env : Nat → CopyEnv) (ports : Option J)
    (n : Nat) (queue : List SerialConfig) :
    (∃ queue', (List.range n).foldlM (pushItem json env ports) queue = .ok queue') ↔
      ∀ i < n, (env i).config = true →
        ∀ key ∈ copiedKeys, json.objectGetEx (json.arrayGetIdx ports i) key ≠ some none := by
  have hstep : ∀ queue i, (∃ queue', pushItem json env ports queue i = .ok queue') ↔
      ((env i).config = true → ∀ key ∈ copiedKeys,
        json.objectGetEx (json.arrayGetIdx ports i) key ≠ some none) := by
    intro queue i
    rw [← loadItem_ok_iff hnull, pushItem]
    constructor
    · rintro ⟨queue', hpush⟩
      obtain ⟨pushed, hload, -⟩ := bind_eq_ok hpush
      exact ⟨pushed, hload⟩
    · rintro ⟨pushed, hload⟩
      exact ⟨_, by rw [hload, ok_bind]⟩
  rw [foldlM_ok_iff hstep]
  simp only [List.mem_range]

/-- The loader gives up with the queue as it was, or reads the file. -/
def Handles (queue : List SerialConfig) (result : Except Fault (Int × List SerialConfig)) : Prop :=
  result = .ok (-1, queue) ∨ ∃ queue', result = .ok (0, queue')

/-- **Any JSON is handled.** A file that is JSON of any shape is refused with the queue unchanged, or
read, exactly when no item has `null` for its uid or its device. -/
theorem json_handled_iff (hnull : json.NullString) {file : ConfigFile} {root : J}
    (hparses : file.Parses json root) (env : Nat → CopyEnv) (queue : List SerialConfig) :
    Handles queue (eSerialConfigLoadJson json env (some file) queue) ↔
      NoNullCopied json env root := by
  obtain ⟨htext, text, hread, hlen, hroot⟩ := hparses
  simp only [eSerialConfigLoadJson, portsOf, htext, hread, hlen, hroot, Bool.not_true,
    Bool.false_eq_true, if_false, ok_bind, ne_eq, not_true_eq_false, NoNullCopied]
  cases hports : json.objectGetEx (some root) ['p', 'o', 'r', 't', 's'] with
  | none => exact ⟨fun _ _ h => (nomatch h), fun _ => Or.inl rfl⟩
  | some ports =>
      by_cases harray : json.isArray ports = true
      · have hloop := pushItems_ok_iff hnull env ports (arrayLen json ports) queue
        simp only [Option.some.injEq, forall_eq', harray, true_implies, ← hloop, if_true, ok_bind]
        constructor
        · rintro (hfail | ⟨queue', hread⟩)
          · obtain ⟨queue', -, hout⟩ := bind_eq_ok hfail
            cases hout
          · obtain ⟨queue'', hfold, -⟩ := bind_eq_ok hread
            exact ⟨queue'', hfold⟩
        · rintro ⟨queue', hfold⟩
          exact Or.inr ⟨queue', by rw [hfold, ok_bind]⟩
      · simp only [if_neg harray, ok_bind, Option.some.injEq, forall_eq']
        exact ⟨fun _ h => absurd h harray, fun _ => Or.inl rfl⟩

end Nulls

/-! ### An item without a uid -/

/-- The values of `{"ports":[{"uid":null}]}`. -/
inductive NullSample where
  | root
  | ports
  | item
  deriving DecidableEq

def nullText : Bytes :=
  (['{', '"', 'p', 'o', 'r', 't', 's', '"', ':', '[', '{', '"', 'u', 'i', 'd', '"', ':',
    'n', 'u', 'l', 'l', '}', ']', '}']).map code

/-- json-c on that text. -/
def nullJson : JsonC NullSample where
  tokenerParse text := if text = .ofBytes nullText then some .root else none
  objectGetEx item key :=
    if item = some .root ∧ key = ['p', 'o', 'r', 't', 's'] then some (some .ports)
    else if item = some .item ∧ key = ['u', 'i', 'd'] then some none
    else none
  isArray j := j = some .ports
  arrayLength j := if j = some .ports then 1 else 0
  arrayGetIdx j i := if j = some .ports ∧ i = 0 then some .item else none
  getString j := j.map fun _ => .ofBytes nullText
  getInt _ := 0

def nullFile : ConfigFile := ⟨nullText.length, true, nullText⟩

theorem nullJson_nullString : nullJson.NullString := fun _ => Option.map_eq_none_iff

theorem nullFile_parses : nullFile.Parses nullJson .root :=
  ⟨rfl, nullText, rfl, rfl, rfl⟩

theorem json_handled_iff_null :
    Handles [] (eSerialConfigLoadJson nullJson (fun _ => plentyToCopy) (some nullFile) []) ↔
      NoNullCopied nullJson (fun _ => plentyToCopy) .root :=
  json_handled_iff nullJson_nullString nullFile_parses (fun _ => plentyToCopy) []

/-- The null string of the uid is passed on to `strdup`. -/
theorem null_uid_copied :
    eSerialConfigLoadJson nullJson (fun _ => plentyToCopy) (some nullFile) [] =
        .error .nullDeref ∧
      ¬Handles [] (eSerialConfigLoadJson nullJson (fun _ => plentyToCopy) (some nullFile) []) := by
  have hload : eSerialConfigLoadJson nullJson (fun _ => plentyToCopy) (some nullFile) [] =
      .error .nullDeref := rfl
  refine ⟨hload, ?_⟩
  rw [hload]
  rintro (hfail | ⟨queue, hread⟩)
  · cases hfail
  · cases hread

end LibEzmb
