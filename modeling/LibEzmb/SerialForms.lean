import Mathlib.Data.List.TakeWhile
import LibEzmb.BaseDecimal
import LibEzmb.BaseKeyed
import LibEzmb.SerialReference

/-! The two forms of a configuration: the options of a command line, and the JSON file with the same
values under the corresponding keys. Both give the same configuration. -/

open CHeap CBytes CLib KeyedLists

namespace LibEzmb

/-! ### Files -/

/-- The values of a JSON text, as far as a configuration uses them. -/
inductive JsonData where
  | str (s : CStr)
  | int (n : Int)
  | obj (fields : List (List Char × JsonData))
  | arr (items : List JsonData)

section Reads

variable {J : Type}

/-- What json-c documents of a pointer and the value it stands for: the string of a string, the number
of a number that an `int` holds, the value under a key, the elements of an array. -/
structure JsonC.Reads (json : JsonC J) (reads : Option J → JsonData → Prop) : Prop where
  str : ∀ j s, reads j (.str s) → json.getString j = some s
  int : ∀ j n, reads j (.int n) → -2 ^ 31 ≤ n → n < 2 ^ 31 → json.getInt j = n
  absent : ∀ j fields key, reads j (.obj fields) → fields.lookup key = none →
    json.objectGetEx j key = none
  present : ∀ j fields key d, reads j (.obj fields) → fields.lookup key = some d →
    ∃ v, json.objectGetEx j key = some v ∧ reads v d
  arr : ∀ j items, reads j (.arr items) → json.isArray j = true ∧
    json.arrayLength j = items.length ∧ ∀ i d, items[i]? = some d → reads (json.arrayGetIdx j i) d

/-- A text file that is read as this value. -/
structure ConfigFile.Holds (file : ConfigFile) (json : JsonC J)
    (reads : Option J → JsonData → Prop) (data : JsonData) : Prop where
  len : file.len = file.content.length
  parses : ∃ root, json.tokenerParse (.ofBytes file.content) = some root ∧ reads (some root) data

end Reads

/-! ### The same values -/

/-- The key of each option, and whether its value is a number. -/
def formKeys : List (List Char × Char × Bool) :=
  [(['u', 'i', 'd'], 'u', false), (['d', 'e', 'v', 'i', 'c', 'e'], 'D', false),
    (['b', 'a', 'u', 'd'], 'b', true), (['d', 'a', 't', 'a', 'b', 'i', 't', 's'], 'd', true),
    (['s', 't', 'o', 'p', 'b', 'i', 't', 's'], 's', true),
    (['p', 'a', 'r', 'i', 't', 'y'], 'p', false),
    (['m', 'i', 'n', 'd', 'e', 'l', 'a', 'y'], 'm', true),
    (['m', 'a', 'x', 'l', 'e', 'n'], 'l', true), (['t', 'i', 'm', 'e', 'o', 'u', 't'], 't', true)]

/-- The value of an option that was given. -/
def formValue (os : List Opt) (x : Char × Bool) : Option JsonData :=
  (lastArg x.1 os).map fun arg => if x.2 then .int (decimalValue arg) else .str (.ofBytes arg)

/-- The item with the values of the options, and no key for one that was not given. -/
def itemData (os : List Opt) : JsonData :=
  .obj (formKeys.filterMap fun x => (formValue os x.2).map fun d => (x.1, d))

/-- The file with that one item. -/
def fileData (os : List Opt) : JsonData := .obj [(['p', 'o', 'r', 't', 's'], .arr [itemData os])]

/-- The numbers are given as numerals that an `int` can hold. -/
def DecimalOptions (os : List Opt) : Prop :=
  ∀ x ∈ formKeys, x.2.2 = true → ∀ arg, lastArg x.2.1 os = some arg →
    IsDecimal arg ∧ -2 ^ 31 ≤ decimalValue arg ∧ decimalValue arg < 2 ^ 31

theorem formKeys_nodup : (formKeys.map Prod.fst).Nodup := by decide

theorem parityChar_ofBytes (arg : Bytes) : parityChar (CStr.ofBytes arg).bytes = parityChar arg := by
  cases arg with
  | nil => rfl
  | cons b bs =>
      by_cases hb : b = 0
      · subst hb
        rfl
      · have hhead : (CStr.ofBytes (b :: bs)).bytes = b :: (CStr.ofBytes bs).bytes := by
          simp [CStr.ofBytes, hb]
        rw [parityChar, parityChar, hhead]
        rfl

section Item

variable {J : Type} {json : JsonC J} {reads : Option J → JsonData → Prop} {os : List Opt}
  {item : Option J}

/-- An option that was not given has no key in the item. -/
theorem objectGetEx_absent (hreads : json.Reads reads) (hitem : reads item (itemData os))
    {key : List Char} {x : Char × Bool} (hkey : formKeys.lookup key = some x)
    (habsent : lastArg x.1 os = none) : json.objectGetEx item key = none := by
  apply hreads.absent _ _ key hitem
  rw [lookup_filterMap formKeys_nodup, hkey, Option.bind_some, formValue, habsent, Option.map_none]

/-- The value of an option that was given is under its key. -/
theorem objectGetEx_present (hreads : json.Reads reads) (hitem : reads item (itemData os))
    {key : List Char} {x : Char × Bool} (hkey : formKeys.lookup key = some x) {arg : Bytes}
    (hpresent : lastArg x.1 os = some arg) :
    ∃ v, json.objectGetEx item key = some v ∧
      reads v (if x.2 then .int (decimalValue arg) else .str (.ofBytes arg)) := by
  apply hreads.present _ _ key _ hitem
  rw [lookup_filterMap formKeys_nodup, hkey, Option.bind_some, formValue, hpresent, Option.map_some]

/-- The string under the key of an option. -/
theorem stringOf_item (hreads : json.Reads reads) (hitem : reads item (itemData os))
    {key : List Char} {c : Char} (hkey : formKeys.lookup key = some (c, false)) :
    stringOf json item key = (lastArg c os).map CStr.ofBytes := by
  cases harg : lastArg c os with
  | none =>
      rw [stringOf, objectGetEx_absent hreads hitem hkey harg]
      rfl
  | some arg =>
      obtain ⟨v, hv, hvalue⟩ := objectGetEx_present hreads hitem hkey harg
      rw [stringOf, hv]
      exact hreads.str _ _ hvalue

/-- The number under the key of an option. -/
theorem intOf_item (hreads : json.Reads reads) (hitem : reads item (itemData os))
    (hdecimal : DecimalOptions os) {key : List Char} {c : Char}
    (hkey : formKeys.lookup key = some (c, true)) :
    intOf json item key = (lastArg c os).map atoi := by
  cases harg : lastArg c os with
  | none =>
      rw [intOf, objectGetEx_absent hreads hitem hkey harg]
      rfl
  | some arg =>
      obtain ⟨v, hv, hvalue⟩ := objectGetEx_present hreads hitem hkey harg
      have hmem : (key, c, true) ∈ formKeys := by
        obtain ⟨pre, post, hsplit, -⟩ := List.lookup_eq_some_iff.mp hkey
        rw [hsplit]
        exact List.mem_append_right _ List.mem_cons_self
      obtain ⟨hnumeral, hlow, hhigh⟩ := hdecimal _ hmem rfl arg harg
      rw [intOf, hv, Option.map_some, Option.map_some, atoi_decimal hnumeral hlow hhigh,
        hreads.int _ _ hvalue hlow hhigh]

/-- The item gives the configuration of the options. -/
theorem configOfItem_item (hreads : json.Reads reads) (hitem : reads item (itemData os))
    (hdecimal : DecimalOptions os) :
    configOfItem json item = configAfter eSerialConfigInit os := by
  have huid : stringOf json item ['u', 'i', 'd'] = _ := stringOf_item hreads hitem rfl
  have hdevice : stringOf json item ['d', 'e', 'v', 'i', 'c', 'e'] = _ :=
    stringOf_item hreads hitem rfl
  have hparity : stringOf json item ['p', 'a', 'r', 'i', 't', 'y'] = _ :=
    stringOf_item hreads hitem rfl
  have hint {key : List Char} {c : Char} (hkey : formKeys.lookup key = some (c, true)) :=
    intOf_item hreads hitem hdecimal hkey
  have hbaud : intOf json item ['b', 'a', 'u', 'd'] = _ := hint rfl
  have hdatabits : intOf json item ['d', 'a', 't', 'a', 'b', 'i', 't', 's'] = _ := hint rfl
  have hstopbits : intOf json item ['s', 't', 'o', 'p', 'b', 'i', 't', 's'] = _ := hint rfl
  have hmindelay : intOf json item ['m', 'i', 'n', 'd', 'e', 'l', 'a', 'y'] = _ := hint rfl
  have hmaxlen : intOf json item ['m', 'a', 'x', 'l', 'e', 'n'] = _ := hint rfl
  have htimeout : intOf json item ['t', 'i', 'm', 'e', 'o', 'u', 't'] = _ := hint rfl
  simp only [configOfItem, configAfter, huid, hdevice, hparity, hbaud, hdatabits, hstopbits,
    hmindelay, hmaxlen, htimeout, Option.map_map, Function.comp_def, parityChar_ofBytes]
  simp [eSerialConfigInit]

/-- The string is there to be copied. -/
theorem stringField_item (hreads : json.Reads reads) (hitem : reads item (itemData os))
    {key : List Char} {c : Char} (hkey : formKeys.lookup key = some (c, false)) :
    stringField json true item key none = .ok (stringOf json item key) := by
  cases harg : lastArg c os with
  | none =>
      have habsent := objectGetEx_absent hreads hitem hkey harg
      simp only [stringField, stringOf, habsent, Option.bind_none]
  | some arg =>
      obtain ⟨v, hv, hvalue⟩ := objectGetEx_present hreads hitem hkey harg
      have hstring : json.getString v = some (.ofBytes arg) := hreads.str _ _ hvalue
      simp only [stringField, stringOf, hv, strdupJson, hstring, if_true, Option.bind_some]

theorem loadItem_item (hreads : json.Reads reads) (hitem : reads item (itemData os))
    (hdecimal : DecimalOptions os) {device : Bytes} (hdevice : lastArg 'D' os = some device) :
    loadItem json plentyToCopy item = .ok (some (configAfter eSerialConfigInit os)) := by
  obtain ⟨pushed, hload⟩ : ∃ pushed, loadItem json plentyToCopy item = .ok pushed := by
    rw [loadItem, if_neg (by decide)]
    have huid : stringField json true item ['u', 'i', 'd'] none = _ :=
      stringField_item hreads hitem rfl
    have hname : stringField json true item ['d', 'e', 'v', 'i', 'c', 'e'] none = _ :=
      stringField_item hreads hitem rfl
    simp only [plentyToCopy, eSerialConfigInit, huid, hname, ok_bind]
    exact ⟨_, rfl⟩
  have hnames : namesDevice json item = true := by
    have hstring : stringOf json item ['d', 'e', 'v', 'i', 'c', 'e'] = _ :=
      stringOf_item hreads hitem rfl
    rw [hdevice] at hstring
    obtain ⟨v, hv, -⟩ := Option.bind_eq_some_iff.mp hstring
    rw [namesDevice, hv]
    rfl
  rw [hload, loadItem_plenty hload, hnames, configOfItem_item hreads hitem hdecimal]
  rfl

end Item

section Form

variable {J : Type} {json : JsonC J} {reads : Option J → JsonData → Prop} {os : List Opt}
  {file : ConfigFile}

theorem ConfigFile.read_whole (hlen : file.len = file.content.length) :
    file.read = .ok file.content := by
  rw [ConfigFile.read, if_neg (by omega), hlen, Int.toNat_natCast, List.take_length]

/-- A file whose length an `int` can hold gives its ports. -/
theorem portsOf_holds (hreads : json.Reads reads) {items : List JsonData}
    (hholds : file.Holds json reads (.obj [(['p', 'o', 'r', 't', 's'], .arr items)]))
    (htext : file.okText = true) (hshort : file.content.length < 2 ^ 31) :
    ∃ ports, portsOf json file = .ok (some ports) ∧ reads ports (.arr items) := by
  obtain ⟨hlen, root, hroot, hdata⟩ := hholds
  obtain ⟨ports, hports, harr⟩ := hreads.present _ _ ['p', 'o', 'r', 't', 's'] _ hdata rfl
  obtain ⟨hisArray, -⟩ := hreads.arr _ _ harr
  refine ⟨ports, ?_, harr⟩
  have hcount : toInt file.content.length = file.len := by
    rw [hlen]
    exact toInt_eq_self (by omega) (by omega)
  simp only [portsOf, htext, Bool.not_true, Bool.false_eq_true, if_false,
    ConfigFile.read_whole hlen, ok_bind, hcount, ne_eq, not_true_eq_false, hroot, hports, hisArray,
    if_true]

/-- The file with the one item gives the configuration of the options. -/
theorem eSerialConfigLoadJson_form (hreads : json.Reads reads)
    (hholds : file.Holds json reads (fileData os)) (htext : file.okText = true)
    (hshort : file.content.length < 2 ^ 31) (hdecimal : DecimalOptions os) {device : Bytes}
    (hdevice : lastArg 'D' os = some device) {env : Nat → CopyEnv} (henv : ∀ i, env i = plentyToCopy)
    (queue : List SerialConfig) :
    eSerialConfigLoadJson json env (some file) queue =
      .ok (0, queue ++ [configAfter eSerialConfigInit os]) := by
  obtain ⟨ports, hports, harr⟩ := portsOf_holds hreads hholds htext hshort
  obtain ⟨-, hlength, hitems⟩ := hreads.arr _ _ harr
  have hload := loadItem_item hreads (hitems 0 _ rfl) hdecimal hdevice
  have hone : arrayLen json ports = 1 := by
    rw [arrayLen, hlength]
    rfl
  simp only [eSerialConfigLoadJson, hports, ok_bind, hone, List.range_one, List.foldlM_cons,
    List.foldlM_nil, pushItem, henv, hload, Option.toList_some]
  rfl

/-- `-C` with the name of the file. -/
def fileArgv (prog name : CStr) : List CStr := [prog, ⟨[code '-', code 'C'], by decide⟩, name]

theorem optionsOf_fileArgv (env : ParseEnv) (prog name : CStr) :
    optionsOf env (fileArgv prog name) = [.opt 'C' (some name.bytes)] := rfl

theorem ofBytes_bytes (s : CStr) : CStr.ofBytes s.bytes = s := by
  apply CStr.ext
  apply List.takeWhile_eq_self_iff.mpr
  intro b hb
  have hne : b ≠ 0 := fun hzero => s.nulFree (hzero ▸ hb)
  simpa using hne

/-- **Two forms.** When no allocation fails, a command line that is accepted without `-C` queues one
configuration, and the file of the same values, of a length that an `int` can hold, queues the same
one. -/
theorem forms_agree (hreads : json.Reads reads) {env : ParseEnv} (henv : env.Plenty)
    {argv : List CStr} (hnone : lastArg 'C' (optionsOf env argv) = none)
    (hdecimal : DecimalOptions (optionsOf env argv)) {queue queue' : List SerialConfig}
    (hparse : eSerialConfigParse json env argv queue = .ok (.returns 0, queue')) (prog name : CStr)
    (hfile : env.file name = some file) (htext : file.okText = true)
    (hshort : file.content.length < 2 ^ 31)
    (hholds : file.Holds json reads (fileData (optionsOf env argv))) :
    ∃ c, queue' = queue ++ [c] ∧
      eSerialConfigParse json env (fileArgv prog name) queue = .ok (.returns 0, queue ++ [c]) := by
  obtain ⟨hqueue, -, hdevice⟩ := parse_options henv hnone hparse
  obtain ⟨device, hdevice⟩ := Option.ne_none_iff_exists'.mp hdevice
  refine ⟨_, hqueue, ?_⟩
  have hoptions : handleOptions env.okName 0 (optionsOf env (fileArgv prog name)) eSerialConfigInit
      none = .next eSerialConfigInit (some name) := by
    rw [optionsOf_fileArgv, handleOptions, handleOption, if_pos (henv.okName 0), ofBytes_bytes]
    rfl
  rw [eSerialConfigParse, hoptions]
  simp only [hfile, eSerialConfigLoadJson_form hreads hholds htext hshort hdecimal hdevice henv.item
    queue, ok_bind]
  rfl

end Form

/-! ### One port in both forms -/

/-- A text with the values it stands for, given what its parser answers. -/
def dataJson (parse : CStr → Option JsonData) : JsonC JsonData where
  tokenerParse := parse
  objectGetEx
    | some (.obj fields), key => (fields.lookup key).map some
    | _, _ => none
  isArray
    | some (.arr _) => true
    | _ => false
  arrayLength
    | some (.arr items) => items.length
    | _ => 0
  arrayGetIdx
    | some (.arr items), i => items[i]?
    | _, _ => none
  getString
    | some (.str s) => some s
    | _ => none
  getInt
    | some (.int n) => n
    | _ => 0

def DataReads (v : Option JsonData) (d : JsonData) : Prop := v = some d

theorem dataJson_reads (parse : CStr → Option JsonData) : (dataJson parse).Reads DataReads where
  str := by
    rintro _ s rfl
    rfl
  int := by
    rintro _ n rfl - -
    rfl
  absent := by
    rintro _ fields key rfl hlookup
    exact Option.map_eq_none_iff.mpr hlookup
  present := by
    rintro _ fields key d rfl hlookup
    exact ⟨some d, congrArg (Option.map some) hlookup, rfl⟩
  arr := by
    rintro _ items rfl
    exact ⟨rfl, rfl, fun _ _ hitem => hitem⟩

/-- `{"ports":[{"uid":"a","device":"b","baud":9600,"databits":7,"stopbits":2,"parity":"e"}]}` -/
def formText : Bytes :=
  (['{', '"', 'p', 'o', 'r', 't', 's', '"', ':', '[', '{', '"', 'u', 'i', 'd', '"', ':', '"', 'a',
    '"', ',', '"', 'd', 'e', 'v', 'i', 'c', 'e', '"', ':', '"', 'b', '"', ',', '"', 'b', 'a', 'u',
    'd', '"', ':', '9', '6', '0', '0', ',', '"', 'd', 'a', 't', 'a', 'b', 'i', 't', 's', '"', ':',
    '7', ',', '"', 's', 't', 'o', 'p', 'b', 'i', 't', 's', '"', ':', '2', ',', '"', 'p', 'a', 'r',
    'i', 't', 'y', '"', ':', '"', 'e', '"', '}', ']', '}']).map code

def formItem : JsonData :=
  .obj [(['u', 'i', 'd'], .str (.ofBytes [code 'a'])),
    (['d', 'e', 'v', 'i', 'c', 'e'], .str (.ofBytes [code 'b'])),
    (['b', 'a', 'u', 'd'], .int 9600), (['d', 'a', 't', 'a', 'b', 'i', 't', 's'], .int 7),
    (['s', 't', 'o', 'p', 'b', 'i', 't', 's'], .int 2),
    (['p', 'a', 'r', 'i', 't', 'y'], .str (.ofBytes [code 'e']))]

/-- json-c on this text, with any spaces between its tokens. -/
def formJson : JsonC JsonData :=
  dataJson fun text =>
    if text.bytes.filter (· ≠ 32) = formText then
      some (.obj [(['p', 'o', 'r', 't', 's'], .arr [formItem])])
    else none

/-- The text with spaces after it. -/
def formFile (spaces : Nat) : ConfigFile where
  len := (formText ++ List.replicate spaces 32).length
  okText := true
  content := formText ++ List.replicate spaces 32

def formEnv (spaces : Nat) : ParseEnv where
  okName _ := true
  copy := plentyToCopy
  item _ := plentyToCopy
  file _ := some (formFile spaces)
  posixlyCorrect := false

theorem formEnv_plenty (spaces : Nat) : (formEnv spaces).Plenty :=
  ⟨fun _ => rfl, rfl, fun _ => rfl⟩

/-- However many spaces there are, the file is the one with the values of
`-u a -D b -b 9600 -d 7 -p e -s 2`. -/
theorem formFile_holds (spaces : Nat) :
    (formFile spaces).Holds formJson DataReads (fileData (optionsOf (formEnv spaces) evenArgv)) where
  len := rfl
  parses := by
    refine ⟨_, if_pos ?_, rfl⟩
    have hchars : ∀ b ∈ formText ++ List.replicate spaces (32 : UInt8), b ≠ 0 := by
      intro b hb
      rcases List.mem_append.mp hb with htext | hspace
      · have hall : formText.all (fun b => b ≠ 0) = true := rfl
        simpa using List.all_eq_true.mp hall b htext
      · rw [List.eq_of_mem_replicate hspace]
        decide
    have hwhole : (CStr.ofBytes (formFile spaces).content).bytes =
        formText ++ List.replicate spaces 32 :=
      List.takeWhile_eq_self_iff.mpr fun b hb => by simpa using hchars b hb
    have hspaces : (List.replicate spaces (32 : UInt8)).filter (· ≠ 32) = [] := by simp
    rw [hwhole, List.filter_append, hspaces]
    rfl

theorem formOptions : DecimalOptions (optionsOf (formEnv 0) evenArgv) := by
  intro x hx hnumber arg harg
  have hgiven : (formKeys.filter fun x => x.2.2).filterMap
      (fun x => lastArg x.2.1 (optionsOf (formEnv 0) evenArgv)) =
        [['9', '6', '0', '0'].map code, ['7'].map code, ['2'].map code] := rfl
  have hmem : arg ∈ (formKeys.filter fun x => x.2.2).filterMap
      fun x => lastArg x.2.1 (optionsOf (formEnv 0) evenArgv) :=
    List.mem_filterMap.mpr ⟨x, List.mem_filter.mpr ⟨hx, hnumber⟩, harg⟩
  have hnumbers : ∀ arg ∈ [['9', '6', '0', '0'].map code, ['7'].map code, ['2'].map code],
      arg ≠ [] ∧ arg.all (fun b => code '0' ≤ b ∧ b ≤ code '9') = true ∧
        0 ≤ decimalValue arg ∧ decimalValue arg ≤ 9600 := by decide
  rw [hgiven] at hmem
  obtain ⟨hne, hall, hnonneg, hsmall⟩ := hnumbers arg hmem
  have hdigits : ∀ b ∈ arg, code '0' ≤ b ∧ b ≤ code '9' :=
    fun b hb => of_decide_eq_true (List.all_eq_true.mp hall b hb)
  exact ⟨⟨arg, hne, hdigits, Or.inl rfl⟩, by omega, by omega⟩

theorem formParse (spaces : Nat) : ∃ c,
    eSerialConfigParse formJson (formEnv spaces) evenArgv [] = .ok (.returns 0, [c]) ∧
      c.baudrate = 9600 ∧ c.databits = 7 ∧ c.parity = 'e' ∧ c.stopbits = 2 :=
  ⟨_, rfl, rfl, rfl, rfl, rfl⟩

theorem forms_agree_even : ∃ c,
    eSerialConfigParse formJson (formEnv 0) evenArgv [] = .ok (.returns 0, [c]) ∧
      (c.baudrate = 9600 ∧ c.databits = 7 ∧ c.parity = 'e' ∧ c.stopbits = 2) ∧
      ∃ c', [c] = [] ++ [c'] ∧ eSerialConfigParse formJson (formEnv 0)
        (fileArgv deviceName deviceName) [] = .ok (.returns 0, [] ++ [c']) := by
  obtain ⟨c, hparse, hvalues⟩ := formParse 0
  exact ⟨c, hparse, hvalues, forms_agree (dataJson_reads _) (formEnv_plenty 0) rfl formOptions hparse
    deviceName deviceName rfl rfl (by decide) (formFile_holds 0)⟩

/-- A file that is too long for the count of its bytes is refused. -/
theorem formFile_refused {spaces : Nat} (hlong : 2 ^ 31 ≤ spaces) :
    eSerialConfigParse formJson (formEnv spaces) (fileArgv deviceName deviceName) [] =
      .ok (.returns (-1), []) := by
  have hcount : toInt (formFile spaces).content.length ≠ (formFile spaces).len := by
    have hlt := toInt_lt (formFile spaces).content.length
    have hlen : (2 : Int) ^ 31 ≤ (formFile spaces).len := by
      simp only [formFile, List.length_append, List.length_replicate]
      omega
    omega
  have hports : portsOf formJson (formFile spaces) = .ok none := by
    have htext : (!(formFile spaces).okText) = false := rfl
    rw [portsOf, htext, if_neg Bool.false_ne_true, ConfigFile.read_whole rfl, ok_bind,
      if_pos hcount]
  have hload : eSerialConfigLoadJson formJson (formEnv spaces).item (some (formFile spaces)) [] =
      .ok (-1, []) := by
    rw [eSerialConfigLoadJson, hports, ok_bind]
  have hoptions : handleOptions (formEnv spaces).okName 0
      (optionsOf (formEnv spaces) (fileArgv deviceName deviceName)) eSerialConfigInit none =
        .next eSerialConfigInit (some deviceName) := rfl
  rw [eSerialConfigParse, hoptions]
  exact congrArg (· >>= _) hload

/-- The options queue one configuration and the file with the same values queues none: when there is
no memory for the item, and when spaces make the file too long. -/
theorem forms_agree_counterexample : ∃ c,
    (∃ env, env.file = (formEnv 0).file ∧
      eSerialConfigParse formJson env evenArgv [] = .ok (.returns 0, [c]) ∧
        eSerialConfigParse formJson env (fileArgv deviceName deviceName) [] =
          .ok (.returns 0, [])) ∧
      ∃ spaces, eSerialConfigParse formJson (formEnv spaces) evenArgv [] = .ok (.returns 0, [c]) ∧
        eSerialConfigParse formJson (formEnv spaces) (fileArgv deviceName deviceName) [] =
          .ok (.returns (-1), []) :=
  ⟨_, ⟨{ formEnv 0 with item := fun _ => ⟨false, true, true⟩ }, rfl, rfl, rfl⟩,
    2 ^ 31, rfl, formFile_refused le_rfl⟩

end LibEzmb
