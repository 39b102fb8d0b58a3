import LibEzmb.BaseOwnership
import LibEzmb.SerialConfigs

/-! What the loading of configurations acquires: the file, the text and the tree of a JSON file, the
configurations with their strings and their nodes of the queue, and the copies of file names. All but the
nodes and configurations in the queue and the copies of the names is given back, on every path. -/

open CBytes CHeap CLib Ledgers Ownership

namespace LibEzmb

/-- An open file, a block of memory, a JSON tree. -/
inductive LoadResource where
  | file (f : Addr)
  | block (a : Addr)
  | json (r : Addr)
  deriving DecidableEq, Repr

instance : Nested LoadResource := ⟨fun _ => none⟩

instance : Flat LoadResource := ⟨fun _ => rfl⟩

abbrev LoadProg (α : Type) := Prog LoadResource α

/-- A `serial_config_t` on the heap: the values, where it is, and where its strings are. -/
structure LoadedConfig where
  config : SerialConfig
  self : Addr
  uid : Option Addr
  device : Option Addr

/-- A configuration in the queue, and the node it is in. -/
structure QueuedConfig where
  node : Addr
  loaded : LoadedConfig

def QueuedConfig.config (q : QueuedConfig) : SerialConfig := q.loaded.config

/-- The last node of the queue; `top`, which holds no configuration, is the first. -/
def rearOf (top : Addr) (queue : List QueuedConfig) : Addr :=
  (queue.getLast?.map QueuedConfig.node).getD top

/-- What `malloc` and the two `strdup` calls give for a configuration, and `malloc` for its node. -/
structure ConfigEnv where
  config : Option Addr
  uid : Option Addr
  device : Option Addr
  node : Option Addr

def ConfigEnv.calls (env : ConfigEnv) : CopyEnv :=
  ⟨env.config.isSome, env.uid.isSome, env.device.isSome⟩

/-- `strdup` of a string: the copy and where it is. -/
def strdupLoad (answer : Option Addr) (s : CStr) : LoadProg (Option CStr × Option Addr) := do
  let p ← acquire LoadResource.block answer
  pure (if answer.isSome then some s else none, p)

/-- `e_serial_config_free`. -/
def eSerialConfigFreeOwned (self : Addr) (uid device : Option Addr) : LoadProg Unit := do
  releaseOpt (uid.map .block)
  releaseOpt (device.map .block)
  release (.block self)
  pure ()

/-- `src->uid ? strdup(src->uid) : NULL`. -/
def strdupOrNull (answer : Option Addr) : Option CStr → LoadProg (Option CStr × Option Addr)
  | none => pure (none, none)
  | some s => strdupLoad answer s

/-- `e_serial_config_copy`, whose source is not on the heap. -/
def eSerialConfigCopyOwned (env : ConfigEnv) (src : SerialConfig) :
    LoadProg (Option LoadedConfig) := do
  match ← acquire LoadResource.block env.config with
  | none => pure none
  | some self => do
      let uid ← strdupOrNull env.uid src.uid
      let device ← strdupOrNull env.device src.device
      pure (some ⟨{ src with uid := uid.1, device := device.1 }, self, uid.2, device.2⟩)

/-- `e_queue_push` on a queue that is initialised. It writes to the node whether there is one or not. -/
def eQueuePushOwned (top : Addr) (answer : Option Addr) (queue : List QueuedConfig)
    (data : LoadedConfig) : LoadProg (List QueuedConfig) := do
  match ← acquire LoadResource.block answer with
  | none => fail .nullDeref
  | some node => do
      use (.block (rearOf top queue))
      pure (queue ++ [⟨node, data⟩])

/-- A configuration that there is goes into the queue. -/
def pushLoaded (top : Addr) (answer : Option Addr) (queue : List QueuedConfig) :
    Option LoadedConfig → LoadProg (List QueuedConfig)
  | none => pure queue
  | some data => eQueuePushOwned top answer queue data

/-! ### The JSON file -/

section Json

variable {J : Type} (json : JsonC J) (top : Addr)

/-- The copy of the string under a key, a part of the tree. -/
def stringFieldOwned (root : Addr) (answer : Option Addr) (item : Option J) (key : List Char) :
    LoadProg (Option CStr × Option Addr) := do
  use (.json root)
  match json.objectGetEx item key with
  | none => pure (none, none)
  | some j => match json.getString j with
    | none => fail .nullDeref
    | some s => strdupLoad answer s

/-- The body of the loop over the array: the configuration it pushes, if any. -/
def loadItemOwned (root : Addr) (env : ConfigEnv) (item : Option J) :
    LoadProg (Option LoadedConfig) := do
  match ← acquire LoadResource.block env.config with
  | none => pure none
  | some self => do
      let init := eSerialConfigInit
      let uid ← stringFieldOwned json root env.uid item ['u', 'i', 'd']
      let device ← stringFieldOwned json root env.device item ['d', 'e', 'v', 'i', 'c', 'e']
      use (.json root)
      let config : SerialConfig :=
        { uid := uid.1
          device := device.1
          baudrate := intField json item ['b', 'a', 'u', 'd'] init.baudrate
          databits := intField json item ['d', 'a', 't', 'a', 'b', 'i', 't', 's'] init.databits
          stopbits := intField json item ['s', 't', 'o', 'p', 'b', 'i', 't', 's'] init.stopbits
          parity := parityField json item init.parity
          minDelayMs := intField json item ['m', 'i', 'n', 'd', 'e', 'l', 'a', 'y'] init.minDelayMs
          maxlen := intField json item ['m', 'a', 'x', 'l', 'e', 'n'] init.maxlen
          timeoutMs := intField json item ['t', 'i', 'm', 'e', 'o', 'u', 't'] init.timeoutMs }
      if device.2.isNone then do
        eSerialConfigFreeOwned self uid.2 device.2
        pure none
      else pure (some ⟨config, self, uid.2, device.2⟩)

/-- One round of the loop over the array. -/
def pushItemOwned (root : Addr) (env : Nat → ConfigEnv) (ports : Option J)
    (queue : List QueuedConfig) (i : Nat) : LoadProg (List QueuedConfig) := do
  use (.json root)
  let config ← loadItemOwned json root (env i) (json.arrayGetIdx ports i)
  pushLoaded top (env i).node queue config

/-- What the system gives the loader for a file: the `FILE`, the buffer for its text if there is
memory for it, the tree if there is one, and what it gives for each item. -/
structure LoaderEnv where
  fp : Addr
  text : Addr
  root : Addr
  item : Nat → ConfigEnv

/-- `e_serial_config_load_json`, which may write past the buffer where the length is negative. -/
def eSerialConfigLoadJsonOwned (env : LoaderEnv) (file : Option ConfigFile)
    (queue : List QueuedConfig) : LoadProg (Int × List QueuedConfig) := do
  match file with
  | none => pure (-1, queue)
  | some file => do
      let _ ← acquire LoadResource.file (some env.fp)
      match ← acquire LoadResource.block (if file.okText then some env.text else none) with
      | none => do
          release (.file env.fp)
          pure (-1, queue)
      | some json_str => do
          use (.file env.fp)
          match file.read with
          | .error _ => fail .notHeld
          | .ok text =>
              if toInt text.length ≠ file.len then do
                release (.file env.fp)
                release (.block json_str)
                pure (-1, queue)
              else do
                use (.block json_str)
                release (.file env.fp)
                use (.block json_str)
                let tree := json.tokenerParse (.ofBytes text)
                let r ← acquire LoadResource.json (tree.map fun _ => env.root)
                release (.block json_str)
                match tree, r with
                | some root, some r => do
                    use (.json r)
                    match json.objectGetEx (some root) ['p', 'o', 'r', 't', 's'] with
                    | none => do
                        release (.json r)
                        pure (-1, queue)
                    | some ports =>
                        if json.isArray ports then do
                          let queue ← (List.range (arrayLen json ports)).foldlM
                            (pushItemOwned json top r env.item ports) queue
                          release (.json r)
                          pure (0, queue)
                        else do
                          release (.json r)
                          pure (-1, queue)
                | _, _ => pure (-1, queue)

end Json

/-! ### The command line -/

/-- `config_file = strdup(optarg);`, which forgets the copy that was there. -/
def copyName (answer : Option Addr) (p : Option Addr) : Opt → LoadProg (Option Addr)
  | .opt 'C' (some _) => acquire LoadResource.block answer
  | _ => pure p

/-- The loop over the options, from the one with number `i` on, with where the copy of the file's name
is. -/
def handleOptionsOwned (name : Nat → Option Addr) :
    Nat → List Opt → SerialConfig → Option CStr → Option Addr →
      LoadProg (OptionResult × Option Addr)
  | _, [], config, configFile, p => pure (.next config configFile, p)
  | i, o :: os, config, configFile, p => do
      let p ← copyName (name i) p o
      match handleOption (name i).isSome config configFile o with
      | .next config configFile => handleOptionsOwned name (i + 1) os config configFile p
      | result => pure (result, p)

/-- What the system gives the parser. -/
structure ParserEnv where
  name : Nat → Option Addr
  copy : ConfigEnv
  loader : LoaderEnv
  file : CStr → Option ConfigFile
  posixlyCorrect : Bool

/-- The same, for the parser as it was before. -/
def ParserEnv.calls (env : ParserEnv) : ParseEnv where
  okName i := (env.name i).isSome
  copy := env.copy.calls
  item i := (env.loader.item i).calls
  file := env.file
  posixlyCorrect := env.posixlyCorrect

/-- `e_serial_config_parse`. -/
def eSerialConfigParseOwned {J : Type} (json : JsonC J) (top : Addr) (env : ParserEnv)
    (argv : List CStr) (queue : List QueuedConfig) : LoadProg (ParseResult × List QueuedConfig) := do
  match ← handleOptionsOwned env.name 0 (optionsOf env.calls argv) eSerialConfigInit none none with
  | (.fails, _) => pure (.returns (-1), queue)
  | (.exits status, _) => pure (.exits status, queue)
  | (.next _ (some configFile), p) => do
      match p with
      | none => fail .nullDeref
      | some p => use (.block p)
      let (r, queue) ← eSerialConfigLoadJsonOwned json top env.loader (env.file configFile) queue
      pure (.returns (if r ≠ 0 then -1 else 0), queue)
  | (.next config none, _) =>
      if config.device.isSome && config.uid.isSome then do
        let copy ← eSerialConfigCopyOwned env.copy config
        let queue ← pushLoaded top env.copy.node queue copy
        pure (.returns 0, queue)
      else pure (.exits 1, queue)

/-! ### What the functions own -/

/-- The strings of a configuration and its block. -/
def LoadedConfig.resources (c : LoadedConfig) : List LoadResource :=
  (c.uid.map .block).toList ++ ((c.device.map .block).toList ++ [.block c.self])

/-- Its node and what the configuration is made of. -/
def QueuedConfig.resources (q : QueuedConfig) : List LoadResource := .block q.node :: q.loaded.resources

section Owned

variable {faults : OwnFault → Prop} {α : Type} {pre own : List LoadResource}
  {post : α → List LoadResource → Prop}

theorem strdupLoad_owns {answer : Option Addr} {s : CStr}
    {f : Option CStr × Option Addr → LoadProg α} (himpossible : faults .impossible)
    (hf : Owns faults ((answer.map LoadResource.block).toList ++ pre)
      (f (if answer.isSome then some s else none, answer)) post) :
    Owns faults pre (strdupLoad answer s >>= f) post := by
  simp only [strdupLoad, bind_assoc, pure_bind]
  exact Owns.acquireOpt himpossible nofun hf

theorem strdupOrNull_owns {answer : Option Addr} {s : Option CStr}
    {f : Option CStr × Option Addr → LoadProg α} (himpossible : faults .impossible)
    (hf : ∀ p : Option Addr, Owns faults ((p.map LoadResource.block).toList ++ pre)
      (f (if answer.isSome then s else none, p)) post) :
    Owns faults pre (strdupOrNull answer s >>= f) post := by
  cases s with
  | none =>
      have hnone := hf none
      rw [ite_self] at hnone
      exact hnone
  | some s => exact strdupLoad_owns himpossible (hf answer)

theorem eSerialConfigFreeOwned_owns {self : Addr} {uid device : Option Addr}
    {f : Unit → LoadProg α} (hf : Owns faults own (f ()) post) :
    Owns faults ((uid.map LoadResource.block).toList ++
        ((device.map LoadResource.block).toList ++ .block self :: own))
      (eSerialConfigFreeOwned self uid device >>= f) post := by
  simp only [eSerialConfigFreeOwned, bind_assoc, pure_bind]
  exact Owns.releaseOptFlat (Owns.releaseOptFlat (Owns.releaseFlat hf))

/-- What is returned owns what it is made of, beside what was owned before. -/
def OwnsLoaded (pre : List LoadResource) (c : Option LoadedConfig) (own : List LoadResource) : Prop :=
  own.Perm (c.toList.flatMap LoadedConfig.resources ++ pre)

/-- The new configurations of a queue own their nodes and what they are made of, beside what was owned
before. -/
def OwnsQueue (pre : List LoadResource) (old queue : List QueuedConfig)
    (own : List LoadResource) : Prop :=
  ∃ new, queue = old ++ new ∧ own.Perm (new.flatMap QueuedConfig.resources ++ pre)

theorem OwnsQueue.refl (pre : List LoadResource) (queue : List QueuedConfig) :
    OwnsQueue pre queue queue pre := ⟨[], (List.append_nil _).symm, List.Perm.refl _⟩

theorem OwnsQueue.perm {pre' : List LoadResource} {old queue : List QueuedConfig}
    (hqueue : OwnsQueue pre old queue own) (hpre : pre.Perm pre') : OwnsQueue pre' old queue own := by
  obtain ⟨new, hnew, hown⟩ := hqueue
  exact ⟨new, hnew, hown.trans (hpre.append_left _)⟩

theorem OwnsQueue.mem {old queue : List QueuedConfig} {r : LoadResource}
    (hqueue : OwnsQueue pre old queue own) (hr : r ∈ pre) : r ∈ own := by
  obtain ⟨new, -, hperm⟩ := hqueue
  exact hperm.mem_iff.mpr (List.mem_append_right _ hr)

/-- The last node of the queue is owned, since it was before or is new. -/
theorem OwnsQueue.rear_mem {top : Addr} {old queue : List QueuedConfig}
    (hqueue : OwnsQueue pre old queue own) (hrear : .block (rearOf top old) ∈ pre) :
    LoadResource.block (rearOf top queue) ∈ own := by
  obtain ⟨new, rfl, hperm⟩ := hqueue
  refine hperm.mem_iff.mpr (List.mem_append.mpr ?_)
  rcases List.eq_nil_or_concat new with rfl | ⟨front, q, rfl⟩
  · rw [List.append_nil]
    exact Or.inr hrear
  · refine Or.inl (List.mem_flatMap.mpr ⟨q, by simp, ?_⟩)
    simp [rearOf, QueuedConfig.resources]

theorem OwnsQueue.push {old queue : List QueuedConfig} {q : QueuedConfig} {own' : List LoadResource}
    (hqueue : OwnsQueue pre old queue own) (hq : own'.Perm (q.resources ++ own)) :
    OwnsQueue pre old (queue ++ [q]) own' := by
  obtain ⟨new, rfl, hown⟩ := hqueue
  refine ⟨new ++ [q], List.append_assoc _ _ _, hq.trans ?_⟩
  calc
    (q.resources ++ own).Perm
        (q.resources ++ (new.flatMap QueuedConfig.resources ++ pre)) :=
      hown.append_left _
    _ = ([q] ++ new).flatMap QueuedConfig.resources ++ pre := by
      rw [List.flatMap_append, List.flatMap_singleton, List.append_assoc]
    (([q] ++ new).flatMap QueuedConfig.resources ++ pre).Perm
        ((new ++ [q]).flatMap QueuedConfig.resources ++ pre) :=
      (List.perm_append_comm.flatMap_right _).append_right _

/-- A configuration that was loaded goes into the queue with a node of its own, unless there is no
memory for the node. -/
theorem pushLoaded_owns {top : Addr} {answer : Option Addr} {old queue : List QueuedConfig}
    {c : Option LoadedConfig} {own' : List LoadResource} (himpossible : faults .impossible)
    (hnode : answer = none → faults .nullDeref) (hrear : .block (rearOf top old) ∈ pre)
    (hqueue : OwnsQueue pre old queue own) (hc : OwnsLoaded own c own') :
    Owns faults own' (pushLoaded top answer queue c) fun q own'' =>
      q.map QueuedConfig.config =
          queue.map QueuedConfig.config ++ (c.map LoadedConfig.config).toList ∧
        OwnsQueue pre old q own'' := by
  cases c with
  | none =>
      refine .pure ⟨(List.append_nil _).symm, ?_⟩
      obtain ⟨new, hnew, hown⟩ := hqueue
      exact ⟨new, hnew, hc.trans hown⟩
  | some data =>
      refine Owns.acquireFlat himpossible (fun hnone => .fail (hnode hnone)) fun node _ => ?_
      have hmem : LoadResource.block (rearOf top queue) ∈ own' :=
        hc.mem_iff.mpr (List.mem_append_right _ (hqueue.rear_mem hrear))
      refine Owns.use (List.mem_cons_of_mem _ hmem) (.pure ⟨?_, hqueue.push ?_⟩)
      · rw [List.map_append]
        rfl
      · refine (hc.cons _).trans ?_
        simp [QueuedConfig.resources]

theorem eSerialConfigCopyOwned_owns (env : ConfigEnv) (src : SerialConfig)
    (himpossible : faults .impossible) :
    Owns faults pre (eSerialConfigCopyOwned env src) fun c own =>
      eSerialConfigCopy env.calls src = c.map LoadedConfig.config ∧ OwnsLoaded pre c own := by
  refine Owns.acquireFlat himpossible (fun hnone => ?_) fun self hself => ?_
  · refine .pure ⟨?_, List.Perm.refl _⟩
    simp [eSerialConfigCopy, ConfigEnv.calls, hnone]
  · refine strdupOrNull_owns himpossible fun u => strdupOrNull_owns himpossible fun d =>
      .pure ⟨?_, ?_⟩
    · simp [eSerialConfigCopy, ConfigEnv.calls, hself]
    · rw [OwnsLoaded, List.perm_iff_count]
      intro r
      simp only [LoadedConfig.resources, Option.toList_some, List.flatMap_singleton,
        List.count_append, List.count_cons, List.count_nil]
      omega

section Json

variable {J : Type} {json : JsonC J}

theorem stringFieldOwned_owns {root : Addr} {answer : Option Addr} {item : Option J}
    {key : List Char} {f : Option CStr × Option Addr → LoadProg α}
    (himpossible : faults .impossible) (hroot : .json root ∈ pre)
    (hnull : ∀ e, stringField json answer.isSome item key none = .error e → faults .nullDeref)
    (hf : ∀ v p, stringField json answer.isSome item key none = .ok v → v.isNone = p.isNone →
      Owns faults ((p.map LoadResource.block).toList ++ pre) (f (v, p)) post) :
    Owns faults pre (stringFieldOwned json root answer item key >>= f) post := by
  simp only [stringFieldOwned, bind_assoc]
  refine Owns.use hroot ?_
  simp only [stringField, strdupJson] at hnull hf
  cases hkey : json.objectGetEx item key with
  | none =>
      simp only [hkey] at hf
      exact hf none none rfl rfl
  | some j =>
      simp only [hkey] at hnull hf
      dsimp only
      cases hstring : json.getString j with
      | none =>
          simp only [hstring] at hnull
          exact Owns.fail_bind (hnull _ rfl)
      | some s =>
          simp only [hstring] at hf
          refine strdupLoad_owns himpossible (hf _ answer rfl ?_)
          cases answer <;> rfl

theorem loadItemOwned_owns {root : Addr} (env : ConfigEnv) (item : Option J)
    (himpossible : faults .impossible) (hroot : .json root ∈ pre)
    (hnull : ∀ e, loadItem json env.calls item = .error e → faults .nullDeref) :
    Owns faults pre (loadItemOwned json root env item) fun c own =>
      loadItem json env.calls item = .ok (c.map LoadedConfig.config) ∧ OwnsLoaded pre c own := by
  refine Owns.acquireFlat himpossible (fun hnone => ?_) fun self hself => ?_
  · refine .pure ⟨?_, List.Perm.refl _⟩
    simp [loadItem, ConfigEnv.calls, hnone]
  have hroot' := List.mem_cons_of_mem (LoadResource.block self) hroot
  simp only [loadItem, ConfigEnv.calls, hself, Option.isSome_some, Bool.not_true,
    Bool.false_eq_true, if_false] at hnull ⊢
  refine stringFieldOwned_owns himpossible hroot' (fun e he => hnull e ?_) fun uid u huid hu => ?_
  · rw [show eSerialConfigInit.uid = none from rfl, he]
    rfl
  rw [show eSerialConfigInit.uid = none from rfl, huid] at hnull ⊢
  refine stringFieldOwned_owns himpossible (List.mem_append_right _ hroot') (fun e he => hnull e ?_)
    fun device d hdevice hd => ?_
  · rw [show eSerialConfigInit.device = none from rfl, ok_bind, he]
    rfl
  rw [show eSerialConfigInit.device = none from rfl, ok_bind, hdevice, ok_bind]
  refine Owns.use (List.mem_append_right _ (List.mem_append_right _ hroot')) ?_
  dsimp only
  cases d with
  | none =>
      rw [if_pos (show (none : Option Addr).isNone = true from rfl),
        if_pos (show device.isNone = true from hd)]
      exact eSerialConfigFreeOwned_owns (.pure ⟨rfl, List.Perm.refl _⟩)
  | some d =>
      rw [if_neg (by simp), if_neg (by simp [hd])]
      refine .pure ⟨rfl, ?_⟩
      rw [OwnsLoaded, List.perm_iff_count]
      intro r
      simp only [LoadedConfig.resources, Option.toList_some, List.flatMap_singleton,
        List.count_append, List.count_cons, List.count_nil]
      omega

/-- The loop over the array pushes what the loader as it was before pushes. -/
theorem pushItemsOwned_owns {top root : Addr} (env : Nat → ConfigEnv) (ports : Option J)
    (is : List Nat) (queue : List QueuedConfig) (himpossible : faults .impossible)
    (hnode : ∀ i, (env i).node = none → faults .nullDeref) (hrear : .block (rearOf top queue) ∈ pre)
    (hroot : .json root ∈ pre)
    (hnull : ∀ e, is.foldlM (pushItem json (fun i => (env i).calls) ports)
      (queue.map QueuedConfig.config) = .error e → faults .nullDeref) :
    Owns faults pre (is.foldlM (pushItemOwned json top root env ports) queue) fun q own =>
      is.foldlM (pushItem json (fun i => (env i).calls) ports) (queue.map QueuedConfig.config) =
        .ok (q.map QueuedConfig.config) ∧ OwnsQueue pre queue q own := by
  refine Owns.foldlM (fun done q own =>
    done.foldlM (pushItem json (fun i => (env i).calls) ports) (queue.map QueuedConfig.config) =
      .ok (q.map QueuedConfig.config) ∧ OwnsQueue pre queue q own) ?_ ⟨rfl, .refl pre queue⟩
  rintro done i rest q own rfl ⟨hdone, hown⟩
  have hroot' := hown.mem hroot
  refine Owns.use hroot' ?_
  refine (loadItemOwned_owns (env i) _ himpossible hroot' fun e he => hnull e ?_).bind
    fun c own' hc => (pushLoaded_owns himpossible (hnode i) hrear hown hc.2).mono
      fun q' own'' hq => ⟨?_, hq.2⟩
  · rw [List.foldlM_append, hdone, ok_bind, List.foldlM_cons, pushItem, he]
    rfl
  · rw [List.foldlM_append, hdone, ok_bind, List.foldlM_cons, pushItem, hc.1, ok_bind, hq.1]
    cases c <;> rfl

theorem eSerialConfigLoadJsonOwned_owns {top : Addr} (env : LoaderEnv) (file : Option ConfigFile)
    (queue : List QueuedConfig) (himpossible : faults .impossible)
    (hnode : ∀ i, (env.item i).node = none → faults .nullDeref)
    (hrear : .block (rearOf top queue) ∈ pre)
    (hfault : ∀ e, eSerialConfigLoadJson json (fun i => (env.item i).calls) file
      (queue.map QueuedConfig.config) = .error e → faults .nullDeref ∧ faults .notHeld) :
    Owns faults pre (eSerialConfigLoadJsonOwned json top env file queue) fun r own =>
      eSerialConfigLoadJson json (fun i => (env.item i).calls) file
          (queue.map QueuedConfig.config) = .ok (r.1, r.2.map QueuedConfig.config) ∧
        OwnsQueue pre queue r.2 own := by
  have hkept := OwnsQueue.refl pre queue
  unfold eSerialConfigLoadJsonOwned
  cases file with
  | none => exact .pure ⟨rfl, hkept⟩
  | some file =>
      simp only [eSerialConfigLoadJson, portsOf] at hfault ⊢
      refine Owns.acquireSome himpossible ?_
      cases htext : file.okText with
      | false =>
          rw [if_neg (by decide)]
          refine Owns.acquireNone ?_
          exact Owns.releaseFlat (.pure ⟨by simp, hkept⟩)
      | true =>
          rw [if_pos rfl]
          refine Owns.acquireSome himpossible ?_
          refine Owns.use (List.mem_cons_of_mem _ List.mem_cons_self) ?_
          simp only [htext, Bool.not_true, Bool.false_eq_true, if_false] at hfault ⊢
          cases hread : file.read with
          | error e => exact .fail (hfault e (by rw [hread]; rfl)).2
          | ok text =>
              simp only [hread, ok_bind] at hfault ⊢
              by_cases hlen : toInt text.length = file.len
              · rw [if_neg (not_not_intro hlen)] at hfault ⊢
                rw [if_neg (not_not_intro hlen)]
                refine Owns.use List.mem_cons_self (Owns.perm (List.Perm.swap _ _ _)
                  (Owns.releaseFlat (Owns.use List.mem_cons_self ?_)))
                cases htree : json.tokenerParse (.ofBytes text) with
                | none =>
                    refine Owns.acquireNone ?_
                    exact Owns.releaseFlat (.pure ⟨rfl, hkept⟩)
                | some root =>
                    refine Owns.acquireSome himpossible ?_
                    refine Owns.perm (List.Perm.swap _ _ _) (Owns.releaseFlat
                      (Owns.use List.mem_cons_self ?_))
                    simp only [htree] at hfault ⊢
                    cases hports : json.objectGetEx (some root) ['p', 'o', 'r', 't', 's'] with
                    | none => exact Owns.releaseFlat (.pure ⟨rfl, hkept⟩)
                    | some ports =>
                        simp only [hports] at hfault ⊢
                        cases harray : json.isArray ports with
                        | false => exact Owns.releaseFlat (.pure ⟨rfl, hkept⟩)
                        | true =>
                            simp only [harray, if_true, ok_bind] at hfault ⊢
                            refine (pushItemsOwned_owns env.item ports _ queue himpossible hnode
                              (List.mem_cons_of_mem _ hrear) List.mem_cons_self
                              fun e he => ?_).bind fun q own hq => ?_
                            · exact (hfault e (by rw [he]; rfl)).1
                            · obtain ⟨hval, new, hnew, hown⟩ := hq
                              refine Owns.perm (hown.trans List.perm_middle)
                                (Owns.releaseFlat (.pure ⟨?_, new, hnew, List.Perm.refl _⟩))
                              rw [hval]
                              rfl
              · rw [if_pos hlen] at hfault ⊢
                rw [if_pos hlen]
                exact Owns.perm (List.Perm.swap _ _ _) (Owns.releaseFlat
                  (Owns.releaseFlat (.pure ⟨rfl, hkept⟩)))

end Json

/-- The copy of a file's name that an option makes, if there is memory for it. -/
def nameCopy (answer : Option Addr) : Opt → List Addr
  | .opt 'C' (some _) => answer.toList
  | _ => []

/-- The copies that the loop over the options makes. -/
def nameCopies (name : Nat → Option Addr) : Nat → List Opt → SerialConfig → Option CStr → List Addr
  | _, [], _, _ => []
  | i, o :: os, config, configFile =>
      nameCopy (name i) o ++
        match handleOption (name i).isSome config configFile o with
        | .next config configFile => nameCopies name (i + 1) os config configFile
        | _ => []

/-- The name of the file is where the pointer says. -/
def NameAt (own : List LoadResource) (configFile : Option CStr) (p : Option Addr) : Prop :=
  configFile ≠ none → ∃ a, p = some a ∧ LoadResource.block a ∈ own

/-- An option leaves the name of the file as it is, or makes a copy of its argument. -/
theorem handleOption_file {okName : Bool} {config config' : SerialConfig}
    {file file' : Option CStr} {o : Opt}
    (hnext : handleOption okName config file o = .next config' file') :
    (∃ arg, o = .opt 'C' (some arg) ∧ file' = if okName then some (.ofBytes arg) else none) ∨
      (file' = file ∧ ∀ arg, o ≠ .opt 'C' (some arg)) := by
  unfold handleOption at hnext
  split at hnext
  case h_10 arg =>
    cases hnext
    exact Or.inl ⟨arg, rfl, rfl⟩
  case h_11 | h_12 => cases hnext
  all_goals
    first
    | cases hnext
      exact Or.inr ⟨rfl, nofun⟩
    | split at hnext
      · cases hnext
      · cases hnext
        exact Or.inr ⟨rfl, nofun⟩

theorem copyName_owns {answer p : Option Addr} (config : SerialConfig) {file : Option CStr} {o : Opt}
    {f : Option Addr → LoadProg α} (himpossible : faults .impossible) (hname : NameAt pre file p)
    (hf : ∀ q, (∀ config' file', handleOption answer.isSome config file o = .next config' file' →
        NameAt ((nameCopy answer o).map .block ++ pre) file' q) →
      Owns faults ((nameCopy answer o).map .block ++ pre) (f q) post) :
    Owns faults pre (copyName answer p o >>= f) post := by
  by_cases hcopy : ∃ arg, o = .opt 'C' (some arg)
  · obtain ⟨arg, rfl⟩ := hcopy
    have hlist : (answer.map LoadResource.block).toList = answer.toList.map .block := by
      cases answer <;> rfl
    refine Owns.acquireOpt himpossible nofun ?_
    rw [hlist]
    refine hf answer fun config' file' hnext hfile => ?_
    cases hnext
    cases answer with
    | none => exact absurd rfl hfile
    | some a => exact ⟨a, rfl, List.mem_cons_self⟩
  · have hnone : nameCopy answer o = [] := by
      unfold nameCopy
      split
      · next arg => exact absurd ⟨arg, rfl⟩ hcopy
      · rfl
    have hpure : copyName answer p o = pure p := by
      unfold copyName
      split
      · next arg => exact absurd ⟨arg, rfl⟩ hcopy
      · rfl
    rw [hnone] at hf
    rw [hpure, pure_bind]
    refine hf p fun config' file' hnext => ?_
    rcases handleOption_file hnext with ⟨arg, ho, -⟩ | ⟨rfl, -⟩
    · exact absurd ⟨arg, ho⟩ hcopy
    · exact hname

theorem handleOptionsOwned_owns (name : Nat → Option Addr) (himpossible : faults .impossible)
    {i : Nat} {os : List Opt} {config : SerialConfig} {file : Option CStr} {p : Option Addr}
    (hname : NameAt pre file p) :
    Owns faults pre (handleOptionsOwned name i os config file p) fun r own =>
      r.1 = handleOptions (fun i => (name i).isSome) i os config file ∧
        own.Perm ((nameCopies name i os config file).map .block ++ pre) ∧
        ∀ config' file', r.1 = .next config' file' → NameAt own file' r.2 := by
  induction os generalizing i config file p pre with
  | nil =>
      refine .pure ⟨rfl, List.Perm.refl _, fun config' file' hnext => ?_⟩
      cases hnext
      exact hname
  | cons o os ih =>
      rw [handleOptionsOwned]
      refine copyName_owns config himpossible hname fun q hq => ?_
      rw [handleOptions, nameCopies]
      cases hstep : handleOption (name i).isSome config file o with
      | next config' file' =>
          refine (ih (hq config' file' hstep)).mono fun r own hr => ⟨hr.1, ?_, hr.2.2⟩
          rw [List.map_append, List.append_assoc]
          exact hr.2.1.trans (List.perm_append_comm_assoc _ _ _)
      | fails | exits status =>
          refine .pure ⟨rfl, ?_, fun _ _ hnext => ?_⟩
          · rw [List.append_nil]
          · cases hnext

/-- `malloc` has no memory for the node of some configuration. -/
def ParserEnv.LacksNode (env : ParserEnv) : Prop :=
  env.copy.node = none ∨ ∃ i, (env.loader.item i).node = none

theorem eSerialConfigParseOwned_owns {J : Type} {json : JsonC J} {top : Addr} (env : ParserEnv)
    (argv : List CStr) (queue : List QueuedConfig) (himpossible : faults .impossible)
    (hnode : env.LacksNode → faults .nullDeref) (hrear : .block (rearOf top queue) ∈ pre)
    (hfault : ∀ e, eSerialConfigParse json env.calls argv (queue.map QueuedConfig.config) =
      .error e → faults .nullDeref ∧ faults .notHeld) :
    Owns faults pre (eSerialConfigParseOwned json top env argv queue) fun r own =>
      eSerialConfigParse json env.calls argv (queue.map QueuedConfig.config) =
          .ok (r.1, r.2.map QueuedConfig.config) ∧
        OwnsQueue ((nameCopies env.name 0 (optionsOf env.calls argv) eSerialConfigInit none).map
          .block ++ pre) queue r.2 own := by
  refine (handleOptionsOwned_owns env.name himpossible fun h => absurd rfl h).bind
    fun r own hr => ?_
  obtain ⟨result, p⟩ := r
  obtain ⟨hresult, hown, hname⟩ := hr
  have hkept := OwnsQueue.refl own queue
  have hrear' := hown.mem_iff.mpr (List.mem_append_right _ hrear)
  rw [eSerialConfigParse] at hfault ⊢
  change result = handleOptions env.calls.okName 0 (optionsOf env.calls argv) eSerialConfigInit none
    at hresult
  rw [← hresult] at hfault ⊢
  cases result with
  | fails => exact .pure ⟨rfl, hkept.perm hown⟩
  | exits status => exact .pure ⟨rfl, hkept.perm hown⟩
  | next config configFile =>
      cases configFile with
      | some configFile =>
          obtain ⟨a, rfl, ha⟩ := hname config (some configFile) rfl (Option.some_ne_none _)
          refine Owns.use ha ?_
          refine (eSerialConfigLoadJsonOwned_owns env.loader (env.file configFile) queue himpossible
            (fun i hi => hnode (Or.inr ⟨i, hi⟩)) hrear' fun e he => hfault e ?_).bind
              fun r own' hr => .pure ⟨?_, hr.2.perm hown⟩
          · show (eSerialConfigLoadJson json (fun i => (env.loader.item i).calls)
              (env.file configFile) _ >>= _) = _
            rw [he]
            rfl
          · show (eSerialConfigLoadJson json (fun i => (env.loader.item i).calls)
              (env.file configFile) _ >>= _) = _
            rw [hr.1]
            rfl
      | none =>
          dsimp only at hfault ⊢
          split
          · refine (eSerialConfigCopyOwned_owns env.copy config himpossible).bind fun c own' hc =>
              (pushLoaded_owns himpossible (fun hnone => hnode (Or.inl hnone)) hrear' hkept
                hc.2).bind fun q own'' hq => .pure ⟨?_, hq.2.perm hown⟩
            have hcopy : eSerialConfigCopy env.calls.copy config = c.map LoadedConfig.config := hc.1
            rw [hcopy, hq.1]
          · exact .pure ⟨rfl, hkept.perm hown⟩

end Owned

/-- **What loading leaves behind.** For every command line, every file, every answer of the allocations
and every queue that is initialised, the parser that keeps the books returns what the parser without them
returns, and goes wrong only where that one does or a configuration gets no node. Afterwards there are,
beside what was there before, the nodes and configurations that are new in the queue with their strings,
and one copy of a file's name for each `-C` gone over, which nothing will free; everything else that was
acquired has been given back once, and nothing was used before or after its time. -/
theorem loading_accounted {J : Type} (json : JsonC J) (env : ParserEnv) (argv : List CStr) {top : Addr}
    (queue : List QueuedConfig) {w : Account LoadResource} (hw : Ownership.Sound w)
    (hrear : .block (rearOf top queue) ∈ w.held) :
    (∃ e, eSerialConfigParseOwned json top env argv queue w = .error e ∧
      (e = .impossible ∨ e = .nullDeref ∧ env.LacksNode ∨
        ∃ fault, eSerialConfigParse json env.calls argv
          (queue.map QueuedConfig.config) = .error fault)) ∨
    ∃ r new w', eSerialConfigParseOwned json top env argv queue w = .ok ((r, queue ++ new), w') ∧
      eSerialConfigParse json env.calls argv (queue.map QueuedConfig.config) =
        .ok (r, (queue ++ new).map QueuedConfig.config) ∧
      w'.held.Perm (new.flatMap QueuedConfig.resources ++
        ((nameCopies env.name 0 (optionsOf env.calls argv) eSerialConfigInit none).map .block ++
          w.held)) ∧
      w'.held.Nodup ∧ w'.Balanced := by
  let faults (e : OwnFault) : Prop := e = .impossible ∨ e = .nullDeref ∧ env.LacksNode ∨
    ∃ fault, eSerialConfigParse json env.calls argv (queue.map QueuedConfig.config) = .error fault
  have hfaults : ∀ e, eSerialConfigParse json env.calls argv (queue.map QueuedConfig.config) =
      .error e → faults .nullDeref ∧ faults .notHeld :=
    fun e he => ⟨Or.inr (Or.inr ⟨e, he⟩), Or.inr (Or.inr ⟨e, he⟩)⟩
  have himpossible : faults .impossible := Or.inl rfl
  have hnode : env.LacksNode → faults .nullDeref := fun hlacks => Or.inr (Or.inl ⟨rfl, hlacks⟩)
  have hsplit := List.perm_cons_erase hrear
  rcases eSerialConfigParseOwned_owns env argv queue himpossible hnode (List.mem_singleton_self _) hfaults
    (w.held.erase (.block (rearOf top queue))) w (Flat.closed _) hw hsplit with ⟨e, herror, hfault⟩ |
    ⟨⟨r, queue'⟩, w', own, hok, ⟨hval, new, rfl, hown⟩, hsound, hheld⟩
  · exact Or.inl ⟨e, herror, hfault⟩
  · refine Or.inr ⟨r, new, w', hok, hval, hheld.trans ?_, hsound.nodup, hsound.balanced⟩
    refine (hown.append_right _).trans ?_
    rw [List.append_assoc, List.append_assoc]
    exact (hsplit.symm.append_left _).append_left _

/-- The program's name and `-C` twice, with the file of the sample. -/
def twiceArgv : List CStr := sampleArgv ++ [.ofBytes (['-', 'C', 'f'].map code)]

def twiceEnv : ParserEnv where
  name i := some (10 + i)
  copy := ⟨some 1, some 2, some 3, some 4⟩
  loader := ⟨0, 20, 0, fun _ => ⟨some 30, some 31, some 32, some 33⟩⟩
  file := sampleEnv.file
  posixlyCorrect := false

/-- The books of a queue that has been initialised, with its first node. -/
def queueAccount : Account LoadResource := ⟨[.block 5], [.block 5], []⟩

/-- Both copies of the file's name stay, beside the configuration, its node and the name of its device.
Without memory for the node the parser follows a null pointer. -/
theorem loading_accounted_twice : (∃ q w, eSerialConfigParseOwned sampleJson 5 twiceEnv twiceArgv []
      queueAccount = .ok ((.returns 0, [q]), w) ∧
    q.resources = [.block 33, .block 32, .block 30] ∧
    w.held.Perm (q.resources ++ [.block 10, .block 11, .block 5]) ∧ w.taken.length = 9) ∧
    eSerialConfigParseOwned sampleJson 5
      { twiceEnv with loader := ⟨0, 20, 0, fun _ => ⟨some 30, some 31, some 32, none⟩⟩ } twiceArgv []
      queueAccount = .error .nullDeref := by
  refine ⟨?_, rfl⟩
  obtain ⟨q, w, hrun, hq, htaken⟩ : ∃ q w, eSerialConfigParseOwned sampleJson 5 twiceEnv twiceArgv []
      queueAccount = .ok ((.returns 0, [q]), w) ∧ q.resources = [.block 33, .block 32, .block 30] ∧
      w.taken.length = 9 := ⟨_, _, rfl, rfl, rfl⟩
  refine ⟨q, w, hrun, hq, ?_, htaken⟩
  have hsound : Ownership.Sound queueAccount :=
    ⟨List.nodup_singleton _, Flat.closed _, List.Perm.refl _⟩
  rcases loading_accounted sampleJson twiceEnv twiceArgv [] hsound List.mem_cons_self with ⟨e, he, -⟩ |
    ⟨r, new, w', hok, -, hheld, -⟩
  · rw [hrun] at he
    cases he
  · rw [hrun] at hok
    cases hok
    have hnames : nameCopies twiceEnv.name 0 (optionsOf twiceEnv.calls twiceArgv) eSerialConfigInit
        none = [10, 11] := rfl
    rw [hnames] at hheld
    simpa [queueAccount] using hheld

end LibEzmb
