import LibEzmb.BaseOwnership
import LibEzmb.BaseRun
import LibEzmb.BusDevice

/-! What devices and proxies are made of: the block of the structure, a ZeroMQ context with two
sockets and, for a device, its strings. Creation gives back what it has acquired when a call fails,
and destruction gives back everything, the sockets before their context. -/

open CBytes CHeap Ledgers Ownership Runs

namespace LibEzmb

/-- A block of memory, a ZeroMQ context, a socket of a context. -/
inductive BusResource where
  | block (a : Addr)
  | ctx (c : Addr)
  | sock (c s : Addr)
  deriving DecidableEq, Repr

instance : Nested BusResource where
  parent
    | .sock c _ => some (.ctx c)
    | _ => none

abbrev BusProg (α : Type) := Prog BusResource α

/-- The part that `e_device_t` and `e_proxy_t` share: the structure itself, the context and the two
sockets. -/
structure SocketPair where
  self : Addr
  ctx : Addr
  first : Option Addr
  second : Option Addr
  deriving DecidableEq, Repr

/-- What the calls give that make the common part: `calloc`, `zmq_ctx_new`, the two `zmq_socket`
calls, and the two calls that connect or bind the sockets. -/
structure PairEnv where
  calloc : Option Addr
  ctx : Option Addr
  first : Option Addr
  second : Option Addr
  firstAttach : Bool
  secondAttach : Bool
  deriving DecidableEq, Repr

/-- Every call in the making of the common part succeeds. -/
def PairEnv.Succeeds (env : PairEnv) : Prop :=
  env.calloc ≠ none ∧ env.ctx ≠ none ∧ env.first ≠ none ∧ env.second ≠ none ∧
    env.firstAttach = true ∧ env.secondAttach = true

/-- The same calls, for the device as e_device.c sees it. -/
def PairEnv.calls (env : PairEnv) : CreateEnv :=
  ⟨env.calloc.isSome, env.ctx.isSome, env.first.isSome, env.second.isSome, env.firstAttach,
    env.secondAttach⟩

theorem PairEnv.succeeds_iff (env : PairEnv) : env.calls.Succeeds ↔ env.Succeeds := by
  simp only [calls, CreateEnv.Succeeds, Succeeds, Option.isSome_iff_ne_none]

namespace SocketPair

def firstSock (p : SocketPair) : Option BusResource := p.first.map (.sock p.ctx)

def secondSock (p : SocketPair) : Option BusResource := p.second.map (.sock p.ctx)

/-- Close the sockets that there are, and destroy the context. -/
def closeSockets (p : SocketPair) : BusProg Unit := do
  releaseOpt p.firstSock
  releaseOpt p.secondSock
  release (.ctx p.ctx)

/-- `fail:` of both constructors. -/
def abandon {α : Type} (p : SocketPair) : BusProg (Option α) := do
  p.closeSockets
  release (.block p.self)
  pure none

end SocketPair

/-- The part that `e_common_create` and `e_proxy_create` share, which `finish` goes on with. -/
def openPair {α : Type} (env : PairEnv) (finish : SocketPair → BusProg (Option α)) :
    BusProg (Option α) := do
  match ← acquire BusResource.block env.calloc with
  | none => pure none
  | some self =>
      match ← acquire BusResource.ctx env.ctx with
      | none => do
          release (.block self)
          pure none
      | some ctx =>
          match ← acquire (BusResource.sock ctx) env.first with
          | none => SocketPair.abandon ⟨self, ctx, none, none⟩
          | some first =>
              match ← acquire (BusResource.sock ctx) env.second with
              | none => SocketPair.abandon ⟨self, ctx, some first, none⟩
              | some second =>
                  let pair : SocketPair := ⟨self, ctx, some first, some second⟩
                  if !env.firstAttach || !env.secondAttach then pair.abandon else finish pair

/-! ### Devices -/

/-- The pointers of an `e_device_t`. -/
structure DevicePointers where
  pair : SocketPair
  uid : Option Addr
  southUrl : Option Addr
  northUrl : Option Addr
  southTopic : Option Addr
  northTopic : Option Addr
  deriving DecidableEq, Repr

/-- What the calls of `e_common_create` give; the last five are those of `strdup`. -/
structure DeviceEnv where
  pair : PairEnv
  southTopic : Option Addr
  northTopic : Option Addr
  uid : Option Addr
  southUrl : Option Addr
  northUrl : Option Addr
  deriving DecidableEq, Repr

/-- What `strlen` is given for the subscription. -/
def DeviceEnv.subTopic (env : DeviceEnv) : EDeviceType → Option Addr
  | .collector => env.southTopic
  | .monitor => env.northTopic

def strdup (answer : Option Addr) : BusProg (Option Addr) := acquire BusResource.block answer

/-- `e_common_create`, as far as it acquires and releases. -/
def eCommonCreateOwned (env : DeviceEnv) (uid southUrl northUrl : Option CStr) (type : EDeviceType) :
    BusProg (Option DevicePointers) :=
  match uid, southUrl, northUrl with
  | some _, some _, some _ => openPair env.pair fun pair => do
      let southTopic ← strdup env.southTopic
      let northTopic ← strdup env.northTopic
      let subTopic := match type with
        | .collector => southTopic
        | .monitor => northTopic
      match subTopic with
      | none => fail .nullDeref
      | some topic => do
          use (.block topic)
          let uid ← strdup env.uid
          let southUrl ← strdup env.southUrl
          let northUrl ← strdup env.northUrl
          pure (some ⟨pair, uid, southUrl, northUrl, southTopic, northTopic⟩)
  | _, _, _ => pure none

/-- `e_device_destroy` of a device, which it looks at until it frees it. -/
def eDeviceDestroyOwned : Option DevicePointers → BusProg Unit
  | none => pure ()
  | some d => do
      use (.block d.pair.self)
      d.pair.closeSockets
      releaseOpt (d.uid.map .block)
      releaseOpt (d.southUrl.map .block)
      releaseOpt (d.northUrl.map .block)
      releaseOpt (d.southTopic.map .block)
      releaseOpt (d.northTopic.map .block)
      release (.block d.pair.self)
      pure ()

/-! ### Proxies -/

/-- `e_proxy_create`. -/
def eProxyCreateOwned (env : PairEnv) (frontendUrl backendUrl : Option CStr) :
    BusProg (Option SocketPair) :=
  match frontendUrl, backendUrl with
  | some _, some _ => openPair env fun pair => pure (some pair)
  | _, _ => pure none

/-- `e_proxy_destroy`. -/
def eProxyDestroyOwned : Option SocketPair → BusProg Unit
  | none => pure ()
  | some p => do
      use (.block p.self)
      p.closeSockets
      release (.block p.self)
      pure ()

/-! ### All of them -/

/-- What has been acquired, and the devices and proxies that were returned and not destroyed. -/
structure BusObjects where
  world : Account BusResource
  devices : List DevicePointers
  proxies : List SocketPair

inductive ObjectCall where
  | createDevice (env : DeviceEnv) (uid southUrl northUrl : Option CStr) (type : EDeviceType)
  | destroyDevice (d : Option DevicePointers)
  | createProxy (env : PairEnv) (frontendUrl backendUrl : Option CStr)
  | destroyProxy (p : Option SocketPair)
  deriving DecidableEq

namespace BusObjects

def start : BusObjects := ⟨.empty, [], []⟩

/-- A call, which tells whether it returned something. -/
def step (s : BusObjects) : ObjectCall → Except OwnFault (BusObjects × Bool)
  | .createDevice env uid southUrl northUrl type => do
      let (d, world) ← eCommonCreateOwned env uid southUrl northUrl type s.world
      .ok ({ s with world := world, devices := d.toList ++ s.devices }, d.isSome)
  | .destroyDevice d => do
      let (_, world) ← eDeviceDestroyOwned d s.world
      .ok ({ s with world := world, devices := match d with
        | none => s.devices
        | some d => s.devices.erase d }, false)
  | .createProxy env frontendUrl backendUrl => do
      let (p, world) ← eProxyCreateOwned env frontendUrl backendUrl s.world
      .ok ({ s with world := world, proxies := p.toList ++ s.proxies }, p.isSome)
  | .destroyProxy p => do
      let (_, world) ← eProxyDestroyOwned p s.world
      .ok ({ s with world := world, proxies := match p with
        | none => s.proxies
        | some p => s.proxies.erase p }, false)

/-- Only what was returned and not destroyed is destroyed. -/
def Admits (s : BusObjects) : ObjectCall → Prop
  | .destroyDevice (some d) => d ∈ s.devices
  | .destroyProxy (some p) => p ∈ s.proxies
  | _ => True

end BusObjects

/-- The call makes a device, all of it but for the string that the subscription is read from. -/
def ObjectCall.LosesTopic : ObjectCall → Prop
  | .createDevice env uid southUrl northUrl type =>
      uid ≠ none ∧ southUrl ≠ none ∧ northUrl ≠ none ∧ env.pair.Succeeds ∧ env.subTopic type = none
  | _ => False

/-! ### What an object owns -/

namespace SocketPair

/-- The sockets and the context of a pair, and its block. -/
def resources (p : SocketPair) : List BusResource :=
  p.firstSock.toList ++ (p.secondSock.toList ++ [.ctx p.ctx, .block p.self])

end SocketPair

def DevicePointers.strings (d : DevicePointers) : List BusResource :=
  (d.uid.toList ++ d.southUrl.toList ++ d.northUrl.toList ++ d.southTopic.toList ++
    d.northTopic.toList).map .block

def DevicePointers.resources (d : DevicePointers) : List BusResource := d.pair.resources ++ d.strings

/-- What the devices and proxies that are there own. -/
def BusObjects.owned (s : BusObjects) : List BusResource :=
  s.devices.flatMap DevicePointers.resources ++ s.proxies.flatMap SocketPair.resources

/-! ### What the functions own -/

section Owned

variable {faults : OwnFault → Prop} {α : Type} {own : List BusResource}
  {post : α → List BusResource → Prop}

theorem parent_ne_block (c : BusResource) (a : Addr) : Nested.parent c ≠ some (.block a) := by
  cases c <;> exact nofun

theorem parent_ne_sock (c : BusResource) (x s : Addr) : Nested.parent c ≠ some (.sock x s) := by
  cases c <;> exact nofun

/-- Freeing whatever a pointer points to. -/
theorem free_owns {x : Option Addr} {f : Unit → BusProg α} (hf : Owns faults own (f ()) post) :
    Owns faults ((x.map BusResource.block).toList ++ own)
      (releaseOpt (x.map BusResource.block) >>= f) post := by
  refine Owns.releaseOpt (fun r hr c _ => ?_) (fun r hr => ?_) hf <;>
    obtain ⟨a, -, rfl⟩ := Option.map_eq_some_iff.mp hr
  · exact parent_ne_block c a
  · exact parent_ne_block _ a

namespace SocketPair

variable (p : SocketPair)

theorem sock_owns {x : Option Addr} {f : Unit → BusProg α} (hf : Owns faults own (f ()) post) :
    Owns faults ((x.map (BusResource.sock p.ctx)).toList ++ own)
      (releaseOpt (x.map (BusResource.sock p.ctx)) >>= f) post := by
  refine Owns.releaseOpt (fun r hr c _ => ?_) (fun r hr => ?_) hf <;>
    obtain ⟨a, -, rfl⟩ := Option.map_eq_some_iff.mp hr
  · exact parent_ne_sock c _ a
  · exact parent_ne_sock _ _ a

/-- The sockets go before their context. -/
theorem closeSockets_owns {f : Unit → BusProg α}
    (hown : ∀ c ∈ own, Nested.parent c = none) (hf : Owns faults own (f ()) post) :
    Owns faults (p.firstSock.toList ++ (p.secondSock.toList ++ .ctx p.ctx :: own))
      (p.closeSockets >>= f) post := by
  simp only [closeSockets, bind_assoc]
  refine p.sock_owns (p.sock_owns (Owns.release (fun c hc hparent => ?_) nofun hf))
  rw [hown c hc] at hparent
  cases hparent

theorem abandon_owns {post : Option α → List BusResource → Prop} (hpost : post none []) :
    Owns faults p.resources (p.abandon : BusProg (Option α)) post := by
  refine p.closeSockets_owns ?_ (Owns.release nofun nofun (.pure hpost))
  intro c hc
  rw [List.mem_singleton.mp hc]
  rfl

end SocketPair

/-- The common part fails and owns nothing, or goes on with a pair it owns. -/
theorem openPair_owns {post : Option α → List BusResource → Prop} (env : PairEnv)
    {finish : SocketPair → BusProg (Option α)} (himpossible : faults .impossible)
    (hnone : ¬env.Succeeds → post none [])
    (hfinish : ∀ pair : SocketPair, env.Succeeds →
      Owns faults pair.resources (finish pair) post) :
    Owns faults [] (openPair env finish) post := by
  refine Owns.acquire himpossible nofun (fun hself => ?_) fun self hself => ?_
  · exact .pure (hnone fun hall => hall.1 hself)
  refine Owns.acquire himpossible nofun (fun hctx => ?_) fun ctx hctx => ?_
  · exact Owns.release nofun nofun (.pure (hnone fun hall => hall.2.1 hctx))
  have hparent : ∀ own : List BusResource, ∀ name p,
      Nested.parent (BusResource.sock ctx name) = some p → p ∈ BusResource.ctx ctx :: own := by
    intro own name p hp
    cases hp
    exact List.mem_cons_self
  refine Owns.acquire himpossible (hparent _) (fun hfirst => ?_) fun first hfirst => ?_
  · exact SocketPair.abandon_owns ⟨self, ctx, none, none⟩ (hnone fun hall => hall.2.2.1 hfirst)
  refine Owns.acquire himpossible (fun name p hp => List.mem_cons_of_mem _ (hparent _ name p hp))
    (fun hsecond => ?_) fun second hsecond => ?_
  · exact SocketPair.abandon_owns ⟨self, ctx, some first, none⟩
      (hnone fun hall => hall.2.2.2.1 hsecond)
  -- both sockets are there, and the first one is closed first
  refine Owns.perm (List.Perm.swap _ _ _) ?_
  show Owns faults (SocketPair.resources ⟨self, ctx, some first, some second⟩) _ post
  dsimp only
  split
  · next hattach =>
      refine SocketPair.abandon_owns _ (hnone fun hall => ?_)
      rw [hall.2.2.2.2.1, hall.2.2.2.2.2] at hattach
      cases hattach
  · next hattach =>
      obtain ⟨hfirstAttach, hsecondAttach⟩ : env.firstAttach = true ∧ env.secondAttach = true := by
        simpa using hattach
      exact hfinish _ ⟨by rw [hself]; exact nofun, by rw [hctx]; exact nofun,
        by rw [hfirst]; exact nofun, by rw [hsecond]; exact nofun, hfirstAttach, hsecondAttach⟩

/-- What a constructor returns owns all that is left. -/
def OwnsResult (resources : α → List BusResource) (x : Option α) (own : List BusResource) : Prop :=
  own.Perm (x.elim [] resources)

/-- Creating a device gives a device that owns what was acquired, or gives everything back; and it
goes wrong when the string that the subscription is read from is not there, and only then. -/
theorem eCommonCreateOwned_owns (env : DeviceEnv) (uid southUrl northUrl : Option CStr)
    (type : EDeviceType) :
    Owns (fun e => e = .impossible ∨ e = .nullDeref ∧
        (ObjectCall.createDevice env uid southUrl northUrl type).LosesTopic)
      [] (eCommonCreateOwned env uid southUrl northUrl type) fun d own =>
        OwnsResult DevicePointers.resources d own ∧
          (∀ cb, d.isSome = (eCommonCreate env.pair.calls uid southUrl northUrl cb type).isSome) ∧
          ¬(ObjectCall.createDevice env uid southUrl northUrl type).LosesTopic := by
  unfold eCommonCreateOwned
  split
  · next uid southUrl northUrl =>
      have hsub : (match type with
          | .collector => env.southTopic
          | .monitor => env.northTopic) = env.subTopic type := by cases type <;> rfl
      have hmade : ∀ cb, (eCommonCreate env.pair.calls (some uid) (some southUrl) (some northUrl) cb
          type).isSome = true ↔ env.pair.Succeeds := fun cb =>
        (eCommonCreate_isSome_iff _ _ _ _ _ _).trans env.pair.succeeds_iff
      have hblock : ∀ own : List BusResource, ∀ name p,
          Nested.parent (BusResource.block name) = some p → p ∈ own := fun _ _ _ hp => nomatch hp
      refine openPair_owns env.pair (Or.inl rfl) (fun hfails => ?_) fun pair hsucceeds => ?_
      · refine ⟨List.Perm.refl _, fun cb => ?_, fun hloses => hfails hloses.2.2.2.1⟩
        exact (Bool.eq_false_iff.mpr fun hsome => hfails ((hmade cb).mp hsome)).symm
      refine Owns.acquireOpt (Or.inl rfl) (hblock _) (Owns.acquireOpt (Or.inl rfl) (hblock _) ?_)
      simp only [hsub]
      cases htopic : env.subTopic type with
      | none => exact .fail (Or.inr ⟨rfl, nofun, nofun, nofun, hsucceeds, htopic⟩)
      | some topic =>
          refine Owns.use ?_ ?_
          · cases type <;> simp [DeviceEnv.subTopic] at htopic <;> simp [htopic]
          · refine Owns.acquireOpt (Or.inl rfl) (hblock _) (Owns.acquireOpt (Or.inl rfl) (hblock _)
              (Owns.acquireOpt (Or.inl rfl) (hblock _) (.pure ⟨?_, ?_, ?_⟩)))
            · rw [OwnsResult, Option.elim, List.perm_iff_count]
              intro r
              simp only [DevicePointers.resources, DevicePointers.strings, Option.toList_map,
                List.map_append, List.count_append]
              omega
            · exact fun cb => ((hmade cb).mpr hsucceeds).symm
            · intro hloses
              rw [hloses.2.2.2.2] at htopic
              cases htopic
  · next hnull =>
      refine .pure ⟨List.Perm.refl _, fun cb => ?_, fun hloses => ?_⟩
      · unfold eCommonCreate
        split
        · exact (hnull _ _ _ rfl rfl rfl).elim
        · rfl
      · obtain ⟨u, hu⟩ := Option.ne_none_iff_exists'.mp hloses.1
        obtain ⟨x, hx⟩ := Option.ne_none_iff_exists'.mp hloses.2.1
        obtain ⟨y, hy⟩ := Option.ne_none_iff_exists'.mp hloses.2.2.1
        exact hnull u x y hu hx hy

theorem eProxyCreateOwned_owns (env : PairEnv) (frontendUrl backendUrl : Option CStr) :
    Owns (· = .impossible) [] (eProxyCreateOwned env frontendUrl backendUrl)
      (OwnsResult SocketPair.resources) := by
  unfold eProxyCreateOwned
  split
  · exact openPair_owns env rfl (fun _ => List.Perm.refl _) fun pair _ => .pure (List.Perm.refl _)
  · exact .pure (List.Perm.refl _)

/-- The block of the structure is among what a pair owns. -/
theorem SocketPair.self_mem (p : SocketPair) : BusResource.block p.self ∈ p.resources := by
  simp [SocketPair.resources]

/-- Destroying a device gives back all that it owns. -/
theorem eDeviceDestroyOwned_owns (d : DevicePointers) :
    Owns faults d.resources (eDeviceDestroyOwned (some d)) fun _ own => own = [] := by
  refine Owns.use (List.mem_append_left _ d.pair.self_mem) ?_
  have hperm : d.resources.Perm (d.pair.firstSock.toList ++ (d.pair.secondSock.toList ++
      .ctx d.pair.ctx :: ((d.uid.map BusResource.block).toList ++
        ((d.southUrl.map BusResource.block).toList ++ ((d.northUrl.map BusResource.block).toList ++
          ((d.southTopic.map BusResource.block).toList ++
            ((d.northTopic.map BusResource.block).toList ++ [.block d.pair.self]))))))) := by
    rw [List.perm_iff_count]
    intro r
    simp only [DevicePointers.resources, SocketPair.resources, DevicePointers.strings,
      Option.toList_map, List.map_append, List.count_append, List.count_cons, List.count_nil]
    omega
  refine Owns.perm hperm (d.pair.closeSockets_owns (fun c hc => ?_) ?_)
  · simp only [Option.toList_map, List.mem_append, List.mem_map, List.mem_singleton] at hc
    rcases hc with ⟨a, -, rfl⟩ | ⟨a, -, rfl⟩ | ⟨a, -, rfl⟩ | ⟨a, -, rfl⟩ | ⟨a, -, rfl⟩ | rfl <;> rfl
  · exact free_owns (free_owns (free_owns (free_owns (free_owns
      (Owns.release nofun nofun (.pure rfl))))))

theorem eProxyDestroyOwned_owns (p : SocketPair) :
    Owns faults p.resources (eProxyDestroyOwned (some p)) fun _ own => own = [] := by
  refine Owns.use p.self_mem (p.closeSockets_owns (fun c hc => ?_) (Owns.release nofun nofun (.pure rfl)))
  rw [List.mem_singleton.mp hc]
  rfl

end Owned

/-! ### Runs -/

section Frames

variable {p : SocketPair} {d : DevicePointers}

theorem SocketPair.resources_closed (p : SocketPair) : Closed p.resources := by
  intro r hr q hq
  have hctx : BusResource.ctx p.ctx ∈ p.resources := by simp [resources]
  simp only [resources, firstSock, secondSock, List.mem_append, Option.mem_toList,
    Option.map_eq_some_iff, List.mem_cons, List.not_mem_nil, or_false] at hr
  rcases hr with ⟨a, -, rfl⟩ | ⟨a, -, rfl⟩ | rfl | rfl <;> cases hq
  · exact hctx
  · exact hctx

theorem DevicePointers.resources_closed (d : DevicePointers) : Closed d.resources := by
  intro r hr q hq
  rcases List.mem_append.mp hr with hr | hr
  · exact List.mem_append_left _ (d.pair.resources_closed r hr q hq)
  · obtain ⟨a, -, rfl⟩ := List.mem_map.mp hr
    cases hq

end Frames

namespace BusObjects

variable {s t : BusObjects}

/-- What has been acquired and not given back is what the devices and proxies own. -/
structure Inv (s : BusObjects) : Prop where
  sound : Ownership.Sound s.world
  held : s.world.held.Perm s.owned

theorem owned_closed (s : BusObjects) : Closed s.owned :=
  Closed.append (Closed.flatMap fun d _ => d.resources_closed)
    (Closed.flatMap fun p _ => p.resources_closed)

theorem Inv.start : BusObjects.start.Inv := ⟨.empty, List.Perm.refl _⟩

/-- The step does not go wrong but for a lost topic, and keeps the books. -/
def Good (s : BusObjects) (l : ObjectCall) : Prop :=
  (∃ e, s.step l = .error e ∧ (e = .impossible ∨ e = .nullDeref ∧ l.LosesTopic)) ∨
    ∃ t o, s.step l = .ok (t, o) ∧ t.Inv ∧ ¬l.LosesTopic

theorem Inv.createDevice (hinv : s.Inv) (env : DeviceEnv) (uid southUrl northUrl : Option CStr)
    (type : EDeviceType) : s.Good (.createDevice env uid southUrl northUrl type) := by
  rcases eCommonCreateOwned_owns env uid southUrl northUrl type s.owned s.world s.owned_closed
      hinv.sound hinv.held with ⟨e, he, hfault⟩ | ⟨d, world, own, hok, ⟨hown, -, hkept⟩, hsound, hheld⟩
  · exact Or.inl ⟨e, by rw [step, he]; rfl, hfault⟩
  · refine Or.inr ⟨_, _, by rw [step, hok]; rfl, ⟨hsound, ?_⟩, hkept⟩
    refine hheld.trans ((hown.append_right _).trans ?_)
    cases d with
    | none => exact List.Perm.refl _
    | some d =>
        show (d.resources ++ s.owned).Perm _
        simp [owned, List.append_assoc]

/-- A device is returned exactly when the constructor of e_device.c returns one. -/
theorem Inv.createDevice_agrees (hinv : s.Inv) {env : DeviceEnv} {uid southUrl northUrl : Option CStr}
    {type : EDeviceType} {o : Bool} (hstep : s.step (.createDevice env uid southUrl northUrl type) =
      .ok (t, o)) (cb : Option Addr) :
    o = (eCommonCreate env.pair.calls uid southUrl northUrl cb type).isSome := by
  rcases eCommonCreateOwned_owns env uid southUrl northUrl type s.owned s.world s.owned_closed
      hinv.sound hinv.held with ⟨e, he, -⟩ | ⟨d, world, own, hok, ⟨-, hagrees, -⟩, -⟩
  · rw [step, he] at hstep
    cases hstep
  · rw [step, hok] at hstep
    cases hstep
    exact hagrees cb

theorem Inv.createProxy (hinv : s.Inv) (env : PairEnv) (frontendUrl backendUrl : Option CStr) :
    s.Good (.createProxy env frontendUrl backendUrl) := by
  rcases eProxyCreateOwned_owns env frontendUrl backendUrl s.owned s.world s.owned_closed
      hinv.sound hinv.held with ⟨e, he, hfault⟩ | ⟨p, world, own, hok, hown, hsound, hheld⟩
  · exact Or.inl ⟨e, by rw [step, he]; rfl, Or.inl hfault⟩
  · refine Or.inr ⟨_, _, by rw [step, hok]; rfl, ⟨hsound, ?_⟩, nofun⟩
    refine hheld.trans ((hown.append_right _).trans ?_)
    cases p with
    | none => exact List.Perm.refl _
    | some p =>
        show (p.resources ++ (s.devices.flatMap DevicePointers.resources ++
          s.proxies.flatMap SocketPair.resources)).Perm (s.devices.flatMap DevicePointers.resources ++
            (p.resources ++ s.proxies.flatMap SocketPair.resources))
        simp only [← List.append_assoc]
        exact List.perm_append_comm.append_right _

/-- What a destructor gives back leaves what the others own. -/
theorem destroyed {resources others : List BusResource} {x : BusProg Unit} {world : Account BusResource}
    (hx : Owns (fun _ => False) resources x fun _ own => own = []) (hsound : Ownership.Sound world)
    (hothers : Closed others) (hheld : world.held.Perm (resources ++ others)) :
    ∃ world', x world = .ok ((), world') ∧ Ownership.Sound world' ∧ world'.held.Perm others := by
  obtain ⟨world', hok, hsound', hheld'⟩ : ∃ world', x world = .ok ((), world') ∧ Ownership.Sound world' ∧
      world'.held.Perm ([] ++ others) := by
    rcases hx others world hothers hsound hheld with ⟨e, -, hfault⟩ | ⟨_, world', own, hok, rfl, hend⟩
    · exact hfault.elim
    · exact ⟨world', hok, hend⟩
  exact ⟨world', hok, hsound', hheld'⟩

theorem Inv.destroyDevice (hinv : s.Inv) {d : DevicePointers} (hd : d ∈ s.devices) :
    s.Good (.destroyDevice (some d)) := by
  have hothers : Closed ((s.devices.erase d).flatMap DevicePointers.resources ++
      s.proxies.flatMap SocketPair.resources) :=
    owned_closed { s with devices := s.devices.erase d }
  have hheld : s.world.held.Perm (d.resources ++ ((s.devices.erase d).flatMap
      DevicePointers.resources ++ s.proxies.flatMap SocketPair.resources)) := by
    refine hinv.held.trans ?_
    rw [← List.append_assoc, ← List.flatMap_cons]
    exact ((List.perm_cons_erase hd).flatMap_right _).append_right _
  obtain ⟨world, hok, hsound, hheld'⟩ :=
    destroyed (eDeviceDestroyOwned_owns d) hinv.sound hothers hheld
  exact Or.inr ⟨_, _, by rw [step, hok]; rfl, ⟨hsound, hheld'⟩, nofun⟩

theorem Inv.destroyProxy (hinv : s.Inv) {p : SocketPair} (hp : p ∈ s.proxies) :
    s.Good (.destroyProxy (some p)) := by
  have hothers : Closed (s.devices.flatMap DevicePointers.resources ++
      (s.proxies.erase p).flatMap SocketPair.resources) :=
    owned_closed { s with proxies := s.proxies.erase p }
  have hheld : s.world.held.Perm (p.resources ++ (s.devices.flatMap DevicePointers.resources ++
      (s.proxies.erase p).flatMap SocketPair.resources)) := by
    have hmove : s.owned.Perm (s.devices.flatMap DevicePointers.resources ++
        (p.resources ++ (s.proxies.erase p).flatMap SocketPair.resources)) := by
      rw [← List.flatMap_cons]
      exact ((List.perm_cons_erase hp).flatMap_right _).append_left _
    refine hinv.held.trans (hmove.trans ?_)
    simp only [← List.append_assoc]
    exact List.perm_append_comm.append_right _
  obtain ⟨world, hok, hsound, hheld'⟩ :=
    destroyed (eProxyDestroyOwned_owns p) hinv.sound hothers hheld
  exact Or.inr ⟨_, _, by rw [step, hok]; rfl, ⟨hsound, hheld'⟩, nofun⟩

theorem Inv.good (hinv : s.Inv) {l : ObjectCall} (hadmits : s.Admits l) : s.Good l := by
  cases l with
  | createDevice env uid southUrl northUrl type => exact hinv.createDevice env uid southUrl northUrl type
  | createProxy env frontendUrl backendUrl => exact hinv.createProxy env frontendUrl backendUrl
  | destroyDevice d =>
      cases d with
      | none => exact Or.inr ⟨s, _, rfl, hinv, nofun⟩
      | some d => exact hinv.destroyDevice hadmits
  | destroyProxy p =>
      cases p with
      | none => exact Or.inr ⟨s, _, rfl, hinv, nofun⟩
      | some p => exact hinv.destroyProxy hadmits

/-- One call that is allowed, and returns. -/
def Calls (s : BusObjects) (lo : ObjectCall × Bool) (t : BusObjects) : Prop :=
  s.Admits lo.1 ∧ Fires step s lo t

theorem Inv.calls {lo : ObjectCall × Bool} (hinv : s.Inv) (hcalls : s.Calls lo t) : t.Inv := by
  rcases hinv.good hcalls.1 with ⟨e, he, -⟩ | ⟨u, o, hstep, hu, -⟩
  · have hfires := hcalls.2
    rw [Fires, he] at hfires
    cases hfires
  · have heq := Except.ok.inj (hstep.symm.trans hcalls.2)
    cases heq
    exact hu

/-- **The books of devices and proxies.** However the calls of a run answer, what has been acquired and
not given back belongs to the devices and proxies that were returned and not destroyed, each thing to
one of them and given back once; so nothing is left when all are destroyed. No call uses or gives back
what is not there, or destroys a context with a socket in it, and a call goes wrong only where there is
no memory for the string that the subscription is read from. A device is returned exactly when the
constructor as the bus knows it returns one. -/
theorem bus_objects_own {los : List (ObjectCall × Bool)} (hrun : Run Calls start los t) :
    t.world.held.Nodup ∧ t.world.held.Perm t.owned ∧ t.world.Balanced ∧
      (t.devices = [] → t.proxies = [] → t.world.taken.Perm t.world.back) ∧
      (∀ l, t.Admits l →
        (∃ e, t.step l = .error e ∧ (e = .impossible ∨ e = .nullDeref ∧ l.LosesTopic)) ∨
          ∃ u o, t.step l = .ok (u, o) ∧ ¬l.LosesTopic) ∧
      ∀ env uid southUrl northUrl cb type u o,
        t.step (.createDevice env uid southUrl northUrl type) = .ok (u, o) →
          o = (eCommonCreate env.pair.calls uid southUrl northUrl cb type).isSome := by
  have hinv : t.Inv := hrun.invariant (fun _ _ _ hs hcalls => hs.calls hcalls) Inv.start
  refine ⟨hinv.sound.nodup, hinv.held, hinv.sound.balanced, fun hdevices hproxies => ?_,
    fun l hl => ?_, fun env uid southUrl northUrl cb type u o hstep =>
      hinv.createDevice_agrees hstep cb⟩
  · have hnothing : t.world.held = [] := by
      have hheld := hinv.held
      rw [owned, hdevices, hproxies] at hheld
      exact List.Perm.eq_nil hheld
    have hbalanced := hinv.sound.balanced
    rwa [Account.Balanced, hnothing] at hbalanced
  · rcases hinv.good hl with hfault | ⟨u, o, hstep, -, hkept⟩
    · exact Or.inl hfault
    · exact Or.inr ⟨u, o, hstep, hkept⟩

/-- What the calls give that make a device out of these. -/
def sampleDeviceEnv (n : Addr) (north : Option Addr) : DeviceEnv :=
  ⟨⟨some n, some n, some 0, north, true, true⟩, some (n + 1), some (n + 2), some (n + 3), none, none⟩

/-- A collector is made and a proxy; a monitor has no second socket; both objects are destroyed. -/
def sampleCalls : List ObjectCall :=
  [.createDevice (sampleDeviceEnv 0 (some 1)) (some (CStr.ofBytes [])) (some (CStr.ofBytes []))
      (some (CStr.ofBytes [])) .collector,
    .createProxy ⟨some 10, some 10, some 0, some 1, true, true⟩ (some (CStr.ofBytes []))
      (some (CStr.ofBytes [])),
    .createDevice (sampleDeviceEnv 20 none) (some (CStr.ofBytes [])) (some (CStr.ofBytes []))
      (some (CStr.ofBytes [])) .monitor,
    .destroyDevice (some ⟨⟨0, 0, some 0, some 1⟩, some 3, none, none, some 1, some 2⟩),
    .destroyProxy (some ⟨10, 10, some 0, some 1⟩)]

theorem bus_objects_own_sample : ∃ los t, los.map Prod.fst = sampleCalls ∧ Run Calls start los t ∧
    t.devices = [] ∧ t.proxies = [] ∧ t.world.taken.length = 14 ∧
    t.world.taken.Perm t.world.back := by
  obtain ⟨los, t, hlos, hrun, hdevices, hproxies, htaken⟩ : ∃ los t, los.map Prod.fst = sampleCalls ∧
      Run Calls start los t ∧ t.devices = [] ∧ t.proxies = [] ∧ t.world.taken.length = 14 := by
    refine ⟨sampleCalls.zip [true, true, false, false, false], _, rfl,
      .cons ⟨trivial, rfl⟩ (.cons ⟨trivial, rfl⟩ (.cons ⟨trivial, rfl⟩ (.cons ⟨?_, rfl⟩
        (.cons ⟨?_, rfl⟩ (.nil _))))), rfl, rfl, rfl⟩
    · exact List.mem_singleton_self _
    · exact List.mem_singleton_self _
  exact ⟨los, t, hlos, hrun, hdevices, hproxies, htaken,
    (bus_objects_own hrun).2.2.2.1 hdevices hproxies⟩

end BusObjects

end LibEzmb
