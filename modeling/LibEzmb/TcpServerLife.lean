import LibEzmb.BaseRun
import LibEzmb.TcpClients

/-! Servers on an event base when allocations fail: what `e_tcp_server_create` leaves behind when it
gives up, and what `listener_cb` leaves of the client array when it cannot be grown. -/

open CHeap Runs Slots

namespace LibEzmb

/-- The listeners of the event base, each with the server it was registered with, and the servers
that have been allocated and not freed. -/
structure EventBase where
  registered : List Addr
  servers : Addr → Option Listening

/-- The event loop runs into a server that was freed, or a callback faults. -/
inductive LoopFault where
  | freedServer
  | callback (fault : ClientFault)
  deriving DecidableEq, Repr

/-- A call of `e_tcp_server_create`, with what the allocator and the event base answer to it, or a
callback with its server as `user_data`. -/
inductive LoopLabel where
  | create (server : Option Addr) (okListener : Bool) (slots : SlotAlloc)
  | callback (server : Addr) (label : ClientLabel)

namespace EventBase

def start : EventBase := ⟨[], fun _ => none⟩

def put (s : EventBase) (a : Addr) (x : Listening) : EventBase :=
  { s with servers := Function.update s.servers a (some x) }

/-- `e_tcp_server_create` with its effect on the event base. The listener is registered before the
client array is allocated; when that fails the server is freed and the listener stays. -/
def create (s : EventBase) (server : Option Addr) (okListener : Bool) (slots : SlotAlloc) :
    EventBase × Option Addr :=
  match server with
  | none => (s, none)
  | some a =>
      if okListener then
        let s := { s with registered := a :: s.registered }
        match eTcpServerCreate true okListener slots with
        | none => (s, none)
        | some server => (s.put a ⟨server, []⟩, some a)
      else (s, none)

def step (s : EventBase) : LoopLabel → Except LoopFault (EventBase × Option Addr)
  | .create server okListener slots => .ok (s.create server okListener slots)
  | .callback a label =>
      match s.servers a with
      | none => .error .freedServer
      | some x => match x.step label with
        | .error fault => .error (.callback fault)
        | .ok y => .ok (s.put a y, none)

end EventBase

/-- The slots that are allocated. -/
def EventServer.allocated (server : EventServer) : Int := (server.clients.getD []).length

/-- `listener_cb` has a connection to store, and no room for it by the capacity. -/
def Listening.Full (x : Listening) (bev : Option Addr) : Prop :=
  bev.isSome ∧ x.server.clientCount ≥ x.server.clientCapacity

namespace LoopLabel

/-- `malloc` gives a server of its own, listeners call back while they are registered, connections
are new when they are accepted, and events happen on live ones. -/
def Allowed (s : EventBase) : LoopLabel → Prop
  | .create server _ _ => ∀ a, server = some a → s.servers a = none
  | .callback a (.accept bev slots) =>
      a ∈ s.registered ∧ ∀ x, s.servers a = some x → x.Possible (.accept bev slots)
  | .callback a (.event bev) => ∃ x, s.servers a = some x ∧ x.Possible (.event bev)

/-- A create that answers with the null pointer leaves no listener of its server on the base; a
growth that fails leaves the array, the count and the capacity as they were; and the count stays
within the slots that are allocated. -/
def Consistent (s t : EventBase) (out : Option Addr) : LoopLabel → Prop
  | .create server _ _ => out = none → ∀ a, server = some a → a ∉ t.registered
  | .callback a label => ∀ x y, s.servers a = some x → t.servers a = some y →
      (∀ bev, label = .accept bev none → x.Full bev → y.server = x.server) ∧
        y.server.clientCount ≤ y.server.allocated

/-- The step does not fault and leaves the servers consistent. -/
def Safe (s : EventBase) (l : LoopLabel) : Prop :=
  ∃ t out, s.step l = .ok (t, out) ∧ l.Consistent s t out

/-- The client array of a new server gets its memory once the listener is there; and so does every
growth of it, to a capacity that is an `int`. -/
def Supplied (s : EventBase) : LoopLabel → Prop
  | .create server okListener slots => server.isSome → okListener = true → slots.isSome
  | .callback _ (.event _) => True
  | .callback a (.accept bev slots) => ∀ x, s.servers a = some x → x.Full bev →
      slots.isSome ∧ x.server.clientCapacity * 2 ≤ 0x7fffffff

end LoopLabel

/-! ### One server -/

/-- The slots are intact and the capacity is an `int`. -/
def Listening.Sound (x : Listening) : Prop := x.Intact ∧ x.server.clientCapacity ≤ 0x7fffffff

namespace Listening

variable {x y : Listening}

theorem Intact.within (hintact : x.Intact) : x.server.clientCount ≤ x.server.allocated := by
  obtain ⟨clients, hclients, hlength⟩ := hintact.allocated
  rw [EventServer.allocated, hclients, Option.getD_some, hlength]
  exact hintact.fits

theorem Sound.create {okServer okListener : Bool} {slots : SlotAlloc} {server : EventServer}
    (hcreate : eTcpServerCreate okServer okListener slots = some server) :
    Sound ⟨server, []⟩ := by
  refine ⟨Intact.create hcreate, ?_⟩
  simp only [eTcpServerCreate, Option.ite_none_left_eq_some, Option.bind_eq_bind,
    Option.bind_eq_some_iff, Option.some.injEq] at hcreate
  obtain ⟨-, -, junk, rfl, rfl⟩ := hcreate
  exact (by decide : clientCapacity₀ ≤ 0x7fffffff)

/-- Storing a connection where the slots are supplied. -/
theorem Sound.store (hsound : x.Sound) {bev : Addr} {slots : SlotAlloc} (hnew : bev ∉ x.live)
    (hroom : x.server.clientCount ≥ x.server.clientCapacity →
      slots.isSome ∧ x.server.clientCapacity * 2 ≤ 0x7fffffff) :
    ∃ y, x.step (.accept (some bev) slots) = .ok y ∧ y.Sound := by
  obtain ⟨hintact, hint⟩ := hsound
  obtain ⟨n, clients, hcount, hclients, hcapacity, hfits, hpos, -⟩ := hintact.parts
  obtain ⟨server, hstore, hlost, hint'⟩ : ∃ server, storeClient x.server slots bev = .ok server ∧
      ¬server.Lost ∧ server.clientCapacity ≤ 0x7fffffff := by
    by_cases hfull : x.server.clientCount ≥ x.server.clientCapacity
    · obtain ⟨hslots, hdouble⟩ := hroom hfull
      obtain ⟨junk, rfl⟩ := Option.isSome_iff_exists.mp hslots
      obtain ⟨clients', capacity, hstore, -, -, hgrown, -⟩ := storeClient_spec junk hclients hcount
        hcapacity hfits (by omega) (fun _ => by omega) hpos bev
      refine ⟨_, hstore, ?_, by dsimp only; omega⟩
      rintro ⟨hnone, -⟩
      cases hnone
    · obtain ⟨clients', hstore, -⟩ :=
        storeNext_spec hclients hcount (by omega) (by omega) bev
      refine ⟨_, (if_neg hfull).trans hstore, ?_, hint⟩
      rintro ⟨hnone, -⟩
      cases hnone
  refine ⟨⟨server, x.live ++ [bev]⟩, by rw [Listening.step, listenerCb, hstore]; rfl, ?_, hint'⟩
  exact ((hintact.accept hnew hstore).resolve_left hlost).1

theorem Sound.event (hsound : x.Sound) {bev : Addr} (hlive : bev ∈ x.live) :
    ∃ y, x.step (.event bev) = .ok y ∧ y.Sound := by
  obtain ⟨hintact, hint⟩ := hsound
  obtain ⟨n, clients, hcount, hclients, -, hfits, -, hconnected⟩ := hintact.parts
  have hused : bev ∈ used clients n := by
    rw [← hconnected]
    exact hintact.connected.symm.subset hlive
  obtain ⟨clients', hremove, -⟩ := eTcpServerRemoveClient_spec hclients hcount hfits hused
  obtain ⟨y, hstep, hintact', -⟩ := hintact.step (l := .event bev) hlive
  refine ⟨y, hstep, hintact', ?_⟩
  obtain ⟨server, hserver, hrest⟩ := bind_eq_ok hstep
  rw [hremove, Except.ok.injEq] at hserver
  rw [if_pos hlive, Except.ok.injEq] at hrest
  rw [← hrest, ← hserver]
  exact hint

/-- A growth that fails has doubled the capacity. -/
theorem grow_fails {bev : Addr} (hintact : x.Intact) (hfull : x.Full (some bev))
    (hstep : x.step (.accept (some bev) none) = .ok y) : y.server ≠ x.server := by
  obtain ⟨server, hstore, hrest⟩ := bind_eq_ok hstep
  cases hrest
  rw [storeClient, if_pos hfull.2] at hstore
  obtain ⟨capacity, hcapacity, hout⟩ := bind_eq_ok hstore
  cases hout
  obtain ⟨rfl, -⟩ := intResult_ok hcapacity
  have hpos := hintact.capacity_pos
  intro heq
  have hsame := congrArg EventServer.clientCapacity heq
  dsimp only at hsame
  omega

/-- A growth beyond the range of `int` does not go through. -/
theorem grow_overflows {bev : Addr} {slots : SlotAlloc} (hfull : x.Full (some bev))
    (hstep : x.step (.accept (some bev) slots) = .ok y) :
    x.server.clientCapacity * 2 ≤ 0x7fffffff := by
  obtain ⟨server, hstore, -⟩ := bind_eq_ok hstep
  rw [storeClient, if_pos hfull.2] at hstore
  obtain ⟨capacity, hcapacity, -⟩ := bind_eq_ok hstore
  exact (intResult_ok hcapacity).2

end Listening

/-! ### The event base -/

namespace EventBase

variable {s t : EventBase} {l : LoopLabel} {a : Addr} {x y : Listening}

/-- Every registered listener has its server, and every server is sound. -/
structure Sound (s : EventBase) : Prop where
  registered : ∀ a ∈ s.registered, ∃ x, s.servers a = some x
  servers : ∀ a x, s.servers a = some x → x.Sound

theorem Sound.start : EventBase.start.Sound where
  registered _ ha := absurd ha List.not_mem_nil
  servers _ _ hx := by cases hx

theorem put_self (s : EventBase) (a : Addr) (x : Listening) : (s.put a x).servers a = some x :=
  Function.update_self ..

theorem Sound.put (hsound : s.Sound) (hx : x.Sound) (a : Addr) : (s.put a x).Sound where
  registered b hb := by
    by_cases hba : b = a
    · exact ⟨x, hba ▸ put_self s a x⟩
    · obtain ⟨y, hy⟩ := hsound.registered b hb
      exact ⟨y, (Function.update_of_ne hba ..).trans hy⟩
  servers b y hy := by
    by_cases hba : b = a
    · subst hba
      rw [put_self, Option.some.injEq] at hy
      exact hy ▸ hx
    · exact hsound.servers b y ((Function.update_of_ne hba ..).symm.trans hy)

/-- A new server with its listener. -/
theorem Sound.register (hsound : s.Sound) (hx : x.Sound) (a : Addr) :
    (EventBase.put { s with registered := a :: s.registered } a x).Sound where
  registered b hb := by
    rcases List.mem_cons.mp hb with rfl | hb
    · exact ⟨x, put_self ..⟩
    · exact (hsound.put hx a).registered b hb
  servers := (hsound.put hx a).servers

theorem step_callback {label : ClientLabel} (hx : s.servers a = some x)
    (hstep : x.step label = .ok y) : s.step (.callback a label) = .ok (s.put a y, none) := by
  simp only [EventBase.step, hx, hstep]

theorem step_callback_ok {label : ClientLabel} {out : Option Addr} (hx : s.servers a = some x)
    (hstep : s.step (.callback a label) = .ok (t, out)) :
    ∃ y, x.step label = .ok y ∧ t = s.put a y := by
  simp only [EventBase.step, hx] at hstep
  split at hstep
  · cases hstep
  · next y hy =>
      cases hstep
      exact ⟨y, hy, rfl⟩

/-- A callback that leaves its server sound, and whose growth did not fail. -/
theorem Sound.callback (hsound : s.Sound) {label : ClientLabel} (hx : s.servers a = some x)
    (hstep : x.step label = .ok y) (hy : y.Sound)
    (hgrow : ∀ bev, label = .accept bev none → x.Full bev → y.server = x.server) :
    ∃ t out, s.step (.callback a label) = .ok (t, out) ∧
      (LoopLabel.callback a label).Consistent s t out ∧ t.Sound := by
  refine ⟨_, _, step_callback hx hstep, fun x' y' hx' hy' => ?_, hsound.put hy a⟩
  rw [hx, Option.some.injEq] at hx'
  rw [put_self, Option.some.injEq] at hy'
  subst hx' hy'
  exact ⟨hgrow, hy.1.within⟩

/-- A creation that fails is not registered; one that goes through has its client array. -/
theorem Sound.create_supplied (hsound : s.Sound) {server : Option Addr} {okListener : Bool}
    {slots : SlotAlloc} (hallowed : (LoopLabel.create server okListener slots).Allowed s)
    (hsupplied : (LoopLabel.create server okListener slots).Supplied s) :
    ∃ t out, s.step (.create server okListener slots) = .ok (t, out) ∧
      (LoopLabel.create server okListener slots).Consistent s t out ∧ t.Sound := by
  cases server with
  | none => exact ⟨_, _, rfl, fun _ _ ha => (nomatch ha), hsound⟩
  | some a =>
      have hunused : a ∉ s.registered := by
        intro ha
        obtain ⟨x, hx⟩ := hsound.registered a ha
        rw [hallowed a rfl] at hx
        cases hx
      cases okListener with
      | false => exact ⟨s, none, rfl, fun _ b hb => by cases hb; exact hunused, hsound⟩
      | true =>
          obtain ⟨junk, rfl⟩ := Option.isSome_iff_exists.mp (hsupplied rfl rfl)
          have hserver := Listening.Sound.create
            (rfl : eTcpServerCreate true true (some junk) = some _)
          exact ⟨_, _, rfl, fun hout => (nomatch hout), hsound.register hserver a⟩

/-- An accepted connection finds a slot, or the larger array is supplied. -/
theorem Sound.accept_supplied (hsound : s.Sound) {bev : Option Addr} {slots : SlotAlloc}
    (hallowed : (LoopLabel.callback a (.accept bev slots)).Allowed s)
    (hsupplied : (LoopLabel.callback a (.accept bev slots)).Supplied s) :
    ∃ t out, s.step (.callback a (.accept bev slots)) = .ok (t, out) ∧
      (LoopLabel.callback a (.accept bev slots)).Consistent s t out ∧ t.Sound := by
  obtain ⟨hreg, hpossible⟩ := hallowed
  obtain ⟨x, hx⟩ := hsound.registered a hreg
  cases bev with
  | none => exact hsound.callback hx rfl (hsound.servers a x hx) fun _ _ _ => rfl
  | some bev =>
      have hroom : x.server.clientCount ≥ x.server.clientCapacity →
          slots.isSome ∧ x.server.clientCapacity * 2 ≤ 0x7fffffff :=
        fun hfull => hsupplied x hx ⟨rfl, hfull⟩
      obtain ⟨y, hy, hsound'⟩ := (hsound.servers a x hx).store (hpossible x hx bev rfl) hroom
      refine hsound.callback hx hy hsound' fun bev' heq hfull => ?_
      cases heq
      cases (hroom hfull.2).1

/-- A step whose allocations are supplied goes through and leaves the servers consistent. -/
theorem Sound.step_supplied (hsound : s.Sound) (hallowed : l.Allowed s) (hsupplied : l.Supplied s) :
    ∃ t out, s.step l = .ok (t, out) ∧ l.Consistent s t out ∧ t.Sound := by
  cases l with
  | create server okListener slots => exact hsound.create_supplied hallowed hsupplied
  | callback a label =>
      cases label with
      | accept bev slots => exact hsound.accept_supplied hallowed hsupplied
      | event bev =>
          obtain ⟨x, hx, hlive⟩ := hallowed
          obtain ⟨y, hy, hsound'⟩ := (hsound.servers a x hx).event hlive
          exact hsound.callback hx hy hsound' fun _ heq => (nomatch heq)

/-- A step that goes through and leaves the servers consistent had its allocations supplied. -/
theorem Sound.supplied_of_safe (hsound : s.Sound) (hallowed : l.Allowed s) (hsafe : l.Safe s) :
    l.Supplied s := by
  obtain ⟨t, out, hstep, hconsistent⟩ := hsafe
  cases l with
  | create server okListener slots =>
      intro hserver hlistener
      obtain ⟨a, rfl⟩ := Option.isSome_iff_exists.mp hserver
      subst hlistener
      cases slots with
      | some junk => rfl
      | none =>
          cases hstep
          exact absurd List.mem_cons_self (hconsistent rfl a rfl)
  | callback a label =>
      cases label with
      | event bev => trivial
      | accept bev slots =>
          intro x hx hfull
          obtain ⟨b, rfl⟩ := Option.isSome_iff_exists.mp hfull.1
          obtain ⟨y, hy, rfl⟩ := step_callback_ok hx hstep
          refine ⟨?_, Listening.grow_overflows hfull hy⟩
          cases slots with
          | some junk => rfl
          | none =>
              have hsame := (hconsistent x y hx (put_self ..)).1 (some b) rfl hfull
              exact absurd hsame (Listening.grow_fails (hsound.servers a x hx).1 hfull hy)

end EventBase

/-- **Allocation failure.** In a run of servers on an event base, every step leaves the servers
consistent exactly when every step has its allocations supplied: the client array of a server whose
listener is registered, and the larger array of a server whose slots are all in use. -/
theorem servers_consistent_iff (ls : List LoopLabel)
    (hallowed : Along EventBase.step (fun s l => l.Allowed s) EventBase.start ls) :
    Along EventBase.step (fun s l => l.Safe s) EventBase.start ls ↔
      Along EventBase.step (fun s l => l.Supplied s) EventBase.start ls := by
  refine Along.iff_of (I := EventBase.Sound) (fun s l hsound hl => ?_)
    (fun s l t out hsound hl hsafe hstep => ?_) EventBase.Sound.start hallowed
  · refine ⟨hsound.supplied_of_safe hl, fun hsupplied => ?_⟩
    obtain ⟨t, out, hstep, hconsistent, -⟩ := hsound.step_supplied hl hsupplied
    exact ⟨t, out, hstep, hconsistent⟩
  · obtain ⟨u, out', hstep', -, hsound'⟩ :=
      hsound.step_supplied hl (hsound.supplied_of_safe hl hsafe)
    rw [hstep, Except.ok.injEq, Prod.mk.injEq] at hstep'
    exact hstep'.1 ▸ hsound'

/-- A server whose client array is not allocated. -/
def failedCreate : List LoopLabel := [.create (some 1) true none]

/-- A server that accepts ten connections, and an eleventh one when memory has run out. -/
def failedGrowth : List LoopLabel :=
  .create (some 1) true (some fun _ => 0) ::
    ((List.range 10).map fun i => .callback 1 (.accept (some (i + 2)) (some fun _ => 0))) ++
      [.callback 1 (.accept (some 12) none)]

theorem failedCreate_allowed :
    Along EventBase.step (fun s l => l.Allowed s) EventBase.start failedCreate :=
  ⟨fun _ _ => rfl, fun _ _ _ => trivial⟩

theorem servers_consistent_iff_failedCreate :
    Along EventBase.step (fun s l => l.Safe s) EventBase.start failedCreate ↔
      Along EventBase.step (fun s l => l.Supplied s) EventBase.start failedCreate :=
  servers_consistent_iff failedCreate failedCreate_allowed

/-- The listener stays on the base with a server that has been freed; and the array is gone with
the count and a larger capacity still there, so that the next callback follows the null pointer. -/
theorem allocation_failure_inconsistent :
    (∃ s, exec EventBase.step EventBase.start failedCreate = .ok (s, [none]) ∧
      1 ∈ s.registered ∧ s.servers 1 = none) ∧
    ∃ s outs x, exec EventBase.step EventBase.start failedGrowth = .ok (s, outs) ∧
      s.servers 1 = some x ∧ x.server = ⟨none, 10, 20⟩ ∧
      s.step (.callback 1 (.accept (some 13) (some fun _ => 0))) =
        .error (.callback .nullArray) :=
  ⟨⟨_, rfl, List.mem_cons_self, rfl⟩, _, _, _, rfl, rfl, rfl, rfl⟩

end LibEzmb
