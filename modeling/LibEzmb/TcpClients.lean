import Mathlib.Algebra.Group.Int.Defs
import Mathlib.Algebra.Group.Nat.Defs
import LibEzmb.BaseLoop
import LibEzmb.BaseSlots
import LibEzmb.TcpServer

/-! The client array of e_tcp_server.c under its event callbacks: it grows by doubling, a closed
connection leaves its slot to the last one, and the slots in use are the live connections. -/

open CHeap Runs Slots

namespace LibEzmb

/-- What stops the event loop: the array is the null pointer or too short, `int` arithmetic runs
over, a connection is freed that is not live. -/
inductive ClientFault where
  | nullArray
  | outOfBounds
  | overflow
  | deadConnection
  deriving DecidableEq, Repr

/-- `e_tcp_server_t` as the event callbacks see it: the client array as it was allocated. -/
structure EventServer where
  clients : Option (List Addr)
  clientCount : Int
  clientCapacity : Int
  deriving DecidableEq, Repr

/-- The server as the broadcast sees it. -/
def EventServer.toETcpServer (server : EventServer) : ETcpServer :=
  ⟨server.clients.getD [], server.clientCount.toNat⟩

/-- `E_TCP_SERVER_CLIENT_CAPACITY`. -/
def clientCapacity₀ : Int := 10

/-- What `malloc` and `realloc` give: nothing, or slots with some contents. -/
abbrev SlotAlloc := Option (Nat → Addr)

/-- `e_tcp_server_create`, given whether the server and its listener are set up. -/
def eTcpServerCreate (okServer okListener : Bool) (slots : SlotAlloc) : Option EventServer :=
  if !okServer then none
  else if !okListener then none
  else do
    let junk ← slots
    some {
      clients := some ((List.range clientCapacity₀.toNat).map junk)
      clientCount := 0
      clientCapacity := clientCapacity₀ }

/-- `server->clients[i]` as a value. -/
def EventServer.client (server : EventServer) (i : Int) : Except ClientFault Addr :=
  match server.clients with
  | none => .error .nullArray
  | some clients =>
      if i < 0 then .error .outOfBounds
      else match clients[i.toNat]? with
        | none => .error .outOfBounds
        | some client => .ok client

/-- `server->clients[i] = bev`. -/
def EventServer.setClient (server : EventServer) (i : Int) (bev : Addr) :
    Except ClientFault EventServer :=
  match server.clients with
  | none => .error .nullArray
  | some clients =>
      if 0 ≤ i ∧ i < clients.length then
        .ok { server with clients := some (clients.set i.toNat bev) }
      else .error .outOfBounds

/-- The loop of `e_tcp_server_remove_client` from slot `i` on, with so many slots left. -/
def removeClientFrom (server : EventServer) (bev : Addr) (i : Int) :
    Nat → Except ClientFault EventServer
  | 0 => .ok server
  | left + 1 => do
      let client ← server.client i
      if client = bev then
        let last ← server.client (server.clientCount - 1)
        let server ← server.setClient i last
        .ok { server with clientCount := server.clientCount - 1 }
      else removeClientFrom server bev (i + 1) left

def eTcpServerRemoveClient (server : EventServer) (bev : Addr) : Except ClientFault EventServer :=
  removeClientFrom server bev 0 server.clientCount.toNat

/-- `int` arithmetic, which must not leave the range of `int`. -/
def intResult (n : Int) : Except ClientFault Int :=
  if -0x80000000 ≤ n ∧ n ≤ 0x7fffffff then .ok n else .error .overflow

/-- `realloc`: the old slots first, then others. -/
def reallocSlots (clients : Option (List Addr)) (size : Nat) (slots : SlotAlloc) :
    Option (List Addr) := do
  let junk ← slots
  let old := (clients.getD []).take size
  some (old ++ (List.range (size - old.length)).map junk)

/-- `server->clients[server->client_count++] = bev`. -/
def storeNext (server : EventServer) (bev : Addr) : Except ClientFault EventServer := do
  let count ← intResult (server.clientCount + 1)
  { server with clientCount := count }.setClient server.clientCount bev

/-- The part of `listener_cb` that makes room and stores the connection. -/
def storeClient (server : EventServer) (slots : SlotAlloc) (bev : Addr) :
    Except ClientFault EventServer :=
  if server.clientCount ≥ server.clientCapacity then do
    let capacity ← intResult (server.clientCapacity * 2)
    let clients := reallocSlots server.clients capacity.toNat slots
    let server := { server with clientCapacity := capacity, clients := clients }
    if clients.isNone then .ok server else storeNext server bev
  else storeNext server bev

/-- The server and the connections that were accepted and not freed. -/
structure Listening where
  server : EventServer
  live : List Addr
  deriving DecidableEq, Repr

/-- The event loop calls `listener_cb`, which `bufferevent_socket_new` and `realloc` answer, or
`conn_eventcb` with a connection. -/
inductive ClientLabel where
  | accept (bev : Option Addr) (slots : SlotAlloc)
  | event (bev : Addr)

def listenerCb (s : Listening) (bev : Option Addr) (slots : SlotAlloc) :
    Except ClientFault Listening :=
  match bev with
  | none => .ok s
  | some bev => do
      let server ← storeClient s.server slots bev
      .ok ⟨server, s.live ++ [bev]⟩

/-- `conn_eventcb`. The flags only choose what is printed. -/
def connEventcb (s : Listening) (bev : Addr) : Except ClientFault Listening := do
  let server ← eTcpServerRemoveClient s.server bev
  if bev ∈ s.live then .ok ⟨server, s.live.erase bev⟩ else .error .deadConnection

def Listening.step (s : Listening) : ClientLabel → Except ClientFault Listening
  | .accept bev slots => listenerCb s bev slots
  | .event bev => connEventcb s bev

/-- What the event loop does when no allocation fails: a new connection is none of the live ones,
which stay at most 2 to the 30th, and events happen on live connections. -/
def Listening.Admits (s : Listening) : ClientLabel → Prop
  | .accept bev slots => slots.isSome ∧ s.live.length < 2 ^ 30 ∧ ∃ b, bev = some b ∧ b ∉ s.live
  | .event bev => bev ∈ s.live

def Listening.Step (s : Listening) (l : ClientLabel) (t : Listening) : Prop :=
  s.Admits l ∧ s.step l = .ok t

/-! ### The slots in use -/

def EventServer.connected (server : EventServer) : List Addr :=
  used (server.clients.getD []) server.clientCount.toNat

/-- The first `clientCount` slots are the live connections, each once, in an array of ten times a
power of two slots. -/
structure Listening.Intact (s : Listening) : Prop where
  nonneg : 0 ≤ s.server.clientCount
  fits : s.server.clientCount ≤ s.server.clientCapacity
  doubled : ∃ k : Nat, s.server.clientCapacity = 10 * 2 ^ k
  allocated : ∃ clients, s.server.clients = some clients ∧
    (clients.length : Int) = s.server.clientCapacity
  connected : s.server.connected.Perm s.live
  distinct : s.server.connected.Nodup

variable {server : EventServer} {clients : List Addr} {bev : Addr} {n : Nat}

theorem client_of_getElem? (hclients : server.clients = some clients) {i : Nat} {client : Addr}
    (hclient : clients[i]? = some client) : server.client i = .ok client := by
  simp only [EventServer.client, hclients, Int.toNat_natCast, hclient]
  rw [if_neg (by omega)]

theorem setClient_of_lt (hclients : server.clients = some clients) {i : Nat}
    (hi : i < clients.length) (a : Addr) :
    server.setClient i a = .ok { server with clients := some (clients.set i a) } := by
  simp only [EventServer.setClient, hclients, Int.toNat_natCast]
  rw [if_pos (by omega)]

/-- The loop comes to the end, or moves the last client into the first slot that holds the one to
remove. -/
theorem removeClientFrom_spec (hclients : server.clients = some clients)
    (hcount : server.clientCount = n) (hfits : n ≤ clients.length) (left i : Nat)
    (hleft : i + left = n) (bev : Addr) :
    (removeClientFrom server bev i left = .ok server ∧
      ∀ j, i ≤ j → j < n → clients[j]? ≠ some bev) ∨
    ∃ j last, i ≤ j ∧ j < n ∧ clients[j]? = some bev ∧ clients[n - 1]? = some last ∧
      removeClientFrom server bev i left = .ok { server with
        clients := some (clients.set j last), clientCount := (n - 1 : Nat) } := by
  induction left generalizing i with
  | zero => exact Or.inl ⟨rfl, fun j hij hjn => by omega⟩
  | succ left ih =>
      have hclient := client_of_getElem? hclients (List.getElem?_eq_getElem (by omega : i < _))
      by_cases hbev : clients[i] = bev
      · have hlast : clients[n - 1]? = some clients[n - 1] := List.getElem?_eq_getElem _
        refine Or.inr ⟨i, clients[n - 1], le_rfl, by omega, ?_, hlast, ?_⟩
        · rw [List.getElem?_eq_getElem (by omega), hbev]
        · have hpred : server.clientCount - 1 = ((n - 1 : Nat) : Int) := by omega
          simp only [removeClientFrom, hclient, ok_bind, if_pos hbev, hpred,
            client_of_getElem? hclients hlast, setClient_of_lt hclients (by omega : i < _)]
      · have hnext : removeClientFrom server bev i (left + 1) =
            removeClientFrom server bev ((i + 1 : Nat) : Int) left := by
          simp only [removeClientFrom, hclient, ok_bind, if_neg hbev]
          rfl
        rw [hnext]
        rcases ih (i + 1) (by omega) with ⟨hend, hnone⟩ | ⟨j, last, hij, hj⟩
        · refine Or.inl ⟨hend, fun j hij hjn heq => ?_⟩
          by_cases hji : j = i
          · subst hji
            rw [List.getElem?_eq_getElem (by omega), Option.some.injEq] at heq
            exact hbev heq
          · exact hnone j (by omega) hjn heq
        · exact Or.inr ⟨j, last, by omega, hj⟩

/-- Removing a client that is in a slot leaves the others. -/
theorem eTcpServerRemoveClient_spec (hclients : server.clients = some clients)
    (hcount : server.clientCount = n) (hfits : n ≤ clients.length)
    (hmem : bev ∈ used clients n) :
    ∃ clients', eTcpServerRemoveClient server bev = .ok { server with
        clients := some clients', clientCount := (n - 1 : Nat) } ∧
      clients'.length = clients.length ∧
      (used clients' (n - 1)).Perm ((used clients n).erase bev) ∧ 0 < n := by
  have hlength := used_length hfits
  have hstart : eTcpServerRemoveClient server bev =
      removeClientFrom server bev ((0 : Nat) : Int) n := by
    rw [eTcpServerRemoveClient, hcount]
    rfl
  rcases removeClientFrom_spec hclients hcount hfits n 0 (Nat.zero_add n) bev with
    ⟨-, hnone⟩ | ⟨j, last, -, hjn, hj, hlast, hremove⟩
  · obtain ⟨j, hj, hget⟩ := List.mem_iff_getElem.mp hmem
    rw [hlength] at hj
    refine absurd ?_ (hnone j (Nat.zero_le _) hj)
    simp only [← hget, used, List.getElem_take]
    exact List.getElem?_eq_getElem _
  · have hjused : j < (used clients n).length := by omega
    have hget : (used clients n)[j] = bev := by
      have hj' : (used clients n)[j]? = some bev := by rw [used, List.getElem?_take_of_lt hjn, hj]
      rwa [List.getElem?_eq_getElem hjused, Option.some.injEq] at hj'
    refine ⟨_, hstart.trans hremove, List.length_set, ?_, by omega⟩
    apply (used_swap_last_perm hfits hjn hlast).trans
    have hcons := List.getElem_cons_eraseIdx_perm hjused
    rw [hget] at hcons
    exact (List.perm_cons bev).mp (hcons.trans (List.perm_cons_erase hmem))

/-- A connection stored behind the others, in an array with room for it. -/
theorem storeNext_spec (hclients : server.clients = some clients) (hcount : server.clientCount = n)
    (hroom : n < clients.length) (hsmall : n + 1 ≤ 0x7fffffff) (bev : Addr) :
    ∃ clients', storeNext server bev = .ok { server with
        clients := some clients', clientCount := (n + 1 : Nat) } ∧
      clients'.length = clients.length ∧ used clients' (n + 1) = used clients n ++ [bev] := by
  refine ⟨clients.set n bev, ?_, List.length_set, used_set_next hroom bev⟩
  have hint : intResult (server.clientCount + 1) = .ok ((n + 1 : Nat) : Int) := by
    rw [hcount, intResult, if_pos (by omega)]
    rfl
  rw [storeNext, hint, ok_bind, hcount]
  apply setClient_of_lt
  · exact hclients
  · exact hroom

/-- `listener_cb` stores the connection behind the others and keeps the array or doubles it. -/
theorem storeClient_spec (junk : Nat → Addr) (hclients : server.clients = some clients)
    (hcount : server.clientCount = n) (hcapacity : server.clientCapacity = clients.length)
    (hfits : n ≤ clients.length) (hsmall : n + 1 ≤ 0x7fffffff)
    (hdouble : n = clients.length → clients.length * 2 ≤ 0x7fffffff) (hpos : 0 < clients.length)
    (bev : Addr) :
    ∃ clients' capacity, storeClient server (some junk) bev = .ok {
        clients := some clients', clientCount := (n + 1 : Nat), clientCapacity := capacity } ∧
      (clients'.length : Int) = capacity ∧ n + 1 ≤ clients'.length ∧
      (capacity = server.clientCapacity ∨ capacity = server.clientCapacity * 2) ∧
      used clients' (n + 1) = used clients n ++ [bev] := by
  unfold storeClient
  by_cases hfull : server.clientCount ≥ server.clientCapacity
  · obtain rfl : n = clients.length := by omega
    have hint : intResult (server.clientCapacity * 2) = .ok (server.clientCapacity * 2) := by
      rw [intResult, if_pos (by have := hdouble rfl; omega)]
    have htwice : (server.clientCapacity * 2).toNat = clients.length * 2 := by omega
    let more := (List.range (clients.length * 2 - clients.length)).map junk
    have hrealloc : reallocSlots (some clients) (clients.length * 2) (some junk) =
        some (clients ++ more) := by
      simp only [reallocSlots, Option.getD_some, List.take_of_length_le (by omega :
        clients.length ≤ clients.length * 2)]
      rfl
    have hlength : (clients ++ more).length = clients.length * 2 := by
      simp only [more, List.length_append, List.length_map, List.length_range]
      omega
    let grown : EventServer :=
      ⟨some (clients ++ more), clients.length, server.clientCapacity * 2⟩
    have hgrown : grown.clients = some (clients ++ more) := rfl
    have hgrownCount : grown.clientCount = clients.length := rfl
    obtain ⟨clients', hstore, hlength', hused⟩ :=
      storeNext_spec hgrown hgrownCount (by omega) hsmall bev
    refine ⟨clients', server.clientCapacity * 2, ?_, by omega, by omega, Or.inr rfl, ?_⟩
    · rw [if_pos hfull, hint, ok_bind, htwice, hclients, hrealloc, hcount]
      exact hstore
    · rw [hused, used_append le_rfl]
  · obtain ⟨clients', hstore, hlength', hused⟩ :=
      storeNext_spec hclients hcount (by omega) hsmall bev
    exact ⟨clients', server.clientCapacity, by rw [if_neg hfull, hstore], by omega, by omega,
      Or.inl rfl, hused⟩

theorem intResult_ok {m r : Int} (hresult : intResult m = .ok r) : r = m ∧ m ≤ 0x7fffffff := by
  rw [intResult] at hresult
  split at hresult
  · next hrange =>
      cases hresult
      exact ⟨rfl, hrange.2⟩
  · cases hresult

/-- A failed `realloc` has overwritten the pointer to the array, and there is room again by the
capacity. -/
def EventServer.Lost (server : EventServer) : Prop :=
  server.clients = none ∧ 0 < server.clientCount ∧ server.clientCount < server.clientCapacity

/-- A `listener_cb` that goes through has lost the array, or stored the connection behind the
others. -/
theorem storeClient_ok {slots : SlotAlloc} {server' : EventServer}
    (hclients : server.clients = some clients) (hcount : server.clientCount = n)
    (hcapacity : server.clientCapacity = clients.length) (hfits : n ≤ clients.length)
    (hpos : 0 < clients.length) (hstore : storeClient server slots bev = .ok server') :
    server'.Lost ∨ ∃ clients' capacity, server' = {
        clients := some clients', clientCount := (n + 1 : Nat), clientCapacity := capacity } ∧
      (clients'.length : Int) = capacity ∧ n + 1 ≤ clients'.length ∧
      (capacity = server.clientCapacity ∨ capacity = server.clientCapacity * 2) ∧
      used clients' (n + 1) = used clients n ++ [bev] := by
  have hnext {server'' : EventServer} (hsame : server''.clientCount = n)
      (hok : storeNext server'' bev = .ok server') : n + 1 ≤ 0x7fffffff := by
    obtain ⟨count, hint, -⟩ := bind_eq_ok hok
    obtain ⟨-, hle⟩ := intResult_ok hint
    omega
  by_cases hfull : server.clientCount ≥ server.clientCapacity
  · obtain ⟨capacity, hint, hrest⟩ : ∃ capacity, intResult (server.clientCapacity * 2) =
        .ok capacity ∧ _ := by
      rw [storeClient, if_pos hfull] at hstore
      exact bind_eq_ok hstore
    obtain ⟨rfl, hle⟩ := intResult_ok hint
    cases slots with
    | none =>
        simp only [reallocSlots, Option.bind_eq_bind, Option.bind_none, Option.isNone_none,
          if_true] at hrest
        cases hrest
        refine Or.inl ⟨rfl, ?_, ?_⟩ <;> dsimp only <;> omega
    | some junk =>
        obtain ⟨clients', capacity', hspec, hshape⟩ := storeClient_spec junk hclients hcount
          hcapacity hfits (by omega) (fun _ => by omega) hpos bev
        rw [hstore, Except.ok.injEq] at hspec
        exact Or.inr ⟨clients', capacity', hspec, hshape⟩
  · have hsame : storeClient server slots bev = storeClient server (some fun _ => 0) bev := by
      simp only [storeClient, if_neg hfull]
    have hsmall : n + 1 ≤ 0x7fffffff := by
      rw [storeClient, if_neg hfull] at hstore
      exact hnext hcount hstore
    obtain ⟨clients', capacity', hspec, hshape⟩ := storeClient_spec (fun _ => 0) hclients hcount
      hcapacity hfits hsmall (fun hn => by omega) hpos bev
    rw [← hsame, hstore, Except.ok.injEq] at hspec
    exact Or.inr ⟨clients', capacity', hspec, hshape⟩

namespace Listening

variable {s t : Listening} {l : ClientLabel} {ls ls' : List ClientLabel}

theorem Intact.create {okServer okListener : Bool} {slots : SlotAlloc}
    (hcreate : eTcpServerCreate okServer okListener slots = some server) : Intact ⟨server, []⟩ := by
  simp only [eTcpServerCreate, Option.ite_none_left_eq_some, Option.bind_eq_bind,
    Option.bind_eq_some_iff, Option.some.injEq] at hcreate
  obtain ⟨-, -, junk, rfl, rfl⟩ := hcreate
  refine ⟨le_rfl, (by decide : 0 ≤ clientCapacity₀), ⟨0, rfl⟩, ⟨_, rfl, ?_⟩, List.Perm.refl _,
    List.nodup_nil⟩
  rw [List.length_map, List.length_range]
  rfl

theorem Intact.capacity_pos (hintact : s.Intact) : 0 < s.server.clientCapacity := by
  obtain ⟨k, hk⟩ := hintact.doubled
  rw [hk]
  exact Int.mul_pos (by decide) (Int.pow_pos (by decide))

/-- The parts of an intact list by name. -/
theorem Intact.parts (hintact : s.Intact) : ∃ (n : Nat) (clients : List Addr),
    s.server.clientCount = n ∧ s.server.clients = some clients ∧
      s.server.clientCapacity = clients.length ∧ n ≤ clients.length ∧ 0 < clients.length ∧
      s.server.connected = used clients n := by
  have hpos := hintact.capacity_pos
  obtain ⟨hnonneg, hfits, -, ⟨clients, hclients, hlength⟩, -, -⟩ := hintact
  obtain ⟨n, hcount⟩ := Int.eq_ofNat_of_zero_le hnonneg
  refine ⟨n, clients, hcount, hclients, hlength.symm, by omega, by omega, ?_⟩
  rw [EventServer.connected, hclients, hcount]
  rfl

/-- A new connection that was stored, unless the array was lost. -/
theorem Intact.accept (hintact : s.Intact) {slots : SlotAlloc} (hnew : bev ∉ s.live)
    {server' : EventServer} (hstore : storeClient s.server slots bev = .ok server') :
    server'.Lost ∨ (Intact ⟨server', s.live ++ [bev]⟩ ∧
      s.server.clientCapacity ≤ server'.clientCapacity) := by
  obtain ⟨n, clients, hcount, hclients, hcapacity, hfits, hpos, hconnected⟩ := hintact.parts
  rcases storeClient_ok hclients hcount hcapacity hfits hpos hstore with
    hlost | ⟨clients', capacity, rfl, hlength, hfits', hgrown, hused⟩
  · exact Or.inl hlost
  obtain ⟨-, -, ⟨k, hk⟩, -, hperm, hdistinct⟩ := hintact
  rw [hconnected] at hperm hdistinct
  refine Or.inr ⟨⟨Int.natCast_nonneg _, ?_, ?_, ⟨clients', rfl, hlength⟩, ?_, ?_⟩, ?_⟩
  · change ((n + 1 : Nat) : Int) ≤ capacity
    omega
  · rcases hgrown with rfl | rfl
    · exact ⟨k, hk⟩
    · exact ⟨k + 1, by simp only [hk, Int.pow_succ, Int.mul_assoc]⟩
  · change (used clients' (n + 1)).Perm _
    rw [hused]
    exact hperm.append_right [bev]
  · change (used clients' (n + 1)).Nodup
    rw [hused, List.nodup_append]
    refine ⟨hdistinct, by simp, fun x hx y hy heq => hnew ?_⟩
    rw [← List.mem_singleton.mp hy, ← heq]
    exact hperm.subset hx
  · change s.server.clientCapacity ≤ capacity
    omega

/-- A callback that the event loop may make goes through and keeps the slots and the live
connections together, and the array does not shrink. -/
theorem Intact.step (hintact : s.Intact) (hadmits : s.Admits l) :
    ∃ t, s.step l = .ok t ∧ t.Intact ∧ s.server.clientCapacity ≤ t.server.clientCapacity := by
  obtain ⟨n, clients, hcount, hclients, hcapacity, hfits, hpos, hconnected⟩ := hintact.parts
  have hperm := hintact.connected
  rw [hconnected] at hperm
  cases l with
  | accept bev slots =>
      obtain ⟨hslots, hroom, b, rfl, hnew⟩ := hadmits
      obtain ⟨junk, rfl⟩ := Option.isSome_iff_exists.mp hslots
      rw [← hperm.length_eq, used_length hfits] at hroom
      obtain ⟨clients', capacity, hstore, -⟩ := storeClient_spec junk hclients hcount hcapacity
        hfits (by omega) (fun _ => by omega) hpos b
      rcases hintact.accept hnew hstore with hlost | ⟨hintact', hgrown⟩
      · cases hlost.1
      · exact ⟨_, by rw [Listening.step, listenerCb, hstore]; rfl, hintact', hgrown⟩
  | event bev =>
      obtain ⟨-, -, ⟨k, hk⟩, ⟨clients, hclients', hlength⟩, -, hdistinct⟩ := hintact
      rw [hclients, Option.some.injEq] at hclients'
      subst hclients'
      rw [hconnected] at hdistinct
      obtain ⟨clients', hremove, hlength', hused, hn⟩ :=
        eTcpServerRemoveClient_spec hclients hcount hfits (hperm.symm.subset hadmits)
      refine ⟨⟨{ s.server with clients := some clients', clientCount := (n - 1 : Nat) },
          s.live.erase bev⟩, ?_, ⟨Int.natCast_nonneg _, ?_, ⟨k, hk⟩, ⟨clients', rfl, ?_⟩, ?_, ?_⟩,
        le_rfl⟩
      · rw [Listening.step, connEventcb, hremove, ok_bind]
        exact if_pos hadmits
      · change ((n - 1 : Nat) : Int) ≤ s.server.clientCapacity
        omega
      · rw [hlength']
        exact hlength
      · exact hused.trans (hperm.erase bev)
      · exact hused.symm.nodup (hdistinct.erase bev)

/-- What the event loop may do when allocations can fail too: a new connection is none of the live
ones, and events happen on live connections. -/
def Possible (s : Listening) : ClientLabel → Prop
  | .accept bev _ => ∀ b, bev = some b → b ∉ s.live
  | .event bev => bev ∈ s.live

/-- A callback that went through has lost the array, or kept the slots and the live connections
together. -/
theorem Intact.step_ok (hintact : s.Intact) (hpossible : s.Possible l) (hstep : s.step l = .ok t) :
    t.server.Lost ∨ t.Intact := by
  cases l with
  | accept bev slots =>
      cases bev with
      | none =>
          cases hstep
          exact Or.inr hintact
      | some b =>
          obtain ⟨server, hstore, hrest⟩ := bind_eq_ok hstep
          cases hrest
          exact (hintact.accept (hpossible b rfl) hstore).imp_right And.left
  | event bev =>
      obtain ⟨u, hu, hintact', -⟩ := hintact.step (l := .event bev) hpossible
      rw [hstep, Except.ok.injEq] at hu
      rw [hu]
      exact Or.inr hintact'

/-- Once the array is lost, the only callback that goes through is one without a connection. -/
theorem Lost.step_ok (hlost : s.server.Lost) (hstep : s.step l = .ok t) : t = s := by
  obtain ⟨hnone, hpos, hroom⟩ := hlost
  cases l with
  | accept bev slots =>
      cases bev with
      | none =>
          cases hstep
          rfl
      | some b =>
          obtain ⟨server, hstore, -⟩ := bind_eq_ok hstep
          rw [storeClient, if_neg (by omega)] at hstore
          obtain ⟨count, -, hset⟩ := bind_eq_ok hstore
          simp only [EventServer.setClient, hnone] at hset
          cases hset
  | event bev =>
      obtain ⟨server, hremove, -⟩ := bind_eq_ok hstep
      obtain ⟨n, hn⟩ : ∃ n, s.server.clientCount.toNat = n + 1 :=
        ⟨s.server.clientCount.toNat - 1, by omega⟩
      rw [eTcpServerRemoveClient, hn, removeClientFrom] at hremove
      obtain ⟨client, hclient, -⟩ := bind_eq_ok hremove
      rw [EventServer.client, hnone] at hclient
      cases hclient

theorem Intact.run (hintact : s.Intact) (hrun : Run Step s ls t) : t.Intact := by
  refine hrun.invariant (fun s l t hs hstep => ?_) hintact
  obtain ⟨u, hu, hintact', -⟩ := hs.step hstep.1
  rw [hstep.2] at hu
  cases hu
  exact hintact'

theorem capacity_mono (hintact : s.Intact) (hrun : Run Step s ls t) :
    s.server.clientCapacity ≤ t.server.clientCapacity := by
  induction hrun with
  | nil => exact le_rfl
  | cons hstep hrest ih =>
      obtain ⟨u, hu, hintact', hle⟩ := hintact.step hstep.1
      rw [hstep.2] at hu
      cases hu
      exact hle.trans (ih hintact')

/-- **Client list.** In every run of the event loop the slots in use are the live connections, no
callback stores outside the array, and the array never shrinks. -/
theorem client_list_intact {okServer okListener : Bool} {slots : SlotAlloc}
    (hcreate : eTcpServerCreate okServer okListener slots = some server)
    (hrun : Run Step ⟨server, []⟩ ls s) :
    s.Intact ∧ (∀ l, s.Admits l → ∃ t, s.step l = .ok t) ∧
      ∀ ls' t, Run Step s ls' t → s.server.clientCapacity ≤ t.server.clientCapacity := by
  have hintact := (Intact.create hcreate).run hrun
  refine ⟨hintact, fun l hadmits => ?_, fun ls' t hrun' => capacity_mono hintact hrun'⟩
  obtain ⟨t, ht, -⟩ := hintact.step hadmits
  exact ⟨t, ht⟩

/-- A connection is closed and a new one gets its address. -/
def reusedConnection : List ClientLabel :=
  [.accept (some 5) (some fun _ => 0), .accept (some 6) (some fun _ => 0), .event 5,
    .accept (some 5) (some fun _ => 0)]

theorem reusedConnection_run {server : EventServer}
    (hcreate : eTcpServerCreate true true (some fun _ => 7) = some server) :
    ∃ s, Run Step ⟨server, []⟩ reusedConnection s ∧ s.live = [6, 5] := by
  cases hcreate
  exact ⟨_, .cons ⟨⟨rfl, by decide, 5, rfl, by decide⟩, rfl⟩
    (.cons ⟨⟨rfl, by decide, 6, rfl, by decide⟩, rfl⟩
      (.cons ⟨(by decide : 5 ∈ [5, 6]), rfl⟩
        (.cons ⟨⟨rfl, by decide, 5, rfl, by decide⟩, rfl⟩ (.nil _)))), rfl⟩

theorem client_list_intact_reused : ∃ s : Listening, s.live = [6, 5] ∧ s.Intact ∧
    (∀ l, s.Admits l → ∃ t, s.step l = .ok t) ∧
      ∀ ls' t, Run Step s ls' t → s.server.clientCapacity ≤ t.server.clientCapacity := by
  obtain ⟨server, hcreate⟩ : ∃ server, eTcpServerCreate true true (some fun _ => 7) = some server :=
    ⟨_, rfl⟩
  obtain ⟨s, hrun, hlive⟩ := reusedConnection_run hcreate
  exact ⟨s, hlive, client_list_intact hcreate hrun⟩

end Listening

/-- The broadcast finds the array as it needs it. -/
theorem Listening.Intact.wellFormed {s : Listening} (hintact : s.Intact) :
    s.server.toETcpServer.WellFormed := by
  have hpos := hintact.capacity_pos
  obtain ⟨hnonneg, hfits, -, ⟨clients, hclients, hlength⟩, -, hdistinct⟩ := hintact
  have hslots : s.server.toETcpServer.clients = clients := by
    rw [EventServer.toETcpServer, hclients]
    rfl
  refine ⟨fun hnil => ?_, ?_, hdistinct⟩
  · rw [hslots] at hnil
    rw [hnil, List.length_nil] at hlength
    omega
  · rw [hslots]
    change s.server.clientCount.toNat ≤ clients.length
    omega

end LibEzmb
