import LibEzmb.TcpClients

/-! Broadcasts, the detached threads they start, and the event loop, in any order. A sender looks its
target up when it runs and writes to it later; a callback of the event loop is one step. -/

open CHeap CBytes Runs Slots

namespace LibEzmb

/-- Where `app_main_thread` is: between two broadcasts, or in the loop that starts the threads of
one. -/
inductive AppPlace where
  | idle
  | starting (arg : SendArg) (i : Int)
  deriving DecidableEq, Repr

/-- A thread in `e_tcp_server_send`: the broadcast that started it, its argument and, once it has
looked it up, its target. -/
structure SenderThread where
  broadcast : Nat
  arg : SendArg
  bev : Option Addr
  deriving DecidableEq, Repr

/-- A `bufferevent_write`, with whether its connection had been accepted and not freed. -/
structure SentWrite where
  broadcast : Nat
  bev : Addr
  payload : Bytes
  live : Bool
  deriving DecidableEq, Repr

/-- The event loop's state, the thread that broadcasts and how often it has, the senders that have
not ended, and the writes made so far. -/
structure Senders where
  listening : Listening
  app : AppPlace
  broadcasts : Nat
  threads : List SenderThread
  writes : List SentWrite
  deriving DecidableEq, Repr

/-- A callback of the event loop; `e_tcp_server_broadcast` up to its loop, with whether its two
`malloc`s succeed; one round of the loop, with whether its `pthread_create` succeeds; a sender that
looks its target up; a sender that writes. -/
inductive SenderLabel where
  | client (l : ClientLabel)
  | broadcast (payload : Bytes) (okArg okPayload : Bool)
  | spawn (ok : Bool)
  | read (k : Nat)
  | write (k : Nat)

namespace Senders

def start (server : EventServer) : Senders := ⟨⟨server, []⟩, .idle, 0, [], []⟩

/-- One round of the loop of `e_tcp_server_broadcast`. -/
def spawn (s : Senders) (arg : SendArg) (i : Int) (ok : Bool) : Senders :=
  if i < s.listening.server.clientCount then
    { s with
      app := .starting arg (i + 1)
      threads := if ok then s.threads ++ [⟨s.broadcasts, arg, none⟩] else s.threads }
  else { s with app := .idle }

def Step (s : Senders) : SenderLabel → Senders → Prop
  | .client l, t => s.listening.Possible l ∧
      ∃ listening, s.listening.step l = .ok listening ∧ t = { s with listening := listening }
  | .broadcast payload okArg okPayload, t => s.app = .idle ∧ t = { s with
      app := if okArg && okPayload then .starting ⟨payload⟩ 0 else .idle
      broadcasts := s.broadcasts + 1 }
  | .spawn ok, t => ∃ arg i, s.app = .starting arg i ∧ t = s.spawn arg i ok
  | .read k, t => ∃ x bev, s.threads[k]? = some x ∧ x.bev = none ∧
      s.listening.server.client 0 = .ok bev ∧
      t = { s with threads := s.threads.set k { x with bev := some bev } }
  | .write k, t => ∃ x bev, s.threads[k]? = some x ∧ x.bev = some bev ∧ t = { s with
      threads := s.threads.eraseIdx k
      writes := s.writes ++ [⟨x.broadcast, bev, x.arg.payload, bev ∈ s.listening.live⟩] }

/-! ### One broadcast, one sender -/

variable {s t : Senders} {l : SenderLabel} {ls : List SenderLabel}

/-- The rounds of a broadcast that nothing interrupts, from client `i` on. -/
theorem spawn_run (arg : SendArg) (okThread : Nat → Bool) {n : Nat}
    (hcount : s.listening.server.clientCount = n) (i left : Nat) (hleft : i + left = n)
    (happ : s.app = .starting arg i) :
    Run Step s (((List.range' i left).map fun i => .spawn (okThread i)) ++ [.spawn true])
      { s with
        app := .idle
        threads := s.threads ++
          ((List.range' i left).filter okThread).map fun _ => ⟨s.broadcasts, arg, none⟩ } := by
  induction left generalizing s i with
  | zero =>
      refine .cons ⟨arg, i, happ, ?_⟩ (.nil _)
      rw [spawn, if_neg (by omega)]
      simp
  | succ left ih =>
      have hround : Step s (.spawn (okThread i)) (s.spawn arg i (okThread i)) := ⟨arg, i, happ, rfl⟩
      have hspawn : s.spawn arg i (okThread i) = { s with
          app := .starting arg (i + 1 : Nat)
          threads := s.threads ++
            (if okThread i then [⟨s.broadcasts, arg, none⟩] else []) } := by
        rw [spawn, if_pos (by omega)]
        cases okThread i <;> simp
      rw [hspawn] at hround
      refine .cons hround ?_
      have hrest := ih (s := { s with
          app := .starting arg (i + 1 : Nat)
          threads := s.threads ++
            (if okThread i then [⟨s.broadcasts, arg, none⟩] else []) }) hcount (i + 1)
        (by omega) rfl
      cases hok : okThread i <;>
        simpa [List.range'_succ, hok, List.append_assoc] using hrest

/-- A broadcast that nothing interrupts starts the threads that `e_tcp_server_broadcast` starts. -/
theorem broadcast_run (env : BroadcastEnv) (payload : Bytes) (happ : s.app = .idle) :
    ∃ ls, Run Step s ls { s with
      broadcasts := s.broadcasts + 1
      threads := s.threads ++
        (eTcpServerBroadcast env s.listening.server.toETcpServer payload).map
          fun arg => ⟨s.broadcasts + 1, arg, none⟩ } := by
  let s' : Senders := { s with
    app := if env.okArg && env.okPayload then .starting ⟨payload⟩ 0 else .idle
    broadcasts := s.broadcasts + 1 }
  have hcall : Step s (.broadcast payload env.okArg env.okPayload) s' := ⟨happ, rfl⟩
  by_cases hok : (env.okArg && env.okPayload) = true
  · obtain ⟨harg, hpayload⟩ := Bool.and_eq_true_iff.mp hok
    by_cases hcount : 0 ≤ s.listening.server.clientCount
    · obtain ⟨n, hn⟩ := Int.eq_ofNat_of_zero_le hcount
      have hrounds := spawn_run (s := s') ⟨payload⟩ env.okThread hn 0 n (Nat.zero_add n)
        (if_pos hok)
      refine ⟨.broadcast payload env.okArg env.okPayload ::
        (((List.range' 0 n).map fun i => .spawn (env.okThread i)) ++ [.spawn true]),
        .cons hcall ?_⟩
      have hthreads : eTcpServerBroadcast env s.listening.server.toETcpServer payload =
          ((List.range' 0 n).filter env.okThread).map fun _ => ⟨payload⟩ := by
        simp only [eTcpServerBroadcast, harg, hpayload, EventServer.toETcpServer, hn,
          List.range_eq_range']
        rfl
      rw [hthreads, List.map_map]
      convert hrounds using 1
      simp [s', happ, Function.comp_def]
    · -- a negative count starts none
      have hnone : s.listening.server.clientCount.toNat = 0 := by omega
      have hround : Step s' (.spawn true) { s' with app := .idle } := by
        refine ⟨⟨payload⟩, 0, if_pos hok, ?_⟩
        rw [spawn, if_neg (by change ¬(0 : Int) < s.listening.server.clientCount; omega)]
      refine ⟨[.broadcast payload env.okArg env.okPayload, .spawn true],
        .cons hcall (.cons hround ?_)⟩
      simp only [eTcpServerBroadcast, harg, hpayload, EventServer.toETcpServer, hnone]
      simpa [s', happ] using Run.nil _
  · refine ⟨[.broadcast payload env.okArg env.okPayload], .cons hcall ?_⟩
    have hnothing : eTcpServerBroadcast env s.listening.server.toETcpServer payload = [] := by
      unfold eTcpServerBroadcast
      cases harg : env.okArg <;> cases hpayload : env.okPayload <;> simp_all
    rw [hnothing]
    simpa [s', hok, happ] using Run.nil s'

/-- A sender that nothing interrupts writes what `e_tcp_server_send` writes. -/
theorem send_run {k : Nat} {x : SenderThread} (hx : s.threads[k]? = some x) (hnew : x.bev = none)
    {bev : Addr} {payload : Bytes}
    (hsend : eTcpServerSend s.listening.server.toETcpServer x.arg = some (bev, payload)) :
    Run Step s [.read k, .write k] { s with
      threads := s.threads.eraseIdx k
      writes := s.writes ++ [⟨x.broadcast, bev, payload, bev ∈ s.listening.live⟩] } := by
  obtain ⟨bev', hfirst, hrest⟩ := Option.bind_eq_some_iff.mp hsend
  cases hrest
  have hread : s.listening.server.client 0 = .ok bev := by
    cases hclients : s.listening.server.clients with
    | none => simp [EventServer.toETcpServer, hclients] at hfirst
    | some clients =>
        refine client_of_getElem? hclients (i := 0) ?_
        simpa [EventServer.toETcpServer, hclients] using hfirst
  have hk := (List.getElem?_eq_some_iff.mp hx).1
  refine .cons ⟨x, bev, hx, hnew, hread, rfl⟩
    (.cons ⟨{ x with bev := some bev }, bev, List.getElem?_set_self hk, rfl, ?_⟩ (.nil _))
  simp [List.eraseIdx_set_eq]

/-! ### The order of the writes -/

/-- What is written to a client is written in the order of the broadcasts. -/
def Ordered (s : Senders) : Prop :=
  s.writes.Pairwise fun w w' => w.bev = w'.bev → w.broadcast ≤ w'.broadcast

/-- A sender writes only when no sender of an earlier broadcast has the same target or has still to
look it up. -/
def InOrder (s : Senders) : SenderLabel → Prop
  | .write k => ∀ x, s.threads[k]? = some x → ∀ y ∈ s.threads, y.bev = none ∨ y.bev = x.bev →
      x.broadcast ≤ y.broadcast
  | _ => True

def InOrderStep (s : Senders) (l : SenderLabel) (t : Senders) : Prop := s.InOrder l ∧ Step s l t

/-- No sender is older than what was written to a client it can still write to. -/
structure Sorted (s : Senders) : Prop where
  threads : ∀ x ∈ s.threads, x.broadcast ≤ s.broadcasts
  writes : ∀ w ∈ s.writes, w.broadcast ≤ s.broadcasts
  behind : ∀ x ∈ s.threads, ∀ w ∈ s.writes, x.bev = none ∨ x.bev = some w.bev →
    w.broadcast ≤ x.broadcast
  ordered : s.Ordered

theorem Sorted.start (server : EventServer) : Sorted (start server) :=
  ⟨nofun, nofun, nofun, List.Pairwise.nil⟩

/-- The senders may change where each one is an old one or no older than anything written. -/
theorem Sorted.rethread (hsorted : s.Sorted) (hwrites : t.writes = s.writes)
    (hbroadcasts : t.broadcasts = s.broadcasts)
    (hthreads : ∀ x ∈ t.threads, x ∈ s.threads ∨
      x.broadcast ≤ s.broadcasts ∧ ∀ w ∈ s.writes, w.broadcast ≤ x.broadcast) : t.Sorted := by
  refine ⟨fun x hx => ?_, fun w hw => ?_, fun x hx w hw hsame => ?_, ?_⟩
  · rw [hbroadcasts]
    rcases hthreads x hx with hx | hx
    · exact hsorted.threads x hx
    · exact hx.1
  · rw [hbroadcasts]
    exact hsorted.writes w (hwrites ▸ hw)
  · rw [hwrites] at hw
    rcases hthreads x hx with hx | hx
    · exact hsorted.behind x hx w hw hsame
    · exact hx.2 w hw
  · rw [Ordered, hwrites]
    exact hsorted.ordered

theorem Sorted.step (hsorted : s.Sorted) (hstep : InOrderStep s l t) : t.Sorted := by
  obtain ⟨hinorder, hstep⟩ := hstep
  have ⟨hthreads, hwrites, hbehind, hordered⟩ := hsorted
  cases l with
  | client l =>
      obtain ⟨-, listening, -, rfl⟩ := hstep
      exact ⟨hthreads, hwrites, hbehind, hordered⟩
  | broadcast payload okArg okPayload =>
      obtain ⟨-, rfl⟩ := hstep
      exact ⟨fun x hx => Nat.le_succ_of_le (hthreads x hx),
        fun w hw => Nat.le_succ_of_le (hwrites w hw), hbehind, hordered⟩
  | spawn ok =>
      obtain ⟨arg, i, -, rfl⟩ := hstep
      rw [spawn]
      split
      · cases ok with
        | false => exact ⟨hthreads, hwrites, hbehind, hordered⟩
        | true =>
            refine hsorted.rethread rfl rfl fun x hx => ?_
            rcases List.mem_append.mp hx with hx | hx
            · exact Or.inl hx
            · cases List.mem_singleton.mp hx
              exact Or.inr ⟨le_rfl, hwrites⟩
      · exact ⟨hthreads, hwrites, hbehind, hordered⟩
  | read k =>
      obtain ⟨x, bev, hx, hnew, -, rfl⟩ := hstep
      have hmem := List.mem_of_getElem? hx
      refine hsorted.rethread rfl rfl fun y hy => ?_
      rcases List.mem_or_eq_of_mem_set hy with hy | rfl
      · exact Or.inl hy
      · exact Or.inr ⟨hthreads x hmem, fun w hw => hbehind x hmem w hw (Or.inl hnew)⟩
  | write k =>
      obtain ⟨x, bev, hx, hbev, rfl⟩ := hstep
      have hmem := List.mem_of_getElem? hx
      refine ⟨fun y hy => hthreads y (List.mem_of_mem_eraseIdx hy), ?_, ?_, ?_⟩
      · intro w hw
        rcases List.mem_append.mp hw with hw | hw
        · exact hwrites w hw
        · cases List.mem_singleton.mp hw
          exact hthreads x hmem
      · intro y hy w hw hsame
        have hy' := List.mem_of_mem_eraseIdx hy
        rcases List.mem_append.mp hw with hw | hw
        · exact hbehind y hy' w hw hsame
        · cases List.mem_singleton.mp hw
          refine hinorder x hx y hy' ?_
          rw [hbev]
          exact hsame
      · refine List.pairwise_append.mpr ⟨hordered, List.pairwise_singleton _ _, ?_⟩
        intro w hw w' hw' hsame
        cases List.mem_singleton.mp hw'
        exact hbehind x hmem w hw (Or.inr (by rw [hbev, hsame]))

/-- **Broadcast order.** When a sender writes only once the senders of earlier broadcasts that can
still write to its client have, every client gets its payloads in the order of the broadcasts. -/
theorem broadcast_ordered {server : EventServer} (hrun : Run InOrderStep (start server) ls s) :
    s.Ordered :=
  (hrun.invariant (fun _ _ _ hsorted hstep => hsorted.step hstep) (Sorted.start server)).ordered

/-! ### Targets that have left -/

/-- Every write was to a connection that had been accepted and not freed. -/
def AllLive (s : Senders) : Prop := ∀ w ∈ s.writes, w.live = true

/-- A sender looks its target up only while a client is connected, and no client leaves while a
sender has it for its target. -/
def Attended (s : Senders) : SenderLabel → Prop
  | .read _ => 0 < s.listening.server.clientCount
  | .client (.event bev) => ∀ x ∈ s.threads, x.bev ≠ some bev
  | _ => True

def AttendedStep (s : Senders) (l : SenderLabel) (t : Senders) : Prop := s.Attended l ∧ Step s l t

/-- The array is lost or holds the live connections, and every target is live. -/
structure Held (s : Senders) : Prop where
  list : s.listening.server.Lost ∨ s.listening.Intact
  targets : ∀ x ∈ s.threads, ∀ bev, x.bev = some bev → bev ∈ s.listening.live
  writes : s.AllLive

theorem Held.start {okServer okListener : Bool} {slots : SlotAlloc} {server : EventServer}
    (hcreate : eTcpServerCreate okServer okListener slots = some server) : Held (start server) :=
  ⟨Or.inr (Listening.Intact.create hcreate), nofun, nofun⟩

/-- The first slot of a list in which a client is connected is a live connection. -/
theorem Held.first_live (hheld : s.Held) (hsome : 0 < s.listening.server.clientCount) {bev : Addr}
    (hread : s.listening.server.client 0 = .ok bev) : bev ∈ s.listening.live := by
  rcases hheld.list with hlost | hintact
  · rw [EventServer.client, hlost.1] at hread
    cases hread
  · obtain ⟨n, clients, hcount, hclients, -, hfits, hpos, hconnected⟩ := hintact.parts
    have hfirst := client_of_getElem? hclients (i := 0) (List.getElem?_eq_getElem hpos)
    rw [show ((0 : Nat) : Int) = 0 from rfl, hread, Except.ok.injEq] at hfirst
    apply hintact.connected.subset
    rw [hconnected, hfirst, used, List.mem_take_iff_getElem]
    exact ⟨0, by omega, rfl⟩

theorem Held.client {l : ClientLabel} (hheld : s.Held) (hattended : s.Attended (.client l))
    (hstep : Step s (.client l) t) : t.Held := by
  obtain ⟨hpossible, listening, hok, rfl⟩ := hstep
  obtain ⟨hlist, htargets, hwrites⟩ := hheld
  have hlist' : listening.server.Lost ∨ listening.Intact := by
    rcases hlist with hlost | hintact
    · rw [Listening.Lost.step_ok hlost hok]
      exact Or.inl hlost
    · exact hintact.step_ok hpossible hok
  refine ⟨hlist', fun x hx bev hbev => ?_, hwrites⟩
  have hlive := htargets x hx bev hbev
  cases l with
  | accept b slots =>
      cases b with
      | none =>
          cases hok
          exact hlive
      | some b =>
          obtain ⟨server, -, hrest⟩ := bind_eq_ok hok
          cases hrest
          exact List.mem_append_left _ hlive
  | event b =>
      obtain ⟨server, -, hrest⟩ := bind_eq_ok hok
      rw [if_pos (show b ∈ s.listening.live from hpossible)] at hrest
      cases hrest
      refine (List.mem_erase_of_ne fun heq => hattended x hx ?_).mpr hlive
      rw [hbev, heq]

theorem Held.step (hheld : s.Held) (hstep : AttendedStep s l t) : t.Held := by
  obtain ⟨hattended, hstep⟩ := hstep
  cases l with
  | client l => exact hheld.client hattended hstep
  | broadcast payload okArg okPayload =>
      obtain ⟨-, rfl⟩ := hstep
      exact ⟨hheld.list, hheld.targets, hheld.writes⟩
  | spawn ok =>
      obtain ⟨arg, i, -, rfl⟩ := hstep
      rw [spawn]
      split
      · refine ⟨hheld.list, fun x hx bev hbev => ?_, hheld.writes⟩
        cases ok with
        | false => exact hheld.targets x hx bev hbev
        | true =>
            rcases List.mem_append.mp hx with hx | hx
            · exact hheld.targets x hx bev hbev
            · -- a new sender has no target yet
              cases List.mem_singleton.mp hx
              cases hbev
      · exact ⟨hheld.list, hheld.targets, hheld.writes⟩
  | read k =>
      obtain ⟨x, bev, hx, -, hread, rfl⟩ := hstep
      refine ⟨hheld.list, fun y hy bev' hbev' => ?_, hheld.writes⟩
      rcases List.mem_or_eq_of_mem_set hy with hy | rfl
      · exact hheld.targets y hy bev' hbev'
      · cases hbev'
        exact hheld.first_live hattended hread
  | write k =>
      obtain ⟨x, bev, hx, hbev, rfl⟩ := hstep
      refine ⟨hheld.list, fun y hy bev' => hheld.targets y (List.mem_of_mem_eraseIdx hy) bev', ?_⟩
      intro w hw
      rcases List.mem_append.mp hw with hw | hw
      · exact hheld.writes w hw
      · cases List.mem_singleton.mp hw
        exact decide_eq_true (hheld.targets x (List.mem_of_getElem? hx) bev hbev)

/-- **Departed clients.** When senders look their targets up only while a client is connected, and no
client leaves while a sender has it for its target, no write is to a connection that was freed. -/
theorem no_departed_write {okServer okListener : Bool} {slots : SlotAlloc} {server : EventServer}
    (hcreate : eTcpServerCreate okServer okListener slots = some server)
    (hrun : Run AttendedStep (start server) ls s) : s.AllLive :=
  (hrun.invariant (fun _ _ _ hheld hstep => hheld.step hstep) (Held.start hcreate)).writes

/-! ### Runs that go wrong -/

/-- The server as it is created. -/
def freshServer : EventServer := ⟨some ((List.range 10).map fun _ => 7), 0, 10⟩

theorem freshServer_created : eTcpServerCreate true true (some fun _ => 7) = some freshServer := rfl

/-- Two broadcasts to the one client, which stays, and the sender of the second one first. -/
def overtakingSender : List SenderLabel :=
  [.client (.accept (some 5) none), .broadcast [1] true true, .spawn true, .spawn true,
    .broadcast [2] true true, .spawn true, .spawn true, .read 1, .write 1, .read 0,
    .write 0]

theorem overtakingSender_run : ∃ s, Run Step (start freshServer) overtakingSender s ∧
    s.listening.live = [5] ∧
      s.writes = [⟨2, 5, [2], true⟩, ⟨1, 5, [1], true⟩] :=
  ⟨_, .cons ⟨fun _ _ => List.not_mem_nil, _, rfl, rfl⟩ (.cons ⟨rfl, rfl⟩ (.cons ⟨_, _, rfl, rfl⟩
    (.cons ⟨_, _, rfl, rfl⟩ (.cons ⟨rfl, rfl⟩ (.cons ⟨_, _, rfl, rfl⟩ (.cons ⟨_, _, rfl, rfl⟩
    (.cons ⟨_, _, rfl, rfl, rfl, rfl⟩ (.cons ⟨_, _, rfl, rfl, rfl⟩
    (.cons ⟨_, _, rfl, rfl, rfl, rfl⟩ (.cons ⟨_, _, rfl, rfl, rfl⟩ (.nil _))))))))))), rfl, rfl⟩

theorem broadcast_ordered_counterexample : ∃ s, Run Step (start freshServer) overtakingSender s ∧
    (∀ bev, .client (.event bev) ∉ overtakingSender) ∧ 5 ∈ s.listening.live ∧ ¬s.Ordered := by
  obtain ⟨s, hrun, hlive, hwrites⟩ := overtakingSender_run
  refine ⟨s, hrun, by simp [overtakingSender], by simp [hlive], fun hordered => ?_⟩
  rw [Ordered, hwrites] at hordered
  simp at hordered

/-- The one client leaves after a broadcast, before its sender has looked it up. -/
def departedTarget : List SenderLabel :=
  [.client (.accept (some 5) none), .broadcast [1] true true, .spawn true, .spawn true,
    .client (.event 5), .read 0, .write 0]

theorem departedTarget_run : ∃ s, Run Step (start freshServer) departedTarget s ∧
    s.writes = [⟨1, 5, [1], false⟩] :=
  ⟨_, .cons ⟨fun _ _ => List.not_mem_nil, _, rfl, rfl⟩ (.cons ⟨rfl, rfl⟩ (.cons ⟨_, _, rfl, rfl⟩
    (.cons ⟨_, _, rfl, rfl⟩ (.cons ⟨List.mem_singleton.mpr rfl, _, rfl, rfl⟩
    (.cons ⟨_, _, rfl, rfl, rfl, rfl⟩ (.cons ⟨_, _, rfl, rfl, rfl⟩ (.nil _))))))), rfl⟩

theorem no_departed_write_counterexample :
    ∃ s, Run Step (start freshServer) departedTarget s ∧ ¬s.AllLive := by
  obtain ⟨s, hrun, hwrites⟩ := departedTarget_run
  refine ⟨s, hrun, fun hlive => ?_⟩
  have hlast := hlive ⟨1, 5, [1], false⟩ (by simp [hwrites])
  cases hlast

/-- Two broadcasts whose senders write in their order while the client stays. -/
def patientSenders : List SenderLabel :=
  [.client (.accept (some 5) none), .broadcast [1] true true, .spawn true, .spawn true,
    .broadcast [2] true true, .spawn true, .spawn true, .read 1, .read 0, .write 0, .write 0]

theorem patientSenders_inOrder : ∃ s, Run InOrderStep (start freshServer) patientSenders s ∧
    s.writes = [⟨1, 5, [1], true⟩, ⟨2, 5, [2], true⟩] := by
  refine ⟨_, .cons ⟨trivial, fun _ _ => List.not_mem_nil, _, rfl, rfl⟩
    (.cons ⟨trivial, rfl, rfl⟩ (.cons ⟨trivial, _, _, rfl, rfl⟩ (.cons ⟨trivial, _, _, rfl, rfl⟩
    (.cons ⟨trivial, rfl, rfl⟩ (.cons ⟨trivial, _, _, rfl, rfl⟩ (.cons ⟨trivial, _, _, rfl, rfl⟩
    (.cons ⟨trivial, _, _, rfl, rfl, rfl, rfl⟩ (.cons ⟨trivial, _, _, rfl, rfl, rfl, rfl⟩
    (.cons ⟨?_, _, _, rfl, rfl, rfl⟩ (.cons ⟨?_, _, _, rfl, rfl, rfl⟩ (.nil _))))))))))), rfl⟩
  · intro x hx y hy _
    cases hx
    rcases List.mem_pair.mp hy with rfl | rfl <;> decide
  · intro x hx y hy _
    cases hx
    cases List.mem_singleton.mp hy
    exact le_rfl

theorem broadcast_ordered_patient : ∃ s : Senders, s.writes = [⟨1, 5, [1], true⟩, ⟨2, 5, [2], true⟩] ∧
    s.Ordered := by
  obtain ⟨s, hrun, hwrites⟩ := patientSenders_inOrder
  exact ⟨s, hwrites, broadcast_ordered hrun⟩

/-- A broadcast to two clients, one of which leaves between the writes of the two senders. -/
def leavingSenders : List SenderLabel :=
  [.client (.accept (some 5) none), .client (.accept (some 6) none), .broadcast [1] true true,
    .spawn true, .spawn true, .spawn true, .read 0, .write 0, .client (.event 5), .read 0, .write 0]

theorem leavingSenders_attended : ∃ s, Run AttendedStep (start freshServer) leavingSenders s ∧
    s.writes = [⟨1, 5, [1], true⟩, ⟨1, 6, [1], true⟩] ∧ s.listening.live = [6] := by
  refine ⟨_, .cons ⟨trivial, fun _ _ => List.not_mem_nil, _, rfl, rfl⟩
    (.cons ⟨trivial, fun b hb => ?_, _, rfl, rfl⟩
    (.cons ⟨trivial, rfl, rfl⟩ (.cons ⟨trivial, _, _, rfl, rfl⟩ (.cons ⟨trivial, _, _, rfl, rfl⟩
    (.cons ⟨trivial, _, _, rfl, rfl⟩ (.cons ⟨?_, _, _, rfl, rfl, rfl, rfl⟩
    (.cons ⟨trivial, _, _, rfl, rfl, rfl⟩ (.cons ⟨?_, ?_, _, rfl, rfl⟩
    (.cons ⟨?_, _, _, rfl, rfl, rfl, rfl⟩ (.cons ⟨trivial, _, _, rfl, rfl, rfl⟩
    (.nil _))))))))))), rfl, rfl⟩
  · cases hb
    decide
  · exact show (0 : Int) < 2 by decide
  · intro x hx hbev
    cases List.mem_singleton.mp hx
    cases hbev
  · exact List.mem_cons_self
  · exact Int.one_pos

theorem no_departed_write_leaving : ∃ s : Senders,
    s.writes = [⟨1, 5, [1], true⟩, ⟨1, 6, [1], true⟩] ∧ s.listening.live = [6] ∧ s.AllLive := by
  obtain ⟨s, hrun, hwrites, hlive⟩ := leavingSenders_attended
  exact ⟨s, hwrites, hlive, no_departed_write freshServer_created hrun⟩

end Senders

end LibEzmb
