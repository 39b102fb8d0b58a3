import LibEzmb.BaseBytes
import LibEzmb.BaseHeap
import LibEzmb.BaseRun

/-! The client list of e_tcp_server.c and the broadcast over it: one detached thread for each
client, all of them with the same argument, which says nothing about which client is meant. -/

open CHeap CBytes Runs

namespace LibEzmb

/-- `e_tcp_server_t`: the slots of the client array, of which the first `clientCount` are in use. A
client is the address of its `bufferevent`. -/
structure ETcpServer where
  clients : List Addr
  clientCount : Nat
  deriving DecidableEq, Repr

namespace ETcpServer

def connected (server : ETcpServer) : List Addr := server.clients.take server.clientCount

/-- The array is not empty and holds each connected client once. -/
structure WellFormed (server : ETcpServer) : Prop where
  room : server.clients ≠ []
  fits : server.clientCount ≤ server.clients.length
  distinct : server.connected.Nodup

end ETcpServer

/-- `send_arg_t`. The payload is a copy made by the broadcast; the pointer to the server is left to
the state the threads run in. -/
structure SendArg where
  payload : Bytes
  deriving DecidableEq, Repr

/-- What the calls of a broadcast give: the two `malloc`s, and each `pthread_create`. -/
structure BroadcastEnv where
  okArg : Bool
  okPayload : Bool
  okThread : Nat → Bool

/-- `e_tcp_server_broadcast`: the arguments of the threads it starts. -/
def eTcpServerBroadcast (env : BroadcastEnv) (server : ETcpServer) (payload : Bytes) :
    List SendArg :=
  if !env.okArg then []
  else if !env.okPayload then []
  else
    let arg : SendArg := { payload := payload }
    ((List.range server.clientCount).filter env.okThread).map fun _ => arg

/-- `e_tcp_server_send`: the client it writes to, and what. -/
def eTcpServerSend (server : ETcpServer) (arg : SendArg) : Option (Addr × Bytes) := do
  let bev ← server.clients[0]?
  some (bev, arg.payload)

/-! ### Running the threads -/

/-- The server, the threads that have not run yet and the writes made so far. -/
structure BroadcastState where
  server : ETcpServer
  threads : List SendArg
  writes : List (Addr × Bytes)
  deriving DecidableEq, Repr

/-- The thread at a position of the list runs. -/
def BroadcastState.Step (s : BroadcastState) (k : Nat) (t : BroadcastState) : Prop :=
  ∃ arg w, s.threads[k]? = some arg ∧ eTcpServerSend s.server arg = some w ∧
    t = ⟨s.server, s.threads.eraseIdx k, s.writes ++ [w]⟩

/-- What was written to one client, in order. -/
def writesTo (c : Addr) (writes : List (Addr × Bytes)) : List Bytes :=
  (writes.filter fun w => w.1 = c).map Prod.snd

/-- One copy of the payload for each connected client and nothing for anyone else. -/
def ReachedOnce (server : ETcpServer) (payload : Bytes) (writes : List (Addr × Bytes)) : Prop :=
  ∀ c, writesTo c writes = if c ∈ server.connected then [payload] else []

/-- All threads of a broadcast have run, in some order, and these are the writes they made. -/
def Broadcasts (env : BroadcastEnv) (server : ETcpServer) (payload : Bytes)
    (writes : List (Addr × Bytes)) : Prop :=
  ∃ ks, Run BroadcastState.Step ⟨server, eTcpServerBroadcast env server payload, []⟩ ks
    ⟨server, [], writes⟩

section Broadcast

variable {server : ETcpServer} {payload : Bytes} {env : BroadcastEnv} {first : Addr}
  {rest : List Addr}

/-- The number of threads a broadcast starts. -/
def startedThreads (env : BroadcastEnv) (server : ETcpServer) : Nat :=
  if env.okArg && env.okPayload then ((List.range server.clientCount).filter env.okThread).length
  else 0

theorem eTcpServerBroadcast_eq (env : BroadcastEnv) (server : ETcpServer) (payload : Bytes) :
    eTcpServerBroadcast env server payload =
      List.replicate (startedThreads env server) ⟨payload⟩ := by
  unfold eTcpServerBroadcast startedThreads
  cases env.okArg with
  | false => rfl
  | true =>
      cases env.okPayload with
      | false => rfl
      | true => exact List.map_const'

/-- Each thread that has run has written the payload to the first client. -/
structure Written (server : ETcpServer) (payload : Bytes) (first : Addr) (n : Nat)
    (s : BroadcastState) : Prop where
  same : s.server = server
  counts : s.threads.length + s.writes.length = n
  threads : ∀ arg ∈ s.threads, arg.payload = payload
  writes : ∀ w ∈ s.writes, w = (first, payload)

theorem Written.step (hclients : server.clients = first :: rest) {n k : Nat} {s t : BroadcastState}
    (hwritten : Written server payload first n s) (hstep : s.Step k t) :
    Written server payload first n t := by
  obtain ⟨arg, w, harg, hw, rfl⟩ := hstep
  obtain ⟨hk, rfl⟩ := List.getElem?_eq_some_iff.mp harg
  have hpayload := hwritten.threads _ (List.getElem_mem hk)
  rw [eTcpServerSend, hwritten.same, hclients] at hw
  cases hw
  refine ⟨hwritten.same, ?_, ?_, ?_⟩
  · have hcounts := hwritten.counts
    rw [List.length_eraseIdx_of_lt hk, List.length_append, List.length_singleton]
    omega
  · intro arg harg'
    exact hwritten.threads arg (List.mem_of_mem_eraseIdx harg')
  · intro w hw
    rw [List.mem_append, List.mem_singleton] at hw
    rcases hw with hw | rfl
    · exact hwritten.writes w hw
    · rw [hpayload]

/-- However the threads are scheduled, each of them writes to the first client. -/
theorem Broadcasts.writes_eq {writes : List (Addr × Bytes)}
    (hall : Broadcasts env server payload writes) (hclients : server.clients = first :: rest) :
    writes = List.replicate (startedThreads env server) (first, payload) := by
  obtain ⟨ks, hrun⟩ := hall
  have hstart : Written server payload first (startedThreads env server)
      ⟨server, eTcpServerBroadcast env server payload, []⟩ := by
    rw [eTcpServerBroadcast_eq]
    refine ⟨rfl, by simp, fun arg harg => ?_, by simp⟩
    rw [List.eq_of_mem_replicate harg]
  have hend : Written server payload first (startedThreads env server) ⟨server, [], writes⟩ :=
    hrun.invariant (fun _ _ _ hs hstep => hs.step hclients hstep) hstart
  refine List.eq_replicate_iff.mpr ⟨?_, hend.writes⟩
  have hcounts := hend.counts
  rwa [List.length_nil, Nat.zero_add] at hcounts

theorem writesTo_replicate (c : Addr) (n : Nat) :
    writesTo c (List.replicate n (first, payload)) =
      if first = c then List.replicate n payload else [] := by
  by_cases hc : first = c <;> simp [writesTo, hc]

/-- Copies to the first client alone are right for no client and no copy, or one of each. -/
theorem reachedOnce_replicate (hwf : server.WellFormed) (hclients : server.clients = first :: rest)
    (n : Nat) :
    ReachedOnce server payload (List.replicate n (first, payload)) ↔
      (server.clientCount = 0 ∧ n = 0) ∨ (server.clientCount = 1 ∧ n = 1) := by
  have hdistinct := hwf.distinct
  have hfits := hwf.fits
  unfold ReachedOnce
  simp only [writesTo_replicate, ETcpServer.connected, hclients] at hdistinct ⊢
  rw [hclients, List.length_cons] at hfits
  match hcount : server.clientCount with
  | 0 =>
      constructor
      · intro hreached
        have hfirst := congrArg List.length (hreached first)
        simp at hfirst
        simp [hfirst]
      · rintro (⟨-, rfl⟩ | ⟨h, -⟩)
        · simp
        · cases h
  | 1 =>
      constructor
      · intro hreached
        have hfirst := congrArg List.length (hreached first)
        simp at hfirst
        simp [hfirst]
      · rintro (⟨h, -⟩ | ⟨-, rfl⟩)
        · cases h
        · intro c
          by_cases hc : first = c <;> simp [hc, eq_comm]
  | m + 2 =>
      -- the second client is another one than the first, and gets nothing
      cases rest with
      | nil =>
          rw [hcount, List.length_nil] at hfits
          omega
      | cons second rest =>
          rw [hcount] at hdistinct
          have hne : first ≠ second := by
            rintro rfl
            simp at hdistinct
          constructor
          · intro hreached
            have hsecond := hreached second
            simp [hne] at hsecond
          · rintro (⟨h, -⟩ | ⟨h, -⟩) <;> omega

theorem startedThreads_one (hcount : server.clientCount = 1) :
    startedThreads env server = 1 ↔
      env.okArg = true ∧ env.okPayload = true ∧ env.okThread 0 = true := by
  unfold startedThreads
  rw [hcount, List.range_one]
  cases env.okArg <;> cases env.okPayload <;> cases hthread : env.okThread 0 <;> simp [hthread]

/-- **Broadcast.** When all threads of a broadcast have run, every client has got the payload once
and no one else anything exactly when there is no client, or there is one and its thread was
started. -/
theorem broadcast_reaches_once_iff (hwf : server.WellFormed) {writes : List (Addr × Bytes)}
    (hall : Broadcasts env server payload writes) :
    ReachedOnce server payload writes ↔
      server.clientCount = 0 ∨ (server.clientCount = 1 ∧ env.okArg = true ∧
        env.okPayload = true ∧ env.okThread 0 = true) := by
  obtain ⟨first, rest, hclients⟩ := List.exists_cons_of_ne_nil hwf.room
  rw [hall.writes_eq hclients, reachedOnce_replicate hwf hclients]
  constructor
  · rintro (⟨hnone, -⟩ | ⟨hone, hstarted⟩)
    · exact Or.inl hnone
    · exact Or.inr ⟨hone, (startedThreads_one hone).mp hstarted⟩
  · rintro (hnone | ⟨hone, hok⟩)
    · exact Or.inl ⟨hnone, by simp [startedThreads, hnone]⟩
    · exact Or.inr ⟨hone, (startedThreads_one hone).mpr hok⟩

end Broadcast

/-- With one client the broadcast does what it should. -/
theorem broadcast_reaches_once_one : ReachedOnce ⟨[5, 0], 1⟩ [1] [(5, [1])] := by
  have hall : Broadcasts ⟨true, true, fun _ => true⟩ ⟨[5, 0], 1⟩ [1] [(5, [1])] :=
    ⟨[0], .cons ⟨⟨[1]⟩, (5, [1]), rfl, rfl, rfl⟩ (.nil _)⟩
  exact (broadcast_reaches_once_iff ⟨by decide, by decide, by decide⟩ hall).mpr
    (Or.inr ⟨rfl, rfl, rfl, rfl⟩)

/-- With two clients both threads write to the first. -/
theorem broadcast_two_counterexample :
    ∃ server : ETcpServer, server.WellFormed ∧ server.clientCount = 2 ∧
      Broadcasts ⟨true, true, fun _ => true⟩ server [1] [(5, [1]), (5, [1])] ∧
      ¬ReachedOnce server [1] [(5, [1]), (5, [1])] := by
  refine ⟨⟨[5, 6], 2⟩, ⟨by decide, by decide, by decide⟩, rfl, ?_, fun hreached => ?_⟩
  · exact ⟨[0, 0], .cons ⟨⟨[1]⟩, (5, [1]), rfl, rfl, rfl⟩
      (.cons ⟨⟨[1]⟩, (5, [1]), rfl, rfl, rfl⟩ (.nil _))⟩
  · exact absurd (hreached 6) (by decide)

end LibEzmb
