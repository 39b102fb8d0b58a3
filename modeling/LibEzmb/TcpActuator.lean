import LibEzmb.BaseStream
import LibEzmb.TcpClients
import LibEzmb.TcpMemory

/-! The TCP actuator as a whole: the connections of its server, what comes in over each of them, and
the bridge that the chunks and the payloads of the monitor go through. -/

open CBytes CHeap Ownership Runs Streams

namespace LibEzmb

/-- A connection that was accepted: its number, and what has come in over it. -/
structure Connection where
  serial : Nat
  flow : Inflow UInt8

/-- The server with its connections, those that are live by their address, and the rest of the
program. -/
structure TcpActuator (π : Type) where
  listening : Listening
  accepted : Nat
  connection : Addr → Connection
  closed : List Connection
  memory : ActuatorMemory π

/-- The event loop calls `listener_cb`; bytes arrive in the input buffer of a connection; the event loop
calls `conn_readcb`, or `conn_eventcb`; or the rest of the program takes a step. -/
inductive TcpLabel where
  | accept (bev : Option Addr) (slots : SlotAlloc)
  | input (bev : Addr) (bytes : Bytes)
  | read (bev : Addr) (env : ArrivalEnv)
  | event (bev : Addr)
  | act (l : ActuatorLabel)

inductive TcpFault where
  | client (fault : ClientFault)
  | actuator (fault : ActuatorFault)
  | impossible
  deriving DecidableEq, Repr

/-- What a step shows: the chunk that `read_cb` gets and the number of its connection, and the step
that the rest of the program takes. -/
structure TcpOut where
  read : Option (Nat × Bytes)
  inner : Option (ActuatorLabel × ActuatorOut)

/-- No step of the rest of the program is the callback for a chunk. -/
def ActuatorLabel.isRead : ActuatorLabel → Bool
  | .arrive _ (.chunk _) => true
  | _ => false

namespace TcpActuator

variable {π : Type} (M : Malloc EQnode) (K : Malloc MessageQueue) (code : TransformCode π)

/-- `listener_cb`. -/
def accept (s : TcpActuator π) (bev : Option Addr) (slots : SlotAlloc) :
    Except TcpFault (TcpActuator π × TcpOut) := do
  let listening ← liftFault .client (s.listening.step (.accept bev slots))
  match bev with
  | none => .ok ({ s with listening := listening }, ⟨none, none⟩)
  | some b =>
      if b ∈ s.listening.live then .error .impossible
      else
        .ok ({ s with
          listening := listening
          accepted := s.accepted + 1
          connection := Function.update s.connection b ⟨s.accepted, .empty⟩ }, ⟨none, none⟩)

/-- `conn_readcb`, which takes all that there is once it has memory for it. -/
def read (s : TcpActuator π) (bev : Addr) (env : ArrivalEnv) :
    Except TcpFault (TcpActuator π × TcpOut) := do
  let c := s.connection bev
  let l : ActuatorLabel := .arrive env (.chunk c.flow.waiting)
  let (memory, out) ← liftFault .actuator (s.memory.step M K code l)
  match out.arrived with
  | none => .ok ({ s with memory := memory }, ⟨none, some (l, out)⟩)
  | some _ =>
      .ok ({ s with
        connection := Function.update s.connection bev { c with flow := c.flow.takeAll }
        memory := memory }, ⟨some (c.serial, c.flow.waiting), some (l, out)⟩)

def step (s : TcpActuator π) : TcpLabel → Except TcpFault (TcpActuator π × TcpOut)
  | .accept bev slots => s.accept bev slots
  | .input bev bytes =>
      if bev ∈ s.listening.live then
        let c := s.connection bev
        .ok ({ s with
          connection := Function.update s.connection bev { c with flow := c.flow.arrive bytes } },
          ⟨none, none⟩)
      else .error .impossible
  | .read bev env =>
      if bev ∈ s.listening.live then s.read M K code bev env else .error .impossible
  | .event bev => do
      if bev ∈ s.listening.live then
        let listening ← liftFault .client (s.listening.step (.event bev))
        .ok ({ s with listening := listening, closed := s.closed ++ [s.connection bev] },
          ⟨none, none⟩)
      else .error .impossible
  | .act l =>
      if l.isRead then .error .impossible
      else do
        let (memory, out) ← liftFault .actuator (s.memory.step M K code l)
        .ok ({ s with memory := memory }, ⟨none, some (l, out)⟩)

/-- The server and the rest of the program before the first connection. -/
def start (server : EventServer) (memory : ActuatorMemory π) : TcpActuator π :=
  ⟨⟨server, []⟩, 0, fun _ => ⟨0, .empty⟩, [], memory⟩

/-- All connections there have been. -/
def connections (s : TcpActuator π) : List Connection :=
  s.listening.live.map s.connection ++ s.closed

end TcpActuator

/-- The chunks that `read_cb` got in a run, with the numbers of their connections. -/
def readsIn (los : List (TcpLabel × TcpOut)) : List (Nat × Bytes) := los.filterMap fun lo => lo.2.read

/-- Those of one connection. -/
def readsOf (serial : Nat) (reads : List (Nat × Bytes)) : List Bytes :=
  (reads.filter fun x => x.1 = serial).map Prod.snd

/-- The steps that the rest of the program took in a run. -/
def innerIn (los : List (TcpLabel × TcpOut)) : List (ActuatorLabel × ActuatorOut) :=
  los.filterMap fun lo => lo.2.inner

/-- The steps of the bridge among them. -/
def bridgeIn (los : List (TcpLabel × TcpOut)) : List (BridgeLabel × BridgeOut) :=
  (innerIn los).filterMap ActuatorMemory.bridgeStep

/-! ### The connections -/

/-- What has been read of the connection so far is its chunks, and no byte of it is anywhere else. -/
def Connection.Tracked (reads : List (Nat × Bytes)) (c : Connection) : Prop :=
  c.flow.Whole ∧ c.flow.chunks = readsOf c.serial reads

/-- The connections are tracked, each under a number of its own. -/
structure TracksAll (accepted : Nat) (reads : List (Nat × Bytes)) (cs : List Connection) : Prop where
  serials : (cs.map Connection.serial).Nodup
  past : ∀ c ∈ cs, c.serial < accepted
  tracked : ∀ c ∈ cs, c.Tracked reads

namespace TracksAll

variable {accepted : Nat} {reads : List (Nat × Bytes)} {c : Connection} {cs cs' : List Connection}

theorem perm (hall : TracksAll accepted reads cs) (hperm : cs.Perm cs') :
    TracksAll accepted reads cs' where
  serials := (hperm.map _).nodup_iff.mp hall.serials
  past c hc := hall.past c (hperm.mem_iff.mpr hc)
  tracked c hc := hall.tracked c (hperm.mem_iff.mpr hc)

/-- A new connection, of which nothing has been read. -/
theorem add (hall : TracksAll accepted reads cs) (hreads : ∀ x ∈ reads, x.1 < accepted) :
    TracksAll (accepted + 1) reads (⟨accepted, .empty⟩ :: cs) where
  serials := by
    refine List.nodup_cons.mpr ⟨fun hmem => ?_, hall.serials⟩
    obtain ⟨c, hc, heq⟩ := List.mem_map.mp hmem
    exact absurd (hall.past c hc) (Nat.not_lt.mpr heq.ge)
  past c hc := by
    rcases List.mem_cons.mp hc with rfl | hc
    · exact Nat.lt_succ_self _
    · exact Nat.lt_succ_of_lt (hall.past c hc)
  tracked c hc := by
    rcases List.mem_cons.mp hc with rfl | hc
    · refine ⟨.empty, ?_⟩
      have hnone : (reads.filter fun x => x.1 = accepted) = [] := by
        rw [List.filter_eq_nil_iff]
        intro x hx
        rw [decide_eq_true_eq]
        exact (hreads x hx).ne
      rw [readsOf, hnone]
      rfl
    · exact hall.tracked c hc

/-- More has come in over one of the connections, or been read of it. -/
theorem replace (hall : TracksAll accepted reads (c :: cs)) (c' : Connection)
    (more : List (Nat × Bytes)) (hserial : c'.serial = c.serial)
    (htracked : c'.Tracked (reads ++ more)) (hmore : ∀ x ∈ more, x.1 = c.serial) :
    TracksAll accepted (reads ++ more) (c' :: cs) where
  serials := by
    rw [List.map_cons, hserial]
    exact hall.serials
  past d hd := by
    rcases List.mem_cons.mp hd with rfl | hd
    · rw [hserial]
      exact hall.past c List.mem_cons_self
    · exact hall.past d (List.mem_cons_of_mem _ hd)
  tracked d hd := by
    rcases List.mem_cons.mp hd with rfl | hd
    · exact htracked
    · obtain ⟨hwhole, hchunks⟩ := hall.tracked d (List.mem_cons_of_mem _ hd)
      refine ⟨hwhole, ?_⟩
      have hne : d.serial ≠ c.serial := fun heq =>
        (List.nodup_cons.mp hall.serials).1 (heq ▸ List.mem_map_of_mem hd)
      have hnone : (more.filter fun x => x.1 = d.serial) = [] := by
        rw [List.filter_eq_nil_iff]
        intro x hx
        rw [decide_eq_true_eq, hmore x hx]
        exact hne.symm
      rw [hchunks, readsOf, readsOf, List.filter_append, hnone, List.append_nil]

end TracksAll

namespace TcpActuator

variable {π : Type} {M : Malloc EQnode} {K : Malloc MessageQueue} {code : TransformCode π}
  {s t : TcpActuator π} {reads : List (Nat × Bytes)} {bev : Addr}

/-- Every connection there has been is tracked. -/
structure Tracks (s : TcpActuator π) (reads : List (Nat × Bytes)) : Prop where
  live : s.listening.live.Nodup
  all : TracksAll s.accepted reads s.connections
  past : ∀ x ∈ reads, x.1 < s.accepted

theorem Tracks.start (server : EventServer) (memory : ActuatorMemory π) :
    (start server memory).Tracks [] where
  live := List.nodup_nil
  all := ⟨List.nodup_nil, nofun, nofun⟩
  past := nofun

/-- The connections but the one at an address. -/
def others (s : TcpActuator π) (bev : Addr) : List Connection :=
  (s.listening.live.erase bev).map s.connection ++ s.closed

theorem connections_perm (hlive : bev ∈ s.listening.live) :
    s.connections.Perm (s.connection bev :: s.others bev) :=
  (((List.perm_cons_erase hlive).map s.connection).append_right s.closed)

/-- Only the connection at the address changes. -/
theorem update_perm (hnodup : s.listening.live.Nodup) (hlive : bev ∈ s.listening.live)
    (c : Connection) :
    (s.listening.live.map (Function.update s.connection bev c) ++ s.closed).Perm
      (c :: s.others bev) := by
  have hperm := ((List.perm_cons_erase hlive).map (Function.update s.connection bev c)).append_right
    s.closed
  rwa [List.map_cons, Function.update_self, (hnodup.erase bev).map_update,
    if_neg hnodup.not_mem_erase] at hperm

/-- A new connection does not touch the others, even where an old one had its address. -/
theorem Tracks.accept (htracks : s.Tracks reads) {b : Option Addr} {slots : SlotAlloc} {o : TcpOut}
    (hstep : s.accept b slots = .ok (t, o)) :
    t.Tracks reads ∧ t.memory = s.memory ∧ o = ⟨none, none⟩ := by
  obtain ⟨listening, hlisten, hrest⟩ := bind_eq_ok hstep
  cases b with
  | none =>
      cases liftFault_ok hlisten
      cases hrest
      exact ⟨htracks, rfl, rfl⟩
  | some b =>
      obtain ⟨server, -, hlive⟩ := bind_eq_ok (liftFault_ok hlisten)
      cases hlive
      dsimp only at hrest
      split at hrest
      · cases hrest
      · next hnew =>
          cases hrest
          refine ⟨⟨?_, ?_, fun x hx => Nat.lt_succ_of_lt (htracks.past x hx)⟩, rfl, rfl⟩
          · exact List.nodup_append_comm.mp (List.nodup_cons.mpr ⟨hnew, htracks.live⟩)
          · refine (htracks.all.add htracks.past).perm ?_
            simp only [connections, List.map_append, htracks.live.map_update, if_neg hnew,
              List.map_singleton, Function.update_self, List.append_assoc]
            exact List.perm_middle.symm

theorem Tracks.input (htracks : s.Tracks reads) (hlive : bev ∈ s.listening.live) (bytes : Bytes) :
    Tracks { s with connection := Function.update s.connection bev { s.connection bev with
      flow := (s.connection bev).flow.arrive bytes } } reads := by
  have hall := htracks.all.perm (connections_perm hlive)
  obtain ⟨hwhole, hchunks⟩ := hall.tracked _ List.mem_cons_self
  have hnew := hall.replace { s.connection bev with flow := (s.connection bev).flow.arrive bytes } []
    rfl ⟨hwhole.arrive bytes, by rw [List.append_nil]; exact hchunks⟩ nofun
  rw [List.append_nil] at hnew
  exact ⟨htracks.live, hnew.perm (update_perm htracks.live hlive _).symm, htracks.past⟩

/-- The whole buffer is read and handed on. -/
theorem Tracks.read (htracks : s.Tracks reads) (hlive : bev ∈ s.listening.live)
    (hsome : (s.connection bev).flow.waiting ≠ []) (memory : ActuatorMemory π) :
    Tracks { s with
      connection := Function.update s.connection bev { s.connection bev with
        flow := (s.connection bev).flow.takeAll }
      memory := memory }
      (reads ++ [((s.connection bev).serial, (s.connection bev).flow.waiting)]) := by
  have hall := htracks.all.perm (connections_perm hlive)
  obtain ⟨hwhole, hchunks⟩ := hall.tracked _ List.mem_cons_self
  have hnew := hall.replace { s.connection bev with flow := (s.connection bev).flow.takeAll }
    [((s.connection bev).serial, (s.connection bev).flow.waiting)] rfl ⟨hwhole.takeAll hsome, ?_⟩ ?_
  · refine ⟨htracks.live, hnew.perm (update_perm htracks.live hlive _).symm, fun x hx => ?_⟩
    rcases List.mem_append.mp hx with hx | hx
    · exact htracks.past x hx
    · rw [List.mem_singleton.mp hx]
      exact hall.past _ List.mem_cons_self
  · show (s.connection bev).flow.chunks ++ [(s.connection bev).flow.waiting] = _
    rw [hchunks]
    simp [readsOf, List.filter_append]
  · intro x hx
    rw [List.mem_singleton.mp hx]

/-- A connection that is closed keeps what has come in over it. -/
theorem Tracks.event (htracks : s.Tracks reads) (hlive : bev ∈ s.listening.live)
    {listening : Listening} (hevent : s.listening.step (.event bev) = .ok listening) :
    Tracks { s with listening := listening, closed := s.closed ++ [s.connection bev] } reads := by
  obtain ⟨server, -, hrest⟩ := bind_eq_ok hevent
  rw [if_pos hlive] at hrest
  cases hrest
  refine ⟨htracks.live.erase bev, htracks.all.perm ((connections_perm hlive).trans ?_), htracks.past⟩
  rw [connections, ← List.append_assoc]
  exact (List.perm_append_singleton _ _).symm

/-- The chunk that a step of the rest of the program brings to the bridge. -/
def chunkOf (lo : ActuatorLabel × ActuatorOut) : Option Bytes :=
  (ActuatorMemory.bridgeStep lo).bind fun b => b.1.arrival?.bind Arrival.chunk?

theorem chunkOf_of_not_read {l : ActuatorLabel} {m m' : ActuatorMemory π} {out : ActuatorOut}
    (hother : ¬l.isRead = true) (hstep : m.step M K code l = .ok (m', out)) :
    chunkOf (l, out) = none := by
  cases l with
  | arrive env what =>
      cases what with
      | chunk bytes => exact (hother rfl).elim
      | payload bytes =>
          cases out
          rcases ActuatorMemory.arrived_eq hstep with harrived | ⟨harrived, -⟩ <;> cases harrived <;> rfl
  | app env => rfl
  | send x => rfl

/-- What a step does for the connections, and for the rest of the program. -/
structure Follows (M : Malloc EQnode) (K : Malloc MessageQueue) (code : TransformCode π)
    (s : TcpActuator π) (reads : List (Nat × Bytes)) (o : TcpOut) (t : TcpActuator π) : Prop where
  tracks : t.Tracks (reads ++ o.read.toList)
  chunk : o.inner.bind chunkOf = o.read.map Prod.snd
  memory : (o.inner = none ∧ t.memory = s.memory) ∨
    ∃ k, o.inner = some k ∧ Fires (ActuatorMemory.step M K code) s.memory k t.memory

/-- A step that nothing is shown of. -/
theorem Follows.quiet (htracks : t.Tracks reads) (hmemory : t.memory = s.memory) :
    s.Follows M K code reads ⟨none, none⟩ t :=
  ⟨(List.append_nil reads).symm ▸ htracks, rfl, Or.inl ⟨rfl, hmemory⟩⟩

theorem Tracks.follows_read (htracks : s.Tracks reads) (hlive : bev ∈ s.listening.live)
    {env : ArrivalEnv} {o : TcpOut} (hread : s.read M K code bev env = .ok (t, o)) :
    s.Follows M K code reads o t := by
  obtain ⟨⟨memory, out⟩, hmemory, hrest⟩ := bind_eq_ok hread
  have hfires := liftFault_ok hmemory
  dsimp only at hrest
  split at hrest
  · next hnone =>
      cases hrest
      refine ⟨?_, ?_, Or.inr ⟨_, rfl, hfires⟩⟩
      · exact (List.append_nil reads).symm ▸ ⟨htracks.live, htracks.all, htracks.past⟩
      · cases out
        cases hnone
        rfl
  · next what hsome =>
      cases hrest
      rcases ActuatorMemory.arrived_eq hfires with hnone | ⟨harrived, hnonempty⟩
      · rw [hnone] at hsome
        cases hsome
      · refine ⟨htracks.read hlive (fun hnil => hnonempty (congrArg _ hnil)) memory, ?_,
          Or.inr ⟨_, rfl, hfires⟩⟩
        cases out
        cases harrived
        rfl

theorem Tracks.follows (htracks : s.Tracks reads) {l : TcpLabel} {o : TcpOut}
    (hstep : s.step M K code l = .ok (t, o)) : s.Follows M K code reads o t := by
  cases l with
  | accept bev slots =>
      obtain ⟨htracks', hmemory, rfl⟩ := htracks.accept hstep
      exact .quiet htracks' hmemory
  | input bev bytes =>
      simp only [step] at hstep
      split at hstep
      · next hlive =>
          cases hstep
          exact .quiet (htracks.input hlive bytes) rfl
      · cases hstep
  | read bev env =>
      simp only [step] at hstep
      split at hstep
      · next hlive => exact htracks.follows_read hlive hstep
      · cases hstep
  | event bev =>
      simp only [step] at hstep
      split at hstep
      · next hlive =>
          obtain ⟨listening, hevent, hrest⟩ := bind_eq_ok hstep
          cases hrest
          exact .quiet (htracks.event hlive (liftFault_ok hevent)) rfl
      · cases hstep
  | act l =>
      simp only [step] at hstep
      split at hstep
      · cases hstep
      · next hother =>
          obtain ⟨⟨memory, out⟩, hmemory, hrest⟩ := bind_eq_ok hstep
          cases hrest
          have hfires := liftFault_ok hmemory
          refine ⟨?_, ?_, Or.inr ⟨_, rfl, hfires⟩⟩
          · exact (List.append_nil reads).symm ▸ ⟨htracks.live, htracks.all, htracks.past⟩
          · exact chunkOf_of_not_read hother hfires

/-- The connections are tracked along a run, and the rest of the program makes a run of its own. -/
theorem Tracks.run {los : List (TcpLabel × TcpOut)} (htracks : s.Tracks reads)
    (hrun : Run (Fires (step M K code)) s los t) :
    t.Tracks (reads ++ readsIn los) ∧
      (∀ lo ∈ los, lo.2.inner.bind chunkOf = lo.2.read.map Prod.snd) ∧
      Run (Fires (ActuatorMemory.step M K code)) s.memory (innerIn los) t.memory := by
  induction hrun generalizing reads with
  | nil s =>
      refine ⟨?_, fun lo hlo => absurd hlo List.not_mem_nil, .nil _⟩
      rw [show readsIn [] = [] from rfl, List.append_nil]
      exact htracks
  | @cons s u t lo los hstep _ ih =>
      have hfollows := htracks.follows hstep
      obtain ⟨htracks', hchunks, hinner⟩ := ih hfollows.tracks
      refine ⟨?_, List.forall_mem_cons.mpr ⟨hfollows.chunk, hchunks⟩, ?_⟩
      · have hreads : readsIn (lo :: los) = lo.2.read.toList ++ readsIn los := by
          cases hread : lo.2.read <;> simp [readsIn, hread]
        rw [hreads, ← List.append_assoc]
        exact htracks'
      · rcases hfollows.memory with ⟨hnone, hsame⟩ | ⟨k, hsome, hfires⟩
        · simp only [innerIn, List.filterMap_cons, hnone]
          rw [← hsame]
          exact hinner
        · simp only [innerIn, List.filterMap_cons, hsome]
          exact .cons hfires hinner

/-- The chunks that reach the bridge are those that are read, in the same order. -/
theorem chunks_bridgeIn {los : List (TcpLabel × TcpOut)}
    (hchunks : ∀ lo ∈ los, lo.2.inner.bind chunkOf = lo.2.read.map Prod.snd) :
    chunks (arrivals ((bridgeIn los).map Prod.fst)) = (readsIn los).map Prod.snd := by
  simp only [chunks, arrivals, bridgeIn, innerIn, readsIn, List.map_filterMap,
    List.filterMap_filterMap]
  apply List.filterMap_congr
  intro lo hlo
  rw [← hchunks lo hlo]
  cases lo.2.inner with
  | none => rfl
  | some x =>
      simp only [Option.bind_some]
      cases hstep : ActuatorMemory.bridgeStep x <;> simp only [chunkOf, hstep] <;> rfl

/-- **Streams of the clients.** However connections come and go, also at addresses that were used
before, whatever is read of them and when memory for a read is lacking, the chunks that `read_cb` got
of a connection and what still waits in its buffer are what has come in over it. In a run of the
whole actuator these chunks, interleaved as they were read, are what the bridge takes in from the
server's side, so that what is sent to the monitor and what is still ahead is what the south transform
makes of them. -/
theorem tcp_streams {config : TcpServerConfig} {calls : BridgeStart π} {driver : Option Addr}
    {memory : ActuatorMemory π} {server : EventServer}
    (hstart : ActuatorMemory.actuatorMain M config calls driver = some memory)
    {los : List (TcpLabel × TcpOut)} (hrun : Run (Fires (step M K code)) (start server memory) los t) :
    (t.connections.map Connection.serial).Nodup ∧
      (∀ c ∈ t.connections, c.flow.chunks = readsOf c.serial (readsIn los) ∧
        c.flow.chunks.flatten ++ c.flow.waiting = c.flow.arrived ∧
        ∀ chunk ∈ c.flow.chunks, chunk ≠ []) ∧
      ∀ d, memory.bridge.driver = some d → ∃ entries, t.memory.bridge.Pending entries ∧
        monitorSends (forwards ((bridgeIn los).map Prod.snd)) ++
            monitorSends (relay code d t.memory.bridge.memory (Bridge.arrived entries)) =
          monitorSends (relay code d calls.memory (arrivals ((bridgeIn los).map Prod.fst))) ∧
        chunks (arrivals ((bridgeIn los).map Prod.fst)) = (readsIn los).map Prod.snd ∧
        ∀ g, Computes code d.southTransform g →
          monitorSends (forwards ((bridgeIn los).map Prod.snd)) ++
              (chunks (Bridge.arrived entries)).map g =
            ((readsIn los).map Prod.snd).map g := by
  obtain ⟨htracks, hchunks, hinner⟩ := (Tracks.start server memory).run hrun
  have hbridge := chunks_bridgeIn hchunks
  refine ⟨htracks.all.serials, fun c hc => ?_, fun d hd => ?_⟩
  · obtain ⟨hwhole, hread⟩ := htracks.all.tracked c hc
    exact ⟨hread, hwhole.conserved, hwhole.nonempty⟩
  · obtain ⟨bridge, hmain, hrest⟩ := Option.bind_eq_some_iff.mp hstart
    obtain ⟨hpending, -, hmemory, -⟩ := Bridge.Pending.init hmain
    have hsame : memory.bridge = bridge := by
      split at hrest
      · cases hrest
      · cases hrest
        rfl
    rw [← hsame] at hpending hmemory
    obtain ⟨entries, hpending', hrelay⟩ :=
      hpending.run hd (exec_of_run (ActuatorMemory.run_bridge hinner))
    rw [hmemory] at hrelay
    have hbridges := Bridge.Bridges.of_relay hrelay
    refine ⟨entries, hpending', hbridges.south, hbridge, fun g hg => ?_⟩
    rw [← hbridge]
    exact hbridges.southMap g hg

/-- A read for which there is no memory at first; then the client goes, another one gets its address,
and the first one's bytes are passed on. -/
def sampleTcpRun : List TcpLabel :=
  [.accept (some 20) (some fun _ => 0), .input 20 [1, 2], .read 20 ⟨none, true, some 52⟩, .input 20 [3],
    .read 20 ⟨some 50, true, some 51⟩, .input 20 [9], .event 20, .accept (some 20) (some fun _ => 0),
    .input 20 [4], .read 20 ⟨some 50, true, some 53⟩, .act (.app ⟨none, none, none⟩),
    .act (.app ⟨none, none, none⟩), .act (.app ⟨none, none, none⟩)]

theorem tcp_streams_sample : ∃ memory los t, los.map Prod.fst = sampleTcpRun ∧
    ActuatorMemory.actuatorMain (.bump ⟨none, none⟩) Bridge.pluginOff Bridge.reversingStart (some 70) =
      some memory ∧
    Run (Fires (step (.bump ⟨none, none⟩) ActuatorMemory.sampleMessages Bridge.reversing))
      (start ⟨some (List.replicate 10 0), 0, 10⟩ memory) los t ∧
    readsIn los = [(0, [1, 2, 3]), (1, [4])] ∧
    (t.connections.map Connection.serial).Nodup ∧
    ∃ entries, t.memory.bridge.Pending entries ∧
      monitorSends (forwards ((bridgeIn los).map Prod.snd)) ++ chunks (Bridge.arrived entries) =
        [[1, 2, 3], [4]] := by
  obtain ⟨memory, t, os, hstart, hexec, hlen, hreads, hdriver⟩ : ∃ memory t os,
      ActuatorMemory.actuatorMain (.bump ⟨none, none⟩) Bridge.pluginOff Bridge.reversingStart
        (some 70) = some memory ∧
      exec (step (.bump ⟨none, none⟩) ActuatorMemory.sampleMessages Bridge.reversing)
        (start ⟨some (List.replicate 10 0), 0, 10⟩ memory) sampleTcpRun = .ok (t, os) ∧
      os.length = sampleTcpRun.length ∧
      readsIn (sampleTcpRun.zip os) = [(0, [1, 2, 3]), (1, [4])] ∧
      memory.bridge.driver = some ⟨none, none⟩ :=
    ⟨_, _, _, rfl, rfl, rfl, rfl, rfl⟩
  have hrun := run_of_exec hexec
  obtain ⟨hserials, -, hbridge⟩ := tcp_streams hstart hrun
  obtain ⟨entries, hpending, -, -, hcomputes⟩ := hbridge _ hdriver
  have hsouth := hcomputes id (computes_none _)
  rw [hreads] at hsouth
  refine ⟨memory, _, t, List.map_fst_zip hlen.ge, hstart, hrun, hreads, hserials, entries, hpending, ?_⟩
  simpa using hsouth

end TcpActuator

end LibEzmb
