import LibEzmb.BaseRun
import LibEzmb.BusDevice

/-! The two listener loops, of e_device.c and of e_device_lua.c. Both take two frames off the south
socket for one call of the callback, without a look at the more-frames flag, and drop the first one
when they fail to get the second. -/

open CHeap CBytes Multipart Runs

namespace LibEzmb

/-- What the calls of one iteration give: `zmq_poll` fails or reports input, and each of the two
receives succeeds or fails. -/
structure ListenEnv where
  poll : Option Bool
  okTopic : Bool
  okData : Bool
  deriving DecidableEq, Repr

/-- The two frames an iteration got, and whether it called the callback on them. -/
structure Heard where
  topic : Bytes
  payload : Bytes
  called : Bool
  deriving DecidableEq, Repr

def Heard.msg (x : Heard) : Msg := [x.topic, x.payload]

/-- `lua_e_device_t`; `callbackRef` is none for `LUA_NOREF`. -/
structure LuaEDevice where
  device : EDevice
  L : Option Addr
  callbackRef : Option Nat
  deriving DecidableEq

section Iteration

variable {σ : Type}

/-- The round both loops make, given whether they have a callback to call; `none` while it waits in
a receive. -/
def listenIteration (hasCallback : Bool) (recv : σ → Option (Frame Bytes × σ)) (env : ListenEnv)
    (sock : σ) : Option (Option Heard × σ) :=
  match env.poll with
  | some true => do
      let (pair, sock) ← recvPair recv env.okTopic env.okData sock
      match pair with
      | none => some (none, sock)
      | some (topic, payload) => some (some ⟨topic, payload, hasCallback⟩, sock)
  | _ => some (none, sock)

/-- The start of `e_device_listen_thread`: nothing is run without a device and a callback. -/
def eDeviceListenStart (device : Option EDevice) : Option EDevice :=
  match device with
  | none => none
  | some device => if device.cb.isNone then none else some { device with running := true }

/-- One round of the loop of `e_device_listen_thread`; `none` also when the loop has ended. -/
def eDeviceListenIteration (device : EDevice) (recv : σ → Option (Frame Bytes × σ))
    (env : ListenEnv) (sock : σ) : Option (Option Heard × σ) :=
  if device.running then listenIteration true recv env sock else none

/-- One round of the loop of `lua_listen_thread`; `none` also when the loop has ended. -/
def luaListenIteration (ud : LuaEDevice) (recv : σ → Option (Frame Bytes × σ)) (env : ListenEnv)
    (sock : σ) : Option (Option Heard × σ) :=
  if ud.device.running then
    listenIteration (ud.callbackRef.isSome && ud.L.isSome) recv env sock
  else none

/-- Unless the second receive fails after the first one, a round leaves the socket alone or hears
its next two frames. -/
theorem listenIteration_cases {hasCallback : Bool} {recv : σ → Option (Frame Bytes × σ)}
    {env : ListenEnv} {sock sock' : σ} {heard : Option Heard}
    (hwhole : env.poll = some true → env.okTopic = true → env.okData = true)
    (hiter : listenIteration hasCallback recv env sock = some (heard, sock')) :
    (heard = none ∧ sock' = sock) ∨
    ∃ f g mid, recv sock = some (f, mid) ∧ recv mid = some (g, sock') ∧
      heard = some ⟨f.body, g.body, hasCallback⟩ := by
  rw [listenIteration] at hiter
  split at hiter
  · next hpoll =>
    obtain ⟨⟨pair, sock''⟩, hpair, hrest⟩ := Option.bind_eq_some_iff.mp hiter
    cases htopic : env.okTopic with
    | false =>
        rw [htopic, recvPair_topic_fails] at hpair
        cases hpair
        cases hrest
        exact Or.inl ⟨rfl, rfl⟩
    | true =>
        rw [htopic, hwhole hpoll htopic] at hpair
        obtain ⟨f, g, mid, hf, hg, rfl⟩ := recvPair_ok hpair
        cases hrest
        exact Or.inr ⟨f, g, mid, hf, hg, rfl⟩
  · cases hiter
    exact Or.inl ⟨rfl, rfl⟩

end Iteration

/-! ### One listener and what arrives for it -/

/-- Which of the two loops makes a round, on which device. -/
inductive ListenLoop where
  | device (d : EDevice)
  | lua (ud : LuaEDevice)
  deriving DecidableEq

def ListenLoop.iteration : ListenLoop → ListenEnv → List (Frame Bytes) →
    Option (Option Heard × List (Frame Bytes))
  | .device d => eDeviceListenIteration d recvFrame
  | .lua ud => luaListenIteration ud recvFrame

def ListenLoop.hasCallback : ListenLoop → Bool
  | .device _ => true
  | .lua ud => ud.callbackRef.isSome && ud.L.isSome

structure ListenState where
  inbox : List (Frame Bytes)
  arrived : List Msg
  heard : List Heard
  deriving DecidableEq, Repr

inductive ListenLabel where
  | arrive (m : Msg)
  | iterate (loop : ListenLoop) (env : ListenEnv)
  deriving DecidableEq

namespace ListenState

def start : ListenState := ⟨[], [], []⟩

def step (s : ListenState) : ListenLabel → Option ListenState
  | .arrive m => some { s with inbox := s.inbox ++ frames m, arrived := s.arrived ++ [m] }
  | .iterate loop env => do
      let (heard, inbox) ← loop.iteration env s.inbox
      some { s with inbox := inbox, heard := s.heard ++ heard.toList }

def Step (s : ListenState) (l : ListenLabel) (t : ListenState) : Prop := s.step l = some t

end ListenState

/-- The message has two frames; the second receive does not fail when the first succeeded. -/
def ListenLabel.Clean : ListenLabel → Prop
  | .arrive m => m.length = 2
  | .iterate _ env => env.poll = some true → env.okTopic = true → env.okData = true

/-- A Lua loop has a callback set; the other one does not start without. -/
def ListenLabel.Answered : ListenLabel → Prop
  | .arrive _ => True
  | .iterate loop _ => loop.hasCallback = true

namespace ListenState

variable {s t : ListenState} {l : ListenLabel}

theorem iteration_eq (loop : ListenLoop) {env : ListenEnv} {fs : List (Frame Bytes)}
    {r : Option Heard × List (Frame Bytes)} (hiter : loop.iteration env fs = some r) :
    listenIteration loop.hasCallback recvFrame env fs = some r := by
  cases loop with
  | device d =>
      rw [ListenLoop.iteration, eDeviceListenIteration] at hiter
      split at hiter
      · exact hiter
      · cases hiter
  | lua ud =>
      rw [ListenLoop.iteration, luaListenIteration] at hiter
      split at hiter
      · exact hiter
      · cases hiter

/-- At a message boundary: what was heard are whole messages in order, and what has arrived since
waits whole. -/
def Aligned (s : ListenState) : Prop :=
  ∃ rest, s.arrived = s.heard.map Heard.msg ++ rest ∧ s.inbox = stream rest ∧
    ∀ m ∈ rest, m.length = 2

theorem Aligned.step (haligned : Aligned s) (hclean : l.Clean) (hstep : Step s l t) :
    Aligned t := by
  obtain ⟨rest, harrived, hinbox, hpairs⟩ := haligned
  cases l with
  | arrive m =>
      cases hstep
      refine ⟨rest ++ [m], by simp [harrived], by simp [hinbox], fun m' hm' => ?_⟩
      rw [List.mem_append, List.mem_singleton] at hm'
      rcases hm' with hm' | rfl
      · exact hpairs m' hm'
      · exact hclean
  | iterate loop env =>
      obtain ⟨⟨heard, inbox⟩, hiter, ht⟩ := Option.bind_eq_some_iff.mp hstep
      cases ht
      rcases listenIteration_cases hclean (iteration_eq loop hiter) with ⟨rfl, hsame⟩ |
        ⟨f, g, mid, hf, hg, rfl⟩
      · exact ⟨rest, by simpa using harrived, by rw [hsame, hinbox], hpairs⟩
      · rw [hinbox] at hf
        obtain ⟨rest', rfl, -, -, hinbox'⟩ := recvFrame_stream hpairs hf hg
        refine ⟨rest', by simp [harrived, Heard.msg], hinbox', fun m hm => ?_⟩
        exact hpairs m (List.mem_cons_of_mem _ hm)

theorem called_step (hcalled : ∀ x ∈ s.heard, x.called = true) (hanswered : l.Answered)
    (hwhole : l.Clean) (hstep : Step s l t) : ∀ x ∈ t.heard, x.called = true := by
  cases l with
  | arrive m => cases hstep; exact hcalled
  | iterate loop env =>
      obtain ⟨⟨heard, inbox⟩, hiter, ht⟩ := Option.bind_eq_some_iff.mp hstep
      cases ht
      intro x hx
      rcases List.mem_append.mp hx with hx | hx
      · exact hcalled x hx
      · rcases listenIteration_cases hwhole (iteration_eq loop hiter) with ⟨rfl, -⟩ |
          ⟨f, g, mid, -, -, rfl⟩
        · cases hx
        · rw [Option.toList_some, List.mem_singleton] at hx
          rw [hx]
          exact hanswered

/-- **Listener framing.** While only messages of two frames arrive and no receive fails between the
two frames of a message, both loops hear the messages whole, in order and none left out, and what
has arrived since is still waiting whole. A loop with a callback calls it on each. -/
theorem listener_framing {ls : List ListenLabel} {s : ListenState} (hrun : Run Step start ls s)
    (hclean : ∀ l ∈ ls, l.Clean) :
    (∃ rest, s.arrived = s.heard.map Heard.msg ++ rest ∧ s.inbox = stream rest ∧
      ∀ m ∈ rest, m.length = 2) ∧
    ((∀ l ∈ ls, l.Answered) → ∀ x ∈ s.heard, x.called = true) := by
  constructor
  · exact hrun.invariant_of (I := Aligned)
      (fun s l t hl haligned hstep => haligned.step hl hstep) hclean ⟨[], rfl, rfl, by simp⟩
  · intro hanswered
    exact hrun.invariant_of (P := fun l => l.Clean ∧ l.Answered)
      (I := fun s => ∀ x ∈ s.heard, x.called = true)
      (fun s l t hl hcalled hstep => called_step hcalled hl.2 hl.1 hstep)
      (fun l hl => ⟨hclean l hl, hanswered l hl⟩) (by simp [start])

end ListenState

/-- A running device with a callback. -/
def sampleListener : EDevice :=
  { freshDevice ⟨[], by decide⟩ .monitor (some 0) with running := true }

/-- A message arrives and is heard. -/
theorem listener_framing_pair :
    ∃ s : ListenState, (∃ rest, s.arrived = s.heard.map Heard.msg ++ rest ∧ s.inbox = stream rest ∧
      ∀ m ∈ rest, m.length = 2) ∧ s.heard = [⟨[1], [2], true⟩] := by
  have hrun : Run ListenState.Step .start
      [.arrive [[1], [2]], .iterate (.device sampleListener) ⟨some true, true, true⟩]
      ⟨[], [[[1], [2]]], [⟨[1], [2], true⟩]⟩ := .cons rfl (.cons rfl (.nil _))
  exact ⟨_, (ListenState.listener_framing hrun (by simp [ListenLabel.Clean])).1, rfl⟩

/-- After a message of one frame, and after a receive that fails between two frames, the loop takes
the payload of one message for the topic of the next. -/
def Shifts (loop : ListenLoop) : Prop :=
  (∃ s, Run ListenState.Step .start
      [.arrive [[1]], .arrive [[2], [3]], .iterate loop ⟨some true, true, true⟩] s ∧
    s.heard = [⟨[1], [2], true⟩] ∧ ∀ m ∈ s.arrived, ¬[[1], [2]] <+: m) ∧
  ∃ s, Run ListenState.Step .start
      [.arrive [[1], [2]], .arrive [[3], [4]], .iterate loop ⟨some true, true, false⟩,
        .iterate loop ⟨some true, true, true⟩] s ∧
    s.heard = [⟨[2], [3], true⟩] ∧ ∀ m ∈ s.arrived, ¬[[2], [3]] <+: m

/-- Both loops do. -/
theorem listener_shift_counterexample :
    Shifts (.device sampleListener) ∧ Shifts (.lua ⟨sampleListener, some 0, some 0⟩) := by
  constructor
  · exact ⟨⟨_, .cons rfl (.cons rfl (.cons rfl (.nil _))), rfl, by decide⟩,
      ⟨_, .cons rfl (.cons rfl (.cons rfl (.cons rfl (.nil _)))), rfl, by decide⟩⟩
  · exact ⟨⟨_, .cons rfl (.cons rfl (.cons rfl (.nil _))), rfl, by decide⟩,
      ⟨_, .cons rfl (.cons rfl (.cons rfl (.cons rfl (.nil _)))), rfl, by decide⟩⟩

end LibEzmb
