import LibEzmb.BaseHeap
import LibEzmb.BaseRun
import LibEzmb.BusSocket

/-! The proxy of e_proxy.c. Its loop takes two frames off the frontend and emits them as one message
on the backend, without a look at the more-frames flag. -/

open CHeap CBytes Multipart Runs

namespace LibEzmb

/-- What the calls of one iteration give: `zmq_poll` fails or reports input on the frontend and on
the backend; the receives and sends succeed or fail. -/
structure ProxyEnv where
  poll : Option (Bool × Bool)
  okTopic : Bool
  okData : Bool
  okSendTopic : Bool
  okSendData : Bool
  okSub : Bool
  okSendSub : Bool
  deriving DecidableEq, Repr

/-- No receive and no send fails. -/
def ProxyEnv.lossless (poll : Option (Bool × Bool)) : ProxyEnv :=
  ⟨poll, true, true, true, true, true, true⟩

/-- The two sockets, each with its receiving and its sending end. -/
structure ProxySockets (σ : Type) where
  frontend : σ
  frontendOut : OutSocket
  backend : List (Frame Bytes)
  backendOut : OutSocket
  deriving DecidableEq, Repr

/-- What an iteration lets out: calls of the callback, messages on the backend and subscription
messages on the frontend. -/
structure ProxyOut where
  calls : List (Bytes × Bytes)
  emitted : List Msg
  subscribed : List Msg
  deriving DecidableEq, Repr

section Iteration

variable {σ : Type}

/-- `if (items[1].revents & ZMQ_POLLIN)`: one frame from the subscribers goes to the publishers. -/
def forwardSubscription (env : ProxyEnv) (pollin : Bool) (p : ProxySockets σ) (out : ProxyOut) :
    Option (ProxySockets σ × ProxyOut) :=
  if pollin then do
    let (msg, backend) ← zmqMsgRecv recvFrame env.okSub p.backend
    match msg with
    | none => some ({ p with backend := backend }, out)
    | some msg =>
        let (sock, _, sent) := zmqSend p.frontendOut msg.body false env.okSendSub
        some ({ p with backend := backend, frontendOut := sock }, { out with subscribed := sent })
  else some (p, out)

/-- One round of the loop of `e_proxy_listen_thread`; `none` while it waits in a receive. -/
def eProxyIteration (recv : σ → Option (Frame Bytes × σ)) (callback : Option Addr) (env : ProxyEnv)
    (p : ProxySockets σ) : Option (ProxySockets σ × ProxyOut) :=
  match env.poll with
  | none => some (p, ⟨[], [], []⟩)
  | some (front, back) =>
      if front then do
        let (pair, frontend) ← recvPair recv env.okTopic env.okData p.frontend
        match pair with
        -- `continue` skips the subscription branch as well
        | none => some ({ p with frontend := frontend }, ⟨[], [], []⟩)
        | some (topic, data) =>
            let (sock, _, out) := zmqSend p.backendOut topic true env.okSendTopic
            let (sock, _, out') := zmqSend sock data false env.okSendData
            forwardSubscription env back { p with frontend := frontend, backendOut := sock }
              ⟨if callback.isSome then [(topic, data)] else [], out ++ out', []⟩
      else forwardSubscription env back p ⟨[], [], []⟩

theorem forwardSubscription_keeps {env : ProxyEnv} {pollin : Bool} {p p' : ProxySockets σ}
    {out out' : ProxyOut} (hsub : forwardSubscription env pollin p out = some (p', out')) :
    p'.frontend = p.frontend ∧ p'.backendOut = p.backendOut ∧ out'.calls = out.calls ∧
      out'.emitted = out.emitted := by
  rw [forwardSubscription] at hsub
  split at hsub
  · obtain ⟨⟨msg, backend⟩, -, hmsg⟩ := Option.bind_eq_some_iff.mp hsub
    cases msg with
    | none => cases hmsg; exact ⟨rfl, rfl, rfl, rfl⟩
    | some msg => cases hmsg; exact ⟨rfl, rfl, rfl, rfl⟩
  · cases hsub
    exact ⟨rfl, rfl, rfl, rfl⟩

/-- Without failures an iteration leaves the frontend alone, or makes one message of the next two
frames. -/
theorem eProxyIteration_cases {recv : σ → Option (Frame Bytes × σ)} {callback : Option Addr}
    {poll : Option (Bool × Bool)} {p p' : ProxySockets σ} {out : ProxyOut}
    (hiter : eProxyIteration recv callback (.lossless poll) p = some (p', out)) :
    (p'.frontend = p.frontend ∧ p'.backendOut = p.backendOut ∧ out.calls = [] ∧
      out.emitted = []) ∨
    ∃ f g mid, recv p.frontend = some (f, mid) ∧ recv mid = some (g, p'.frontend) ∧
      p'.backendOut = ⟨[]⟩ ∧
      out.calls = (if callback.isSome then [(f.body, g.body)] else []) ∧
      out.emitted = [p.backendOut.pending ++ [f.body, g.body]] := by
  rw [eProxyIteration] at hiter
  rcases poll with - | ⟨front, back⟩
  · cases hiter
    exact Or.inl ⟨rfl, rfl, rfl, rfl⟩
  · cases front with
    | false => exact Or.inl (forwardSubscription_keeps hiter)
    | true =>
        obtain ⟨⟨pair, frontend⟩, hpair, hrest⟩ := Option.bind_eq_some_iff.mp hiter
        obtain ⟨f, g, mid, hf, hg, rfl⟩ := recvPair_ok hpair
        simp only [ProxyEnv.lossless, zmqSend_more, zmqSend_last] at hrest
        obtain ⟨hfront, hback, hcalls, hemitted⟩ := forwardSubscription_keeps hrest
        refine Or.inr ⟨f, g, mid, hf, ?_, hback, hcalls, ?_⟩
        · rw [hfront]
          exact hg
        · rw [hemitted]
          simp

/-- Without failures the subscription branch takes one frame from the subscribers or none, and sends
just what it took. -/
theorem forwardSubscription_cases {poll : Option (Bool × Bool)} {pollin : Bool}
    {p p' : ProxySockets σ} {out out' : ProxyOut} (hnone : out.subscribed = [])
    (hsub : forwardSubscription (.lossless poll) pollin p out = some (p', out')) :
    (p'.backend = p.backend ∧ p'.frontendOut = p.frontendOut ∧ out'.subscribed = []) ∨
    ∃ f, p.backend = f :: p'.backend ∧ p'.frontendOut = ⟨[]⟩ ∧
      out'.subscribed = [p.frontendOut.pending ++ [f.body]] := by
  rw [forwardSubscription] at hsub
  split at hsub
  · obtain ⟨⟨msg, backend⟩, hrecv, hmsg⟩ := Option.bind_eq_some_iff.mp hsub
    cases hbackend : p.backend with
    | nil => simp [zmqMsgRecv, recvFrame, ProxyEnv.lossless, hbackend] at hrecv
    | cons f fs =>
        simp only [zmqMsgRecv, recvFrame, ProxyEnv.lossless, hbackend, if_true, Option.map_some,
          Option.some.injEq, Prod.mk.injEq] at hrecv
        obtain ⟨rfl, rfl⟩ := hrecv
        cases hmsg
        exact Or.inr ⟨f, rfl, rfl, rfl⟩
  · cases hsub
    exact Or.inl ⟨rfl, rfl, hnone⟩

theorem eProxyIteration_subscribed {recv : σ → Option (Frame Bytes × σ)} {callback : Option Addr}
    {poll : Option (Bool × Bool)} {p p' : ProxySockets σ} {out : ProxyOut}
    (hiter : eProxyIteration recv callback (.lossless poll) p = some (p', out)) :
    (p'.backend = p.backend ∧ p'.frontendOut = p.frontendOut ∧ out.subscribed = []) ∨
    ∃ f, p.backend = f :: p'.backend ∧ p'.frontendOut = ⟨[]⟩ ∧
      out.subscribed = [p.frontendOut.pending ++ [f.body]] := by
  rw [eProxyIteration] at hiter
  rcases poll with - | ⟨front, back⟩
  · cases hiter
    exact Or.inl ⟨rfl, rfl, rfl⟩
  · cases front with
    | false => exact forwardSubscription_cases rfl hiter
    | true =>
        obtain ⟨⟨pair, frontend⟩, hpair, hrest⟩ := Option.bind_eq_some_iff.mp hiter
        obtain ⟨f, g, mid, -, -, rfl⟩ := recvPair_ok hpair
        exact (forwardSubscription_cases rfl hrest :)

end Iteration

/-! ### The proxy between one stream of incoming messages and the backend -/

structure ProxyState where
  sockets : ProxySockets (List (Frame Bytes))
  arrived : List Msg
  emitted : List Msg
  calls : List (Bytes × Bytes)
  deriving DecidableEq, Repr

inductive ProxyLabel where
  | arrive (m : Msg)
  | subscribe (f : Frame Bytes)
  | iterate (poll : Option (Bool × Bool))
  deriving DecidableEq, Repr

namespace ProxyState

def start : ProxyState := ⟨⟨[], ⟨[]⟩, [], ⟨[]⟩⟩, [], [], []⟩

def step (callback : Option Addr) (s : ProxyState) : ProxyLabel → Option ProxyState
  | .arrive m => some { s with
      sockets := { s.sockets with frontend := s.sockets.frontend ++ frames m }
      arrived := s.arrived ++ [m] }
  | .subscribe f => some { s with
      sockets := { s.sockets with backend := s.sockets.backend ++ [f] } }
  | .iterate poll => do
      let (sockets, out) ← eProxyIteration recvFrame callback (.lossless poll) s.sockets
      some { s with
        sockets := sockets, emitted := s.emitted ++ out.emitted, calls := s.calls ++ out.calls }

def Step (callback : Option Addr) (s : ProxyState) (l : ProxyLabel) (t : ProxyState) : Prop :=
  s.step callback l = some t

/-- The loop cannot get two more frames. -/
def Quiet (s : ProxyState) : Prop := s.sockets.frontend.length < 2

end ProxyState

/-- However the loop is interleaved with the arrival of these messages: at any time it has emitted
the first of them, and all of them once it is quiet; the callback got each emitted message. -/
def Transparent (callback : Option Addr) (msgs : List Msg) : Prop :=
  ∀ ls s, Run (ProxyState.Step callback) .start ls s → s.arrived = msgs →
    s.emitted <+: msgs ∧ (s.Quiet → s.emitted = msgs) ∧
      (callback.isSome → s.calls.map (fun c => [c.1, c.2]) = s.emitted)

namespace ProxyState

variable {callback : Option Addr} {s t : ProxyState} {l : ProxyLabel}

/-- What one step does to the frontend, the arrivals and the outputs. -/
theorem step_cases (hstep : Step callback s l t) :
    (∃ m, t.sockets.frontend = s.sockets.frontend ++ frames m ∧ t.arrived = s.arrived ++ [m] ∧
      t.sockets.backendOut = s.sockets.backendOut ∧ t.emitted = s.emitted ∧ t.calls = s.calls) ∨
    (t.sockets.frontend = s.sockets.frontend ∧ t.arrived = s.arrived ∧
      t.sockets.backendOut = s.sockets.backendOut ∧ t.emitted = s.emitted ∧ t.calls = s.calls) ∨
    ∃ f g mid, recvFrame s.sockets.frontend = some (f, mid) ∧
      recvFrame mid = some (g, t.sockets.frontend) ∧ t.arrived = s.arrived ∧
      t.sockets.backendOut = ⟨[]⟩ ∧
      t.emitted = s.emitted ++ [s.sockets.backendOut.pending ++ [f.body, g.body]] ∧
      t.calls = s.calls ++ if callback.isSome then [(f.body, g.body)] else [] := by
  cases l with
  | arrive m => cases hstep; exact Or.inl ⟨m, rfl, rfl, rfl, rfl, rfl⟩
  | subscribe f => cases hstep; exact Or.inr (Or.inl ⟨rfl, rfl, rfl, rfl, rfl⟩)
  | iterate poll =>
      obtain ⟨⟨sockets, out⟩, hiter, ht⟩ := Option.bind_eq_some_iff.mp hstep
      cases ht
      rcases eProxyIteration_cases hiter with ⟨hfront, hback, hcalls, hemitted⟩ |
        ⟨f, g, mid, hf, hg, hback, hcalls, hemitted⟩
      · exact Or.inr (Or.inl ⟨hfront, rfl, hback, by simp [hemitted], by simp [hcalls]⟩)
      · exact Or.inr (Or.inr ⟨f, g, mid, hf, hg, rfl, hback, by simp [hemitted],
          by simp [hcalls]⟩)

/-- Whatever arrives, only pairs are emitted, and the callback gets just them. -/
def Paired (callback : Option Addr) (s : ProxyState) : Prop :=
  s.sockets.backendOut = ⟨[]⟩ ∧ (∀ m ∈ s.emitted, m.length = 2) ∧
    (callback.isSome → s.calls.map (fun c => [c.1, c.2]) = s.emitted)

theorem Paired.step (hpaired : Paired callback s) (hstep : Step callback s l t) :
    Paired callback t := by
  obtain ⟨hback, hpairs, hcalls⟩ := hpaired
  rcases step_cases hstep with ⟨m, -, -, hb, he, hc⟩ | ⟨-, -, hb, he, hc⟩ |
    ⟨f, g, mid, -, -, -, hb, he, hc⟩
  · exact ⟨hb.trans hback, he ▸ hpairs, fun h => by rw [hc, he]; exact hcalls h⟩
  · exact ⟨hb.trans hback, he ▸ hpairs, fun h => by rw [hc, he]; exact hcalls h⟩
  · refine ⟨hb, fun m hm => ?_, fun h => ?_⟩
    · rw [he, List.mem_append, List.mem_singleton] at hm
      rcases hm with hm | rfl
      · exact hpairs m hm
      · simp [hback]
    · rw [hc, he, if_pos h, List.map_append, hcalls h, hback]
      rfl

/-- With pairs alone arriving, what is not emitted yet is still whole in the frontend. -/
def Aligned (s : ProxyState) : Prop :=
  ∃ rest, s.arrived = s.emitted ++ rest ∧ s.sockets.frontend = stream rest

theorem Aligned.step (haligned : Aligned s) (hback : s.sockets.backendOut = ⟨[]⟩)
    (hpairs : ∀ m ∈ t.arrived, m.length = 2) (hstep : Step callback s l t) : Aligned t := by
  obtain ⟨rest, harrived, hfrontend⟩ := haligned
  rcases step_cases hstep with ⟨m, hf, ha, -, he, -⟩ | ⟨hf, ha, -, he, -⟩ |
    ⟨f, g, mid, hf, hg, ha, -, he, -⟩
  · exact ⟨rest ++ [m], by rw [ha, harrived, he, List.append_assoc], by
      rw [hf, hfrontend, stream_append, stream_cons, stream_nil, List.append_nil]⟩
  · exact ⟨rest, by rw [ha, harrived, he], by rw [hf, hfrontend]⟩
  · have hrest : ∀ m ∈ rest, m.length = 2 := fun m hm => hpairs m (by
      rw [ha, harrived]
      exact List.mem_append_right _ hm)
    rw [hfrontend] at hf
    obtain ⟨rest', rfl, -, -, hfront⟩ := recvFrame_stream hrest hf hg
    refine ⟨rest', ?_, hfront⟩
    rw [ha, harrived, he, hback]
    simp

theorem paired_start : Paired callback start := ⟨rfl, by simp [start], fun _ => rfl⟩

theorem Paired.run {ls : List ProxyLabel} (hrun : Run (Step callback) start ls s) :
    Paired callback s :=
  hrun.invariant (fun _ _ _ hpaired hstep => hpaired.step hstep) paired_start

/-- Messages only add up. -/
theorem arrived_subset (hstep : Step callback s l t) : s.arrived ⊆ t.arrived := by
  rcases step_cases hstep with ⟨m, -, ha, -⟩ | ⟨-, ha, -⟩ |
    ⟨f, g, mid, -, -, ha, -⟩
  · rw [ha]
    exact List.subset_append_left _ _
  · rw [ha]
    exact List.Subset.refl _
  · rw [ha]
    exact List.Subset.refl _

/-- In a run in which only pairs arrive the frontend stays at a message boundary. -/
theorem Aligned.run {ls : List ProxyLabel} (hrun : Run (Step callback) start ls s)
    (hpairs : ∀ m ∈ s.arrived, m.length = 2) : Aligned s := by
  have hinv : (∀ m ∈ s.arrived, m.length = 2) → Paired callback s ∧ Aligned s := by
    refine hrun.invariant (I := fun s => (∀ m ∈ s.arrived, m.length = 2) →
      Paired callback s ∧ Aligned s) ?_ (fun _ => ⟨paired_start, [], rfl, rfl⟩)
    intro s l t ih hstep hpairs
    obtain ⟨hpaired, haligned⟩ := ih fun m hm => hpairs m (arrived_subset hstep hm)
    exact ⟨hpaired.step hstep, haligned.step hpaired.1 hpairs hstep⟩
  exact (hinv hpairs).2

variable (callback) in
/-- All these messages can have arrived before the loop takes the first frame. -/
theorem run_arrivals (msgs : List Msg) (s : ProxyState) :
    ∃ ls t, Run (Step callback) s ls t ∧ t.arrived = s.arrived ++ msgs := by
  induction msgs generalizing s with
  | nil => exact ⟨[], s, .nil s, (List.append_nil _).symm⟩
  | cons m msgs ih =>
      obtain ⟨ls, t, hrun, ht⟩ := ih { s with
        sockets := { s.sockets with frontend := s.sockets.frontend ++ frames m }
        arrived := s.arrived ++ [m] }
      refine ⟨.arrive m :: ls, t, .cons rfl hrun, ?_⟩
      rw [ht, List.append_assoc, List.singleton_append]

variable (callback) in
/-- Two waiting frames can be taken. -/
theorem step_take {f g : Frame Bytes} {fs : List (Frame Bytes)}
    (hfront : s.sockets.frontend = f :: g :: fs) :
    ∃ t, Step callback s (.iterate (some (true, false))) t ∧ t.sockets.frontend = fs ∧
      t.arrived = s.arrived := by
  refine ⟨{ s with
    sockets := { s.sockets with frontend := fs, backendOut := ⟨[]⟩ }
    emitted := s.emitted ++ [s.sockets.backendOut.pending ++ [f.body, g.body]]
    calls := s.calls ++ if callback.isSome then [(f.body, g.body)] else [] }, ?_, rfl, rfl⟩
  simp [Step, step, eProxyIteration, recvPair, zmqMsgRecv, recvFrame, ProxyEnv.lossless,
    forwardSubscription, hfront]

variable (callback) in
/-- The loop can always go on until it is quiet. -/
theorem run_quiet (n : Nat) (s : ProxyState) (hlen : s.sockets.frontend.length ≤ n) :
    ∃ ls t, Run (Step callback) s ls t ∧ t.Quiet ∧ t.arrived = s.arrived := by
  induction n generalizing s with
  | zero => exact ⟨[], s, .nil s, Nat.lt_of_le_of_lt hlen Nat.two_pos, rfl⟩
  | succ n ih =>
      by_cases hquiet : s.Quiet
      · exact ⟨[], s, .nil s, hquiet, rfl⟩
      · obtain ⟨f, g, fs, hfront⟩ : ∃ f g fs, s.sockets.frontend = f :: g :: fs := by
          match hs : s.sockets.frontend with
          | [] | [_] => exact absurd (by simp [Quiet, hs]) hquiet
          | f :: g :: fs => exact ⟨f, g, fs, rfl⟩
        obtain ⟨t, hstep, hfs, ht⟩ := step_take callback hfront
        have hshort : t.sockets.frontend.length ≤ n := by
          rw [hfront] at hlen
          simp only [List.length_cons] at hlen
          rw [hfs]
          omega
        obtain ⟨ls, u, hrun, hu, harrived⟩ := ih t hshort
        exact ⟨_, u, .cons hstep hrun, hu, harrived.trans ht⟩

end ProxyState

open ProxyState in
/-- **Proxy transparency.** The proxy is transparent to a sequence of messages exactly when each of
them has two frames. -/
theorem transparent_iff (callback : Option Addr) (msgs : List Msg) :
    Transparent callback msgs ↔ ∀ m ∈ msgs, m.length = 2 := by
  constructor
  · intro htransparent
    obtain ⟨ls, s, hrun, hs⟩ := run_arrivals callback msgs start
    obtain ⟨ls', t, hrun', hquiet, ht⟩ := run_quiet callback _ s (Nat.le_refl _)
    have hall := hrun.append hrun'
    have harrived : t.arrived = msgs := by rw [ht, hs]; rfl
    rw [← (htransparent _ t hall harrived).2.1 hquiet]
    exact (Paired.run hall).2.1
  · rintro hpairs ls s hrun rfl
    obtain ⟨rest, harrived, hfrontend⟩ := Aligned.run hrun hpairs
    refine ⟨⟨rest, harrived.symm⟩, fun hquiet => ?_, (Paired.run hrun).2.2⟩
    cases rest with
    | nil => rw [harrived, List.append_nil]
    | cons m rest =>
        -- a whole message waiting is two frames waiting
        obtain ⟨a, b, rfl⟩ := eq_pair_of_length (hpairs m (by rw [harrived]; simp))
        rw [Quiet, hfrontend, stream_cons, frames_pair] at hquiet
        simp only [List.length_append, List.length_cons] at hquiet
        omega

/-- A message of one frame shifts the pairing: the pair that follows is emitted in a message with
it, and the callback gets its topic as data. -/
theorem proxy_shift_counterexample :
    ∃ ls s, Run (ProxyState.Step (some 0)) .start ls s ∧ s.arrived = [[[1]], [[2], [3]]] ∧
      s.emitted = [[[1], [2]]] ∧ s.calls = [([1], [2])] ∧ ¬s.emitted <+: s.arrived :=
  ⟨[.arrive [[1]], .arrive [[2], [3]], .iterate (some (true, false))],
    ⟨⟨[⟨[3], false⟩], ⟨[]⟩, [], ⟨[]⟩⟩, [[[1]], [[2], [3]]], [[[1], [2]]], [([1], [2])]⟩,
    .cons rfl (.cons rfl (.cons rfl (.nil _))), rfl, rfl, rfl, by decide⟩

end LibEzmb
