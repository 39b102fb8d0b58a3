import Mathlib.Logic.Function.Basic
import LibEzmb.BusListener
import LibEzmb.BusProxy

/-! The whole bus: devices that send, the proxy that takes their messages off one fair-queued socket
and hands each to the devices subscribed to it, and the devices' listeners. Followed frame by frame,
nothing is lost, duplicated, altered or torn apart on the way. -/

open CHeap CBytes Multipart Runs

namespace LibEzmb

variable {ι : Type} [DecidableEq ι]

/-! ### The fair queue -/

/-- The receiving end of a socket that several peers send to. It takes messages from any of them,
and goes on with the peer it has begun a message of. -/
structure FairQueue (ι : Type) where
  pipes : ι → List (Frame Bytes)
  current : Option ι

/-- A receive, given the peer it turns to when it is not inside a message. -/
def fqRecv (pick : ι) (q : FairQueue ι) : Option (Frame Bytes × FairQueue ι) :=
  let i := q.current.getD pick
  match q.pipes i with
  | [] => none
  | f :: fs => some (f, ⟨Function.update q.pipes i fs, if f.more then some i else none⟩)

/-- Outside a message, two receives from a peer whose pipe holds pairs take the first of them. -/
theorem fqRecv_pair {q q' mid : FairQueue ι} {pick : ι} {f g : Frame Bytes} {msgs : List Msg}
    (hcurrent : q.current = none) (hpipe : q.pipes pick = stream msgs)
    (hpairs : ∀ m ∈ msgs, m.length = 2) (hf : fqRecv pick q = some (f, mid))
    (hg : fqRecv pick mid = some (g, q')) :
    ∃ rest, msgs = [f.body, g.body] :: rest ∧ q'.current = none ∧
      q'.pipes = Function.update q.pipes pick (stream rest) := by
  cases msgs with
  | nil =>
      rw [stream_nil] at hpipe
      simp [fqRecv, hcurrent, hpipe] at hf
  | cons m rest =>
      obtain ⟨a, b, rfl⟩ := eq_pair_of_length (hpairs m List.mem_cons_self)
      rw [stream_cons, frames_pair] at hpipe
      simp only [fqRecv, hcurrent, Option.getD_none, hpipe, List.cons_append,
        List.nil_append, if_true, Option.some.injEq, Prod.mk.injEq] at hf
      obtain ⟨rfl, rfl⟩ := hf
      simp only [fqRecv, Option.getD_some, Function.update_self, Bool.false_eq_true, if_false,
        Option.some.injEq, Prod.mk.injEq] at hg
      obtain ⟨rfl, rfl⟩ := hg
      exact ⟨rest, rfl, rfl, Function.update_idem _ _ _⟩

/-! ### The bus -/

/-- Devices made by `e_common_create`, each with a running listener, and the proxy's callback. -/
structure Bus (ι : Type) where
  device : ι → EDevice
  callback : Option Addr
  started : ∀ i, ∃ d : EDevice, d.Created ∧ eDeviceListenStart (some d) = some (device i)

/-- The state of every link: frames under way to the proxy in each sender's pipe, frames under way
to each device. The messages sent, forwarded and heard are recorded beside. -/
structure BusState (ι : Type) where
  north : ι → OutSocket
  proxy : ProxySockets (FairQueue ι)
  down : ι → List (Frame Bytes)
  sent : ι → List Msg
  forwarded : List (ι × Msg)
  heard : ι → List Heard

/-- A call of `e_common_send`, a round of the proxy's loop that turns to the given peer next, a
round of a listener. -/
inductive BusLabel (ι : Type) where
  | send (i : ι) (msg : Bytes)
  | forward (pick : ι) (poll : Option (Bool × Bool))
  | listen (j : ι) (poll : Option Bool)

namespace BusState

def start : BusState ι where
  north _ := ⟨[]⟩
  proxy := ⟨⟨fun _ => [], none⟩, ⟨[]⟩, [], ⟨[]⟩⟩
  down _ := []
  sent _ := []
  forwarded := []
  heard _ := []

/-- The messages of one sender that the proxy has forwarded. -/
def forwardedFrom (s : BusState ι) (i : ι) : List Msg :=
  (s.forwarded.filter fun x => x.1 = i).map Prod.snd

def step (bus : Bus ι) (s : BusState ι) : BusLabel ι → Option (BusState ι)
  | .send i msg =>
      let (sock, rc, out) := eCommonSend (some (bus.device i)) (some msg) true true (s.north i)
      some { s with
        north := Function.update s.north i sock
        sent := if 0 ≤ rc then
            Function.update s.sent i (s.sent i ++ [[(bus.device i).sendTopic.bytes, msg]])
          else s.sent
        proxy := { s.proxy with
          frontend := { s.proxy.frontend with
            pipes := Function.update s.proxy.frontend.pipes i
              (s.proxy.frontend.pipes i ++ stream out) } } }
  | .forward pick poll => do
      let (proxy, out) ← eProxyIteration (fqRecv pick) bus.callback (.lossless poll) s.proxy
      let i := s.proxy.frontend.current.getD pick
      some { s with
        proxy := proxy
        forwarded := s.forwarded ++ out.emitted.map fun m => (i, m)
        down := fun j =>
          s.down j ++ stream (out.emitted.filter (matchesSub (bus.device j).southSub)) }
  | .listen j poll => do
      let (heard, fs) ← eDeviceListenIteration (bus.device j) recvFrame ⟨poll, true, true⟩ (s.down j)
      some { s with
        down := Function.update s.down j fs
        heard := Function.update s.heard j (s.heard j ++ heard.toList) }

def Step (bus : Bus ι) (s : BusState ι) (l : BusLabel ι) (t : BusState ι) : Prop :=
  s.step bus l = some t

/-- Between two rounds, the way to the proxy is at message boundaries, and the pairs `up` that a
sender's pipe holds are what it sent and the proxy has not forwarded. -/
structure Upward (s : BusState ι) (up : ι → List Msg) : Prop where
  north : ∀ i, s.north i = ⟨[]⟩
  current : s.proxy.frontend.current = none
  pipes : ∀ i, s.proxy.frontend.pipes i = stream (up i)
  pairs : ∀ i, ∀ m ∈ up i, m.length = 2
  sent : ∀ i, s.sent i = s.forwardedFrom i ++ up i

/-- Between two rounds, the ways from the proxy are at message boundaries, and the pairs `dn` under
way to a device are what was forwarded under its subscription and it has not heard. -/
structure Downward (bus : Bus ι) (s : BusState ι) (dn : ι → List Msg) : Prop where
  backendOut : s.proxy.backendOut = ⟨[]⟩
  down : ∀ j, s.down j = stream (dn j)
  pairs : ∀ j, ∀ m ∈ dn j, m.length = 2
  heard : ∀ j, (s.forwarded.map Prod.snd).filter (matchesSub (bus.device j).southSub) =
    (s.heard j).map Heard.msg ++ dn j
  called : ∀ j, ∀ x ∈ s.heard j, x.called = true

def Lossless (bus : Bus ι) (s : BusState ι) : Prop :=
  (∃ up, Upward s up) ∧ ∃ dn, Downward bus s dn

variable {bus : Bus ι} {s t : BusState ι}

theorem forwardedFrom_snoc (forwarded : List (ι × Msg)) (i pick : ι) (m : Msg) :
    ((forwarded ++ [(pick, m)]).filter fun x => x.1 = i).map Prod.snd =
      (forwarded.filter fun x => x.1 = i).map Prod.snd ++ if pick = i then [m] else [] := by
  rw [List.filter_append, List.map_append]
  by_cases hi : pick = i <;> simp [hi]

/-- All messages are pairs when those that are put into one place are. -/
theorem pairs_update {queued : ι → List Msg} (hpairs : ∀ i, ∀ m ∈ queued i, m.length = 2) {i : ι}
    {msgs : List Msg} (hmsgs : ∀ m ∈ msgs, m.length = 2) :
    ∀ j, ∀ m ∈ Function.update queued i msgs j, m.length = 2 :=
  (Function.forall_update_iff queued fun _ msgs => ∀ m ∈ msgs, m.length = 2).mpr
    ⟨hmsgs, fun j _ => hpairs j⟩

theorem Lossless.send (hlossless : Lossless bus s) {i : ι} {msg : Bytes}
    (hstep : Step bus s (.send i msg) t) : Lossless bus t := by
  obtain ⟨⟨up, hup⟩, dn, hdn⟩ := hlossless
  by_cases hmsg : msg = []
  · rw [Step, step, eCommonSend_refused _ _ (Or.inr (by rw [hmsg]))] at hstep
    cases hstep
    refine ⟨⟨up, ?_, hup.current, ?_, hup.pairs, hup.sent⟩, dn, hdn.1, hdn.2, hdn.3, hdn.4, hdn.5⟩
    · intro j
      simpa using hup.north j
    · intro j
      simpa using hup.pipes j
  · have hrc : (0 : Int) ≤ ((min msg.length intMax : Nat) : Int) := Int.natCast_nonneg _
    rw [Step, step, eCommonSend_some _ _ hmsg, hup.north i] at hstep
    simp only [Bool.not_true, Bool.false_eq_true, if_false, if_pos hrc, List.nil_append] at hstep
    cases hstep
    refine ⟨⟨Function.update up i (up i ++ [[(bus.device i).sendTopic.bytes, msg]]), ?_, hup.current,
      ?_, ?_, ?_⟩, dn, hdn.1, hdn.2, hdn.3, hdn.4, hdn.5⟩
    · intro j
      by_cases hj : j = i <;> simp [hj, hup.north]
    · intro j
      by_cases hj : j = i
      · subst hj
        simp [hup.pipes]
      · simp [hj, hup.pipes]
    · refine pairs_update hup.pairs fun m hm => ?_
      rcases List.mem_append.mp hm with hm | hm
      · exact hup.pairs i m hm
      · cases List.mem_singleton.mp hm
        rfl
    · intro j
      by_cases hj : j = i
      · subst hj
        simp only [Function.update_self, hup.sent j, List.append_assoc]
        rfl
      · simp only [Function.update_of_ne hj, hup.sent j]
        rfl

theorem Lossless.forward (hlossless : Lossless bus s) {pick : ι} {poll : Option (Bool × Bool)}
    (hstep : Step bus s (.forward pick poll) t) : Lossless bus t := by
  obtain ⟨⟨up, hup⟩, dn, hdn⟩ := hlossless
  obtain ⟨⟨proxy, out⟩, hiter, ht⟩ := Option.bind_eq_some_iff.mp hstep
  cases ht
  rcases eProxyIteration_cases hiter with ⟨hfront, hback, -, hemitted⟩ |
    ⟨f, g, mid, hf, hg, hback, -, hemitted⟩
  · simp only [hemitted, List.map_nil, List.append_nil, List.filter_nil, stream_nil]
    refine ⟨⟨up, hup.north, ?_, ?_, hup.pairs, hup.sent⟩, dn, ?_, hdn.down, hdn.pairs, hdn.heard,
      hdn.called⟩
    · rw [hfront]
      exact hup.current
    · rw [hfront]
      exact hup.pipes
    · rw [hback]
      exact hdn.backendOut
  · obtain ⟨rest, hmsgs, hcurrent, hpipes⟩ :=
      fqRecv_pair hup.current (hup.pipes pick) (hup.pairs pick) hf hg
    rw [hdn.backendOut, List.nil_append] at hemitted
    simp only [hup.current, Option.getD_none, hemitted, List.map_cons, List.map_nil]
    refine ⟨⟨Function.update up pick rest, hup.north, hcurrent, ?_, ?_, ?_⟩,
      fun j => dn j ++ [[f.body, g.body]].filter (matchesSub (bus.device j).southSub), hback, ?_, ?_,
      ?_, hdn.called⟩
    · intro i
      by_cases hi : i = pick
      · subst hi
        simp [hpipes]
      · simp [hpipes, hi, hup.pipes]
    · refine pairs_update hup.pairs fun m hm => ?_
      exact hup.pairs pick m (hmsgs ▸ List.mem_cons_of_mem _ hm)
    · intro i
      have hsent := hup.sent i
      simp only [forwardedFrom, forwardedFrom_snoc] at hsent ⊢
      by_cases hi : pick = i
      · subst hi
        rw [hsent, hmsgs]
        simp
      · rw [hsent, Function.update_of_ne (Ne.symm hi)]
        simp [hi]
    · intro j
      show s.down j ++ _ = _
      rw [stream_append, hdn.down]
    · intro j m hm
      rcases List.mem_append.mp hm with hm | hm
      · exact hdn.pairs j m hm
      · rw [List.mem_singleton.mp (List.mem_filter.mp hm).1]
        rfl
    · intro j
      rw [List.map_append, List.filter_append, hdn.heard, List.append_assoc]
      rfl

theorem Lossless.listen (hlossless : Lossless bus s) {j : ι} {poll : Option Bool}
    (hstep : Step bus s (.listen j poll) t) : Lossless bus t := by
  obtain ⟨⟨up, hup⟩, dn, hdn⟩ := hlossless
  obtain ⟨⟨heard, fs⟩, hiter, ht⟩ := Option.bind_eq_some_iff.mp hstep
  cases ht
  refine ⟨⟨up, hup.north, hup.current, hup.pipes, hup.pairs, hup.sent⟩, ?_⟩
  have hiter' := ListenState.iteration_eq (.device (bus.device j)) hiter
  rcases listenIteration_cases (fun _ _ => rfl) hiter' with ⟨rfl, hsame⟩ |
    ⟨f, g, mid, hf, hg, rfl⟩
  · refine ⟨dn, hdn.backendOut, ?_, hdn.pairs, ?_, ?_⟩
    · intro k
      by_cases hk : k = j <;> simp [hk, hsame, hdn.down]
    · intro k
      by_cases hk : k = j <;> simp [hk, hdn.heard]
    · intro k
      by_cases hk : k = j
      · subst hk
        simpa using hdn.called k
      · simpa [hk] using hdn.called k
  · rw [hdn.down j] at hf
    obtain ⟨rest, hmsgs, -, -, rfl⟩ := recvFrame_stream (hdn.pairs j) hf hg
    refine ⟨Function.update dn j rest, hdn.backendOut, ?_, ?_, ?_, ?_⟩
    · intro k
      by_cases hk : k = j
      · subst hk
        simp
      · simp [hk, hdn.down]
    · refine pairs_update hdn.pairs fun m hm => ?_
      exact hdn.pairs j m (hmsgs ▸ List.mem_cons_of_mem _ hm)
    · intro k
      by_cases hk : k = j
      · subst hk
        rw [hdn.heard, hmsgs]
        simp [Heard.msg]
      · simp [hk, hdn.heard]
    · intro k x hx
      by_cases hk : k = j
      · subst hk
        simp only [Function.update_self, Option.toList_some, List.mem_append,
          List.mem_singleton] at hx
        rcases hx with hx | rfl
        · exact hdn.called k x hx
        · rfl
      · simp only [Function.update_of_ne hk] at hx
        exact hdn.called k x hx

theorem lossless_start : Lossless bus start :=
  ⟨⟨fun _ => [], fun _ => rfl, rfl, fun _ => rfl, by simp, fun _ => rfl⟩,
    fun _ => [], rfl, fun _ => rfl, by simp, fun _ => rfl, by simp [start]⟩

theorem Lossless.step (hlossless : Lossless bus s) {l : BusLabel ι} (hstep : Step bus s l t) :
    Lossless bus t := by
  cases l with
  | send i msg => exact hlossless.send hstep
  | forward pick poll => exact hlossless.forward hstep
  | listen j poll => exact hlossless.listen hstep

omit [DecidableEq ι] in
/-- A started device subscribes to its one topic. -/
theorem matchesSub_device (bus : Bus ι) (j : ι) :
    matchesSub (bus.device j).southSub = topicStartsWith (bus.device j).subTopic := by
  obtain ⟨d, ⟨env, uid, southUrl, northUrl, cb, type, hcreate⟩, hstart⟩ := bus.started j
  obtain ⟨-, -, -, hsub, -⟩ := eCommonCreate_spec hcreate
  rw [eDeviceListenStart] at hstart
  split at hstart
  · cases hstart
  · rw [← Option.some.inj hstart]
    funext m
    show matchesSub d.southSub m = topicStartsWith d.subTopic m
    rw [hsub]
    simp [matchesSub]

/-- **Delivery.** In every reachable state, what the proxy has forwarded from a sender and what is
still in its pipe are the messages it sent, in order; and what a device's callback was called with
and what is still under way to it are the forwarded messages whose topic starts with the one it
subscribed to, in order. No message is torn: nothing is left over when the links are cut into
messages. -/
theorem bus_delivery (bus : Bus ι) {ls : List (BusLabel ι)} {s : BusState ι}
    (hrun : Run (Step bus) start ls s) :
    (∀ i, s.forwardedFrom i ++ (assemble [] (s.proxy.frontend.pipes i)).1 = s.sent i ∧
      (assemble [] (s.proxy.frontend.pipes i)).2 = []) ∧
    ∀ j, (s.heard j).map Heard.msg ++ (assemble [] (s.down j)).1 =
        (s.forwarded.map Prod.snd).filter (topicStartsWith (bus.device j).subTopic) ∧
      (assemble [] (s.down j)).2 = [] ∧ ∀ x ∈ s.heard j, x.called = true := by
  have hlossless : Lossless bus s :=
    hrun.invariant (fun _ _ _ hs hstep => hs.step hstep) lossless_start
  obtain ⟨⟨up, hup⟩, dn, hdn⟩ := hlossless
  have hcut (msgs : List Msg) (hpairs : ∀ m ∈ msgs, m.length = 2) :
      assemble [] (stream msgs) = (msgs, []) :=
    assemble_stream fun m hm h => by simpa [h] using hpairs m hm
  refine ⟨fun i => ?_, fun j => ?_⟩
  · rw [hup.pipes i, hcut _ (hup.pairs i)]
    exact ⟨(hup.sent i).symm, rfl⟩
  · rw [hdn.down j, hcut _ (hdn.pairs j), ← matchesSub_device]
    exact ⟨(hdn.heard j).symm, rfl, hdn.called j⟩

end BusState

/-- A collector and a monitor of one uid. -/
def sampleBus : Bus Bool where
  device i := { freshDevice ⟨ascii ['p'], by decide⟩ (if i then .collector else .monitor) (some 0) with
    running := true }
  callback := none
  started i := ⟨_, freshDevice_created _ _ (some 0), rfl⟩

/-- A message of the collector gets to the monitor. -/
theorem bus_delivery_pair :
    ∃ s : BusState Bool, (s.heard false).length = 1 ∧
      (s.heard false).map Heard.msg ++ (assemble [] (s.down false)).1 =
        (s.forwarded.map Prod.snd).filter (topicStartsWith (sampleBus.device false).subTopic) := by
  have hrun : ∃ s, Run (BusState.Step sampleBus) .start
      [.send true [7], .forward true (some (true, false)), .listen false (some true)] s ∧
      (s.heard false).length = 1 := by
    refine ⟨_, .cons rfl (.cons rfl (.cons rfl (.nil _))), ?_⟩
    decide
  obtain ⟨s, hs, hone⟩ := hrun
  exact ⟨s, hone, ((BusState.bus_delivery sampleBus hs).2 false).1⟩

end LibEzmb
