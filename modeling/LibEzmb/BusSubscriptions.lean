import Mathlib.Algebra.Order.BigOperators.Group.Finset
import Mathlib.Data.Fintype.Basic
import LibEzmb.BusDelivery

/-! The bus while subscriptions are still on their way. A publisher drops what it knows no
subscription for, and the proxy's backend serves only the devices whose subscriptions it has seen;
the subscriptions get from the backend to the publishers through the proxy's loop. What a device
misses of a sender is always the beginning, and it ends where the subscription has arrived. -/

open CHeap CBytes Multipart Runs

namespace LibEzmb

variable {ι : Type} [DecidableEq ι]

/-- The topic that a subscription message, a byte 1 before it, subscribes to. -/
def subscriptionOf : Msg → Option Bytes
  | [b :: topic] => if b = 1 then some topic else none
  | _ => none

/-- One of the subscriptions begins the first frame of the message. -/
def knownTo (subs : List Bytes) : Msg → Bool
  | [] => false
  | topic :: _ => subs.any fun sub => sub.isPrefixOf topic

/-- A bus whose devices join one by one. `subs` are the topics of the backend's subscribers, `table`
those of the frontend; `under` are subscriptions on their way to a publisher and `knows` those it
has. Beside the messages sent, forwarded and heard it is recorded which ones a publisher dropped and
which ones the backend passed to a device or, not serving it yet, withheld from it. -/
structure JoiningBus (ι : Type) where
  north : ι → OutSocket
  proxy : ProxySockets (FairQueue ι)
  down : ι → List (Frame Bytes)
  served : ι → Bool
  attached : ι → Bool
  subs : List Bytes
  table : List Bytes
  under : ι → List Bytes
  knows : ι → List Bytes
  sent : ι → List Msg
  dropped : ι → List Msg
  forwarded : List (ι × Msg)
  missed : ι → List (ι × Msg)
  toward : ι → List (ι × Msg)
  heard : ι → List Heard

/-- The steps of the bus, and beside them: the backend gets the subscription of a device, the
frontend gets the connection of a publisher, a publisher gets the next subscription. -/
inductive JoinLabel (ι : Type) where
  | send (i : ι) (msg : Bytes)
  | forward (pick : ι) (poll : Option (Bool × Bool))
  | listen (j : ι) (poll : Option Bool)
  | join (j : ι)
  | attach (i : ι)
  | learn (i : ι)

namespace JoiningBus

def start : JoiningBus ι where
  north _ := ⟨[]⟩
  proxy := ⟨⟨fun _ => [], none⟩, ⟨[]⟩, [], ⟨[]⟩⟩
  down _ := []
  served _ := false
  attached _ := false
  subs := []
  table := []
  under _ := []
  knows _ := []
  sent _ := []
  dropped _ := []
  forwarded := []
  missed _ := []
  toward _ := []
  heard _ := []

/-- The messages of one sender among those recorded with their senders. -/
def ofSender (i : ι) (msgs : List (ι × Msg)) : List Msg :=
  (msgs.filter fun x => x.1 = i).map Prod.snd

/-- The message is one that the device subscribes to. -/
def wants (bus : Bus ι) (j : ι) (m : Msg) : Bool := matchesSub (bus.device j).southSub m

def step (bus : Bus ι) (s : JoiningBus ι) : JoinLabel ι → Option (JoiningBus ι)
  | .send i msg =>
      let (sock, rc, out) := eCommonSend (some (bus.device i)) (some msg) true true (s.north i)
      some { s with
        north := Function.update s.north i sock
        sent := if 0 ≤ rc then
            Function.update s.sent i (s.sent i ++ [[(bus.device i).sendTopic.bytes, msg]])
          else s.sent
        dropped := Function.update s.dropped i
          (s.dropped i ++ out.filter fun m => !knownTo (s.knows i) m)
        proxy := { s.proxy with
          frontend := { s.proxy.frontend with
            pipes := Function.update s.proxy.frontend.pipes i
              (s.proxy.frontend.pipes i ++ stream (out.filter (knownTo (s.knows i)))) } } }
  | .forward pick poll => do
      let (proxy, out) ← eProxyIteration (fqRecv pick) bus.callback (.lossless poll) s.proxy
      let i := s.proxy.frontend.current.getD pick
      let news := out.subscribed.filterMap subscriptionOf
      some { s with
        proxy := proxy
        forwarded := s.forwarded ++ out.emitted.map fun m => (i, m)
        toward := fun j => s.toward j ++
          if s.served j then (out.emitted.filter (wants bus j)).map fun m => (i, m) else []
        missed := fun j => s.missed j ++
          if s.served j then [] else (out.emitted.filter (wants bus j)).map fun m => (i, m)
        down := fun j => s.down j ++
          if s.served j then stream (out.emitted.filter (wants bus j)) else []
        table := s.table ++ news
        under := fun k => s.under k ++ if s.attached k then news else [] }
  | .listen j poll => do
      let (heard, fs) ← eDeviceListenIteration (bus.device j) recvFrame ⟨poll, true, true⟩ (s.down j)
      some { s with
        down := Function.update s.down j fs
        heard := Function.update s.heard j (s.heard j ++ heard.toList) }
  | .join j =>
      if s.served j then none
      else
        let topic := (bus.device j).subTopic.bytes
        some { s with
          served := Function.update s.served j true
          subs := if topic ∈ s.subs then s.subs else s.subs ++ [topic]
          -- only a topic that is new to the backend comes out of it
          proxy := { s.proxy with
            backend := s.proxy.backend ++ if topic ∈ s.subs then [] else [⟨1 :: topic, false⟩] } }
  | .attach i =>
      if s.attached i then none
      else some { s with
        attached := Function.update s.attached i true
        under := Function.update s.under i (s.under i ++ s.table) }
  | .learn i =>
      match s.under i with
      | [] => none
      | sub :: rest => some { s with
          under := Function.update s.under i rest
          knows := Function.update s.knows i (s.knows i ++ [sub]) }

def Step (bus : Bus ι) (s : JoiningBus ι) (l : JoinLabel ι) (t : JoiningBus ι) : Prop :=
  s.step bus l = some t

/-- The messages of a sender, wanted by a device, that do not get to it: those that the sender's
publisher dropped and those that were forwarded before the backend served the device. -/
def lost (bus : Bus ι) (s : JoiningBus ι) (i j : ι) : List Msg :=
  (s.dropped i).filter (wants bus j) ++ ofSender i (s.missed j)

/-- The subscription of the device has got to the backend and to the sender's publisher. -/
def Established (bus : Bus ι) (s : JoiningBus ι) (i j : ι) : Prop :=
  s.served j = true ∧ (bus.device j).subTopic.bytes ∈ s.knows i

/-- Every device has joined with both its sockets and no subscription is on its way. -/
structure Settled (s : JoiningBus ι) : Prop where
  served : ∀ j, s.served j = true
  attached : ∀ i, s.attached i = true
  backend : s.proxy.backend = []
  under : ∀ i, s.under i = []

/-! ### The way to the proxy -/

/-- Between two rounds, the way to the proxy is at message boundaries: what a sender sent is what its
publisher dropped, then what was forwarded of it and then the pairs `up` that its pipe holds. -/
structure Upward (bus : Bus ι) (s : JoiningBus ι) (up : ι → List Msg) : Prop where
  north : ∀ i, s.north i = ⟨[]⟩
  current : s.proxy.frontend.current = none
  pipes : ∀ i, s.proxy.frontend.pipes i = stream (up i)
  pairs : ∀ i, ∀ m ∈ up i, m.length = 2
  sent : ∀ i, s.sent i = s.dropped i ++ ofSender i s.forwarded ++ up i
  unknown : ∀ i, knownTo (s.knows i) [(bus.device i).sendTopic.bytes] = false →
    ofSender i s.forwarded = [] ∧ up i = []

variable {bus : Bus ι} {s t : JoiningBus ι}

theorem ofSender_append (i : ι) (msgs msgs' : List (ι × Msg)) :
    ofSender i (msgs ++ msgs') = ofSender i msgs ++ ofSender i msgs' := by
  rw [ofSender, List.filter_append, List.map_append]
  rfl

theorem ofSender_map (i pick : ι) (msgs : List Msg) :
    ofSender i (msgs.map fun m => (pick, m)) = if pick = i then msgs else [] := by
  by_cases hi : pick = i <;> simp [ofSender, List.filter_map, Function.comp_def, hi]

theorem ofSender_filter (i : ι) (p : Msg → Bool) (msgs : List (ι × Msg)) :
    ofSender i (msgs.filter fun x => p x.2) = (ofSender i msgs).filter p := by
  rw [ofSender, List.filter_filter, ofSender, List.filter_map, List.filter_filter]
  congr 1
  apply List.filter_congr
  intro x _
  simp [Bool.and_comm]

theorem knownTo_mono {subs : List Bytes} {m : Msg} (h : knownTo subs m = true) (sub : Bytes) :
    knownTo (subs ++ [sub]) m = true := by
  cases m with
  | nil => cases h
  | cons topic rest =>
      rw [knownTo, List.any_append, Bool.or_eq_true]
      exact Or.inl h

/-- What a send does: nothing, or it puts one message into the sender's pipe or drops it, as its
publisher knows the topic or not. -/
theorem send_cases {i : ι} {msg : Bytes} (hnorth : s.north i = ⟨[]⟩)
    (hstep : Step bus s (.send i msg) t) :
    t = s ∨ ∃ m, m = [(bus.device i).sendTopic.bytes, msg] ∧
      t = { s with
        sent := Function.update s.sent i (s.sent i ++ [m])
        dropped := Function.update s.dropped i
          (s.dropped i ++ [m].filter fun m => !knownTo (s.knows i) m)
        proxy := { s.proxy with
          frontend := { s.proxy.frontend with
            pipes := Function.update s.proxy.frontend.pipes i
              (s.proxy.frontend.pipes i ++ stream ([m].filter (knownTo (s.knows i)))) } } } := by
  by_cases hmsg : msg = []
  · refine Or.inl ?_
    rw [Step, step, eCommonSend_refused _ _ (Or.inr (by rw [hmsg]))] at hstep
    simpa using hstep.symm
  · refine Or.inr ⟨_, rfl, ?_⟩
    have hrc : (0 : Int) ≤ ((min msg.length intMax : Nat) : Int) := Int.natCast_nonneg _
    have hsame : Function.update s.north i ⟨[]⟩ = s.north := by
      rw [← hnorth, Function.update_eq_self]
    rw [Step, step, eCommonSend_some _ _ hmsg, hnorth] at hstep
    simp only [Bool.not_true, Bool.false_eq_true, if_false, if_pos hrc, List.nil_append,
      hsame] at hstep
    exact (Option.some.inj hstep).symm

theorem Upward.send {up : ι → List Msg} (hup : Upward bus s up) {i : ι} {msg : Bytes}
    (hstep : Step bus s (.send i msg) t) : ∃ up', Upward bus t up' := by
  rcases send_cases (hup.north i) hstep with rfl | ⟨m, hm, rfl⟩
  · exact ⟨up, hup⟩
  · have hknown (subs : List Bytes) :
        knownTo subs [(bus.device i).sendTopic.bytes] = knownTo subs m := by
      rw [hm]
      rfl
    refine ⟨Function.update up i (up i ++ [m].filter (knownTo (s.knows i))), hup.north,
      hup.current, ?_, ?_, ?_, ?_⟩
    · intro j
      by_cases hj : j = i
      · subst hj
        simp [hup.pipes]
      · simp [hj, hup.pipes]
    · refine BusState.pairs_update hup.pairs fun m' hm' => ?_
      rcases List.mem_append.mp hm' with hm' | hm'
      · exact hup.pairs i m' hm'
      · rw [List.mem_singleton.mp (List.mem_filter.mp hm').1, hm]
        rfl
    · intro j
      by_cases hj : j = i
      · subst hj
        simp only [Function.update_self]
        cases hpass : knownTo (s.knows j) m with
        | true => simp [hpass, hup.sent j]
        | false =>
            -- a message is dropped before the first of its sender is passed on
            obtain ⟨hforwarded, hnone⟩ := hup.unknown j (by rw [hknown, hpass])
            simp [hpass, hup.sent j, hforwarded, hnone]
      · simp [hj, hup.sent]
    · intro j hj
      by_cases hji : j = i
      · subst hji
        obtain ⟨hforwarded, hnone⟩ := hup.unknown j hj
        rw [hknown] at hj
        simp [hforwarded, hnone, show knownTo (s.knows j) m = false from hj]
      · simpa [hji] using hup.unknown j hj

/-- What a round of the proxy takes: nothing or one pair of the sender it turns to, and nothing or
one subscription. -/
theorem forward_cases {up : ι → List Msg} (hup : Upward bus s up)
    (hback : s.proxy.backendOut = ⟨[]⟩) (hfront : s.proxy.frontendOut = ⟨[]⟩) {pick : ι}
    {poll : Option (Bool × Bool)} (hstep : Step bus s (.forward pick poll) t) :
    ∃ (proxy : ProxySockets (FairQueue ι)) (emitted subscribed : List Msg),
      t = { s with
        proxy := proxy
        forwarded := s.forwarded ++ emitted.map fun m => (pick, m)
        toward := fun j => s.toward j ++
          if s.served j then (emitted.filter (wants bus j)).map fun m => (pick, m) else []
        missed := fun j => s.missed j ++
          if s.served j then [] else (emitted.filter (wants bus j)).map fun m => (pick, m)
        down := fun j => s.down j ++
          if s.served j then stream (emitted.filter (wants bus j)) else []
        table := s.table ++ subscribed.filterMap subscriptionOf
        under := fun k => s.under k ++
          if s.attached k then subscribed.filterMap subscriptionOf else [] } ∧
      proxy.backendOut = ⟨[]⟩ ∧ proxy.frontendOut = ⟨[]⟩ ∧
      (emitted = [] ∧ proxy.frontend = s.proxy.frontend ∨
        ∃ topic data rest, up pick = [topic, data] :: rest ∧ emitted = [[topic, data]] ∧
          proxy.frontend = ⟨Function.update s.proxy.frontend.pipes pick (stream rest), none⟩) ∧
      (subscribed = [] ∧ proxy.backend = s.proxy.backend ∨
        ∃ f, s.proxy.backend = f :: proxy.backend ∧ subscribed = [[f.body]]) := by
  obtain ⟨⟨proxy, out⟩, hiter, ht⟩ := Option.bind_eq_some_iff.mp hstep
  simp only [hup.current, Option.getD_none] at ht
  have hsubs := eProxyIteration_subscribed hiter
  simp only [hfront, List.nil_append] at hsubs
  have hfrontOut : proxy.frontendOut = ⟨[]⟩ := by
    rcases hsubs with ⟨-, h, -⟩ | ⟨f, -, h, -⟩
    · rw [h]
    · exact h
  have hbackend : out.subscribed = [] ∧ proxy.backend = s.proxy.backend ∨
      ∃ f, s.proxy.backend = f :: proxy.backend ∧ out.subscribed = [[f.body]] := by
    rcases hsubs with ⟨hsame, -, hnone⟩ | ⟨f, hf, -, hone⟩
    · exact Or.inl ⟨hnone, hsame⟩
    · exact Or.inr ⟨f, hf, hone⟩
  refine ⟨proxy, out.emitted, out.subscribed, (Option.some.inj ht).symm, ?_⟩
  rcases eProxyIteration_cases hiter with ⟨hsame, hkept, -, hemitted⟩ |
    ⟨f, g, mid, hf, hg, hempty, -, hemitted⟩
  · exact ⟨hkept.trans hback, hfrontOut, Or.inl ⟨hemitted, hsame⟩, hbackend⟩
  · obtain ⟨rest, hmsgs, hcurrent, hpipes⟩ :=
      fqRecv_pair hup.current (hup.pipes pick) (hup.pairs pick) hf hg
    rw [hback, List.nil_append] at hemitted
    refine ⟨hempty, hfrontOut, Or.inr ⟨f.body, g.body, rest, hmsgs, hemitted, ?_⟩, hbackend⟩
    rw [← hcurrent, ← hpipes]

theorem Upward.forward {up : ι → List Msg} (hup : Upward bus s up)
    (hback : s.proxy.backendOut = ⟨[]⟩) (hfront : s.proxy.frontendOut = ⟨[]⟩) {pick : ι}
    {poll : Option (Bool × Bool)} (hstep : Step bus s (.forward pick poll) t) :
    ∃ up', Upward bus t up' := by
  obtain ⟨proxy, emitted, subscribed, rfl, -, -, htaken, -⟩ := forward_cases hup hback hfront hstep
  rcases htaken with ⟨rfl, hsame⟩ | ⟨topic, data, rest, hmsgs, rfl, htook⟩
  · refine ⟨up, hup.north, ?_, ?_, hup.pairs, ?_, ?_⟩
    · rw [hsame]
      exact hup.current
    · rw [hsame]
      exact hup.pipes
    · simpa using hup.sent
    · simpa using hup.unknown
  · refine ⟨Function.update up pick rest, hup.north, by rw [htook], ?_, ?_, ?_, ?_⟩
    · intro i
      rw [htook]
      by_cases hi : i = pick <;> simp [hi, hup.pipes]
    · refine BusState.pairs_update hup.pairs fun m hm => ?_
      exact hup.pairs pick m (hmsgs ▸ List.mem_cons_of_mem _ hm)
    · intro i
      rw [ofSender_append, ofSender_map, hup.sent i]
      by_cases hi : pick = i
      · subst hi
        simp [hmsgs]
      · simp [hi, Function.update_of_ne (Ne.symm hi)]
    · intro i hi
      have hnone := hup.unknown i hi
      by_cases hpick : pick = i
      · subst hpick
        -- the sender's pipe would not hold the pair
        rw [hmsgs] at hnone
        exact absurd hnone.2 (List.cons_ne_nil _ _)
      · rw [ofSender_append, ofSender_map, if_neg hpick, List.append_nil,
          Function.update_of_ne (Ne.symm hpick)]
        exact hnone

/-- Steps beside the way to the proxy leave it as it is; publishers forget no subscription. -/
theorem Upward.keep {up : ι → List Msg} (hup : Upward bus s up) (hnorth : t.north = s.north)
    (hfront : t.proxy.frontend = s.proxy.frontend) (hsent : t.sent = s.sent)
    (hdropped : t.dropped = s.dropped) (hforwarded : t.forwarded = s.forwarded)
    (hknows : ∀ i m, knownTo (s.knows i) m = true → knownTo (t.knows i) m = true) :
    Upward bus t up := by
  refine ⟨by rw [hnorth]; exact hup.north, by rw [hfront]; exact hup.current,
    by rw [hfront]; exact hup.pipes, hup.pairs,
    by rw [hsent, hdropped, hforwarded]; exact hup.sent, ?_⟩
  intro i hi
  rw [hforwarded]
  refine hup.unknown i ?_
  rw [Bool.eq_false_iff] at hi ⊢
  exact fun h => hi (hknows i _ h)

/-! ### The way from the proxy -/

/-- Between two rounds, the ways from the proxy are at message boundaries: what a device wants of the
forwarded messages is what it missed and then what was passed toward it, and this is what it heard
and then the pairs `dn` under way to it. -/
structure Downward (bus : Bus ι) (s : JoiningBus ι) (dn : ι → List Msg) : Prop where
  backendOut : s.proxy.backendOut = ⟨[]⟩
  down : ∀ j, s.down j = stream (dn j)
  pairs : ∀ j, ∀ m ∈ dn j, m.length = 2
  toward : ∀ j, (s.toward j).map Prod.snd = (s.heard j).map Heard.msg ++ dn j
  called : ∀ j, ∀ x ∈ s.heard j, x.called = true
  split : ∀ j, s.forwarded.filter (fun x => wants bus j x.2) = s.missed j ++ s.toward j
  unserved : ∀ j, s.served j = false → s.toward j = []

omit [DecidableEq ι] in
theorem Downward.keep {dn : ι → List Msg} (hdn : Downward bus s dn)
    (hback : t.proxy.backendOut = s.proxy.backendOut) (hdown : t.down = s.down)
    (htoward : t.toward = s.toward) (hheard : t.heard = s.heard)
    (hforwarded : t.forwarded = s.forwarded) (hmissed : t.missed = s.missed)
    (hserved : ∀ j, s.served j = true → t.served j = true) : Downward bus t dn := by
  refine ⟨by rw [hback]; exact hdn.backendOut, by rw [hdown]; exact hdn.down, hdn.pairs,
    by rw [htoward, hheard]; exact hdn.toward, by rw [hheard]; exact hdn.called,
    by rw [hforwarded, hmissed, htoward]; exact hdn.split, ?_⟩
  intro j hj
  rw [htoward]
  refine hdn.unserved j ?_
  rw [Bool.eq_false_iff] at hj ⊢
  exact fun h => hj (hserved j h)

omit [DecidableEq ι] in
theorem filter_wants_map (bus : Bus ι) (j pick : ι) (msgs : List Msg) :
    (msgs.map fun m => (pick, m)).filter (fun x => wants bus j x.2) =
      (msgs.filter (wants bus j)).map fun m => (pick, m) := List.filter_map

theorem Downward.forward {up dn : ι → List Msg} (hdn : Downward bus s dn) (hup : Upward bus s up)
    (hfront : s.proxy.frontendOut = ⟨[]⟩) {pick : ι} {poll : Option (Bool × Bool)}
    (hstep : Step bus s (.forward pick poll) t) : ∃ dn', Downward bus t dn' := by
  obtain ⟨proxy, emitted, subscribed, rfl, hback, -, htaken, -⟩ :=
    forward_cases hup hdn.backendOut hfront hstep
  have hpairs : ∀ m ∈ emitted, m.length = 2 := by
    rcases htaken with ⟨rfl, -⟩ | ⟨topic, data, rest, -, rfl, -⟩
    · intro m hm
      exact absurd hm List.not_mem_nil
    · intro m hm
      rw [List.mem_singleton.mp hm]
      rfl
  refine ⟨fun j => dn j ++ if s.served j then emitted.filter (wants bus j) else [], hback, ?_, ?_,
    ?_, hdn.called, ?_, ?_⟩
  · intro j
    show s.down j ++ _ = _
    rw [hdn.down j, stream_append]
    cases s.served j <;> rfl
  · intro j m hm
    rcases List.mem_append.mp hm with hm | hm
    · exact hdn.pairs j m hm
    · cases hj : s.served j with
      | false =>
          rw [hj] at hm
          exact absurd hm List.not_mem_nil
      | true =>
          rw [hj] at hm
          exact hpairs m (List.mem_filter.mp hm).1
  · intro j
    show List.map Prod.snd (s.toward j ++ _) = _
    rw [List.map_append, hdn.toward j, List.append_assoc]
    cases s.served j <;> simp [Function.comp_def]
  · intro j
    show List.filter _ (s.forwarded ++ _) = s.missed j ++ _ ++ (s.toward j ++ _)
    rw [List.filter_append, hdn.split j, filter_wants_map]
    cases hj : s.served j with
    | false => simp [hdn.unserved j hj]
    | true => simp
  · intro j hj
    show s.toward j ++ _ = []
    rw [hdn.unserved j hj, show s.served j = false from hj]
    rfl

theorem Downward.listen {dn : ι → List Msg} (hdn : Downward bus s dn) {j : ι} {poll : Option Bool}
    (hstep : Step bus s (.listen j poll) t) : ∃ dn', Downward bus t dn' := by
  obtain ⟨⟨heard, fs⟩, hiter, ht⟩ := Option.bind_eq_some_iff.mp hstep
  cases ht
  have hiter' := ListenState.iteration_eq (.device (bus.device j)) hiter
  rcases listenIteration_cases (fun _ _ => rfl) hiter' with ⟨rfl, hsame⟩ |
    ⟨f, g, mid, hf, hg, rfl⟩
  · refine ⟨dn, hdn.keep rfl ?_ rfl ?_ rfl rfl fun _ h => h⟩
    · rw [hsame]
      exact Function.update_eq_self j s.down
    · simp
  · rw [hdn.down j] at hf
    obtain ⟨rest, hmsgs, -, -, rfl⟩ := recvFrame_stream (hdn.pairs j) hf hg
    refine ⟨Function.update dn j rest, hdn.backendOut, ?_, ?_, ?_, ?_, hdn.split, hdn.unserved⟩
    · intro k
      by_cases hk : k = j <;> simp [hk, hdn.down]
    · refine BusState.pairs_update hdn.pairs fun m hm => ?_
      exact hdn.pairs j m (hmsgs ▸ List.mem_cons_of_mem _ hm)
    · intro k
      by_cases hk : k = j
      · subst hk
        simp [hdn.toward, hmsgs, Heard.msg]
      · simp [hk, hdn.toward]
    · intro k x hx
      by_cases hk : k = j
      · subst hk
        simp only [Function.update_self, Option.toList_some, List.mem_append,
          List.mem_singleton] at hx
        rcases hx with hx | rfl
        · exact hdn.called k x hx
        · rfl
      · simp only [Function.update_of_ne hk] at hx
        exact hdn.called k x hx

/-! ### The way of the subscriptions -/

/-- A topic of the backend's is in the frontend's table or waits in the backend to get there, and a
topic of the table's is known to every attached publisher or on its way to it. -/
structure Spread (bus : Bus ι) (s : JoiningBus ι) : Prop where
  frontendOut : s.proxy.frontendOut = ⟨[]⟩
  subs : ∀ j, s.served j = true → (bus.device j).subTopic.bytes ∈ s.subs
  table : ∀ sub ∈ s.subs, ⟨1 :: sub, false⟩ ∈ s.proxy.backend ∨ sub ∈ s.table
  knows : ∀ i, s.attached i = true → ∀ sub ∈ s.table, sub ∈ s.under i ∨ sub ∈ s.knows i

theorem Spread.forward {up : ι → List Msg} (hspread : Spread bus s) (hup : Upward bus s up)
    (hback : s.proxy.backendOut = ⟨[]⟩) {pick : ι} {poll : Option (Bool × Bool)}
    (hstep : Step bus s (.forward pick poll) t) : Spread bus t := by
  obtain ⟨proxy, emitted, subscribed, rfl, -, hfront, -, htaken⟩ :=
    forward_cases hup hback hspread.frontendOut hstep
  refine ⟨hfront, hspread.subs, ?_, ?_⟩
  · intro sub hsub
    show _ ∨ sub ∈ s.table ++ _
    rcases htaken with ⟨-, hsame⟩ | ⟨f, hf, rfl⟩
    · refine (hspread.table sub hsub).imp (fun h => ?_) (List.mem_append_left _)
      exact hsame ▸ h
    · rcases hspread.table sub hsub with h | h
      · rw [hf, List.mem_cons] at h
        rcases h with rfl | h
        -- the waiting subscription has come to the frontend
        · exact Or.inr (List.mem_append_right _ (by simp [subscriptionOf]))
        · exact Or.inl h
      · exact Or.inr (List.mem_append_left _ h)
  · intro i hi sub hsub
    show sub ∈ s.under i ++ _ ∨ _
    rw [if_pos (show s.attached i = true from hi)]
    rcases List.mem_append.mp hsub with hsub | hsub
    · exact (hspread.knows i hi sub hsub).imp_left (List.mem_append_left _)
    · exact Or.inl (List.mem_append_right _ hsub)

theorem Spread.join (hspread : Spread bus s) {j : ι} (hstep : Step bus s (.join j) t) :
    Spread bus t := by
  simp only [Step, step] at hstep
  split at hstep
  · cases hstep
  · cases hstep
    refine ⟨hspread.frontendOut, ?_, ?_, hspread.knows⟩
    · intro k hk
      by_cases hkj : k = j
      · subst hkj
        show _ ∈ ite _ _ _
        split
        · next hmem => exact hmem
        · exact List.mem_append_right _ List.mem_cons_self
      · have hold := hspread.subs k (by simpa [hkj] using hk)
        show _ ∈ ite _ _ _
        split
        · exact hold
        · exact List.mem_append_left _ hold
    · intro sub hsub
      show _ ∈ s.proxy.backend ++ ite _ _ _ ∨ _
      split at hsub
      · next hmem =>
          rw [if_pos hmem, List.append_nil]
          exact hspread.table sub hsub
      · next hmem =>
          rw [if_neg hmem]
          rcases List.mem_append.mp hsub with hsub | hsub
          · exact (hspread.table sub hsub).imp_left (List.mem_append_left _)
          · rw [List.mem_singleton.mp hsub]
            exact Or.inl (List.mem_append_right _ List.mem_cons_self)

theorem Spread.attach (hspread : Spread bus s) {i : ι} (hstep : Step bus s (.attach i) t) :
    Spread bus t := by
  simp only [Step, step] at hstep
  split at hstep
  · cases hstep
  · cases hstep
    refine ⟨hspread.frontendOut, hspread.subs, hspread.table, ?_⟩
    intro k hk sub hsub
    by_cases hki : k = i
    · subst hki
      exact Or.inl (by simpa using Or.inr hsub)
    · simpa [hki] using hspread.knows k (by simpa [hki] using hk) sub hsub

theorem Spread.learn (hspread : Spread bus s) {i : ι} (hstep : Step bus s (.learn i) t) :
    Spread bus t := by
  simp only [Step, step] at hstep
  split at hstep
  · cases hstep
  · next sub rest hunder =>
      cases hstep
      refine ⟨hspread.frontendOut, hspread.subs, hspread.table, ?_⟩
      intro k hk sub' hsub
      have hold := hspread.knows k hk sub' hsub
      by_cases hki : k = i
      · subst hki
        rw [hunder, List.mem_cons] at hold
        simp only [Function.update_self, List.mem_append, List.mem_singleton]
        tauto
      · simpa [hki] using hold

/-! ### Runs -/

def Consistent (bus : Bus ι) (s : JoiningBus ι) : Prop :=
  (∃ up, Upward bus s up) ∧ (∃ dn, Downward bus s dn) ∧ Spread bus s

theorem consistent_start (bus : Bus ι) : Consistent bus start :=
  ⟨⟨fun _ => [], fun _ => rfl, rfl, fun _ => rfl, by simp, fun _ => rfl, fun _ _ => ⟨rfl, rfl⟩⟩,
    ⟨fun _ => [], rfl, fun _ => rfl, by simp, fun _ => rfl, by simp [start], fun _ => rfl,
      fun _ _ => rfl⟩,
    ⟨rfl, by simp [start], by simp [start], by simp [start]⟩⟩

theorem Consistent.step (hs : Consistent bus s) {l : JoinLabel ι} (hstep : Step bus s l t) :
    Consistent bus t := by
  obtain ⟨⟨up, hup⟩, ⟨dn, hdn⟩, hspread⟩ := hs
  cases l with
  | send i msg =>
      refine ⟨hup.send hstep, ?_⟩
      rcases send_cases (hup.north i) hstep with rfl | ⟨m, -, rfl⟩
      · exact ⟨⟨dn, hdn⟩, hspread⟩
      · exact ⟨⟨dn, hdn.keep rfl rfl rfl rfl rfl rfl fun _ h => h⟩,
          ⟨hspread.frontendOut, hspread.subs, hspread.table, hspread.knows⟩⟩
  | forward pick poll =>
      exact ⟨hup.forward hdn.backendOut hspread.frontendOut hstep,
        hdn.forward hup hspread.frontendOut hstep, hspread.forward hup hdn.backendOut hstep⟩
  | listen j poll =>
      have hdn' := hdn.listen hstep
      obtain ⟨⟨heard, fs⟩, -, ht⟩ := Option.bind_eq_some_iff.mp hstep
      cases ht
      exact ⟨⟨up, hup.keep rfl rfl rfl rfl rfl fun _ _ h => h⟩, hdn',
        ⟨hspread.frontendOut, hspread.subs, hspread.table, hspread.knows⟩⟩
  | join j =>
      have hspread' := hspread.join hstep
      simp only [Step, JoiningBus.step] at hstep
      split at hstep
      · cases hstep
      · cases hstep
        refine ⟨⟨up, hup.keep rfl rfl rfl rfl rfl fun _ _ h => h⟩,
          ⟨dn, hdn.keep rfl rfl rfl rfl rfl rfl fun k hk => ?_⟩, hspread'⟩
        by_cases hkj : k = j <;> simp [hkj, hk]
  | attach i =>
      have hspread' := hspread.attach hstep
      simp only [Step, JoiningBus.step] at hstep
      split at hstep
      · cases hstep
      · cases hstep
        exact ⟨⟨up, hup.keep rfl rfl rfl rfl rfl fun _ _ h => h⟩,
          ⟨dn, hdn.keep rfl rfl rfl rfl rfl rfl fun _ h => h⟩, hspread'⟩
  | learn i =>
      have hspread' := hspread.learn hstep
      simp only [Step, JoiningBus.step] at hstep
      split at hstep
      · cases hstep
      · next sub rest hunder =>
          cases hstep
          refine ⟨⟨up, hup.keep rfl rfl rfl rfl rfl fun k m hk => ?_⟩,
            ⟨dn, hdn.keep rfl rfl rfl rfl rfl rfl fun _ h => h⟩, hspread'⟩
          by_cases hki : k = i
          · subst hki
            simpa using knownTo_mono hk sub
          · simpa [hki] using hk

omit [DecidableEq ι] in
/-- A publisher that has the subscription of a device drops nothing that the device wants. -/
theorem knownTo_of_wants {subs : List Bytes} {j : ι} {m : Msg}
    (hsub : (bus.device j).subTopic.bytes ∈ subs) (hm : wants bus j m = true) :
    knownTo subs m = true := by
  rw [wants, BusState.matchesSub_device] at hm
  cases m with
  | nil => cases hm
  | cons topic rest => exact List.any_eq_true.mpr ⟨_, hsub, hm⟩

/-- Once the subscription is established it stays so, and no more of the sender is lost. -/
theorem Established.step {i j : ι} (hestablished : s.Established bus i j) (hs : Consistent bus s)
    {l : JoinLabel ι} (hstep : Step bus s l t) :
    t.Established bus i j ∧ t.lost bus i j = s.lost bus i j := by
  obtain ⟨hserved, hknows⟩ := hestablished
  obtain ⟨⟨up, hup⟩, ⟨dn, hdn⟩, hspread⟩ := hs
  cases l with
  | send k msg =>
      rcases send_cases (hup.north k) hstep with rfl | ⟨m, -, rfl⟩
      · exact ⟨⟨hserved, hknows⟩, rfl⟩
      · refine ⟨⟨hserved, hknows⟩, ?_⟩
        simp only [lost]
        by_cases hki : i = k
        · subst hki
          have hnone : ([m].filter fun m => !knownTo (s.knows i) m).filter (wants bus j) = [] := by
            rw [List.filter_filter, List.filter_eq_nil_iff]
            intro m' _ hm'
            rw [Bool.and_eq_true, Bool.not_eq_true'] at hm'
            rw [knownTo_of_wants hknows hm'.1] at hm'
            exact absurd hm'.2 (by decide)
          rw [Function.update_self, List.filter_append, hnone, List.append_nil]
        · rw [Function.update_of_ne hki]
  | forward pick poll =>
      obtain ⟨proxy, emitted, subscribed, rfl, -⟩ :=
        forward_cases hup hdn.backendOut hspread.frontendOut hstep
      refine ⟨⟨hserved, hknows⟩, ?_⟩
      simp only [lost, if_pos hserved, List.append_nil]
  | listen k poll =>
      obtain ⟨⟨heard, fs⟩, -, ht⟩ := Option.bind_eq_some_iff.mp hstep
      cases ht
      exact ⟨⟨hserved, hknows⟩, rfl⟩
  | join k =>
      simp only [Step, JoiningBus.step] at hstep
      split at hstep
      · cases hstep
      · cases hstep
        refine ⟨⟨?_, hknows⟩, rfl⟩
        by_cases hjk : j = k <;> simp [hjk, ← hserved]
  | attach k =>
      simp only [Step, JoiningBus.step] at hstep
      split at hstep
      · cases hstep
      · cases hstep
        exact ⟨⟨hserved, hknows⟩, rfl⟩
  | learn k =>
      simp only [Step, JoiningBus.step] at hstep
      split at hstep
      · cases hstep
      · next sub rest hunder =>
          cases hstep
          refine ⟨⟨hserved, ?_⟩, rfl⟩
          by_cases hik : i = k
          · subst hik
            simpa using Or.inl hknows
          · simpa [hik] using hknows

omit [DecidableEq ι] in
/-- When all have joined and nothing is on its way, every subscription has got to every publisher. -/
theorem Spread.established (hspread : Spread bus s) (hsettled : s.Settled) (i j : ι) :
    s.Established bus i j := by
  refine ⟨hsettled.served j, ?_⟩
  have htable : (bus.device j).subTopic.bytes ∈ s.table := by
    rcases hspread.table _ (hspread.subs j (hsettled.served j)) with h | h
    · rw [hsettled.backend] at h
      exact absurd h List.not_mem_nil
    · exact h
  rcases hspread.knows i (hsettled.attached i) _ htable with h | h
  · rw [hsettled.under i] at h
    exact absurd h List.not_mem_nil
  · exact h

/-- **Late subscribers.** In every reachable state, what a device wants of a sender's messages is
what it has lost, then what was passed toward it, then what is still in the sender's pipe; and what
was passed toward it is what its callback was called with and then what is under way to it. Once the
device's subscription is established with the sender, nothing more of it is ever lost; and that is so
for all of them when all have joined and no subscription is on its way. -/
theorem late_subscribers (bus : Bus ι) {ls : List (JoinLabel ι)} {s : JoiningBus ι}
    (hrun : Run (Step bus) start ls s) :
    (∀ i j, (s.sent i).filter (topicStartsWith (bus.device j).subTopic) =
      s.lost bus i j ++ ofSender i (s.toward j) ++
        (assemble [] (s.proxy.frontend.pipes i)).1.filter
          (topicStartsWith (bus.device j).subTopic)) ∧
    (∀ j, (s.toward j).map Prod.snd = (s.heard j).map Heard.msg ++ (assemble [] (s.down j)).1 ∧
      (assemble [] (s.down j)).2 = [] ∧ ∀ x ∈ s.heard j, x.called = true) ∧
    (∀ i j, s.Established bus i j → ∀ ls' t, Run (Step bus) s ls' t →
      t.lost bus i j = s.lost bus i j) ∧
    (s.Settled → ∀ i j, s.Established bus i j) := by
  have hs : Consistent bus s :=
    hrun.invariant (fun _ _ _ hs hstep => hs.step hstep) (consistent_start bus)
  obtain ⟨⟨up, hup⟩, ⟨dn, hdn⟩, hspread⟩ := id hs
  have hcut (msgs : List Msg) (hpairs : ∀ m ∈ msgs, m.length = 2) :
      assemble [] (stream msgs) = (msgs, []) :=
    assemble_stream fun m hm h => by simpa [h] using hpairs m hm
  refine ⟨fun i j => ?_, fun j => ?_, fun i j hestablished ls' t hrun' => ?_,
    fun hsettled => hspread.established hsettled⟩
  · have hforwarded : (ofSender i s.forwarded).filter (wants bus j) =
        ofSender i (s.missed j) ++ ofSender i (s.toward j) := by
      rw [← ofSender_filter, hdn.split j, ofSender_append]
    have hwants : wants bus j = topicStartsWith (bus.device j).subTopic :=
      BusState.matchesSub_device bus j
    rw [hup.pipes i, hcut _ (hup.pairs i), ← hwants, hup.sent i, List.filter_append,
      List.filter_append, hforwarded, lost]
    simp only [List.append_assoc]
  · rw [hdn.down j, hcut _ (hdn.pairs j)]
    exact ⟨hdn.toward j, rfl, hdn.called j⟩
  · have hkeeps : Consistent bus t ∧ t.Established bus i j ∧ t.lost bus i j = s.lost bus i j := by
      refine hrun'.invariant (I := fun u => Consistent bus u ∧ u.Established bus i j ∧
        u.lost bus i j = s.lost bus i j) ?_ ⟨hs, hestablished, rfl⟩
      rintro u l v ⟨hu, hest, hlost⟩ hstep
      obtain ⟨hest', hlost'⟩ := hest.step hu hstep
      exact ⟨hu.step hstep, hest', hlost'.trans hlost⟩
    exact hkeeps.2.2

/-- What the collector sends before its publisher has the monitor's subscription is lost, and what
it sends afterwards gets there. -/
theorem late_subscribers_pair :
    ∃ s : JoiningBus Bool,
      s.lost sampleBus true false = [[(sampleBus.device true).sendTopic.bytes, [7]]] ∧
      (s.heard false).map Heard.msg = [[(sampleBus.device true).sendTopic.bytes, [8]]] ∧
      (s.sent true).filter (topicStartsWith (sampleBus.device false).subTopic) =
        s.lost sampleBus true false ++ ofSender true (s.toward false) ++
          (assemble [] (s.proxy.frontend.pipes true)).1.filter
            (topicStartsWith (sampleBus.device false).subTopic) := by
  have hrun : ∃ s, Run (Step sampleBus) start
      [.send true [7], .join false, .attach true, .forward true (some (false, true)), .learn true,
        .send true [8], .forward true (some (true, false)), .listen false (some true)] s ∧
      s.lost sampleBus true false = [[(sampleBus.device true).sendTopic.bytes, [7]]] ∧
      (s.heard false).map Heard.msg = [[(sampleBus.device true).sendTopic.bytes, [8]]] := by
    refine ⟨_, .cons rfl (.cons rfl (.cons rfl (.cons rfl (.cons rfl (.cons rfl (.cons rfl
      (.cons rfl (.nil _)))))))), ?_, ?_⟩
    · decide
    · decide
  obtain ⟨s, hs, hlost, hheard⟩ := hrun
  exact ⟨s, hlost, hheard, (late_subscribers sampleBus hs).1 true false⟩

/-! ### Joining comes to an end -/

/-- The step is one of the subscriptions' way. -/
def Subscribing : JoinLabel ι → Prop
  | .send _ _ | .listen _ _ => False
  | .forward _ poll => poll = some (false, true)
  | .join _ | .attach _ | .learn _ => True

section Progress

variable [Fintype ι]

/-- How many devices have not joined, with one socket or with the other. -/
def absent (s : JoiningBus ι) : Nat :=
  (Finset.univ.filter fun j => s.served j = false).card +
    (Finset.univ.filter fun i => s.attached i = false).card

/-- How many subscriptions are on their way to publishers. -/
def onTheWay (s : JoiningBus ι) : Nat := ∑ i, (s.under i).length

/-- All have joined. -/
def Joined (s : JoiningBus ι) : Prop :=
  (∀ j, s.served j = true) ∧ ∀ i, s.attached i = true

theorem card_unset {flag : ι → Bool} {i : ι} (hi : flag i = false) :
    (Finset.univ.filter fun j => Function.update flag i true j = false).card <
      (Finset.univ.filter fun j => flag j = false).card := by
  apply Finset.card_lt_card
  rw [Finset.ssubset_iff_of_subset]
  · exact ⟨i, by simpa using hi, by simp⟩
  · intro j hj
    by_cases hji : j = i
    · subst hji
      simp at hj
    · simpa [hji] using hj

theorem join_goes (bus : Bus ι) {j : ι} (hj : s.served j = false) :
    ∃ t, Step bus s (.join j) t ∧ t.absent < s.absent := by
  refine ⟨_, by rw [Step, step, if_neg (by simp [hj])], ?_⟩
  exact Nat.add_lt_add_right (card_unset hj) _

theorem attach_goes (bus : Bus ι) {i : ι} (hi : s.attached i = false) :
    ∃ t, Step bus s (.attach i) t ∧ t.absent < s.absent := by
  refine ⟨_, by rw [Step, step, if_neg (by simp [hi])], ?_⟩
  exact Nat.add_lt_add_left (card_unset hi) _

omit [Fintype ι] in
/-- A round of the proxy takes the first subscription that waits. -/
theorem pass_goes (bus : Bus ι) (pick : ι) {f : Frame Bytes} {fs : List (Frame Bytes)}
    (hbackend : s.proxy.backend = f :: fs) :
    ∃ t, Step bus s (.forward pick (some (false, true))) t ∧ t.proxy.backend = fs ∧
      t.served = s.served ∧ t.attached = s.attached := by
  have hiter : ∃ out, eProxyIteration (fqRecv pick) bus.callback (.lossless (some (false, true)))
      s.proxy = some ({ s.proxy with backend := fs, frontendOut := ⟨[]⟩ }, out) := by
    simp [eProxyIteration, forwardSubscription, zmqMsgRecv, recvFrame, ProxyEnv.lossless, hbackend]
  obtain ⟨out, hiter⟩ := hiter
  obtain ⟨t, ht⟩ : ∃ t, s.step bus (.forward pick (some (false, true))) = some t := by
    rw [step, hiter]
    exact ⟨_, rfl⟩
  refine ⟨t, ht, ?_, ?_, ?_⟩ <;> rw [step, hiter] at ht <;> cases ht <;> rfl

theorem learn_goes (bus : Bus ι) {i : ι} (hi : s.under i ≠ []) :
    ∃ t, Step bus s (.learn i) t ∧ t.onTheWay < s.onTheWay ∧ t.proxy = s.proxy ∧
      t.served = s.served ∧ t.attached = s.attached := by
  cases hunder : s.under i with
  | nil => exact absurd hunder hi
  | cons sub rest =>
      refine ⟨{ s with
        under := Function.update s.under i rest
        knows := Function.update s.knows i (s.knows i ++ [sub]) }, ?_, ?_, rfl, rfl, rfl⟩
      · rw [Step, step, hunder]
      apply Finset.sum_lt_sum
      · intro k _
        by_cases hk : k = i
        · subst hk
          simp [hunder]
        · simp [hk]
      · exact ⟨i, Finset.mem_univ i, by simp [hunder]⟩

/-- All can join. -/
theorem run_joined (bus : Bus ι) (s : JoiningBus ι) :
    ∃ ls t, Run (Step bus) s ls t ∧ (∀ l ∈ ls, Subscribing l) ∧ t.Joined := by
  refine Run.exists_of_progress (R := fun u n => u.absent = n) ?_ rfl
  rintro u n rfl
  by_cases hserved : ∀ j, u.served j = true
  · by_cases hattached : ∀ i, u.attached i = true
    · exact Or.inl ⟨hserved, hattached⟩
    · push Not at hattached
      obtain ⟨i, hi⟩ := hattached
      obtain ⟨v, hstep, hlt⟩ := attach_goes bus (Bool.eq_false_iff.mpr hi)
      exact Or.inr ⟨_, v, _, hstep, trivial, rfl, hlt⟩
  · push Not at hserved
    obtain ⟨j, hj⟩ := hserved
    obtain ⟨v, hstep, hlt⟩ := join_goes bus (Bool.eq_false_iff.mpr hj)
    exact Or.inr ⟨_, v, _, hstep, trivial, rfl, hlt⟩

omit [Fintype ι] in
/-- The proxy can take all the subscriptions that wait in the backend. -/
theorem run_passed (bus : Bus ι) (pick : ι) (hjoined : s.Joined) :
    ∃ ls t, Run (Step bus) s ls t ∧ (∀ l ∈ ls, Subscribing l) ∧
      t.Joined ∧ t.proxy.backend = [] := by
  refine Run.exists_of_progress (R := fun u n => u.Joined ∧ u.proxy.backend.length = n) ?_
    ⟨hjoined, rfl⟩
  rintro u n ⟨hu, rfl⟩
  cases hbackend : u.proxy.backend with
  | nil => exact Or.inl ⟨hu, rfl⟩
  | cons f fs =>
      obtain ⟨v, hstep, hfs, hserved, hattached⟩ := pass_goes bus pick hbackend
      refine Or.inr ⟨_, v, _, hstep, rfl, ⟨?_, rfl⟩, ?_⟩
      · rw [Joined, hserved, hattached]
        exact hu
      · rw [hfs]
        exact Nat.lt_succ_self _

/-- The publishers can take all the subscriptions on their way to them. -/
theorem run_learned (bus : Bus ι) (hjoined : s.Joined) (hbackend : s.proxy.backend = []) :
    ∃ ls t, Run (Step bus) s ls t ∧ (∀ l ∈ ls, Subscribing l) ∧ t.Settled := by
  refine Run.exists_of_progress
    (R := fun u n => u.Joined ∧ u.proxy.backend = [] ∧ u.onTheWay = n) ?_ ⟨hjoined, hbackend, rfl⟩
  rintro u n ⟨hu, hnone, rfl⟩
  by_cases hunder : ∀ i, u.under i = []
  · exact Or.inl ⟨hu.1, hu.2, hnone, hunder⟩
  · push Not at hunder
    obtain ⟨i, hi⟩ := hunder
    obtain ⟨v, hstep, hlt, hproxy, hserved, hattached⟩ := learn_goes bus hi
    refine Or.inr ⟨_, v, _, hstep, trivial, ⟨?_, ?_, rfl⟩, hlt⟩
    · rw [Joined, hserved, hattached]
      exact hu
    · rw [hproxy, hnone]

/-- **Joining comes to an end.** From every reachable state, steps of the subscriptions' way alone can
lead to one in which every device's subscription is established with every sender. -/
theorem subscriptions_settle (bus : Bus ι) (pick : ι) {ls : List (JoinLabel ι)} {s : JoiningBus ι}
    (hrun : Run (Step bus) start ls s) :
    ∃ ls' t, Run (Step bus) s ls' t ∧ (∀ l ∈ ls', Subscribing l) ∧
      ∀ i j, t.Established bus i j := by
  obtain ⟨ls₁, t, hjoin, hls₁, hjoined⟩ := run_joined bus s
  obtain ⟨ls₂, u, hpass, hls₂, hjoined', hbackend⟩ := run_passed bus pick hjoined
  obtain ⟨ls₃, v, hlearn, hls₃, hsettled⟩ := run_learned bus hjoined' hbackend
  have hway := hjoin.append (hpass.append hlearn)
  refine ⟨ls₁ ++ (ls₂ ++ ls₃), v, hway, ?_, ?_⟩
  · rw [List.forall_mem_append, List.forall_mem_append]
    exact ⟨hls₁, hls₂, hls₃⟩
  · obtain ⟨-, -, hspread⟩ := (hrun.append hway).invariant (fun _ _ _ hs hstep => hs.step hstep)
      (consistent_start bus)
    exact fun i j => hspread.established hsettled i j

end Progress

/-- The collector has lost one message and has one on its way, the proxy has yet to take the collector's
subscription, and the monitor's publisher has not connected: all still come to know of each other. -/
theorem subscriptions_settle_pair :
    ∃ s : JoiningBus Bool,
      Run (Step sampleBus) start [.send true [7], .join false, .attach true, .join true,
        .forward true (some (false, true)), .learn true, .send true [8]] s ∧
      s.lost sampleBus true false = [[(sampleBus.device true).sendTopic.bytes, [7]]] ∧
      (assemble [] (s.proxy.frontend.pipes true)).1 = [[(sampleBus.device true).sendTopic.bytes, [8]]] ∧
      s.proxy.backend.length = 1 ∧ s.attached false = false ∧
      ∃ ls t, Run (Step sampleBus) s ls t ∧ (∀ l ∈ ls, Subscribing l) ∧
        ∀ i j, t.Established sampleBus i j := by
  have hrun : ∃ s, Run (Step sampleBus) start [.send true [7], .join false, .attach true, .join true,
      .forward true (some (false, true)), .learn true, .send true [8]] s ∧
      s.lost sampleBus true false = [[(sampleBus.device true).sendTopic.bytes, [7]]] ∧
      (assemble [] (s.proxy.frontend.pipes true)).1 = [[(sampleBus.device true).sendTopic.bytes, [8]]] ∧
      s.proxy.backend.length = 1 ∧ s.attached false = false := by
    refine ⟨_, .cons rfl (.cons rfl (.cons rfl (.cons rfl (.cons rfl (.cons rfl (.cons rfl
      (.nil _))))))), ?_, ?_, ?_, ?_⟩ <;> decide
  obtain ⟨s, hs, hlost, hpipe, hbackend, hattached⟩ := hrun
  exact ⟨s, hs, hlost, hpipe, hbackend, hattached, subscriptions_settle sampleBus true hs⟩

end JoiningBus

end LibEzmb
