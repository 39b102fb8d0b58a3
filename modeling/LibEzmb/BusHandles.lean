import LibEzmb.BaseTypestate
import LibEzmb.BusListener
import LibEzmb.BusProxy

/-! The message variables of the proxy loop and of the two listener loops. The rounds are written
again with the operations they make on `zmq_msg_t` variables, and have the values of before. -/

open CHeap CBytes Multipart Typestate

namespace LibEzmb

/-- `topic_msg` and `data_msg`, and `msg` of the proxy. -/
inductive BusMsg where
  | topic
  | data
  | msg
  deriving DecidableEq, Repr

def zmqMsgInit (v : BusMsg) : Traced BusMsg Unit := .make (.init v)

def zmqMsgData (v : BusMsg) : Traced BusMsg Unit := .make (.use v)

def zmqMsgSize (v : BusMsg) : Traced BusMsg Unit := .make (.use v)

def zmqMsgClose (v : BusMsg) : Traced BusMsg Unit := .make (.close v)

/-- `zmq_msg_send`, after which the message is still to be closed. -/
def zmqMsgSend (v : BusMsg) (sock : OutSocket) (body : Bytes) (sndmore ok : Bool) :
    Traced BusMsg (OutSocket × Int × List Msg) := do
  Traced.make (.use v)
  pure (zmqSend sock body sndmore ok)

section Rounds

variable {σ : Type}

/-- `zmq_msg_recv` into a variable. -/
def zmqMsgRecvInto (v : BusMsg) (recv : σ → Option (Frame Bytes × σ)) (ok : Bool) (sock : σ) :
    Traced BusMsg (Option (Frame Bytes) × σ) := do
  Traced.make (.use v)
  Traced.await (zmqMsgRecv recv ok sock)

/-- `recv_msg` of e_proxy.c, which initialises the message itself. -/
def recvMsg (v : BusMsg) (recv : σ → Option (Frame Bytes × σ)) (ok : Bool) (sock : σ) :
    Traced BusMsg (Option (Frame Bytes) × σ) := do
  zmqMsgInit v
  zmqMsgRecvInto v recv ok sock

/-- The arguments of a callback, if there is one. -/
def readPair (hasCallback : Bool) : Traced BusMsg Unit :=
  if hasCallback then do
    zmqMsgData .topic
    zmqMsgSize .topic
    zmqMsgData .data
    zmqMsgSize .data
  else pure ()

def closePair : Traced BusMsg Unit := do
  zmqMsgClose .topic
  zmqMsgClose .data

/-- The subscription branch of the proxy loop. A failed receive leaves the message open. -/
def subscriptionRound (env : ProxyEnv) (pollin : Bool) (p : ProxySockets σ) (out : ProxyOut) :
    Traced BusMsg (ProxySockets σ × ProxyOut) :=
  if pollin then do
    let (msg, backend) ← recvMsg .msg recvFrame env.okSub p.backend
    match msg with
    | none => pure ({ p with backend := backend }, out)
    | some msg => do
        let (sock, _, sent) ← zmqMsgSend .msg p.frontendOut msg.body false env.okSendSub
        zmqMsgClose .msg
        pure ({ p with backend := backend, frontendOut := sock }, { out with subscribed := sent })
  else pure (p, out)

/-- One round of the loop of `e_proxy_listen_thread`. -/
def proxyRound (recv : σ → Option (Frame Bytes × σ)) (callback : Option Addr) (env : ProxyEnv)
    (p : ProxySockets σ) : Traced BusMsg (ProxySockets σ × ProxyOut) :=
  match env.poll with
  | none => pure (p, ⟨[], [], []⟩)
  | some (front, back) =>
      if front then do
        let (topic, frontend) ← recvMsg .topic recv env.okTopic p.frontend
        match topic with
        | none => do
            -- the second receive is not made, and its message is closed all the same
            closePair
            pure ({ p with frontend := frontend }, ⟨[], [], []⟩)
        | some topic => do
            let (data, frontend) ← recvMsg .data recv env.okData frontend
            match data with
            | none => do
                closePair
                pure ({ p with frontend := frontend }, ⟨[], [], []⟩)
            | some data => do
                readPair callback.isSome
                let (sock, _, out) ← zmqMsgSend .topic p.backendOut topic.body true env.okSendTopic
                let (sock, _, out') ← zmqMsgSend .data sock data.body false env.okSendData
                closePair
                subscriptionRound env back { p with frontend := frontend, backendOut := sock }
                  ⟨if callback.isSome then [(topic.body, data.body)] else [], out ++ out', []⟩
      else subscriptionRound env back p ⟨[], [], []⟩

/-- One round of either listener loop. -/
def listenRound (hasCallback : Bool) (recv : σ → Option (Frame Bytes × σ)) (env : ListenEnv)
    (sock : σ) : Traced BusMsg (Option Heard × σ) :=
  match env.poll with
  | some true => do
      zmqMsgInit .topic
      zmqMsgInit .data
      let (topic, sock) ← zmqMsgRecvInto .topic recv env.okTopic sock
      match topic with
      | none => do
          closePair
          pure (none, sock)
      | some topic => do
          let (data, sock) ← zmqMsgRecvInto .data recv env.okData sock
          match data with
          | none => do
              closePair
              pure (none, sock)
          | some data => do
              readPair hasCallback
              closePair
              pure (some ⟨topic.body, data.body, hasCallback⟩, sock)
  | _ => pure (none, sock)

def eDeviceListenRound (device : EDevice) (recv : σ → Option (Frame Bytes × σ)) (env : ListenEnv)
    (sock : σ) : Traced BusMsg (Option Heard × σ) :=
  if device.running then listenRound true recv env sock else .await none

def luaListenRound (ud : LuaEDevice) (recv : σ → Option (Frame Bytes × σ)) (env : ListenEnv)
    (sock : σ) : Traced BusMsg (Option Heard × σ) :=
  if ud.device.running then
    listenRound (ud.callbackRef.isSome && ud.L.isSome) recv env sock
  else .await none

/-! ### The rounds have the values of before -/

@[simp] theorem zmqMsgSend_value (v : BusMsg) (sock : OutSocket) (body : Bytes)
    (sndmore ok : Bool) :
    (zmqMsgSend v sock body sndmore ok).value = some (zmqSend sock body sndmore ok) := rfl

@[simp] theorem zmqMsgRecvInto_value (v : BusMsg) (recv : σ → Option (Frame Bytes × σ)) (ok : Bool)
    (sock : σ) : (zmqMsgRecvInto v recv ok sock).value = zmqMsgRecv recv ok sock := rfl

@[simp] theorem recvMsg_value (v : BusMsg) (recv : σ → Option (Frame Bytes × σ)) (ok : Bool)
    (sock : σ) : (recvMsg v recv ok sock).value = zmqMsgRecv recv ok sock := rfl

@[simp] theorem zmqMsgInit_value (v : BusMsg) : (zmqMsgInit v).value = some () := rfl

@[simp] theorem zmqMsgClose_value (v : BusMsg) : (zmqMsgClose v).value = some () := rfl

@[simp] theorem readPair_value (hasCallback : Bool) : (readPair hasCallback).value = some () := by
  cases hasCallback <;> rfl

@[simp] theorem closePair_value : closePair.value = some () := rfl

theorem subscriptionRound_value (env : ProxyEnv) (pollin : Bool) (p : ProxySockets σ)
    (out : ProxyOut) :
    (subscriptionRound env pollin p out).value = forwardSubscription env pollin p out := by
  unfold subscriptionRound forwardSubscription
  split
  · rw [Traced.bind_value, recvMsg_value]
    apply Option.bind_congr
    rintro ⟨msg, backend⟩ -
    cases msg with
    | none => rfl
    | some msg => rfl
  · rfl

/-- A round of the proxy loop has the value of `eProxyIteration`. -/
theorem proxyRound_value (recv : σ → Option (Frame Bytes × σ)) (callback : Option Addr)
    (env : ProxyEnv) (p : ProxySockets σ) :
    (proxyRound recv callback env p).value = eProxyIteration recv callback env p := by
  unfold proxyRound eProxyIteration
  rcases env.poll with - | ⟨front, back⟩
  · rfl
  cases front with
  | false => exact subscriptionRound_value env back p _
  | true =>
      simp only [if_true, Traced.bind_value, recvMsg_value, recvPair, Option.bind_eq_bind]
      rw [Option.bind_assoc]
      apply Option.bind_congr
      rintro ⟨topic, frontend⟩ -
      cases topic with
      | none => rfl
      | some topic =>
          simp only [Traced.bind_value, recvMsg_value]
          rw [Option.bind_assoc]
          apply Option.bind_congr
          rintro ⟨data, frontend⟩ -
          cases data with
          | none => rfl
          | some data =>
              cases callback <;> simp [subscriptionRound_value]

/-- A round of either listener loop has the value of `listenIteration`. -/
theorem listenRound_value (hasCallback : Bool) (recv : σ → Option (Frame Bytes × σ))
    (env : ListenEnv) (sock : σ) :
    (listenRound hasCallback recv env sock).value = listenIteration hasCallback recv env sock := by
  unfold listenRound listenIteration
  rcases env.poll with - | - | -
  · rfl
  · rfl
  simp only [Traced.bind_value, zmqMsgInit_value, zmqMsgRecvInto_value, recvPair,
    Option.bind_eq_bind, Option.bind_some]
  rw [Option.bind_assoc]
  apply Option.bind_congr
  rintro ⟨topic, sock⟩ -
  cases topic with
  | none => rfl
  | some topic =>
      simp only [Traced.bind_value, zmqMsgRecvInto_value]
      rw [Option.bind_assoc]
      apply Option.bind_congr
      rintro ⟨data, sock⟩ -
      cases data with
      | none => rfl
      | some data => cases hasCallback <;> rfl

theorem eDeviceListenRound_value (d : EDevice) (recv : σ → Option (Frame Bytes × σ))
    (env : ListenEnv) (sock : σ) :
    (eDeviceListenRound d recv env sock).value = eDeviceListenIteration d recv env sock := by
  unfold eDeviceListenRound eDeviceListenIteration
  split
  · exact listenRound_value true recv env sock
  · rfl

theorem luaListenRound_value (ud : LuaEDevice) (recv : σ → Option (Frame Bytes × σ))
    (env : ListenEnv) (sock : σ) :
    (luaListenRound ud recv env sock).value = luaListenIteration ud recv env sock := by
  unfold luaListenRound luaListenIteration
  split
  · exact listenRound_value _ recv env sock
  · rfl

/-! ### What a round leaves open -/

/-- A receive into a fresh variable. -/
theorem recvMsg_leads {α : Type} {v : BusMsg} {recv : σ → Option (Frame Bytes × σ)} {ok : Bool}
    {sock : σ} {held : List BusMsg} {f : Option (Frame Bytes) × σ → Traced BusMsg α}
    {post : α → List BusMsg → Prop} (hnew : v ∉ held)
    (hf : ∀ r, zmqMsgRecv recv ok sock = some r → Leads (v :: held) (f r) post) :
    Leads held (recvMsg v recv ok sock >>= f) post := by
  have hrecv : Leads held (recvMsg v recv ok sock)
      fun r held' => held' = v :: held ∧ zmqMsgRecv recv ok sock = some r :=
    .init hnew (.use List.mem_cons_self (.await fun _ hr => ⟨rfl, hr⟩))
  refine hrecv.bind ?_
  rintro r _ ⟨rfl, hr⟩
  exact hf r hr

theorem closePair_leads : Leads [.data, .topic] closePair fun _ held => held = [] :=
  .close (by decide) ⟨[], rfl, fun _ _ => rfl⟩

theorem readPair_leads (hasCallback : Bool) :
    Leads [.data, .topic] (readPair hasCallback) fun _ held => held = [.data, .topic] := by
  cases hasCallback with
  | false => exact .pure rfl
  | true => exact ⟨_, rfl, fun _ _ => rfl⟩

theorem zmqMsgSend_leads {v : BusMsg} {held : List BusMsg} (hheld : v ∈ held) (sock : OutSocket)
    (body : Bytes) (sndmore ok : Bool) :
    Leads held (zmqMsgSend v sock body sndmore ok) fun _ held' => held' = held :=
  .use hheld (.pure rfl)

theorem zmqMsgRecv_ok {recv : σ → Option (Frame Bytes × σ)} {ok : Bool} {sock : σ}
    {r : Option (Frame Bytes) × σ} (hrecv : zmqMsgRecv recv ok sock = some r) :
    r.1.isSome = ok := by
  cases ok with
  | false => cases hrecv; rfl
  | true =>
      obtain ⟨x, -, rfl⟩ := Option.map_eq_some_iff.mp hrecv
      rfl

/-- The subscription branch closes its message, unless the receive into it fails. -/
theorem subscriptionRound_leads (env : ProxyEnv) (pollin : Bool) (p : ProxySockets σ)
    (out : ProxyOut) :
    Leads [] (subscriptionRound env pollin p out)
      fun _ held => held = if pollin && !env.okSub then [.msg] else [] := by
  cases pollin with
  | false => exact .pure rfl
  | true =>
      refine recvMsg_leads List.not_mem_nil ?_
      rintro ⟨msg, backend⟩ hrecv
      have hok := zmqMsgRecv_ok hrecv
      cases msg with
      | none =>
          refine .pure ?_
          rw [← hok]
          rfl
      | some msg =>
          refine (zmqMsgSend_leads List.mem_cons_self ..).bind ?_
          rintro _ _ rfl
          refine .close List.mem_cons_self (.pure ?_)
          rw [← hok]
          rfl

/-- The message of the subscription branch stays open where the receive into it fails. -/
def ProxyEnv.leftOpen (env : ProxyEnv) : List BusMsg :=
  match env.poll with
  | none => []
  | some (front, back) => if back && (!front || env.okData) && !env.okSub then [.msg] else []

/-- A round of the proxy loop follows the protocol unless the first receive fails. -/
theorem proxyRound_leads (recv : σ → Option (Frame Bytes × σ)) (callback : Option Addr)
    {env : ProxyEnv} (p : ProxySockets σ)
    (htopic : ∀ back, env.poll = some (true, back) → env.okTopic = true) :
    Leads [] (proxyRound recv callback env p) fun _ held => held = env.leftOpen := by
  unfold proxyRound ProxyEnv.leftOpen
  rcases hpoll : env.poll with - | ⟨front, back⟩
  · exact .pure rfl
  cases front with
  | false => simpa using subscriptionRound_leads env back p ⟨[], [], []⟩
  | true =>
      refine recvMsg_leads List.not_mem_nil ?_
      rintro ⟨topic, frontend⟩ hrecv
      have hok := (zmqMsgRecv_ok hrecv).trans (htopic back hpoll)
      obtain ⟨topic, rfl⟩ := Option.isSome_iff_exists.mp hok
      refine recvMsg_leads (by decide) ?_
      rintro ⟨data, frontend⟩ hrecv'
      have hok' := zmqMsgRecv_ok hrecv'
      cases data with
      | none =>
          refine .bind closePair_leads ?_
          rintro _ _ rfl
          refine .pure ?_
          rw [← hok']
          simp
      | some data =>
          refine (readPair_leads callback.isSome).bind ?_
          rintro _ _ rfl
          refine (zmqMsgSend_leads (by decide) ..).bind ?_
          rintro _ _ rfl
          refine (zmqMsgSend_leads (by decide) ..).bind ?_
          rintro _ _ rfl
          refine closePair_leads.bind ?_
          rintro _ _ rfl
          rw [← hok']
          simpa using subscriptionRound_leads env back _ _

/-- When the first receive fails, the message of the second one is closed without having been
initialised. -/
theorem proxyRound_topic_fails (recv : σ → Option (Frame Bytes × σ)) (callback : Option Addr)
    {env : ProxyEnv} (p : ProxySockets σ) {back : Bool} (hpoll : env.poll = some (true, back))
    (htopic : env.okTopic = false) :
    track [] (proxyRound recv callback env p).ops = none ∧
      (proxyRound recv callback env p).value.isSome := by
  unfold proxyRound
  rw [hpoll, htopic]
  exact ⟨rfl, rfl⟩

theorem ProxyEnv.topic_cases (env : ProxyEnv) :
    (∀ back, env.poll = some (true, back) → env.okTopic = true) ∨
      ∃ back, env.poll = some (true, back) ∧ env.okTopic = false := by
  by_cases htopic : ∀ back, env.poll = some (true, back) → env.okTopic = true
  · exact Or.inl htopic
  · rw [not_forall] at htopic
    obtain ⟨back, hback⟩ := htopic
    rw [Classical.not_imp, Bool.not_eq_true] at hback
    exact Or.inr ⟨back, hback⟩

/-- A round of a listener loop closes what it initialises, whatever fails. -/
theorem listenRound_leads (hasCallback : Bool) (recv : σ → Option (Frame Bytes × σ))
    (env : ListenEnv) (sock : σ) :
    Leads [] (listenRound hasCallback recv env sock) fun _ held => held = [] := by
  unfold listenRound
  split
  · refine .init List.not_mem_nil (.init (by decide) ?_)
    have hrecv : ∀ v ∈ [BusMsg.data, .topic], ∀ ok (sock : σ), Leads [.data, .topic]
        (zmqMsgRecvInto v recv ok sock) fun _ held => held = [.data, .topic] :=
      fun v hv ok sock => .use hv (.await fun _ _ => rfl)
    refine (hrecv .topic (by decide) ..).bind ?_
    rintro ⟨topic, sock⟩ _ rfl
    cases topic with
    | none =>
        refine closePair_leads.bind ?_
        rintro _ _ rfl
        exact .pure rfl
    | some topic =>
        refine (hrecv .data (by decide) ..).bind ?_
        rintro ⟨data, sock⟩ _ rfl
        cases data with
        | none =>
            refine closePair_leads.bind ?_
            rintro _ _ rfl
            exact .pure rfl
        | some data =>
            refine (readPair_leads hasCallback).bind ?_
            rintro _ _ rfl
            refine closePair_leads.bind ?_
            rintro _ _ rfl
            exact .pure rfl
  · exact .pure rfl

/-! ### Runs of the loops -/

/-- A round of one of the three loops, on what its sockets hold when it begins. -/
inductive MsgRound (σ : Type) where
  | proxy (callback : Option Addr) (env : ProxyEnv) (p : ProxySockets σ)
  | device (d : EDevice) (env : ListenEnv) (sock : σ)
  | lua (ud : LuaEDevice) (env : ListenEnv) (sock : σ)

namespace MsgRound

def ops (recv : σ → Option (Frame Bytes × σ)) : MsgRound σ → List (Op BusMsg)
  | .proxy callback env p => (proxyRound recv callback env p).ops
  | .device d env sock => (eDeviceListenRound d recv env sock).ops
  | .lua ud env sock => (luaListenRound ud recv env sock).ops

/-- The round comes to its end; otherwise it waits in a receive, or the loop has ended. -/
def Completes (recv : σ → Option (Frame Bytes × σ)) : MsgRound σ → Prop
  | .proxy callback env p => (proxyRound recv callback env p).value.isSome
  | .device d env sock => (eDeviceListenRound d recv env sock).value.isSome
  | .lua ud env sock => (luaListenRound ud recv env sock).value.isSome

/-- No receive of the proxy fails that is the first one from the frontend or the one from the
backend. -/
def Spares : MsgRound σ → Prop
  | .proxy _ env _ => ∀ front back, env.poll = some (front, back) →
      (front = true → env.okTopic = true) ∧
        (back = true → (front = true → env.okData = true) → env.okSub = true)
  | _ => True

/-- The rounds close all messages, one after another, and follow the protocol at every moment of
a round that waits after them. -/
structure Obey (recv : σ → Option (Frame Bytes × σ)) (rounds : List (MsgRound σ)) : Prop where
  closed : Closed (rounds.map (ops recv))
  waiting : ∀ r : MsgRound σ, ¬r.Completes recv → ∀ ops',
    ops' <+: (rounds.map (ops recv)).flatten ++ r.ops recv → (track [] ops').isSome

variable {recv : σ → Option (Frame Bytes × σ)} {r : MsgRound σ}

theorem leads_listen {running hasCallback : Bool} {env : ListenEnv} {sock : σ} :
    Leads [] (if running then listenRound hasCallback recv env sock else .await none)
      fun _ held => held = [] := by
  split
  · exact listenRound_leads hasCallback recv env sock
  · exact .await fun _ h => (nomatch h)

theorem leftOpen_nil_iff {env : ProxyEnv}
    (htopic : ∀ back, env.poll = some (true, back) → env.okTopic = true) :
    env.leftOpen = [] ↔ ∀ front back, env.poll = some (front, back) →
      (front = true → env.okTopic = true) ∧
        (back = true → (front = true → env.okData = true) → env.okSub = true) := by
  unfold ProxyEnv.leftOpen
  rcases hpoll : env.poll with - | ⟨front, back⟩
  · simp
  · have hfront : front = true → env.okTopic = true := by
      rintro rfl
      exact htopic back hpoll
    simp only [Option.some.injEq, Prod.mk.injEq, and_imp]
    cases front <;> cases back <;> cases env.okData <;> cases env.okSub <;> simp_all

/-- A round that completes closes all messages exactly when it spares them. -/
theorem closes_iff (hdone : r.Completes recv) : track [] (r.ops recv) = some [] ↔ r.Spares := by
  have hlistens : ∀ {x : Traced BusMsg (Option Heard × σ)},
      Leads [] x (fun _ held => held = []) → x.value.isSome → track [] x.ops = some [] := by
    rintro x ⟨held, htrack, hend⟩ hvalue
    obtain ⟨a, ha⟩ := Option.isSome_iff_exists.mp hvalue
    rw [htrack, hend a ha]
  cases r with
  | proxy callback env p =>
      rcases env.topic_cases with htopic | ⟨back, hpoll, hfails⟩
      · obtain ⟨held, htrack, hend⟩ := proxyRound_leads recv callback p htopic
        obtain ⟨a, ha⟩ := Option.isSome_iff_exists.mp hdone
        rw [ops, htrack, hend a ha, Option.some.injEq]
        exact leftOpen_nil_iff htopic
      · rw [ops, (proxyRound_topic_fails recv callback p hpoll hfails).1]
        refine ⟨fun h => (nomatch h), fun hspares => ?_⟩
        rw [(hspares true back hpoll).1 rfl] at hfails
        cases hfails
  | device d env sock => exact iff_of_true (hlistens leads_listen hdone) trivial
  | lua ud env sock => exact iff_of_true (hlistens leads_listen hdone) trivial

/-- A round that waits has followed the protocol. -/
theorem waits (hwait : ¬r.Completes recv) : (track [] (r.ops recv)).isSome := by
  cases r with
  | proxy callback env p =>
      rcases env.topic_cases with htopic | ⟨back, hpoll, hfails⟩
      · obtain ⟨held, htrack, -⟩ := proxyRound_leads recv callback p htopic
        rw [ops, htrack]
        rfl
      · exact absurd (proxyRound_topic_fails recv callback p hpoll hfails).2 hwait
  | device d env sock =>
      have hleads : Leads [] (eDeviceListenRound d recv env sock) fun _ held => held = [] :=
        leads_listen
      exact Option.isSome_iff_exists.mpr ⟨_, hleads.choose_spec.1⟩
  | lua ud env sock =>
      have hleads : Leads [] (luaListenRound ud recv env sock) fun _ held => held = [] :=
        leads_listen
      exact Option.isSome_iff_exists.mpr ⟨_, hleads.choose_spec.1⟩

/-- **Message handles.** However the receives and sends of its rounds fail, a loop initialises each
message before it uses it and closes it once before it is used anew exactly when every round spares
the messages; the rounds of the listener loops always do. -/
theorem message_handles_iff (rounds : List (MsgRound σ)) (hdone : ∀ r ∈ rounds, r.Completes recv) :
    Obey recv rounds ↔ ∀ r ∈ rounds, r.Spares := by
  have hclosed : Closed (rounds.map (ops recv)) ↔ ∀ r ∈ rounds, r.Spares := by
    rw [closed_iff, List.forall_mem_map]
    exact forall₂_congr fun r hr => closes_iff (hdone r hr)
  constructor
  · intro hobey
    exact hclosed.mp hobey.closed
  · intro hspares
    refine ⟨hclosed.mpr hspares, fun r hwait ops' hpre => track_prefix ?_ hpre⟩
    have hall := hclosed.mpr hspares (rounds.map (ops recv)).length
    rw [List.take_length] at hall
    rw [track_append, hall]
    exact waits hwait

/-- A proxy with nothing on its sockets, after a poll. -/
def idleProxy (poll : Option (Bool × Bool)) (okTopic okSub : Bool) : MsgRound (List (Frame Bytes)) :=
  .proxy none ⟨poll, okTopic, true, true, true, okSub, true⟩ ⟨[], ⟨[]⟩, [], ⟨[]⟩⟩

/-- Rounds in which every message arrives and goes out, but for the second frame of the last one. -/
def busyRounds : List (MsgRound (List (Frame Bytes))) :=
  [.proxy (some 0) (.lossless (some (true, true)))
      ⟨frames [[1], [2, 3]], ⟨[]⟩, [⟨[1, 1], false⟩], ⟨[]⟩⟩,
    .device sampleListener ⟨some true, true, true⟩ (frames [[1], [2, 3]]),
    .lua ⟨sampleListener, some 0, some 0⟩ ⟨some true, true, true⟩ (frames [[1], [2, 3]]),
    .lua ⟨sampleListener, some 0, some 0⟩ ⟨some true, true, false⟩ (frames [[4], [5]])]

/-- They follow the protocol. The operations are those of the last round, whose second receive fails,
and of the first, which lets a message through and takes a subscription in. -/
theorem message_handles_iff_busy :
    Obey recvFrame busyRounds ∧
      (busyRounds.getLast?.map (ops recvFrame)) =
        some [.init .topic, .init .data, .use .topic, .use .data, .close .topic, .close .data] ∧
      (busyRounds.head?.map (ops recvFrame)) =
        some [.init .topic, .use .topic, .init .data, .use .data, .use .topic, .use .topic, .use .data,
          .use .data, .use .topic, .use .data, .close .topic, .close .data, .init .msg, .use .msg,
          .use .msg, .close .msg] := by
  have hdone : ∀ r ∈ busyRounds, r.Completes recvFrame := by
    simp only [busyRounds, List.forall_mem_cons, List.not_mem_nil, false_imp_iff, implies_true, and_true]
    exact ⟨rfl, rfl, rfl, rfl⟩
  refine ⟨(message_handles_iff busyRounds hdone).mpr ?_, rfl, rfl⟩
  simp [busyRounds, Spares, ProxyEnv.lossless]

/-- A failed receive from the frontend closes a message that was not initialised; one from the
backend leaves a message open, and the next round initialises it again. -/
theorem message_handles_counterexample :
    ((idleProxy (some (true, false)) false true).Completes recvFrame ∧
        (idleProxy (some (true, false)) false true).ops recvFrame =
          [.init .topic, .use .topic, .close .topic, .close .data] ∧
        track [] ((idleProxy (some (true, false)) false true).ops recvFrame) = none) ∧
      (idleProxy (some (false, true)) true false).Completes recvFrame ∧
        (idleProxy (some (false, true)) true false).ops recvFrame = [.init .msg, .use .msg] ∧
        track [] ((idleProxy (some (false, true)) true false).ops recvFrame ++
          (idleProxy (some (false, true)) true false).ops recvFrame) = none :=
  ⟨⟨rfl, rfl, rfl⟩, rfl, rfl, rfl⟩

end MsgRound

end Rounds

end LibEzmb
