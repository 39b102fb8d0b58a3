import LibEzmb.BaseHeap
import LibEzmb.BusSocket

/-! The device of e_device.c: creation, with its two topics and its subscription, and sending. -/

open CHeap CBytes Multipart

namespace LibEzmb

/-- `e_device_type_t`. -/
inductive EDeviceType where
  | collector
  | monitor
  deriving DecidableEq, Repr

/-- `e_device_t`; `southSub` is what `south_sock` subscribes to, `cb` the callback pointer. -/
structure EDevice where
  type : EDeviceType
  southSub : List CStr
  uid : CStr
  southUrl : CStr
  northUrl : CStr
  southTopic : CStr
  northTopic : CStr
  cb : Option Addr
  running : Bool
  deriving DecidableEq

/-- The bytes of an ASCII string. -/
def ascii (s : List Char) : Bytes := s.map fun c => UInt8.ofNat c.toNat

/-- `"_south_topic"`. -/
def southSuffix : CStr where
  bytes := ascii ['_', 's', 'o', 'u', 't', 'h', '_', 't', 'o', 'p', 'i', 'c']
  nulFree := by decide

/-- `"_north_topic"`. -/
def northSuffix : CStr where
  bytes := ascii ['_', 'n', 'o', 'r', 't', 'h', '_', 't', 'o', 'p', 'i', 'c']
  nulFree := by decide

/-- `"ipc:///tmp/ezmb_south.ipc"`. -/
def EZMB_DEFAULT_SOUTH_URL : CStr where
  bytes := ascii ['i', 'p', 'c', ':', '/', '/', '/', 't', 'm', 'p', '/', 'e', 'z', 'm', 'b', '_', 's',
    'o', 'u', 't', 'h', '.', 'i', 'p', 'c']
  nulFree := by decide

/-- `"ipc:///tmp/ezmb_north.ipc"`. -/
def EZMB_DEFAULT_NORTH_URL : CStr where
  bytes := ascii ['i', 'p', 'c', ':', '/', '/', '/', 't', 'm', 'p', '/', 'e', 'z', 'm', 'b', '_', 'n',
    'o', 'r', 't', 'h', '.', 'i', 'p', 'c']
  nulFree := by decide

/-- `sizeof(topic_tmp)`. -/
def topicSize : Nat := 128

/-- `snprintf(topic_tmp, sizeof(topic_tmp), "%s" suffix, uid)`. -/
def formatTopic (uid suffix : CStr) : CStr := (uid.append suffix).snprintf topicSize

/-- What the calls of `e_common_create` that can fail give: `calloc`, `zmq_ctx_new`, the two
`zmq_socket` calls and the two `zmq_connect` calls. -/
structure CreateEnv where
  calloc : Bool
  ctx : Bool
  southSock : Bool
  northSock : Bool
  southConnect : Bool
  northConnect : Bool
  deriving DecidableEq, Repr

/-- Every call in the making of the device succeeds. -/
def CreateEnv.Succeeds (env : CreateEnv) : Prop :=
  env.calloc = true ∧ env.ctx = true ∧ env.southSock = true ∧ env.northSock = true ∧
    env.southConnect = true ∧ env.northConnect = true

def eCommonCreate (env : CreateEnv) (uid southUrl northUrl : Option CStr) (cb : Option Addr)
    (type : EDeviceType) : Option EDevice :=
  match uid, southUrl, northUrl with
  | some uid, some southUrl, some northUrl =>
      if !env.calloc || !env.ctx || !env.southSock || !env.northSock || !env.southConnect ||
          !env.northConnect then none
      else
        let southTopic := formatTopic uid southSuffix
        let northTopic := formatTopic uid northSuffix
        some {
          type := type
          southSub := match type with
            | .collector => [southTopic]
            | .monitor => [northTopic]
          uid := uid
          southUrl := southUrl
          northUrl := northUrl
          southTopic := southTopic
          northTopic := northTopic
          cb := cb
          running := false }
  | _, _, _ => none

/-- A device is made exactly when all the calls succeed. -/
theorem eCommonCreate_isSome_iff (env : CreateEnv) (uid southUrl northUrl : CStr)
    (cb : Option Addr) (type : EDeviceType) :
    (eCommonCreate env (some uid) (some southUrl) (some northUrl) cb type).isSome ↔
      env.Succeeds := by
  obtain ⟨calloc, ctx, southSock, northSock, southConnect, northConnect⟩ := env
  rw [eCommonCreate, CreateEnv.Succeeds]
  split
  · next hfails =>
      refine iff_of_false (by simp) ?_
      rintro ⟨rfl, rfl, rfl, rfl, rfl, rfl⟩
      cases hfails
  · next hgoes =>
      refine iff_of_true rfl ?_
      simpa [and_assoc] using hgoes

/-- The suffix of the topic a device of this type subscribes to. -/
def EDeviceType.subSuffix : EDeviceType → CStr
  | .collector => southSuffix
  | .monitor => northSuffix

/-- The suffix of the topic a device of this type sends under. -/
def EDeviceType.sendSuffix : EDeviceType → CStr
  | .collector => northSuffix
  | .monitor => southSuffix

/-- The topic a device subscribes to. -/
def EDevice.subTopic (d : EDevice) : CStr :=
  match d.type with
  | .collector => d.southTopic
  | .monitor => d.northTopic

/-- The topic `e_common_send` puts in front of a message. -/
def EDevice.sendTopic (d : EDevice) : CStr :=
  match d.type with
  | .collector => d.northTopic
  | .monitor => d.southTopic

/-- A device that `e_common_create` returned. -/
def EDevice.Created (d : EDevice) : Prop :=
  ∃ env uid southUrl northUrl cb type, eCommonCreate env uid southUrl northUrl cb type = some d

/-- Whatever the environment did, a created device has these topics and this subscription. -/
theorem eCommonCreate_spec {env : CreateEnv} {uid southUrl northUrl : Option CStr}
    {cb : Option Addr} {type : EDeviceType} {d : EDevice}
    (hcreate : eCommonCreate env uid southUrl northUrl cb type = some d) :
    uid = some d.uid ∧ d.type = type ∧ d.cb = cb ∧ d.southSub = [d.subTopic] ∧
      d.subTopic = formatTopic d.uid type.subSuffix ∧
      d.sendTopic = formatTopic d.uid type.sendSuffix := by
  unfold eCommonCreate at hcreate
  split at hcreate
  · split at hcreate
    · cases hcreate
    · cases hcreate
      cases type <;> exact ⟨rfl, rfl, rfl, rfl, rfl, rfl⟩
  · cases hcreate

/-- The device `e_common_create` returns when nothing fails. -/
def freshDevice (uid : CStr) (type : EDeviceType) (cb : Option Addr) : EDevice where
  type := type
  southSub := [formatTopic uid type.subSuffix]
  uid := uid
  southUrl := ⟨[], List.not_mem_nil⟩
  northUrl := ⟨[], List.not_mem_nil⟩
  southTopic := formatTopic uid southSuffix
  northTopic := formatTopic uid northSuffix
  cb := cb
  running := false

theorem freshDevice_created (uid : CStr) (type : EDeviceType) (cb : Option Addr) :
    (freshDevice uid type cb).Created := by
  refine ⟨⟨true, true, true, true, true, true⟩, some uid, some ⟨[], List.not_mem_nil⟩,
    some ⟨[], List.not_mem_nil⟩, cb, type, ?_⟩
  cases type <;> rfl

/-- `e_common_send` on the north socket, with whether each of its two sends succeeds: the socket it
leaves, its result and the messages that left the socket. -/
def eCommonSend (device : Option EDevice) (msg : Option Bytes) (okTopic okPayload : Bool)
    (sock : OutSocket) : OutSocket × Int × List Msg :=
  match device, msg with
  | some device, some msg =>
      if msg.length = 0 then (sock, -1, [])
      else
        let (sock, rc, out) := zmqSend sock device.sendTopic.bytes true okTopic
        if rc < 0 then (sock, -1, out)
        else
          let (sock, rc, out') := zmqSend sock msg false okPayload
          if rc < 0 then (sock, -1, out ++ out')
          else (sock, rc, out ++ out')
  | _, _ => (sock, -1, [])

/-- The message's first frame starts with the given bytes. -/
def topicStartsWith (sub : CStr) (m : Msg) : Bool :=
  match m with
  | [] => false
  | topic :: _ => sub.bytes.isPrefixOf topic

/-- A subscriber gets a message when a subscribed string begins its first frame. -/
def matchesSub (subs : List CStr) (m : Msg) : Bool := subs.any fun sub => topicStartsWith sub m

section Send

variable (d : EDevice) (sock : OutSocket)

/-- What a send gets through: nothing, the topic frame only, or the message. -/
theorem eCommonSend_some {msg : Bytes} (hmsg : msg ≠ []) (okTopic okPayload : Bool) :
    eCommonSend (some d) (some msg) okTopic okPayload sock =
      if !okTopic then (sock, (-1 : Int), [])
      else if !okPayload then (⟨sock.pending ++ [d.sendTopic.bytes]⟩, (-1 : Int), [])
      else (⟨[]⟩, ((min msg.length intMax : Nat) : Int),
        [sock.pending ++ [d.sendTopic.bytes, msg]]) := by
  have hlen : msg.length ≠ 0 := fun h => hmsg (List.eq_nil_of_length_eq_zero h)
  have hpos (n : Nat) : ¬(n : Int) < 0 := Int.not_lt.mpr (Int.natCast_nonneg n)
  rw [eCommonSend, if_neg hlen]
  cases okTopic with
  | false => rfl
  | true =>
      simp only [zmqSend_more, hpos, if_false]
      cases okPayload <;> simp [hpos]

theorem eCommonSend_refused {msg : Option Bytes} (hmsg : msg = none ∨ msg = some [])
    (okTopic okPayload : Bool) :
    eCommonSend (some d) msg okTopic okPayload sock = (sock, (-1 : Int), []) := by
  rcases hmsg with rfl | rfl <;> rfl

end Send

end LibEzmb
