import LibEzmb.BaseBytes
import LibEzmb.BaseFrames

/-! The two ends of a ZeroMQ socket as the code uses them. A frame sent with `ZMQ_SNDMORE` stays
pending and begins the message completed by the next frame sent without it; a receive takes the next
frame, waits when there is none, and leaves the socket alone when it fails. -/

open CBytes Multipart

namespace LibEzmb

/-- A multipart message. -/
abbrev Msg := List Bytes

/-- The frames accepted so far for the message under way. -/
structure OutSocket where
  pending : List Bytes
  deriving DecidableEq, Repr

/-- The largest `int`. -/
def intMax : Nat := 0x7fffffff

/-- `zmq_send`, with whether it succeeds. The last component is the message it completes, if any. -/
def zmqSend (sock : OutSocket) (body : Bytes) (sndmore ok : Bool) : OutSocket × Int × List Msg :=
  if !ok then (sock, -1, [])
  else if sndmore then (⟨sock.pending ++ [body]⟩, (min body.length intMax : Nat), [])
  else (⟨[]⟩, (min body.length intMax : Nat), [sock.pending ++ [body]])

@[simp] theorem zmqSend_more (sock : OutSocket) (body : Bytes) :
    zmqSend sock body true true =
      (⟨sock.pending ++ [body]⟩, ((min body.length intMax : Nat) : Int), []) := rfl

@[simp] theorem zmqSend_last (sock : OutSocket) (body : Bytes) :
    zmqSend sock body false true =
      (⟨[]⟩, ((min body.length intMax : Nat) : Int), [sock.pending ++ [body]]) := rfl

@[simp] theorem zmqSend_fails (sock : OutSocket) (body : Bytes) (sndmore : Bool) :
    zmqSend sock body sndmore false = (sock, (-1 : Int), []) := rfl

/-- `zmq_msg_recv`, with whether it succeeds: `none` when it waits, else the frame, if it got one. -/
def zmqMsgRecv {σ : Type} (recv : σ → Option (Frame Bytes × σ)) (ok : Bool) (sock : σ) :
    Option (Option (Frame Bytes) × σ) :=
  if ok then (recv sock).map fun r => (some r.1, r.2) else some (none, sock)

/-- The socket that is one queue of frames. -/
def recvFrame : List (Frame Bytes) → Option (Frame Bytes × List (Frame Bytes))
  | [] => none
  | f :: fs => some (f, fs)

/-- Two frames received off a stream of messages of two frames are its first message. -/
theorem recvFrame_stream {msgs : List Msg} (hpairs : ∀ m ∈ msgs, m.length = 2)
    {f g : Frame Bytes} {mid fs : List (Frame Bytes)} (hf : recvFrame (stream msgs) = some (f, mid))
    (hg : recvFrame mid = some (g, fs)) :
    ∃ rest, msgs = [f.body, g.body] :: rest ∧ f.more = true ∧ g.more = false ∧
      fs = stream rest := by
  cases msgs with
  | nil => cases hf
  | cons m rest =>
      obtain ⟨a, b, rfl⟩ := eq_pair_of_length (hpairs m List.mem_cons_self)
      rw [stream_cons, frames_pair] at hf
      cases hf
      cases hg
      exact ⟨rest, rfl, rfl, rfl, rfl⟩

section Pair

variable {σ : Type}

/-- The two receives the proxy and the listeners make one after another: a failure of either drops
what was received. -/
def recvPair (recv : σ → Option (Frame Bytes × σ)) (okTopic okData : Bool) (sock : σ) :
    Option (Option (Bytes × Bytes) × σ) := do
  let (topic, sock) ← zmqMsgRecv recv okTopic sock
  match topic with
  | none => some (none, sock)
  | some topic => do
      let (data, sock) ← zmqMsgRecv recv okData sock
      match data with
      | none => some (none, sock)
      | some data => some (some (topic.body, data.body), sock)

theorem recvPair_ok {recv : σ → Option (Frame Bytes × σ)} {sock sock' : σ}
    {r : Option (Bytes × Bytes)} (hrecv : recvPair recv true true sock = some (r, sock')) :
    ∃ f g mid, recv sock = some (f, mid) ∧ recv mid = some (g, sock') ∧ r = some (f.body, g.body) := by
  simp only [recvPair, zmqMsgRecv, if_true] at hrecv
  cases hfirst : recv sock with
  | none => simp [hfirst] at hrecv
  | some fst =>
      cases hsecond : recv fst.2 with
      | none => simp [hfirst, hsecond] at hrecv
      | some snd =>
          simp only [hfirst, hsecond, Option.map_some, Option.bind_eq_bind, Option.bind_some,
            Option.some.injEq, Prod.mk.injEq] at hrecv
          obtain ⟨rfl, rfl⟩ := hrecv
          exact ⟨fst.1, snd.1, fst.2, rfl, hsecond, rfl⟩

theorem recvPair_topic_fails (recv : σ → Option (Frame Bytes × σ)) (okData : Bool) (sock : σ) :
    recvPair recv false okData sock = some (none, sock) := rfl

end Pair

end LibEzmb
