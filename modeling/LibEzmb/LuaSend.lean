import LibEzmb.BusSend

/-! `l_device_send` of e_device_lua.c over `e_common_send`: what a script is told of its messages. -/

open CBytes Multipart

namespace LibEzmb

/-- `l_device_send`, with what it pushes: `lua_pushboolean(L, ret == 0)`. -/
def lDeviceSend (device : Option EDevice) (msg : Bytes) (okTopic okPayload : Bool)
    (sock : OutSocket) : OutSocket × Bool × List Msg :=
  let (sock, ret, out) := eCommonSend device (some msg) okTopic okPayload sock
  (sock, decide (ret = 0), out)

/-- One of the messages that left the socket ends in the topic of the device and the payload. Frames
of earlier calls may come before them. -/
def Completes (device : Option EDevice) (msg : Bytes) (out : List Msg) : Prop :=
  ∃ d ∈ device, ∃ m ∈ out, [d.sendTopic.bytes, msg] <:+ m

/-- The script gets true exactly when the call has put its complete message on the socket. -/
def SendTold (device : Option EDevice) (msg : Bytes) (okTopic okPayload : Bool)
    (sock : OutSocket) : Prop :=
  (lDeviceSend device msg okTopic okPayload sock).2.1 = true ↔
    Completes device msg (lDeviceSend device msg okTopic okPayload sock).2.2

section Send

variable (device : Option EDevice) (msg : Bytes) (okTopic okPayload : Bool) (sock : OutSocket)

/-- `e_common_send` fails and completes nothing, or completes the message and returns the number of
its bytes, of which there is at least one. -/
theorem eCommonSend_result :
    (¬(device.isSome ∧ msg ≠ [] ∧ okTopic = true ∧ okPayload = true) ∧
      (eCommonSend device (some msg) okTopic okPayload sock).2 = ((-1 : Int), [])) ∨
    ∃ d n, device = some d ∧ msg ≠ [] ∧ okTopic = true ∧ okPayload = true ∧
      (eCommonSend device (some msg) okTopic okPayload sock).2 =
        (((n + 1 : Nat) : Int), [sock.pending ++ [d.sendTopic.bytes, msg]]) := by
  cases device with
  | none => exact Or.inl ⟨by simp, rfl⟩
  | some d =>
      rcases eCommonSend_cases d ⟨some msg, okTopic, okPayload⟩ sock with
        ⟨-, hwhole, hsend⟩ | ⟨htorn, hsend⟩ | ⟨m, hwhole, hm, hsend⟩
      · refine Or.inl ⟨?_, by rw [hsend]⟩
        rintro ⟨-, hne, htopic, hpayload⟩
        exact hwhole ⟨msg, rfl, hne, htopic, hpayload⟩
      · refine Or.inl ⟨?_, by rw [hsend]⟩
        rintro ⟨-, hne, htopic, hpayload⟩
        exact htorn.not_whole ⟨msg, rfl, hne, htopic, hpayload⟩
      · obtain ⟨m', hm', hne, htopic, hpayload⟩ := hwhole
        cases hm
        cases hm'
        obtain ⟨n, hn⟩ : ∃ n, min msg.length intMax = n + 1 := by
          have hpos : 0 < min msg.length intMax :=
            Nat.lt_min.mpr ⟨List.length_pos_of_ne_nil hne, by decide⟩
          exact ⟨_, (Nat.sub_add_cancel hpos).symm⟩
        exact Or.inr ⟨d, n, rfl, hne, htopic, hpayload, by rw [hsend, hn]⟩

/-- The number that `e_common_send` returns tells whether the message is complete. -/
theorem eCommonSend_nonneg_iff :
    0 ≤ (eCommonSend device (some msg) okTopic okPayload sock).2.1 ↔
      Completes device msg (eCommonSend device (some msg) okTopic okPayload sock).2.2 := by
  rcases eCommonSend_result device msg okTopic okPayload sock with ⟨-, hsend⟩ |
    ⟨d, n, rfl, -, -, -, hsend⟩
  · rw [hsend]
    simp [Completes]
  · rw [hsend]
    refine iff_of_true (Int.natCast_nonneg _) ⟨d, rfl, _, List.mem_singleton_self _, ?_⟩
    exact List.suffix_append _ _

/-- It is never 0, the one value that `l_device_send` takes for success. -/
theorem lDeviceSend_false : (lDeviceSend device msg okTopic okPayload sock).2.1 = false := by
  rw [lDeviceSend]
  rcases eCommonSend_result device msg okTopic okPayload sock with ⟨-, hsend⟩ |
    ⟨d, n, rfl, -, -, -, hsend⟩
  · simp [hsend]
  · simp only [hsend, decide_eq_false_iff_not]
    omega

/-- **Lua send.** What a script is told is the truth exactly when the message does not go out: when
it is empty, its device is gone or one of the two sends fails. -/
theorem lua_send_told_iff : SendTold device msg okTopic okPayload sock ↔
    device = none ∨ msg = [] ∨ okTopic = false ∨ okPayload = false := by
  rw [SendTold, lDeviceSend_false]
  change (false = true ↔ Completes device msg
    (eCommonSend device (some msg) okTopic okPayload sock).2.2) ↔ _
  rw [← eCommonSend_nonneg_iff]
  rcases eCommonSend_result device msg okTopic okPayload sock with ⟨hnot, hsend⟩ |
    ⟨d, n, rfl, hne, rfl, rfl, hsend⟩
  · rw [hsend]
    refine iff_of_true (by simp) ?_
    by_contra hall
    apply hnot
    simp only [not_or, Bool.not_eq_false] at hall
    exact ⟨Option.isSome_iff_ne_none.mpr hall.1, hall.2⟩
  · rw [hsend]
    refine iff_of_false ?_ (by simp [hne])
    simp only [Bool.false_eq_true, false_iff, Int.not_le]
    omega

end Send

/-- A message that went out is reported as not sent. -/
theorem lua_send_counterexample : ∃ d : EDevice, d.Created ∧
    (lDeviceSend (some d) (ascii ['x']) true true ⟨[]⟩).2 =
      (false, [[d.sendTopic.bytes, ascii ['x']]]) ∧
    ¬SendTold (some d) (ascii ['x']) true true ⟨[]⟩ := by
  refine ⟨freshDevice ⟨ascii ['p'], by decide⟩ .monitor none, freshDevice_created _ _ _, rfl, ?_⟩
  intro htold
  have htrue := htold.mpr ⟨_, rfl, _, List.mem_singleton_self _, List.suffix_append [] _⟩
  exact absurd htrue (by decide)

end LibEzmb
