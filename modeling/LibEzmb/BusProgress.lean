import LibEzmb.BusChannel

/-! What waits on the bus can be taken: a round of the proxy that turns to a peer with a message
forwards it, and a round of a listener with a message hears it. -/

open CHeap CBytes Multipart Runs

namespace LibEzmb

variable {ι : Type} [DecidableEq ι] {bus : Bus ι} {s : BusState ι}

omit [DecidableEq ι] in
/-- The first of the messages that a link holds. -/
theorem stream_ne_nil {msgs : List Msg} (hpairs : ∀ m ∈ msgs, m.length = 2) {fs : List (Frame Bytes)}
    (hfs : fs = stream msgs) (hne : fs ≠ []) :
    ∃ a b rest, msgs = [a, b] :: rest ∧ fs = ⟨a, true⟩ :: ⟨b, false⟩ :: stream rest := by
  subst hfs
  cases msgs with
  | nil => exact absurd stream_nil hne
  | cons m rest =>
      obtain ⟨a, b, rfl⟩ := eq_pair_of_length (hpairs m List.mem_cons_self)
      exact ⟨a, b, rest, rfl, by rw [stream_cons, frames_pair]; rfl⟩

namespace BusState

/-- **The proxy goes on.** The first message of a sender can be forwarded. -/
theorem Lossless.forward_takes (hlossless : Lossless bus s) {i : ι}
    (hpipe : s.proxy.frontend.pipes i ≠ []) :
    ∃ t a b rest, Step bus s (.forward i (some (true, false))) t ∧ [a, b] ∈ s.sent i ∧
      s.proxy.frontend.pipes i = ⟨a, true⟩ :: ⟨b, false⟩ :: rest ∧
      t.proxy.frontend.pipes = Function.update s.proxy.frontend.pipes i rest ∧
      ∀ j, t.down j = s.down j ++ if matchesSub (bus.device j).southSub [a, b] then
        [⟨a, true⟩, ⟨b, false⟩] else [] := by
  obtain ⟨⟨up, hup⟩, dn, hdn⟩ := hlossless
  obtain ⟨a, b, rest, hmsgs, hfs⟩ := stream_ne_nil (hup.pairs i) (hup.pipes i) hpipe
  have hsent : [a, b] ∈ s.sent i := by
    rw [hup.sent i, hmsgs]
    exact List.mem_append_right _ List.mem_cons_self
  have hiter : eProxyIteration (fqRecv i) bus.callback (.lossless (some (true, false))) s.proxy =
      some ({ s.proxy with
        frontend := ⟨Function.update s.proxy.frontend.pipes i (stream rest), none⟩
        backendOut := ⟨[]⟩ }, ⟨if bus.callback.isSome then [(a, b)] else [], [[a, b]], []⟩) := by
    simp [eProxyIteration, recvPair, zmqMsgRecv, fqRecv, ProxyEnv.lossless, forwardSubscription,
      hup.current, hfs, hdn.backendOut]
  obtain ⟨t, ht⟩ : ∃ t, s.step bus (.forward i (some (true, false))) = some t := by
    rw [BusState.step, hiter]
    exact ⟨_, rfl⟩
  refine ⟨t, a, b, stream rest, ht, hsent, hfs, ?_, fun j => ?_⟩ <;> rw [BusState.step, hiter] at ht <;>
    cases ht
  · rfl
  · show s.down j ++ stream ([[a, b]].filter _) = _
    rw [List.filter_singleton]
    cases matchesSub (bus.device j).southSub [a, b] <;> rfl

omit [DecidableEq ι] in
theorem device_running (bus : Bus ι) (j : ι) : (bus.device j).running = true := by
  obtain ⟨d, -, hstart⟩ := bus.started j
  rw [eDeviceListenStart] at hstart
  split at hstart
  · cases hstart
  · rw [← Option.some.inj hstart]

/-- **A listener goes on.** The first message under way to a device can be heard. -/
theorem Lossless.listen_takes (hlossless : Lossless bus s) {j : ι} (hdown : s.down j ≠ []) :
    ∃ t h rest, Step bus s (.listen j (some true)) t ∧
      eDeviceListenIteration (bus.device j) recvFrame ⟨some true, true, true⟩ (s.down j) =
        some (some h, rest) ∧
      s.down j = ⟨h.topic, true⟩ :: ⟨h.payload, false⟩ :: rest ∧
      t.down = Function.update s.down j rest ∧ t.proxy = s.proxy := by
  obtain ⟨-, dn, hdn⟩ := hlossless
  obtain ⟨a, b, rest, -, hfs⟩ := stream_ne_nil (hdn.pairs j) (hdn.down j) hdown
  have hiter : eDeviceListenIteration (bus.device j) recvFrame ⟨some true, true, true⟩ (s.down j) =
      some (some ⟨a, b, true⟩, stream rest) := by
    rw [eDeviceListenIteration, if_pos (device_running bus j), hfs]
    rfl
  obtain ⟨t, ht⟩ : ∃ t, s.step bus (.listen j (some true)) = some t := by
    rw [BusState.step, hiter]
    exact ⟨_, rfl⟩
  refine ⟨t, ⟨a, b, true⟩, stream rest, ht, hiter, hfs, ?_, ?_⟩ <;> rw [BusState.step, hiter] at ht <;>
    cases ht <;> rfl

end BusState

end LibEzmb
