import LibEzmb.BusDelivery
import LibEzmb.BusTopic

/-! One sender and one receiver on the bus. When no other device's topic begins like the one the
receiver subscribed to, what the receiver heard, what is under way to it and what the proxy has not
forwarded yet are the sender's messages, in order. -/

open CHeap CBytes Multipart Runs

namespace LibEzmb

variable {ι : Type} [DecidableEq ι]

/-- The topic a device subscribed to begins the one the other sends under. -/
def Bus.Reaches (bus : Bus ι) (i j : ι) : Prop :=
  (bus.device j).subTopic.bytes <+: (bus.device i).sendTopic.bytes

/-- The payload of a message of two frames. -/
def payloadOf (m : Msg) : Bytes := m.getD 1 []

namespace Bus

variable (bus : Bus ι)

omit [DecidableEq ι] in
theorem topics (i : ι) :
    (bus.device i).subTopic = formatTopic (bus.device i).uid (bus.device i).type.subSuffix ∧
      (bus.device i).sendTopic = formatTopic (bus.device i).uid (bus.device i).type.sendSuffix := by
  obtain ⟨d, ⟨env, uid, southUrl, northUrl, cb, type, hcreate⟩, hstart⟩ := bus.started i
  obtain ⟨-, htype, -, -, hsub, hsend⟩ := eCommonCreate_spec hcreate
  rw [eDeviceListenStart] at hstart
  split at hstart
  · cases hstart
  · rw [← Option.some.inj hstart]
    subst htype
    exact ⟨hsub, hsend⟩

omit [DecidableEq ι] in
/-- Between uids that fit their topics and do not collide, what is sent gets to the devices of the
same uid and the other type. -/
theorem reaches_iff {i j : ι} (hroom : (bus.device j).uid.bytes.length ≤ directionRoom)
    (hapart : (bus.device j).uid ≠ (bus.device i).uid →
      ¬Collides (bus.device j).uid (bus.device i).uid) :
    bus.Reaches i j ↔
      (bus.device j).uid = (bus.device i).uid ∧ (bus.device j).type ≠ (bus.device i).type := by
  rw [Reaches, (bus.topics j).1, (bus.topics i).2]
  by_cases huid : (bus.device j).uid = (bus.device i).uid
  · rw [← huid, and_iff_right rfl]
    by_cases htype : (bus.device j).type = (bus.device i).type
    · rw [htype, formatTopic_prefix_iff _ (EDeviceType.subSuffix_mem _)
        (EDeviceType.sendSuffix_mem _) (EDeviceType.subSuffix_ne_sendSuffix _)]
      exact iff_of_false (Nat.not_lt.mpr hroom) fun hne => hne rfl
    · rw [EDeviceType.subSuffix_of_ne htype]
      exact iff_of_true (List.prefix_refl _) htype
  · have hnone := (isolated_iff_topics _ _).mp ((isolated_iff _ _ huid).mpr (hapart huid))
    exact iff_of_false (hnone _ (EDeviceType.subSuffix_mem _) _ (EDeviceType.sendSuffix_mem _))
      fun hsame => huid hsame.1

end Bus

namespace BusState

variable {bus : Bus ι} {s t u : BusState ι}

/-! ### What is sent and what is heard -/

/-- The bus goes on: these payloads have been sent, and these been heard. -/
structure Moves (bus : Bus ι) (s t : BusState ι) (sends heards : ι → List Bytes) : Prop where
  run : ∃ ls, Run (Step bus) s ls t
  sent : ∀ i, t.sent i = s.sent i ++ (sends i).map fun msg => [(bus.device i).sendTopic.bytes, msg]
  heard : ∀ j, (t.heard j).map Heard.payload = (s.heard j).map Heard.payload ++ heards j

namespace Moves

theorem refl (bus : Bus ι) (s : BusState ι) : Moves bus s s (fun _ => []) fun _ => [] where
  run := ⟨[], .nil s⟩
  sent i := by simp
  heard j := by simp

theorem trans {sends heards sends' heards' : ι → List Bytes} (hfst : Moves bus s t sends heards)
    (hsnd : Moves bus t u sends' heards') :
    Moves bus s u (fun i => sends i ++ sends' i) fun j => heards j ++ heards' j where
  run := by
    obtain ⟨ls, hrun⟩ := hfst.run
    obtain ⟨ls', hrun'⟩ := hsnd.run
    exact ⟨_, hrun.append hrun'⟩
  sent i := by rw [hsnd.sent, hfst.sent, List.map_append, List.append_assoc]
  heard j := by rw [hsnd.heard, hfst.heard, List.append_assoc]

theorem send {i : ι} {msg : Bytes} (hstep : Step bus s (.send i msg) t) :
    Moves bus s t (fun j => if j = i ∧ msg ≠ [] then [msg] else []) fun _ => [] := by
  refine ⟨⟨_, .cons hstep (.nil t)⟩, fun j => ?_, fun j => ?_⟩ <;>
    rw [Step, step, Option.some.injEq] at hstep
  · by_cases hmsg : msg = []
    · rw [eCommonSend_refused _ _ (Or.inr (by rw [hmsg]))] at hstep
      cases hstep
      simp [hmsg]
    · have hrc : (0 : Int) ≤ ((min msg.length intMax : Nat) : Int) := Int.natCast_nonneg _
      rw [eCommonSend_some _ _ hmsg] at hstep
      simp only [Bool.not_true, Bool.false_eq_true, if_false, if_pos hrc] at hstep
      cases hstep
      by_cases hj : j = i
      · subst hj
        simp [hmsg]
      · simp [hj]
  · cases hstep
    simp

theorem forward {pick : ι} {poll : Option (Bool × Bool)}
    (hstep : Step bus s (.forward pick poll) t) : Moves bus s t (fun _ => []) fun _ => [] := by
  obtain ⟨⟨proxy, out⟩, -, ht⟩ := Option.bind_eq_some_iff.mp hstep
  cases ht
  exact ⟨⟨_, .cons hstep (.nil _)⟩, fun i => by simp, fun j => by simp⟩

theorem listen {j : ι} {poll : Option Bool} {heard : Option Heard} {fs : List (Frame Bytes)}
    (hiter : eDeviceListenIteration (bus.device j) recvFrame ⟨poll, true, true⟩ (s.down j) =
      some (heard, fs)) (hstep : Step bus s (.listen j poll) t) :
    Moves bus s t (fun _ => []) fun k => if k = j then heard.toList.map Heard.payload else [] := by
  refine ⟨⟨_, .cons hstep (.nil t)⟩, fun i => ?_, fun k => ?_⟩ <;>
    rw [Step, step, hiter] at hstep <;> cases hstep
  · simp
  · by_cases hk : k = j
    · subst hk
      simp
    · simp [hk]

theorem lossless {sends heards : ι → List Bytes} (hmoves : Moves bus s t sends heards)
    (hlossless : Lossless bus s) : Lossless bus t := by
  obtain ⟨ls, hrun⟩ := hmoves.run
  exact hrun.invariant (fun _ _ _ hs hstep => hs.step hstep) hlossless

end Moves

/-! ### One sender and one receiver -/

/-- The payloads of `i` that `j` has not heard yet: under way to it, or not forwarded yet. -/
def underWay (s : BusState ι) (i j : ι) : List Bytes :=
  ((assemble [] (s.down j)).1 ++ (assemble [] (s.proxy.frontend.pipes i)).1).map payloadOf

/-- A sender's messages are those that pass a filter which lets just them through. -/
theorem filter_forwarded {p : Msg → Bool} {i : ι} (forwarded : List (ι × Msg))
    (hfilter : ∀ x ∈ forwarded, p x.2 = true ↔ x.1 = i) :
    (forwarded.map Prod.snd).filter p = (forwarded.filter fun x => x.1 = i).map Prod.snd := by
  rw [List.filter_map]
  congr 1
  refine List.filter_congr fun x hx => ?_
  rw [Function.comp_apply, ← Bool.eq_iff_iff.mpr (hfilter x hx |>.trans (decide_eq_true_iff).symm)]

theorem Moves.channel {sends heards : ι → List Bytes} (hmoves : Moves bus start s sends heards)
    {i j : ι} (honly : ∀ x, bus.Reaches x j ↔ x = i) :
    heards j ++ s.underWay i j = sends i := by
  obtain ⟨⟨up, hup⟩, dn, hdn⟩ := hmoves.lossless lossless_start
  have hsent : ∀ x, s.sent x = (sends x).map fun msg => [(bus.device x).sendTopic.bytes, msg] :=
    fun x => (hmoves.sent x).trans (List.nil_append _)
  have hheard : (s.heard j).map Heard.payload = heards j :=
    (hmoves.heard j).trans (List.nil_append _)
  have hfrom : (s.forwarded.map Prod.snd).filter (matchesSub (bus.device j).southSub) =
      s.forwardedFrom i := by
    refine filter_forwarded s.forwarded fun x hx => ?_
    have hmem : x.2 ∈ s.sent x.1 := by
      rw [hup.sent x.1]
      exact List.mem_append_left _
        (List.mem_map_of_mem (List.mem_filter.mpr ⟨hx, decide_eq_true rfl⟩))
    rw [hsent] at hmem
    obtain ⟨msg, -, hmsg⟩ := List.mem_map.mp hmem
    rw [matchesSub_device, ← hmsg, ← honly]
    exact List.isPrefixOf_iff_prefix
  have hall : (sends i).map (fun msg => [(bus.device i).sendTopic.bytes, msg]) =
      (s.heard j).map Heard.msg ++ (dn j ++ up i) := by
    rw [← hsent, hup.sent i, ← hfrom, hdn.heard j, List.append_assoc]
  have hcut (msgs : List Msg) (hpairs : ∀ m ∈ msgs, m.length = 2) :
      (assemble [] (stream msgs)).1 = msgs := by
    rw [assemble_stream fun m hm h => by simpa [h] using hpairs m hm]
  have hpay : ∀ (topic : Bytes) (msgs : List Bytes),
      (msgs.map fun msg => [topic, msg]).map payloadOf = msgs := by
    intro topic msgs
    rw [List.map_map]
    exact List.map_id _
  calc heards j ++ s.underWay i j
      = ((s.heard j).map Heard.msg ++ (dn j ++ up i)).map payloadOf := by
        rw [List.map_append, List.map_map, ← hheard, underWay, hdn.down j, hup.pipes i,
          hcut _ (hdn.pairs j), hcut _ (hup.pairs i)]
        rfl
    _ = sends i := by rw [← hall, hpay]

end BusState

end LibEzmb
