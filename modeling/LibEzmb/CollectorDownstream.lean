import LibEzmb.CollectorRuns

/-! Messages on their way down to the ports. `write` on a non-blocking descriptor may take any number
of bytes, and neither `e_serial_manager_write` nor `on_client_recv` looks after the rest. -/

open CHeap CBytes Runs

namespace LibEzmb

/-- What `write` can answer for so many bytes: an error, or how many of them it took. -/
def WriteAnswer (len : Nat) (ret : Int) : Prop := ret = -1 ∨ (0 ≤ ret ∧ ret ≤ len)

/-- The bytes a port has taken of those that were handed to its descriptor. -/
def acceptedBytes (bytes : Bytes) (ret : Int) : Bytes := bytes.take ret.toNat

/-- The message heard in a step, with what the descriptor of its port was handed and what `write`
answered. -/
def downstream : CollectorLabel × CollectorOut → Option (Bytes × Bytes × Int)
  | (.listen _ _ ret, .heard _ h (some (_, bytes)) _) => some (h.payload, bytes, ret)
  | _ => none

/-- The answers of `write` in a run. -/
def WritesAnswer (los : List (CollectorLabel × CollectorOut)) : Prop :=
  ∀ x ∈ los.filterMap downstream, WriteAnswer x.2.1.length x.2.2

/-- Each message for an open port was taken in full or not at all. -/
def DownstreamWhole (los : List (CollectorLabel × CollectorOut)) : Prop :=
  ∀ x ∈ los.filterMap downstream, acceptedBytes x.2.1 x.2.2 = x.1 ∨ acceptedBytes x.2.1 x.2.2 = []

/-- No `write` for a message to an open port takes some of its bytes and leaves others. -/
def NeverShort (los : List (CollectorLabel × CollectorOut)) : Prop :=
  ∀ x ∈ los.filterMap downstream, x.2.2 ≤ 0 ∨ x.2.2 = x.1.length

/-- A descriptor is handed all of the message or nothing. -/
theorem eSerialManagerWrite_bytes {m : SerialManager} {uid : Option CStr} {data bytes : Bytes}
    {ret fd r : Int}
    (hwrite : eSerialManagerWrite m uid (some data) ret = .ok (some (fd, bytes), r)) :
    bytes = data := by
  cases uid with
  | none => cases hwrite
  | some uid =>
      rw [eSerialManagerWrite] at hwrite
      split at hwrite
      · cases hwrite
      · obtain ⟨found, -, hrest⟩ := bind_eq_ok hwrite
        cases found with
        | none => cases hrest
        | some x =>
            obtain ⟨ctx, -, hctx⟩ := bind_eq_ok hrest
            split at hctx <;> cases hctx
            rfl

theorem Refusal.lift_ok {α : Type} {x : Except Fault α} {a : α}
    (hlift : Refusal.lift x = .ok a) : x = .ok a := by
  cases x with
  | error e => cases hlift
  | ok b =>
      cases hlift
      rfl

/-- What a step hands to a descriptor is the message it has heard. -/
theorem downstream_step {c t : Collector} {lo : CollectorLabel × CollectorOut}
    (hstep : Fires Collector.step c lo t) {x : Bytes × Bytes × Int} (hx : downstream lo = some x) :
    x.2.1 = x.1 := by
  obtain ⟨l, o⟩ := lo
  cases l with
  | reader | monitor | arrive | begin => cases hx
  | listen i env ret =>
      cases o with
      | quiet | received => cases hx
      | heard device h written r =>
          cases written with
          | none => cases hx
          | some w =>
              obtain ⟨fd, bytes⟩ := w
              cases hx
              simp only [Fires, Collector.step] at hstep
              split at hstep
              · cases hstep
              · cases hstep
              · obtain ⟨d, -, hheard⟩ := bind_eq_ok hstep
                split at hheard
                · cases hheard
                · split at hheard
                  · cases hheard
                  · split at hheard
                    · obtain ⟨⟨written, r'⟩, hlift, hout⟩ := bind_eq_ok hheard
                      cases hout
                      exact eSerialManagerWrite_bytes (Refusal.lift_ok hlift)
                    · cases hheard

theorem downstream_run {c t : Collector} {los : List (CollectorLabel × CollectorOut)}
    (hrun : Run (Fires Collector.step) c los t) : ∀ x ∈ los.filterMap downstream, x.2.1 = x.1 := by
  induction hrun with
  | nil => exact nofun
  | cons hstep _ ih =>
      intro x hx
      obtain ⟨lo, hlo, hsome⟩ := List.mem_filterMap.mp hx
      rcases List.mem_cons.mp hlo with rfl | hlo
      · exact downstream_step hstep hsome
      · exact ih x (List.mem_filterMap.mpr ⟨lo, hlo, hsome⟩)

theorem acceptedBytes_whole_iff {bytes : Bytes} {ret : Int} (hanswer : WriteAnswer bytes.length ret) :
    (acceptedBytes bytes ret = bytes ∨ acceptedBytes bytes ret = []) ↔
      ret ≤ 0 ∨ ret = bytes.length := by
  rw [acceptedBytes, List.take_eq_self_iff, List.take_eq_nil_iff, ← List.length_eq_zero_iff]
  rcases hanswer with rfl | ⟨hnonneg, hle⟩ <;> omega

/-- **Downstream messages.** Every message for an open port is taken in full or not at all exactly
when no `write` takes some of its bytes and leaves others. -/
theorem downstream_whole_iff {c t : Collector} {los : List (CollectorLabel × CollectorOut)}
    (hrun : Run (Fires Collector.step) c los t) (hanswers : WritesAnswer los) :
    DownstreamWhole los ↔ NeverShort los := by
  have hhanded := downstream_run hrun
  apply forall₂_congr
  rintro ⟨payload, bytes, ret⟩ hx
  obtain rfl : bytes = payload := hhanded _ hx
  exact acceptedBytes_whole_iff (hanswers _ hx)

/-- The port is opened, and a message of two bytes arrives for its device. -/
def downstreamRun (ret : Int) : List CollectorLabel :=
  [.monitor (opensAs 3), .begin 0, .arrive 0 [(formatTopic uidA southSuffix).bytes, [9, 8]],
    .listen 0 ⟨some true, true, true⟩ ret]

def downstreamOuts (ret : Int) : List CollectorOut :=
  [.quiet, .quiet, .quiet,
    .heard 0 ⟨(formatTopic uidA southSuffix).bytes, [9, 8], true⟩ (some (3, [9, 8])) ret]

theorem downstream_exec : ∃ nodes q c, QueueOf oneConfig nodes q [config8N1 uidA] ∧
    collectorMain (sampleStart true true true) oneConfig nodes q = .ok (.runs c) ∧
    ∀ ret, ∃ t, exec Collector.step c (downstreamRun ret) = .ok (t, downstreamOuts ret) := by
  have hinit : Holds (eQueueInit bumpNode Heap.empty 0).1 (eQueueInit bumpNode Heap.empty 0).2 [] :=
    ⟨_, [], QueueRep.init_spec bumpNode Heap.empty 0, rfl⟩
  obtain ⟨nodes, q, hpush, hholds⟩ := hinit.push bumpNode (some 0)
  have hqueue : QueueOf oneConfig nodes q [config8N1 uidA] := ⟨[0], hholds, .cons rfl .nil⟩
  cases hpush
  exact ⟨_, _, _, hqueue, rfl, fun ret => ⟨_, rfl⟩⟩

/-- The descriptor takes one byte of the two, and the call returns. -/
theorem downstream_whole_counterexample : ∃ nodes q c t los,
    collectorMain (sampleStart true true true) oneConfig nodes q = .ok (.runs c) ∧
      Run (Fires Collector.step) c los t ∧ los.filterMap downstream = [([9, 8], [9, 8], 1)] ∧
      WritesAnswer los ∧ ¬DownstreamWhole los := by
  obtain ⟨nodes, q, c, -, hmain, hexec⟩ := downstream_exec
  obtain ⟨t, ht⟩ := hexec 1
  have hone : ((downstreamRun 1).zip (downstreamOuts 1)).filterMap downstream =
      [([9, 8], [9, 8], 1)] := rfl
  refine ⟨nodes, q, c, t, _, hmain, run_of_exec ht, hone, ?_, ?_⟩
  · rw [WritesAnswer, hone, List.forall_mem_singleton]
    exact Or.inr ⟨by decide, by decide⟩
  · rw [DownstreamWhole, hone, List.forall_mem_singleton]
    decide

theorem downstream_whole_two : ∃ nodes q c t los,
    collectorMain (sampleStart true true true) oneConfig nodes q = .ok (.runs c) ∧
      Run (Fires Collector.step) c los t ∧ los.filterMap downstream = [([9, 8], [9, 8], 2)] ∧
      (DownstreamWhole los ↔ NeverShort los) := by
  obtain ⟨nodes, q, c, -, hmain, hexec⟩ := downstream_exec
  obtain ⟨t, ht⟩ := hexec 2
  have htwo : ((downstreamRun 2).zip (downstreamOuts 2)).filterMap downstream =
      [([9, 8], [9, 8], 2)] := rfl
  refine ⟨nodes, q, c, t, _, hmain, run_of_exec ht, htwo, downstream_whole_iff (run_of_exec ht) ?_⟩
  rw [WritesAnswer, htwo, List.forall_mem_singleton]
  exact Or.inr ⟨by decide, by decide⟩

end LibEzmb
