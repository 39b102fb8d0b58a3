import LibEzmb.SerialRuns

/-! Events of descriptors: between `poll` and the section that handles its events, a number can be
closed and given out again, and then an event of the one opening is applied to the other. -/

open CHeap CBytes KeyedLists Runs

namespace LibEzmb

open SerialSystem

/-- When this step handles events, no number with an event that acts stands for something else than
what was polled. -/
def Unreused (s : SerialSystem) (l : SerialLabel) : Prop :=
  ∀ env events, l = .reader env → s.reader = .polled events →
    Undisturbed s.manager.kernel env.event 0 events

/-- A step, but none that handles an event of a number that has been given out again. -/
def UnreusedStep (s : SerialSystem) (lo : SerialLabel × SerialOut) (t : SerialSystem) : Prop :=
  Fires SerialSystem.step s lo t ∧ Unreused s lo.1

/-- The touches of a step are right exactly when no number it handles an event of has been given out
again. -/
theorem Sound.right_iff {s t : SerialSystem} {lo : SerialLabel × SerialOut} (hs : Sound s)
    (hstep : Fires SerialSystem.step s lo t) :
    (∀ touch ∈ lo.2.touches, touch.Right) ↔ Unreused s lo.1 := by
  obtain ⟨l, o⟩ := lo
  have hok : s.step l = .ok (t, o) := hstep
  rcases hs with ⟨w, hs⟩ | hs
  · rw [step_of_alive hs.alive] at hok
    by_cases hreader : ∃ env, l = .reader env
    · obtain ⟨env, rfl⟩ := hreader
      obtain ⟨t', touches, w', hread, -, -, hright⟩ := hs.readThread env
      simp only [act, hread, ok_bind, Except.ok.injEq, Prod.mk.injEq] at hok
      obtain ⟨-, rfl⟩ := hok
      refine hright.trans ⟨fun h env' events henv hphase => ?_, fun h events hphase => ?_⟩
      · cases henv
        exact h events hphase
      · exact h env events rfl hphase
    · have hunreused : Unreused s l := fun env events hl => absurd ⟨env, hl⟩ hreader
      have hnone : o.touches = [] := by
        cases l with
        | reader env => exact absurd ⟨env, rfl⟩ hreader
        | size =>
            cases hok
            rfl
        | add | remove | write | monitor | destroy =>
            obtain ⟨r, -, hr⟩ := bind_eq_ok hok
            cases hr
            rfl
      simp only [hnone, List.not_mem_nil, false_implies, implies_true, hunreused]
  · rw [step_of_gone hs.alive] at hok
    cases hok

/-- The touches of a run are right exactly when, in all its steps, no number with an event is handled
that has been given out again. -/
theorem Sound.run_right_iff {s t : SerialSystem} {los : List (SerialLabel × SerialOut)}
    (hs : Sound s) (hrun : Run (Fires SerialSystem.step) s los t) :
    (∀ lo ∈ los, ∀ touch ∈ lo.2.touches, touch.Right) ↔ Run UnreusedStep s los t := by
  induction hrun with
  | nil s => exact ⟨fun _ => .nil s, fun _ => by simp⟩
  | @cons s u t lo los hstep hrest ih =>
      have hu := hs.step hstep
      rw [List.forall_mem_cons, hs.right_iff hstep, ih hu]
      constructor
      · rintro ⟨hunreused, hrun⟩
        exact .cons ⟨hstep, hunreused⟩ hrun
      · intro hrun
        obtain ⟨hfst, hrun⟩ := hrun.cons_of_fires (fun _ _ _ hunreused => hunreused.1) hstep
        exact ⟨hfst.2, hrun⟩

/-- Every event is applied to the port and the opening that was polled, in a run from the start,
exactly when no number with an event that acts has been given out again by the time the event is
handled. -/
theorem events_right_iff {M : Malloc EQnode} {los : List (SerialLabel × SerialOut)}
    {s : SerialSystem} (hrun : Run (Fires SerialSystem.step) (.start M) los s) :
    (∀ lo ∈ los, ∀ touch ∈ lo.2.touches, touch.Right) ↔ Run UnreusedStep (.start M) los s :=
  Sound.run_right_iff (Or.inl ⟨_, Stores.start M⟩) hrun

theorem events_right_iff_reuse : ∃ s, exec SerialSystem.step (.start bumpNode) reuseRun =
    .ok (s, reuseOuts) ∧ ((∀ lo ∈ reuseRun.zip reuseOuts, ∀ touch ∈ lo.2.touches, touch.Right) ↔
      Run UnreusedStep (.start bumpNode) (reuseRun.zip reuseOuts) s) := by
  obtain ⟨s, hexec⟩ := reuseRun_exec
  exact ⟨s, hexec, events_right_iff (run_of_exec hexec)⟩

/-- The hangup of the port that was removed closes the one that was opened under its number. -/
theorem stale_event_counterexample :
    ¬∀ (M : Malloc EQnode) (los : List (SerialLabel × SerialOut)) (s : SerialSystem),
      Run (Fires SerialSystem.step) (.start M) los s →
        ∀ lo ∈ los, ∀ touch ∈ lo.2.touches, touch.Right := by
  intro h
  obtain ⟨s, hexec⟩ := reuseRun_exec
  have hlast : (SerialLabel.reader hangsUp, SerialOut.touched
      [⟨some ⟨0, 0⟩, 1, some ⟨1, 1⟩, .hangup, none⟩]) ∈ reuseRun.zip reuseOuts := by
    simp [reuseRun, reuseOuts]
  have hright := h bumpNode _ s (run_of_exec hexec) _ hlast _ (List.mem_singleton_self _)
  exact absurd hright (by decide)

end LibEzmb
