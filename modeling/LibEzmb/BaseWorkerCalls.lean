import LibEzmb.BaseWorkers
import Mathlib.Logic.Relation

/-! The owner of a pool starts workers and lowers the flag, and lets each of these calls take effect
before the next one. Whether a worker is at work afterwards depends on the last call when workers
raise the flag before their loop, and on whether there was any stop when they do not. -/

open Runs Relation

namespace Workers

/-- A call of the owner. -/
inductive OwnerCall where
  | spawn
  | stop
  deriving DecidableEq, Repr

variable {ρ ο : Type}

def OwnerCall.label : OwnerCall → Label ο
  | .spawn => .spawn
  | .stop => .stop

namespace Pool

/-- The owner is not involved. -/
def OnlyWork (ls : List (Label ο)) : Prop := ∀ l ∈ ls, ∃ k o, l = .work k o

/-- A start has taken effect when the workers are in their loop, a stop when they have left it. -/
def TookEffect (P : Program ρ ο) (loop : ρ → Prop) (s : Pool ρ) : OwnerCall → Prop
  | .spawn => ∀ w ∈ s.workers, loop w.place ∨ w.place = P.done
  | .stop => s.AllEnded P

/-- A call of the owner, and the steps of the workers until it has taken effect. -/
def Called (P : Program ρ ο) (loop : ρ → Prop) (s : Pool ρ) (call : OwnerCall) (u : Pool ρ) :
    Prop :=
  ∃ t ls, Step P s call.label t ∧ OnlyWork ls ∧ Run (Step P) t ls u ∧ u.TookEffect P loop call

/-- A worker takes a piece of work when there is one, if the owner lets it. -/
def Working (P : Program ρ ο) (s : Pool ρ) : Prop :=
  ∃ (k : Nat) (w v : Worker ρ) (ls : List (Label ο)) (t : Pool ρ), OnlyWork ls ∧
    Run (Step P) s ls t ∧ s.workers[k]? = some w ∧ t.workers[k]? = some v ∧ w.taken < v.taken

variable {P : Program ρ ο} {loop Q before : ρ → Prop} {left : ρ → Nat} {s t u : Pool ρ}
  {ls : List (Label ο)} {call : OwnerCall} {calls : List OwnerCall}

theorem OnlyWork.cons {k : Nat} {o : ο} (hwork : OnlyWork ls) : OnlyWork (.work k o :: ls) :=
  List.forall_mem_cons.mpr ⟨⟨k, o, rfl⟩, hwork⟩

theorem OnlyWork.append {ls' : List (Label ο)} (hwork : OnlyWork ls) (hwork' : OnlyWork ls') :
    OnlyWork (ls ++ ls') :=
  List.forall_mem_append.mpr ⟨hwork, hwork'⟩

theorem OnlyWork.ne_spawn (hwork : OnlyWork ls) : ∀ l ∈ ls, l ≠ .spawn := by
  rintro l hl rfl
  obtain ⟨k, o, heq⟩ := hwork _ hl
  cases heq

/-- What the step of each worker preserves. -/
theorem OnlyWork.invariant {I : Pool ρ → Prop} (hwork : OnlyWork ls) (hrun : Run (Step P) s ls t)
    (hpres : ∀ s k o w place, I s → s.workers[k]? = some w →
      P.next s.shared.flag s.shared.handle o w.place = some place →
      I ⟨{ s.shared with flag := s.shared.flag || P.raises w.place },
        s.workers.set k ⟨place, w.taken + (P.takes o w.place).toNat⟩⟩) (hs : I s) : I t := by
  refine hrun.invariant_of (P := fun l : Label ο => ∃ k o, l = .work k o) ?_ hwork hs
  rintro s l t ⟨k, o, rfl⟩ hs hstep
  obtain ⟨w, place, hw, -, hnext, rfl⟩ := hstep.work_inv
  exact hpres s k o w place hs hw hnext

/-! ### A worker on its own -/

/-- The flag and the place of a worker before and after a step. -/
def Alone (P : Program ρ ο) (x y : Bool × ρ) : Prop :=
  ∃ o, P.next x.1 true o x.2 = some y.2 ∧ y.1 = (x.1 || P.raises x.2)

/-- The owner has not begun to destroy the object. -/
structure Held (s : Pool ρ) : Prop where
  life : s.shared.life = .alive
  handle : s.shared.handle = true

/-- The owner may stop the workers, and this lowers the flag and does nothing else. -/
theorem Held.step_stop_iff (hheld : s.Held) : Step P s OwnerCall.stop.label t ↔ t = s.stopped := by
  have hstop : step P s (.stop : Label ο) = .ok s.stopped := by
    simp only [step, hheld.handle, hheld.life, reduceCtorEq, if_false, Pool.stopped]
  rw [OwnerCall.label, Step, hstop, Except.ok.injEq, eq_comm]

theorem Held.stopped (hheld : s.Held) : s.stopped.Held := ⟨hheld.life, hheld.handle⟩

/-- What a worker does on its own it can do in the pool. -/
theorem Held.run_alone (hheld : s.Held) {k : Nat} {w : Worker ρ} (hw : s.workers[k]? = some w)
    {y : Bool × ρ} (halone : ReflTransGen (Alone P) (s.shared.flag, w.place) y) :
    ∃ ls n, OnlyWork ls ∧ w.taken ≤ n ∧
      Run (Step P) s ls ⟨{ s.shared with flag := y.1 }, s.workers.set k ⟨y.2, n⟩⟩ := by
  have hk : k < s.workers.length := (List.getElem?_eq_some_iff.mp hw).1
  induction halone with
  | refl =>
      refine ⟨[], w.taken, fun l hl => (by cases hl), Nat.le_refl _, ?_⟩
      have hset : s.workers.set k ⟨w.place, w.taken⟩ = s.workers := by
        rw [← (List.getElem?_eq_some_iff.mp hw).2]
        exact List.set_getElem_self hk
      rw [hset]
      exact .nil s
  | @tail y z _ hstep ih =>
      obtain ⟨ls, n, hwork, hle, hrun⟩ := ih
      obtain ⟨o, hnext, hflag⟩ := hstep
      refine ⟨ls ++ [.work k o], n + (P.takes o y.2).toNat, hwork.append (OnlyWork.cons ?_),
        Nat.le_add_right_of_le hle, ?_⟩
      · exact fun l hl => by cases hl
      · refine hrun.snoc ?_
        have hlife : s.shared.life ≠ .freed := by simp [hheld.life]
        rw [← hheld.handle] at hnext
        have hwork := step_work (s := ⟨{ s.shared with flag := y.1 }, s.workers.set k ⟨y.2, n⟩⟩)
          (List.getElem?_set_self hk) hlife hnext
        simpa only [List.set_set, ← hflag] using hwork

/-- A program whose workers, once in their loop, go on while the flag is up and leave when it is
down. -/
structure Loops (P : Program ρ ο) (loop Q : ρ → Prop) (left : ρ → Nat) : Prop where
  settled : Settled P Q left
  inside : ∀ r, loop r ∨ r = P.done → Q r
  done_left : left P.done = 0
  stays : ∀ o r r', r ≠ P.done → P.next true true o r = some r' → r' ≠ P.done
  enters : ∀ flag, ∃ flag' r, loop r ∧ ReflTransGen (Alone P) (flag, P.entry) (flag', r)
  takes : ∀ r, loop r → ∃ r' o, ReflTransGen (Alone P) (true, r) (true, r') ∧
    P.takes o r' = true ∧ (P.next true true o r').isSome
  leaves : ∀ r, loop r → ReflTransGen (Alone P) (false, r) (false, P.done)

/-- Where a call has taken effect and nothing is being destroyed. -/
structure Ready (P : Program ρ ο) (loop : ρ → Prop) (s : Pool ρ) : Prop extends Held s where
  places : ∀ w ∈ s.workers, loop w.place ∨ w.place = P.done

theorem Ready.start (flag : Bool) : (Pool.start flag : Pool ρ).Ready P loop :=
  ⟨⟨rfl, rfl⟩, fun w hw => by cases hw⟩

/-- Workers do not destroy the object, lower the flag or vanish. -/
theorem Held.work (hheld : s.Held) (hwork : OnlyWork ls) (hrun : Run (Step P) s ls t) : t.Held := by
  apply hwork.invariant hrun _ hheld
  intro s k o w place hs _ _
  exact ⟨hs.life, hs.handle⟩

theorem Held.called (hheld : s.Held) (hcalled : Called P loop s call u) : u.Held := by
  obtain ⟨t, ls, hstep, hwork, hrun, -⟩ := hcalled
  have ht : t.Held := by
    cases call with
    | spawn =>
        cases hstep
        exact ⟨hheld.life, hheld.handle⟩
    | stop =>
        rw [hheld.step_stop_iff.mp hstep]
        exact hheld.stopped
  exact ht.work hwork hrun

theorem Ready.called (hready : s.Ready P loop) (hcalled : Called P loop s call u) :
    u.Ready P loop := by
  refine ⟨hready.toHeld.called hcalled, fun w hw => ?_⟩
  obtain ⟨-, -, -, -, -, heffect⟩ := hcalled
  cases call with
  | spawn => exact heffect w hw
  | stop => exact Or.inr (heffect w hw)

/-! ### At work or not -/

/-- With the flag up, a worker in its loop is at work. -/
theorem Loops.working (hloops : Loops P loop Q left) (hheld : s.Held)
    (hflag : s.shared.flag = true) {w : Worker ρ} (hmem : w ∈ s.workers) (hloop : loop w.place) :
    Working P s := by
  obtain ⟨k, hw⟩ := List.mem_iff_getElem?.mp hmem
  obtain ⟨r, o, halone, htakes, hsome⟩ := hloops.takes _ hloop
  obtain ⟨place, hnext⟩ := Option.isSome_iff_exists.mp hsome
  obtain ⟨ls, n, hwork, hle, hrun⟩ := hheld.run_alone (y := (true, r)) hw (by rwa [hflag])
  have hk : k < s.workers.length := (List.getElem?_eq_some_iff.mp hw).1
  have hlife : s.shared.life ≠ .freed := by simp [hheld.life]
  have hnext' : P.next true s.shared.handle o r = some place := by
    rw [hheld.handle]
    exact hnext
  have hstep := step_work (s := ⟨{ s.shared with flag := true }, s.workers.set k ⟨r, n⟩⟩)
    (List.getElem?_set_self hk) hlife hnext'
  refine ⟨k, w, ⟨place, n + (P.takes o r).toNat⟩, ls ++ [.work k o], _,
    hwork.append (OnlyWork.cons fun l hl => (by cases hl)), hrun.snoc hstep, hw, ?_, ?_⟩
  · simp only [List.set_set]
    exact List.getElem?_set_self hk
  · rw [htakes]
    dsimp only [Bool.toNat_true]
    omega

/-- With the flag down, workers that have nothing left to take are not at work. -/
theorem Settled.not_working (hsettled : Settled P Q left) (hflag : s.shared.flag = false)
    (hplaces : ∀ w ∈ s.workers, Q w.place ∧ left w.place = 0) : ¬Working P s := by
  rintro ⟨k, w, v, ls, t, hwork, hrun, hw, hv, hlt⟩
  have hbelow := hsettled.run hflag (fun w hw => (hplaces w hw).1) hwork.ne_spawn hrun
  obtain ⟨-, x, hx, hle⟩ := hbelow.workers k v hv
  rw [hw] at hx
  cases hx
  rw [(hplaces w (List.mem_of_getElem? hw)).2] at hle
  omega

/-! ### What a call leaves -/

/-- After a stop that has taken effect the flag is down and all workers have ended. -/
theorem Loops.stop (hloops : Loops P loop Q left) (hready : s.Ready P loop)
    (hcalled : Called P loop s .stop u) : u.shared.flag = false ∧ u.AllEnded P := by
  obtain ⟨t, ls, hstep, hwork, hrun, hended⟩ := hcalled
  rw [hready.step_stop_iff.mp hstep] at hrun
  refine ⟨(hloops.settled.run rfl ?_ hwork.ne_spawn hrun).flag, hended⟩
  intro w hw
  exact hloops.inside _ (hready.places w hw)

theorem Loops.stop_not_working (hloops : Loops P loop Q left) (hready : s.Ready P loop)
    (hcalled : Called P loop s .stop u) : ¬Working P u := by
  obtain ⟨hflag, hended⟩ := hloops.stop hready hcalled
  apply hloops.settled.not_working hflag
  intro w hw
  rw [hended w hw]
  exact ⟨hloops.inside _ (Or.inr rfl), hloops.done_left⟩

/-- The worker `k` is at a place before its loop, or it goes on because the flag is up. -/
structure OnWay (P : Program ρ ο) (before : ρ → Prop) (k : Nat) (s : Pool ρ) : Prop
    extends Held s where
  place : ∃ w : Worker ρ, s.workers[k]? = some w ∧
    (before w.place ∨ s.shared.flag = true ∧ w.place ≠ P.done)

/-- Workers pass from these places on to others of them, or raise the flag. -/
structure Raising (P : Program ρ ο) (loop before : ρ → Prop) : Prop where
  rises : ∀ flag o r r', before r → P.next flag true o r = some r' →
    before r' ∨ P.raises r = true ∧ r' ≠ P.done
  outside : ∀ r, before r → ¬(loop r ∨ r = P.done)

theorem OnWay.work (hloops : Loops P loop Q left) (hraising : Raising P loop before) {j k : Nat}
    (hway : OnWay P before j s) {o : ο} {w : Worker ρ} {place : ρ} (hw : s.workers[k]? = some w)
    (hnext : P.next s.shared.flag s.shared.handle o w.place = some place) :
    OnWay P before j ⟨{ s.shared with flag := s.shared.flag || P.raises w.place },
      s.workers.set k ⟨place, w.taken + (P.takes o w.place).toNat⟩⟩ := by
  obtain ⟨hheld, v, hv, hplace⟩ := hway
  rw [hheld.handle] at hnext
  refine ⟨⟨hheld.life, hheld.handle⟩, ?_⟩
  by_cases hkj : k = j
  · subst hkj
    rw [hw] at hv
    cases hv
    refine ⟨_, List.getElem?_set_self (List.getElem?_eq_some_iff.mp hw).1, ?_⟩
    rcases hplace with hbefore | ⟨hflag, hlive⟩
    · apply (hraising.rises _ _ _ _ hbefore hnext).imp id
      rintro ⟨hraises, hlive⟩
      exact ⟨by simp [hraises], hlive⟩
    · rw [hflag] at hnext
      exact Or.inr ⟨by simp [hflag], hloops.stays _ _ _ hlive hnext⟩
  · refine ⟨v, (List.getElem?_set_ne hkj).trans hv, hplace.imp id ?_⟩
    rintro ⟨hflag, hlive⟩
    exact ⟨by simp [hflag], hlive⟩

/-- A start puts a worker into its loop with the flag up, if the worker raises the flag on its way
or finds it up. -/
theorem Loops.spawn (hloops : Loops P loop Q left) (hraising : Raising P loop before)
    (hready : s.Ready P loop)
    (hentry : before P.entry ∨ s.shared.flag = true ∧ P.entry ≠ P.done)
    (hcalled : Called P loop s .spawn u) :
    u.shared.flag = true ∧ ∃ w ∈ u.workers, loop w.place := by
  obtain ⟨t, ls, hstep, hwork, hrun, heffect⟩ := hcalled
  cases hstep
  have hway : OnWay P before s.workers.length u := by
    apply hwork.invariant hrun
    · intro s k o w place hway hw hnext
      exact hway.work hloops hraising hw hnext
    · exact ⟨⟨hready.life, hready.handle⟩, _, List.getElem?_concat_length, hentry⟩
  obtain ⟨-, w, hw, hplace⟩ := hway
  have hmem := List.mem_of_getElem? hw
  rcases hplace with hbefore | ⟨hflag, hlive⟩
  · exact absurd (heffect w hmem) (hraising.outside _ hbefore)
  · exact ⟨hflag, w, hmem, (heffect w hmem).resolve_right hlive⟩

/-! ### Calls one after another -/

/-- Once the flag is down, workers that have not ended can be run to their end one by one. -/
theorem Loops.end_all (hloops : Loops P loop Q left) (hready : s.Ready P loop)
    (hflag : s.shared.flag = false) : ∃ ls t, OnlyWork ls ∧ Run (Step P) s ls t ∧ t.AllEnded P := by
  have hfirst : ∀ n ≤ s.workers.length, ∃ ls t, OnlyWork ls ∧ Run (Step P) s ls t ∧
      t.shared = s.shared ∧ t.workers.length = s.workers.length ∧ t.Ready P loop ∧
      ∀ (k : Nat) (w : Worker ρ), k < n → t.workers[k]? = some w → w.place = P.done := by
    intro n hn
    induction n with
    | zero => exact ⟨[], s, fun l hl => (by cases hl), .nil s, rfl, rfl, hready, by omega⟩
    | succ n ih =>
        obtain ⟨ls, t, hwork, hrun, hshared, hlength, ht, hended⟩ := ih (by omega)
        obtain ⟨w, hw⟩ : ∃ w, t.workers[n]? = some w :=
          ⟨_, List.getElem?_eq_getElem (by omega)⟩
        have halone : ReflTransGen (Alone P) (t.shared.flag, w.place) (false, P.done) := by
          rw [hshared, hflag]
          rcases ht.places w (List.mem_of_getElem? hw) with hloop | hdone
          · exact hloops.leaves _ hloop
          · rw [hdone]
        obtain ⟨ls', m, hwork', -, hrun'⟩ := ht.run_alone hw halone
        refine ⟨ls ++ ls', _, hwork.append hwork', hrun.append hrun', ?_, ?_, ?_, ?_⟩
        · dsimp only
          rw [hshared, ← hflag]
        · rw [List.length_set, hlength]
        · refine ⟨⟨ht.life, ht.handle⟩, fun v hv => ?_⟩
          rcases List.mem_or_eq_of_mem_set hv with hv | rfl
          · exact ht.places v hv
          · exact Or.inr rfl
        · intro k v hk hv
          by_cases hkn : n = k
          · subst hkn
            rw [List.getElem?_set_self (by omega)] at hv
            cases hv
            rfl
          · rw [List.getElem?_set_ne hkn] at hv
            exact hended k v (by omega) hv
  obtain ⟨ls, t, hwork, hrun, -, hlength, -, hended⟩ := hfirst _ (Nat.le_refl _)
  refine ⟨ls, t, hwork, hrun, fun w hw => ?_⟩
  obtain ⟨k, hk⟩ := List.mem_iff_getElem?.mp hw
  have hlt := (List.getElem?_eq_some_iff.mp hk).1
  exact hended k w (by omega) hk

/-- Every call can take effect. -/
theorem Loops.exists_called (hloops : Loops P loop Q left) (hready : s.Ready P loop)
    (call : OwnerCall) : ∃ u, Called P loop s call u := by
  cases call with
  | spawn =>
      obtain ⟨flag, r, hloop, halone⟩ := hloops.enters s.shared.flag
      have hheld : Held (⟨s.shared, s.workers ++ [⟨P.entry, 0⟩]⟩ : Pool ρ) :=
        ⟨hready.life, hready.handle⟩
      obtain ⟨ls, n, hwork, -, hrun⟩ := hheld.run_alone List.getElem?_concat_length halone
      refine ⟨_, _, ls, rfl, hwork, hrun, fun w hw => ?_⟩
      rw [List.set_append_right _ _ (Nat.le_refl _), Nat.sub_self, List.set_cons_zero] at hw
      rcases List.mem_append.mp hw with hw | hw
      · exact hready.places w hw
      · cases List.mem_singleton.mp hw
        exact Or.inl hloop
  | stop =>
      have hstopped : s.stopped.Ready P loop := ⟨hready.stopped, hready.places⟩
      obtain ⟨ls, t, hwork, hrun, hended⟩ := hloops.end_all hstopped rfl
      exact ⟨t, _, ls, hready.step_stop_iff.mpr rfl, hwork, hrun, hended⟩

theorem Loops.exists_calls (hloops : Loops P loop Q left) (hready : s.Ready P loop)
    (calls : List OwnerCall) : ∃ u, Run (Called P loop) s calls u := by
  induction calls generalizing s with
  | nil => exact ⟨s, .nil s⟩
  | cons call calls ih =>
      obtain ⟨t, hcalled⟩ := hloops.exists_called hready call
      obtain ⟨u, hrest⟩ := ih (hready.called hcalled)
      exact ⟨u, .cons hcalled hrest⟩

/-- A pool without workers is not at work. -/
theorem start_not_working (flag : Bool) : ¬Working P (.start flag : Pool ρ) := by
  rintro ⟨k, w, v, ls, t, -, -, hw, -⟩
  cases hw

theorem Loops.last_decides (hloops : Loops P loop Q left) (hraising : Raising P loop before)
    (hentry : before P.entry) (hready : s.Ready P loop) (hrun : Run (Called P loop) s calls u) :
    u = s ∧ calls = [] ∨ ∃ call, calls.getLast? = some call ∧ (Working P u ↔ call = .spawn) := by
  induction hrun with
  | nil => exact Or.inl ⟨rfl, rfl⟩
  | @cons s t u call calls hcalled hrest ih =>
      refine Or.inr ?_
      have ht := hready.called hcalled
      rcases ih ht with ⟨rfl, rfl⟩ | ⟨c, hc, hiff⟩
      · refine ⟨call, rfl, ?_⟩
        cases call with
        | spawn =>
            obtain ⟨hflag, w, hw, hloop⟩ := hloops.spawn hraising hready (Or.inl hentry) hcalled
            exact iff_of_true (hloops.working ht.toHeld hflag hw hloop) rfl
        | stop => exact iff_of_false (hloops.stop_not_working hready hcalled) (by simp)
      · exact ⟨c, by rw [List.getLast?_cons, hc]; rfl, hiff⟩

/-- **The last call.** When workers raise the flag on their way into the loop, the last call decides
whether one is at work. -/
theorem Loops.working_iff_last (hloops : Loops P loop Q left) (hraising : Raising P loop before)
    (hentry : before P.entry) {flag : Bool} (hrun : Run (Called P loop) (.start flag) calls u) :
    Working P u ↔ calls.getLast? = some .spawn := by
  rcases hloops.last_decides hraising hentry (.start flag) hrun with
    ⟨rfl, rfl⟩ | ⟨call, hcall, hiff⟩
  · exact iff_of_false (start_not_working flag) (by simp)
  · rw [hiff, hcall, Option.some.injEq]

/-- The flag is down, and the workers are at places where they take nothing. -/
structure Down (idle : ρ → Prop) (s : Pool ρ) : Prop where
  flag : s.shared.flag = false
  idle : ∀ w ∈ s.workers, idle w.place

variable {idle : ρ → Prop}

theorem Down.work (hsettled : Settled P idle fun _ => 0) (hdown : s.Down idle)
    (hwork : OnlyWork ls) (hrun : Run (Step P) s ls t) : t.Down idle := by
  have hbelow := hsettled.run hdown.flag hdown.idle hwork.ne_spawn hrun
  refine ⟨hbelow.flag, fun w hw => ?_⟩
  obtain ⟨k, hk⟩ := List.mem_iff_getElem?.mp hw
  exact (hbelow.workers k w hk).1

/-- No call raises the flag again when the workers do not. -/
theorem Down.called (hsettled : Settled P idle fun _ => 0) (hentry : idle P.entry)
    (hdown : s.Down idle) (hheld : s.Held) (hcalled : Called P loop s call u) : u.Down idle := by
  obtain ⟨t, ls, hstep, hwork, hrun, -⟩ := hcalled
  refine Down.work hsettled ?_ hwork hrun
  cases call with
  | spawn =>
      cases hstep
      refine ⟨hdown.flag, fun w hw => ?_⟩
      rcases List.mem_append.mp hw with hw | hw
      · exact hdown.idle w hw
      · cases List.mem_singleton.mp hw
        exact hentry
  | stop =>
      rw [hheld.step_stop_iff.mp hstep]
      exact ⟨rfl, hdown.idle⟩

theorem Down.run (hsettled : Settled P idle fun _ => 0) (hentry : idle P.entry)
    (hdown : s.Down idle) (hready : s.Ready P loop) (hrun : Run (Called P loop) s calls u) :
    u.Down idle := by
  induction hrun with
  | nil => exact hdown
  | cons hcalled _ ih =>
      exact ih (hdown.called hsettled hentry hready.toHeld hcalled) (hready.called hcalled)

theorem Down.not_working (hsettled : Settled P idle fun _ => 0) (hdown : s.Down idle) :
    ¬Working P s :=
  hsettled.not_working hdown.flag fun w hw => ⟨hdown.idle w hw, rfl⟩

/-- While the flag has been up from the start, a start leaves a worker at work. -/
theorem Loops.unstopped (hloops : Loops P loop Q left) (hlive : P.entry ≠ P.done)
    (hsettled : Settled P idle fun _ => 0) (hentry : idle P.entry) (hdone : idle P.done)
    (hready : s.Ready P loop) (hflag : s.shared.flag = true)
    (hrun : Run (Called P loop) s calls u) :
    u = s ∧ calls = [] ∨ calls ≠ [] ∧ (Working P u ↔ .stop ∉ calls) := by
  induction hrun with
  | nil => exact Or.inl ⟨rfl, rfl⟩
  | @cons s t u call calls hcalled hrest ih =>
      refine Or.inr ⟨by simp, ?_⟩
      have ht := hready.called hcalled
      cases call with
      | spawn =>
          have hraising : Raising P loop fun _ => False :=
            ⟨fun _ _ _ _ hno => absurd hno id, fun _ hno => absurd hno id⟩
          obtain ⟨hflag', w, hw, hloop⟩ :=
            hloops.spawn hraising hready (Or.inr ⟨hflag, hlive⟩) hcalled
          rcases ih ht hflag' with ⟨rfl, rfl⟩ | ⟨-, hiff⟩
          · exact iff_of_true (hloops.working ht.toHeld hflag' hw hloop) (by simp)
          · simpa using hiff
      | stop =>
          obtain ⟨hflag', hended⟩ := hloops.stop hready hcalled
          have hdown : t.Down idle := by
            refine ⟨hflag', fun w hw => ?_⟩
            rw [hended w hw]
            exact hdone
          refine iff_of_false ?_ (by simp)
          exact (hdown.run hsettled hentry ht hrest).not_working hsettled

/-- **Any stop.** When workers do not raise the flag, one is at work exactly when there was a start
and no stop. -/
theorem Loops.working_iff_unstopped (hloops : Loops P loop Q left) (hlive : P.entry ≠ P.done)
    (hsettled : Settled P idle fun _ => 0) (hentry : idle P.entry) (hdone : idle P.done)
    (hrun : Run (Called P loop) (.start true) calls u) :
    Working P u ↔ calls ≠ [] ∧ .stop ∉ calls := by
  rcases hloops.unstopped hlive hsettled hentry hdone (.start true) rfl hrun with
    ⟨rfl, rfl⟩ | ⟨hne, hiff⟩
  · exact iff_of_false (start_not_working true) (by simp)
  · rw [hiff, and_iff_right hne]

end Pool

end Workers
