import LibEzmb.BaseRun

/-! Worker threads that all run one program on one shared object: the object has a flag that the
owner lowers to stop them, and is freed in the end. What lowering the flag does to the workers there
are, when at most one of them is alive, and when none of them outlives the object. -/

open Runs

namespace Workers

/-- What stops a run: a worker or the owner uses the freed object, a worker follows a null pointer,
the owner is not at this point. -/
inductive Fault where
  | dangling
  | nullDeref
  | disabled
  deriving DecidableEq, Repr

inductive Life where
  | alive
  | closing
  | freed
  deriving DecidableEq, Repr

/-- The object, and whether the owner's handle still leads to it. -/
structure Shared where
  flag : Bool
  life : Life
  handle : Bool
  deriving DecidableEq, Repr

/-- The program of the workers, by the places `ρ` in it and the answers `ο` of the system. The next
place depends on the flag and on the handle; it is none when a null pointer is followed. -/
structure Program (ρ ο : Type) where
  entry : ρ
  next : Bool → Bool → ο → ρ → Option ρ
  touches : ρ → Bool
  raises : ρ → Bool
  takes : ο → ρ → Bool
  done : ρ
  done_next : ∀ flag handle o, next flag handle o done = some done
  done_touches : touches done = false

/-- A worker: its place, and how many pieces of work it has taken. -/
structure Worker (ρ : Type) where
  place : ρ
  taken : Nat
  deriving DecidableEq, Repr

structure Pool (ρ : Type) where
  shared : Shared
  workers : List (Worker ρ)
  deriving DecidableEq, Repr

/-- The owner starts a worker, lowers the flag, begins to destroy the object (which lowers the flag
as well), frees it, clears its handle; or a worker takes its next step. -/
inductive Label (ο : Type) where
  | spawn
  | stop
  | close
  | free
  | forget
  | work (k : Nat) (answer : ο)
  deriving DecidableEq, Repr

variable {ρ ο : Type} (P : Program ρ ο)

/-- The step of one worker on the object. -/
def Worker.step (m : Shared) (o : ο) (w : Worker ρ) : Except Fault (Shared × Worker ρ) :=
  if P.touches w.place = true ∧ m.life = .freed then .error .dangling
  else match P.next m.flag m.handle o w.place with
    | none => .error .nullDeref
    | some place =>
        .ok ({ m with flag := m.flag || P.raises w.place },
          { place := place, taken := w.taken + (P.takes o w.place).toNat })

namespace Pool

def start (flag : Bool) : Pool ρ := ⟨⟨flag, .alive, true⟩, []⟩

def step (s : Pool ρ) : Label ο → Except Fault (Pool ρ)
  | .spawn => .ok { s with workers := s.workers ++ [⟨P.entry, 0⟩] }
  | .stop =>
      if s.shared.handle = false then .ok s
      else if s.shared.life = .freed then .error .dangling
      else .ok { s with shared := { s.shared with flag := false } }
  | .close =>
      if s.shared.handle = false then .ok s
      else if s.shared.life = .freed then .error .dangling
      else .ok { s with shared := { s.shared with flag := false, life := .closing } }
  | .free =>
      if s.shared.life = .closing then .ok { s with shared := { s.shared with life := .freed } }
      else .error .disabled
  | .forget =>
      if s.shared.life = .freed then .ok { s with shared := { s.shared with handle := false } }
      else .error .disabled
  | .work k o => match s.workers[k]? with
    | none => .error .disabled
    | some w => match w.step P s.shared o with
      | .error e => .error e
      | .ok (shared, w) => .ok ⟨shared, s.workers.set k w⟩

def Step (s : Pool ρ) (l : Label ο) (t : Pool ρ) : Prop := s.step P l = .ok t

/-- All workers there are have ended. -/
def AllEnded (s : Pool ρ) : Prop := ∀ w ∈ s.workers, w.place = P.done

variable {P} {s t : Pool ρ} {l : Label ο} {ls : List (Label ο)}

/-- What a step can do: a worker more, a step of one worker, or the owner at work on the object, who
never raises the flag. -/
inductive Did (P : Program ρ ο) (s : Pool ρ) : Label ο → Pool ρ → Prop where
  | spawned : Did P s .spawn { s with workers := s.workers ++ [⟨P.entry, 0⟩] }
  | worked {k : Nat} {o : ο} {w : Worker ρ} {place : ρ} (hw : s.workers[k]? = some w)
      (hlive : ¬(P.touches w.place = true ∧ s.shared.life = .freed))
      (hnext : P.next s.shared.flag s.shared.handle o w.place = some place) :
      Did P s (.work k o) ⟨{ s.shared with flag := s.shared.flag || P.raises w.place },
        s.workers.set k ⟨place, w.taken + (P.takes o w.place).toNat⟩⟩
  | owned {l : Label ο} (m : Shared) (hspawn : l ≠ .spawn)
      (hflag : m.flag = true → s.shared.flag = true)
      (hlife : m.life = .freed → s.shared.life = .freed ∨ l = .free) : Did P s l ⟨m, s.workers⟩

/-- What a step of a worker does. -/
theorem Step.work_inv {k : Nat} {o : ο} (hstep : Step P s (.work k o) t) : ∃ w place,
    s.workers[k]? = some w ∧ ¬(P.touches w.place = true ∧ s.shared.life = .freed) ∧
      P.next s.shared.flag s.shared.handle o w.place = some place ∧
      t = ⟨{ s.shared with flag := s.shared.flag || P.raises w.place },
        s.workers.set k ⟨place, w.taken + (P.takes o w.place).toNat⟩⟩ := by
  simp only [Step, step, Worker.step] at hstep
  split at hstep
  · cases hstep
  · next w hw =>
      by_cases hlive : P.touches w.place = true ∧ s.shared.life = .freed
      · rw [if_pos hlive] at hstep
        cases hstep
      · rw [if_neg hlive] at hstep
        cases hnext : P.next s.shared.flag s.shared.handle o w.place with
        | none => simp [hnext] at hstep
        | some place =>
            simp only [hnext] at hstep
            cases hstep
            exact ⟨w, place, hw, hlive, hnext, rfl⟩

theorem Step.did (hstep : Step P s l t) : Did P s l t := by
  cases l with
  | spawn => cases hstep; exact .spawned
  | stop =>
      rw [Step, step] at hstep
      split at hstep
      · cases hstep
        exact .owned _ (by simp) id Or.inl
      · split at hstep
        · cases hstep
        · cases hstep
          exact .owned _ (by simp) (by simp) Or.inl
  | close =>
      rw [Step, step] at hstep
      split at hstep
      · cases hstep
        exact .owned _ (by simp) id Or.inl
      · split at hstep
        · cases hstep
        · cases hstep
          exact .owned _ (by simp) (by simp) (by simp)
  | free =>
      rw [Step, step] at hstep
      split at hstep
      · cases hstep
        exact .owned _ (by simp) id fun _ => Or.inr rfl
      · cases hstep
  | forget =>
      rw [Step, step] at hstep
      split at hstep
      · cases hstep
        exact .owned _ (by simp) id Or.inl
      · cases hstep
  | work k o =>
      obtain ⟨w, place, hw, hlive, hnext, rfl⟩ := hstep.work_inv
      exact .worked hw hlive hnext

/-- The step of a worker that touches no freed memory and follows no null pointer. -/
theorem step_work_of {k : Nat} {o : ο} {w : Worker ρ} {place : ρ} (hw : s.workers[k]? = some w)
    (hlive : ¬(P.touches w.place = true ∧ s.shared.life = .freed))
    (hnext : P.next s.shared.flag s.shared.handle o w.place = some place) :
    Step P s (.work k o) ⟨{ s.shared with flag := s.shared.flag || P.raises w.place },
      s.workers.set k ⟨place, w.taken + (P.takes o w.place).toNat⟩⟩ := by
  simp only [Step, step, hw, Worker.step, if_neg hlive, hnext]

/-- The step of a worker, when it is not on freed memory and no null pointer is followed. -/
theorem step_work {k : Nat} {o : ο} {w : Worker ρ} {place : ρ} (hw : s.workers[k]? = some w)
    (hlife : s.shared.life ≠ .freed)
    (hnext : P.next s.shared.flag s.shared.handle o w.place = some place) :
    Step P s (.work k o) ⟨{ s.shared with flag := s.shared.flag || P.raises w.place },
      s.workers.set k ⟨place, w.taken + (P.takes o w.place).toNat⟩⟩ :=
  step_work_of hw (fun hfreed => hlife hfreed.2) hnext

/-- Only a worker follows a null pointer. -/
theorem step_nullDeref_iff : s.step P l = .error .nullDeref ↔ ∃ k o w, l = .work k o ∧
    s.workers[k]? = some w ∧ ¬(P.touches w.place = true ∧ s.shared.life = .freed) ∧
      P.next s.shared.flag s.shared.handle o w.place = none := by
  constructor
  · intro hstep
    cases l with
    | work k o =>
        simp only [step, Worker.step] at hstep
        split at hstep
        · cases hstep
        · next w hw =>
            by_cases hlive : P.touches w.place = true ∧ s.shared.life = .freed
            · simp [hlive] at hstep
            · rw [if_neg hlive] at hstep
              cases hnext : P.next s.shared.flag s.shared.handle o w.place with
              | none => exact ⟨k, o, w, rfl, hw, hlive, hnext⟩
              | some place => simp [hnext] at hstep
    | spawn => cases hstep
    | stop | close =>
        rw [step] at hstep
        split_ifs at hstep
        cases hstep
    | free | forget =>
        rw [step] at hstep
        split_ifs at hstep
        cases hstep
  · rintro ⟨k, o, w, rfl, hw, hlive, hnext⟩
    simp only [step, hw, Worker.step, if_neg hlive, hnext]

/-! ### Lowering the flag -/

/-- Places that the workers do not leave and from which they do not raise the flag, as long as it is
down; `left` bounds the pieces of work they still take. -/
structure Settled (P : Program ρ ο) (Q : ρ → Prop) (left : ρ → Nat) : Prop where
  keeps : ∀ handle o r r', Q r → P.next false handle o r = some r' → Q r'
  quiet : ∀ r, Q r → P.raises r = false
  pays : ∀ handle o r r', Q r → P.next false handle o r = some r' →
    (P.takes o r).toNat + left r' ≤ left r

/-- The flag is down, and each worker has taken no more than it had then and had left. -/
structure Below (Q : ρ → Prop) (left : ρ → Nat) (s t : Pool ρ) : Prop where
  flag : t.shared.flag = false
  workers : ∀ (k : Nat) (v : Worker ρ), t.workers[k]? = some v → Q v.place ∧
    ∃ w : Worker ρ, s.workers[k]? = some w ∧ v.taken + left v.place ≤ w.taken + left w.place

variable {Q : ρ → Prop} {left : ρ → Nat} {u : Pool ρ}

theorem Below.refl (hflag : s.shared.flag = false) (hQ : ∀ w ∈ s.workers, Q w.place) :
    Below Q left s s :=
  ⟨hflag, fun _ w hw => ⟨hQ w (List.mem_of_getElem? hw), w, hw, Nat.le_refl _⟩⟩

theorem Below.step (hsettled : Settled P Q left) (hbelow : Below Q left s t) (hl : l ≠ .spawn)
    (hstep : Step P t l u) : Below Q left s u := by
  obtain ⟨hflag, hworkers⟩ := hbelow
  cases hstep.did with
  | spawned => exact absurd rfl hl
  | owned m _ hdown _ =>
      refine ⟨?_, hworkers⟩
      rw [hflag] at hdown
      exact Bool.eq_false_iff.mpr fun hup => Bool.false_ne_true (hdown hup)
  | @worked k o w place hw _ hnext =>
      rw [hflag] at hnext
      obtain ⟨hQ, x, hx, hle⟩ := hworkers k w hw
      refine ⟨by simp [hflag, hsettled.quiet _ hQ], fun j v hv => ?_⟩
      rw [List.getElem?_set] at hv
      split at hv
      · next hkj =>
          subst hkj
          split at hv
          · cases hv
            have hpays := hsettled.pays _ _ _ _ hQ hnext
            refine ⟨hsettled.keeps _ _ _ _ hQ hnext, x, hx, ?_⟩
            dsimp only
            omega
          · cases hv
      · exact hworkers j v hv

/-- Once the flag is down and all workers are at settled places, it stays down as long as no worker
is started, and the workers take no more than they have left. -/
theorem Settled.run (hsettled : Settled P Q left) (hflag : s.shared.flag = false)
    (hQ : ∀ w ∈ s.workers, Q w.place) (hspawn : ∀ l ∈ ls, l ≠ .spawn)
    (hrun : Run (Step P) s ls t) : Below Q left s t :=
  hrun.invariant_of (fun _ _ _ hl hbelow hstep => hbelow.step hsettled hl hstep) hspawn
    (.refl hflag hQ)

/-- The pool once the owner has lowered the flag. -/
def stopped (s : Pool ρ) : Pool ρ := { s with shared := { s.shared with flag := false } }

/-- From here on, lowering the flag is effective: as long as no worker is started the flag stays
down, and each worker takes no more than it has left. -/
def StopEffective (P : Program ρ ο) (left : ρ → Nat) (s : Pool ρ) : Prop :=
  ∀ (ls : List (Label ο)) (t : Pool ρ), (∀ l ∈ ls, l ≠ .spawn) → Run (Step P) s.stopped ls t →
    t.shared.flag = false ∧ ∀ (k : Nat) (v w : Worker ρ), t.workers[k]? = some v →
      s.workers[k]? = some w → v.taken ≤ w.taken + left w.place

/-- Elsewhere than at these places, a worker is about to raise the flag, or one step before. -/
structure Rises (P : Program ρ ο) (Q : ρ → Prop) : Prop where
  near : ∀ r, ¬Q r → P.raises r = true ∨
    ∃ o r', (∀ flag handle, P.next flag handle o r = some r') ∧ P.raises r' = true
  goes : ∀ r, P.raises r = true → ∃ o r', ∀ flag handle, P.next flag handle o r = some r'

/-- A worker about to raise the flag raises it. -/
theorem Rises.raise (hrises : Rises P Q) (hlife : s.shared.life ≠ .freed) {k : Nat} {w : Worker ρ}
    (hw : s.workers[k]? = some w) (hraises : P.raises w.place = true) :
    ∃ o t, Step P s (.work k o) t ∧ t.shared.flag = true := by
  obtain ⟨o, r, hnext⟩ := hrises.goes _ hraises
  exact ⟨o, _, step_work hw hlife (hnext _ _), by simp [hraises]⟩

/-- Lowering the flag is effective exactly when all workers are at settled places. -/
theorem stopEffective_iff (hsettled : Settled P Q left) (hrises : Rises P Q)
    (hlife : s.shared.life ≠ .freed) : StopEffective P left s ↔ ∀ w ∈ s.workers, Q w.place := by
  constructor
  · intro heffective w hw
    by_contra hQ
    obtain ⟨k, hk⟩ := List.mem_iff_getElem?.mp hw
    rcases hrises.near _ hQ with hraises | ⟨o, r, hnext, hraises⟩
    · obtain ⟨o, t, hstep, hup⟩ := hrises.raise (s := s.stopped) hlife hk hraises
      have hdown := (heffective [.work k o] t (by simp) (.cons hstep (.nil _))).1
      rw [hup] at hdown
      cases hdown
    · let v : Worker ρ := ⟨r, w.taken + (P.takes o w.place).toNat⟩
      let u : Pool ρ := ⟨{ s.shared with flag := false || P.raises w.place }, s.workers.set k v⟩
      have hwork : Step P s.stopped (.work k o) u := step_work hk hlife (hnext _ _)
      have hv : u.workers[k]? = some v := List.getElem?_set_self (List.getElem?_eq_some_iff.mp hk).1
      obtain ⟨o', t, hraise, hup⟩ := hrises.raise (s := u) hlife hv hraises
      have hdown := (heffective [.work k o, .work k o'] t (by simp)
        (.cons hwork (.cons hraise (.nil _)))).1
      rw [hup] at hdown
      cases hdown
  · intro hQ ls t hspawn hrun
    have hbelow := hsettled.run (s := s.stopped) rfl hQ hspawn hrun
    refine ⟨hbelow.flag, fun k v w hv hw => ?_⟩
    obtain ⟨-, x, hx, hle⟩ := hbelow.workers k v hv
    rw [show s.stopped.workers = s.workers from rfl, hw] at hx
    cases hx
    omega

/-! ### One worker at a time -/

/-- A worker is started only when all others have ended. -/
def SpawnsAlone (P : Program ρ ο) (s : Pool ρ) (l : Label ο) : Prop :=
  l = .spawn → s.AllEnded P

/-- At most one worker has not ended. -/
def AtMostOne (P : Program ρ ο) (s : Pool ρ) : Prop :=
  ∀ (i j : Nat) (w v : Worker ρ), s.workers[i]? = some w → s.workers[j]? = some v →
    w.place ≠ P.done → v.place ≠ P.done → i = j

/-- A worker that is alive was so before the step, unless it was started by it. -/
theorem Did.live_before (hdid : Did P s l t) (hl : l ≠ .spawn) {i : Nat} {v : Worker ρ}
    (hv : t.workers[i]? = some v) (hlive : v.place ≠ P.done) :
    ∃ w : Worker ρ, s.workers[i]? = some w ∧ w.place ≠ P.done := by
  cases hdid with
  | spawned => exact absurd rfl hl
  | owned m _ _ _ => exact ⟨v, hv, hlive⟩
  | @worked k o w place hw _ hnext =>
      rw [List.getElem?_set] at hv
      split at hv
      · next hki =>
          subst hki
          split at hv
          · cases hv
            refine ⟨w, hw, fun hdone => hlive ?_⟩
            rw [hdone, P.done_next, Option.some.injEq] at hnext
            exact hnext.symm
          · cases hv
      · exact ⟨v, hv, hlive⟩

theorem AllEnded.of_live_before (hended : s.AllEnded P)
    (hback : ∀ (i : Nat) (v : Worker ρ), t.workers[i]? = some v → v.place ≠ P.done →
      ∃ w : Worker ρ, s.workers[i]? = some w ∧ w.place ≠ P.done) : t.AllEnded P := by
  intro v hv
  obtain ⟨i, hi⟩ := List.mem_iff_getElem?.mp hv
  by_contra hlive
  obtain ⟨w, hw, hlive'⟩ := hback i v hi hlive
  exact hlive' (hended w (List.mem_of_getElem? hw))

theorem AtMostOne.step (hone : AtMostOne P s) (halone : SpawnsAlone P s l) (hstep : Step P s l t) :
    AtMostOne P t := by
  intro i j w v hw hv hwlive hvlive
  by_cases hl : l = .spawn
  · subst hl
    cases hstep
    -- all the others have ended, so both are the new one
    have hlast : ∀ (n : Nat) (x : Worker ρ), (s.workers ++ [⟨P.entry, 0⟩])[n]? = some x →
        x.place ≠ P.done → n = s.workers.length := by
      intro n x hx hlive
      by_contra hne
      have hlt := (List.getElem?_eq_some_iff.mp hx).1
      rw [List.length_append, List.length_singleton] at hlt
      rw [List.getElem?_append_left (by omega)] at hx
      exact hlive (halone rfl x (List.mem_of_getElem? hx))
    rw [hlast i w hw hwlive, hlast j v hv hvlive]
  · obtain ⟨w', hw', hwlive'⟩ := hstep.did.live_before hl hw hwlive
    obtain ⟨v', hv', hvlive'⟩ := hstep.did.live_before hl hv hvlive
    exact hone i j w' v' hw' hv' hwlive' hvlive'

/-! ### No worker outlives the object -/

/-- The object is freed only when all workers have ended, and no worker is started afterwards. -/
structure FreesAlone (P : Program ρ ο) (s : Pool ρ) (l : Label ο) : Prop where
  free : l = .free → s.AllEnded P
  spawn : l = .spawn → s.shared.life ≠ .freed

/-- A freed object has no worker left. -/
def Outlived (P : Program ρ ο) (s : Pool ρ) : Prop := s.shared.life = .freed → s.AllEnded P

theorem Outlived.step (houtlived : Outlived P s) (halone : FreesAlone P s l)
    (hstep : Step P s l t) : Outlived P t := by
  intro hfreed
  by_cases hl : l = .spawn
  · subst hl
    cases hstep
    exact absurd hfreed (halone.spawn rfl)
  · have hended : s.AllEnded P := by
      cases hstep.did with
      | spawned => exact absurd rfl hl
      | owned m _ _ hlife =>
          rcases hlife hfreed with hbefore | hfree
          · exact houtlived hbefore
          · exact halone.free hfree
      | worked => exact houtlived hfreed
    exact hended.of_live_before fun i v hv hlive => hstep.did.live_before hl hv hlive

theorem Outlived.no_touch (houtlived : Outlived P s) (k : Nat) (o : ο) :
    s.step P (.work k o) ≠ .error .dangling := by
  intro hstep
  simp only [Pool.step, Worker.step] at hstep
  split at hstep
  · cases hstep
  · next w hw =>
      by_cases hlive : P.touches w.place = true ∧ s.shared.life = .freed
      · rw [houtlived hlive.2 w (List.mem_of_getElem? hw), P.done_touches] at hlive
        exact Bool.false_ne_true hlive.1
      · rw [if_neg hlive] at hstep
        cases hnext : P.next s.shared.flag s.shared.handle o w.place <;> simp [hnext] at hstep

end Pool

end Workers
