import Mathlib.Data.List.Basic
import Mathlib.Tactic.Common

/-! Runs of labelled transition systems: what every step preserves a run preserves, running a step
function gives a run, and a step function that matches another one step by step does so in runs. -/

namespace Runs

variable {σ τ ℓ ω ε : Type}

/-- A finite run with the labels of its steps. -/
inductive Run (step : σ → ℓ → σ → Prop) : σ → List ℓ → σ → Prop where
  | nil (s : σ) : Run step s [] s
  | cons {s t u : σ} {l : ℓ} {ls : List ℓ} (hstep : step s l t) (hrest : Run step t ls u) :
      Run step s (l :: ls) u

namespace Run

variable {step : σ → ℓ → σ → Prop} {s t u : σ} {ls ls' : List ℓ}

theorem append (hrun : Run step s ls t) (hrun' : Run step t ls' u) : Run step s (ls ++ ls') u := by
  induction hrun with
  | nil => exact hrun'
  | cons hstep _ ih => exact .cons hstep (ih hrun')

theorem snoc {l : ℓ} (hrun : Run step s ls t) (hstep : step t l u) : Run step s (ls ++ [l]) u :=
  hrun.append (.cons hstep (.nil u))

/-- What every step with a label of some kind preserves holds wherever a run with such labels gets
to. -/
theorem invariant_of {P : ℓ → Prop} {I : σ → Prop}
    (hpres : ∀ s l t, P l → I s → step s l t → I t) (hrun : Run step s ls t)
    (hlabels : ∀ l ∈ ls, P l) (hs : I s) : I t := by
  induction hrun with
  | nil => exact hs
  | cons hstep _ ih =>
      rw [List.forall_mem_cons] at hlabels
      exact ih hlabels.2 (hpres _ _ _ hlabels.1 hs hstep)

/-- What every step preserves holds wherever a run gets to. -/
theorem invariant {I : σ → Prop} (hpres : ∀ s l t, I s → step s l t → I t)
    (hrun : Run step s ls t) (hs : I s) : I t :=
  hrun.invariant_of (P := fun _ => True) (fun s l t _ => hpres s l t) (fun _ _ => trivial) hs

/-- When every state that has a size is where one wants it or can go on to one of smaller size, a run
leads from it to where one wants it. -/
theorem exists_of_progress {R : σ → Nat → Prop} {P : ℓ → Prop} {Q : σ → Prop}
    (hprogress : ∀ s n, R s n → Q s ∨ ∃ l t m, step s l t ∧ P l ∧ R t m ∧ m < n) {n : Nat}
    (hs : R s n) : ∃ ls t, Run step s ls t ∧ (∀ l ∈ ls, P l) ∧ Q t := by
  induction n using Nat.strongRecOn generalizing s with
  | ind n ih =>
      rcases hprogress s n hs with hQ | ⟨l, t, m, hstep, hP, ht, hlt⟩
      · exact ⟨[], s, .nil s, by simp, hQ⟩
      · obtain ⟨ls, u, hrun, hlabels, hQ⟩ := ih m hlt ht
        exact ⟨l :: ls, u, .cons hstep hrun, List.forall_mem_cons.mpr ⟨hP, hlabels⟩, hQ⟩

/-- When each step of a whole is a step of one of its parts or leaves that part alone, a run of the
whole makes a run of the part. -/
theorem project {κ : Type} {part : τ → κ → τ → Prop} {view : σ → τ} {event : ℓ → Option κ}
    (hstep : ∀ s l t, step s l t →
      (event l = none ∧ view t = view s) ∨ ∃ k, event l = some k ∧ part (view s) k (view t))
    (hrun : Run step s ls t) : Run part (view s) (ls.filterMap event) (view t) := by
  induction hrun with
  | nil s => exact .nil (view s)
  | @cons s t u l ls hfirst _ ih =>
      rcases hstep s l t hfirst with ⟨hevent, hview⟩ | ⟨k, hevent, hpart⟩
      · rw [List.filterMap_cons_none hevent, ← hview]
        exact ih
      · rw [List.filterMap_cons_some hevent]
        exact .cons hpart ih

end Run

/-! ### Step functions -/

/-- The step relation of a step function that answers each label with an output. -/
def Fires (f : σ → ℓ → Except ε (σ × ω)) (s : σ) (lo : ℓ × ω) (t : σ) : Prop :=
  f s lo.1 = .ok (t, lo.2)

/-- Run a step function on a list of labels, collecting its outputs. -/
def exec (f : σ → ℓ → Except ε (σ × ω)) : σ → List ℓ → Except ε (σ × List ω)
  | s, [] => .ok (s, [])
  | s, l :: ls =>
      match f s l with
      | .error e => .error e
      | .ok (t, o) => match exec f t ls with
        | .error e => .error e
        | .ok (u, os) => .ok (u, o :: os)

theorem exec_cons_ok {f : σ → ℓ → Except ε (σ × ω)} {s u : σ} {l : ℓ} {ls : List ℓ} {os : List ω} :
    exec f s (l :: ls) = .ok (u, os) ↔
      ∃ t o os', f s l = .ok (t, o) ∧ exec f t ls = .ok (u, os') ∧ os = o :: os' := by
  constructor
  · intro h
    rw [exec] at h
    split at h
    · cases h
    · next t o hf =>
        split at h
        · cases h
        · next v os' hexec =>
            cases h
            exact ⟨t, o, os', hf, hexec, rfl⟩
  · rintro ⟨t, o, os', hf, hexec, rfl⟩
    simp only [exec, hf, hexec]

theorem exec_append {f : σ → ℓ → Except ε (σ × ω)} {s t u : σ} {ls ls' : List ℓ} {os os' : List ω}
    (hfst : exec f s ls = .ok (t, os)) (hsnd : exec f t ls' = .ok (u, os')) :
    exec f s (ls ++ ls') = .ok (u, os ++ os') := by
  induction ls generalizing s os with
  | nil =>
      cases hfst
      exact hsnd
  | cons l ls ih =>
      obtain ⟨v, o, os, hf, hrest, rfl⟩ := exec_cons_ok.mp hfst
      exact exec_cons_ok.mpr ⟨v, o, os ++ os', hf, ih hrest, rfl⟩

theorem run_of_exec {f : σ → ℓ → Except ε (σ × ω)} {s t : σ} {ls : List ℓ} {os : List ω}
    (hexec : exec f s ls = .ok (t, os)) : Run (Fires f) s (ls.zip os) t := by
  induction ls generalizing s os with
  | nil => cases hexec; exact .nil _
  | cons l ls ih =>
      obtain ⟨u, o, os', hf, hrest, rfl⟩ := exec_cons_ok.mp hexec
      exact .cons hf (ih hrest)

theorem exec_of_run {f : σ → ℓ → Except ε (σ × ω)} {s t : σ} {los : List (ℓ × ω)}
    (hrun : Run (Fires f) s los t) : exec f s (los.map Prod.fst) = .ok (t, los.map Prod.snd) := by
  induction hrun with
  | nil => rfl
  | cons hstep _ ih => exact exec_cons_ok.mpr ⟨_, _, _, hstep, ih, rfl⟩

/-- Where the steps are some of those of a step function, a run goes on from where that function
leads. -/
theorem Run.cons_of_fires {f : σ → ℓ → Except ε (σ × ω)} {R : σ → ℓ × ω → σ → Prop} {s t u : σ}
    {lo : ℓ × ω} {los : List (ℓ × ω)} (hR : ∀ s lo t, R s lo t → Fires f s lo t)
    (hfires : Fires f s lo t) (hrun : Run R s (lo :: los) u) : R s lo t ∧ Run R t los u := by
  cases hrun with
  | cons hstep hrest =>
      have heq := Except.ok.inj (hfires.symm.trans (hR _ _ _ hstep))
      cases heq
      exact ⟨hstep, hrest⟩

/-- When every step the abstract machine can take is matched by the concrete one, with the same
output, so is every execution. -/
theorem exec_refines {f : σ → ℓ → Except ε (σ × ω)} {g : τ → ℓ → Except ε (τ × ω)}
    (R : σ → τ → Prop)
    (hsim : ∀ s a l b o, R s a → g a l = .ok (b, o) → ∃ t, f s l = .ok (t, o) ∧ R t b)
    {s : σ} {a b : τ} {ls : List ℓ} {os : List ω} (hR : R s a) (hexec : exec g a ls = .ok (b, os)) :
    ∃ t, exec f s ls = .ok (t, os) ∧ R t b := by
  induction ls generalizing s a os with
  | nil => cases hexec; exact ⟨s, rfl, hR⟩
  | cons l ls ih =>
      obtain ⟨c, o, os', hg, hrest, rfl⟩ := exec_cons_ok.mp hexec
      obtain ⟨t, hf, hRt⟩ := hsim _ _ _ _ _ hR hg
      obtain ⟨u, hu, hRu⟩ := ih hRt hrest
      exact ⟨u, exec_cons_ok.mpr ⟨t, o, os', hf, hu, rfl⟩, hRu⟩

/-! ### What holds of every call -/

/-- Every label of the list has the property in the state in which the machine meets it. -/
def Along (f : σ → ℓ → Except ε (σ × ω)) (P : σ → ℓ → Prop) : σ → List ℓ → Prop
  | _, [] => True
  | s, l :: ls => P s l ∧ ∀ t o, f s l = .ok (t, o) → Along f P t ls

namespace Along

variable {f : σ → ℓ → Except ε (σ × ω)} {P Q A : σ → ℓ → Prop} {I : σ → Prop} {s : σ}
  {ls : List ℓ}

theorem cons_ok {l : ℓ} {t : σ} {o : ω} (hf : f s l = .ok (t, o)) (hP : P s l)
    (hrest : Along f P t ls) : Along f P s (l :: ls) := by
  refine ⟨hP, fun t' o' hf' => ?_⟩
  rw [hf, Except.ok.injEq, Prod.mk.injEq] at hf'
  exact hf'.1 ▸ hrest

theorem of_forall (hall : ∀ s l, P s l) : Along f P s ls := by
  induction ls generalizing s with
  | nil => trivial
  | cons l ls ih => exact ⟨hall s l, fun _ _ _ => ih⟩

/-- One property of calls may replace another where they agree in every state that the machine can
be in. -/
theorem iff_of (hagree : ∀ s l, I s → A s l → (P s l ↔ Q s l))
    (hpres : ∀ s l t o, I s → A s l → P s l → f s l = .ok (t, o) → I t) (hs : I s)
    (hallowed : Along f A s ls) : Along f P s ls ↔ Along f Q s ls := by
  induction ls generalizing s with
  | nil => exact Iff.rfl
  | cons l ls ih =>
      obtain ⟨hA, hrest⟩ := hallowed
      have hhead := hagree s l hs hA
      constructor
      · rintro ⟨hP, htail⟩
        refine ⟨hhead.mp hP, fun t o hstep => ?_⟩
        exact (ih (hpres s l t o hs hA hP hstep) (hrest t o hstep)).mp (htail t o hstep)
      · rintro ⟨hQ, htail⟩
        have hP := hhead.mpr hQ
        refine ⟨hP, fun t o hstep => ?_⟩
        exact (ih (hpres s l t o hs hA hP hstep) (hrest t o hstep)).mpr (htail t o hstep)

/-- Where every call goes through and keeps an invariant, the whole list goes through. -/
theorem exec_total (hstep : ∀ s l, I s → P s l → ∃ t o, f s l = .ok (t, o) ∧ I t) (hs : I s)
    (halong : Along f P s ls) : ∃ t os, exec f s ls = .ok (t, os) ∧ I t := by
  induction ls generalizing s with
  | nil => exact ⟨s, [], rfl, hs⟩
  | cons l ls ih =>
      obtain ⟨hP, hrest⟩ := halong
      obtain ⟨t, o, hf, ht⟩ := hstep s l hs hP
      obtain ⟨u, os, hexec, hu⟩ := ih ht (hrest t o hf)
      exact ⟨u, o :: os, exec_cons_ok.mpr ⟨t, o, os, hf, hexec, rfl⟩, hu⟩

end Along

end Runs
