import Mathlib.Logic.Relation
import LibEzmb.BaseRun

/-! Threads that take and release locks which are not recursive. When every program takes its locks
in the order of a rank and releases what it took, no set of threads waits in a circle. -/

open Runs

namespace Locks

variable {L ρ : Type} [DecidableEq L]

inductive Op (L : Type) where
  | lock (l : L)
  | unlock (l : L)
  deriving DecidableEq, Repr

/-- From the locks in `held` on, last taken first, the operations take a lock only where they may,
release only held ones, and end with those in `rest`. -/
def Bracketed (may : List L → L → Prop) (rest : List L) : List L → List (Op L) → Prop
  | held, [] => held = rest
  | held, .lock l :: ops => may held l ∧ Bracketed may rest (l :: held) ops
  | held, .unlock l :: ops => l ∈ held ∧ Bracketed may rest (held.erase l) ops

/-- The lock is above all held ones. -/
def Above (rank : L → Nat) (held : List L) (l : L) : Prop := ∀ k ∈ held, rank k < rank l

/-- The program takes its locks in the order of the rank, and releases what it takes. -/
def Orderly (rank : L → Nat) (program : List (Op L)) : Prop := Bracketed (Above rank) [] [] program

/-- The program releases what it takes, and nothing else. -/
def Releases (program : List (Op L)) : Prop := Bracketed (fun _ _ => True) [] [] program

namespace Bracketed

variable {may : List L → L → Prop} {held mid rest : List L} {ops ops' : List (Op L)} {l : L}

theorem append (hops : Bracketed may mid held ops) (hops' : Bracketed may rest mid ops') :
    Bracketed may rest held (ops ++ ops') := by
  induction ops generalizing held with
  | nil =>
      obtain rfl : held = mid := hops
      exact hops'
  | cons op ops ih =>
      cases op with
      | lock l => exact ⟨hops.1, ih hops.2⟩
      | unlock l => exact ⟨hops.1, ih hops.2⟩

theorem flatMap {α : Type} {xs : List α} {f : α → List (Op L)}
    (hops : ∀ x ∈ xs, Bracketed may held held (f x)) :
    Bracketed may held held (xs.flatMap f) := by
  induction xs with
  | nil => rfl
  | cons x xs ih =>
      rw [List.forall_mem_cons] at hops
      rw [List.flatMap_cons]
      exact hops.1.append (ih hops.2)

/-- A lock is taken, and released in the end. -/
theorem bracket (hmay : may held l) (hops : Bracketed may (l :: held) (l :: held) ops) :
    Bracketed may held held (.lock l :: (ops ++ [.unlock l])) := by
  refine ⟨hmay, hops.append ⟨List.mem_cons_self, ?_⟩⟩
  rw [List.erase_cons_head]
  rfl

theorem pair (hmay : may held l) : Bracketed may held held [.lock l, .unlock l] := by
  refine ⟨hmay, List.mem_cons_self, ?_⟩
  rw [List.erase_cons_head]
  rfl

end Bracketed

/-! ### The threads -/

/-- A thread: its role, the locks it holds, and what it has still to do. -/
structure Thread (ρ L : Type) where
  role : ρ
  held : List L
  todo : List (Op L)

abbrev Pool (ρ L : Type) := List (Thread ρ L)

/-- A thread that has nothing to do starts a program, or a thread goes on. -/
inductive Label (L : Type) where
  | start (k : Nat) (program : List (Op L))
  | go (k : Nat)

namespace Pool

/-- Threads of these roles that have not started anything. -/
def idle (roles : List ρ) : Pool ρ L := roles.map fun role => ⟨role, [], []⟩

/-- A lock can be taken when no thread holds it, the one that asks for it included. -/
inductive Step (programs : ρ → List (Op L) → Prop) (s : Pool ρ L) : Label L → Pool ρ L → Prop where
  | start {k : Nat} {t : Thread ρ L} {program : List (Op L)} (ht : s[k]? = some t)
      (hdone : t.todo = []) (hprogram : programs t.role program) :
      Step programs s (.start k program) (s.set k { t with todo := program })
  | lock {k : Nat} {t : Thread ρ L} {l : L} {ops : List (Op L)} (ht : s[k]? = some t)
      (hops : t.todo = .lock l :: ops) (hfree : ∀ u ∈ s, l ∉ u.held) :
      Step programs s (.go k) (s.set k { t with held := l :: t.held, todo := ops })
  | unlock {k : Nat} {t : Thread ρ L} {l : L} {ops : List (Op L)} (ht : s[k]? = some t)
      (hops : t.todo = .unlock l :: ops) :
      Step programs s (.go k) (s.set k { t with held := t.held.erase l, todo := ops })

/-- The thread asks for a lock that another one, or it itself, holds. -/
def WaitsFor (s : Pool ρ L) (i j : Nat) : Prop :=
  ∃ (t u : Thread ρ L) (l : L) (ops : List (Op L)), s[i]? = some t ∧ s[j]? = some u ∧
    t.todo = .lock l :: ops ∧ l ∈ u.held

/-- No thread asks for a lock it holds, and no threads wait for each other in a circle. -/
structure NoDeadlock (s : Pool ρ L) : Prop where
  own : ∀ i, ¬s.WaitsFor i i
  circle : ∀ i, ¬Relation.TransGen s.WaitsFor i i

/-- Each thread is in the middle of an orderly program. -/
def AllOrderly (rank : L → Nat) (s : Pool ρ L) : Prop :=
  ∀ t ∈ s, Bracketed (Above rank) [] t.held t.todo

variable {programs : ρ → List (Op L) → Prop} {rank : L → Nat} {s t : Pool ρ L} {l : Label L}

theorem allOrderly_idle (roles : List ρ) : AllOrderly rank (idle roles : Pool ρ L) := by
  intro t ht
  obtain ⟨role, -, rfl⟩ := List.mem_map.mp ht
  rfl

theorem AllOrderly.set (hall : AllOrderly rank s) {k : Nat} {u : Thread ρ L}
    (hu : Bracketed (Above rank) [] u.held u.todo) : AllOrderly rank (s.set k u) := by
  intro t ht
  rcases List.mem_or_eq_of_mem_set ht with ht | rfl
  · exact hall t ht
  · exact hu

theorem AllOrderly.step
    (hprograms : ∀ role program, programs role program → Orderly rank program)
    (hall : AllOrderly rank s) (hstep : Step programs s l t) : AllOrderly rank t := by
  cases hstep with
  | @start k u program hu hdone hprogram =>
      have hheld := hall u (List.mem_of_getElem? hu)
      rw [hdone] at hheld
      obtain hheld : u.held = [] := hheld
      apply hall.set
      rw [hheld]
      exact hprograms _ _ hprogram
  | @lock k u l ops hu hops _ =>
      have htodo := hall u (List.mem_of_getElem? hu)
      rw [hops] at htodo
      exact hall.set htodo.2
  | @unlock k u l ops hu hops =>
      have htodo := hall u (List.mem_of_getElem? hu)
      rw [hops] at htodo
      exact hall.set htodo.2

/-- What a thread asks for ranks below what the one it waits for asks for, and so on. -/
theorem AllOrderly.rank_lt (hall : AllOrderly rank s) {i j : Nat}
    (hwait : Relation.TransGen s.WaitsFor i j) {u : Thread ρ L} {m : L} {ops : List (Op L)}
    (hu : s[j]? = some u) (hops : u.todo = .lock m :: ops) :
    ∃ (t : Thread ρ L) (l : L) (ops' : List (Op L)), s[i]? = some t ∧ t.todo = .lock l :: ops' ∧
      rank l < rank m := by
  have habove : ∀ {j : Nat} {u : Thread ρ L} {m k : L} {ops : List (Op L)}, s[j]? = some u →
      u.todo = .lock m :: ops → k ∈ u.held → rank k < rank m := by
    intro j u m k ops hu hops hk
    have htodo := hall u (List.mem_of_getElem? hu)
    rw [hops] at htodo
    exact htodo.1 k hk
  induction hwait generalizing u m ops with
  | single hwait =>
      obtain ⟨t, v, l, ops', ht, hv, hl, hheld⟩ := hwait
      rw [hu, Option.some.injEq] at hv
      subst hv
      exact ⟨t, l, ops', ht, hl, habove hu hops hheld⟩
  | tail _ hwait ih =>
      obtain ⟨v, w, l, ops', hv, hw, hl, hheld⟩ := hwait
      rw [hu, Option.some.injEq] at hw
      subst hw
      obtain ⟨t, k, ops'', ht, hk, hlt⟩ := ih hv hl
      exact ⟨t, k, ops'', ht, hk, Nat.lt_trans hlt (habove hu hops hheld)⟩

theorem AllOrderly.noDeadlock (hall : AllOrderly rank s) : s.NoDeadlock := by
  have hcircle : ∀ i, ¬Relation.TransGen s.WaitsFor i i := by
    intro i hwait
    obtain ⟨j, hfirst, -⟩ := Relation.TransGen.head'_iff.mp hwait
    obtain ⟨u, -, m, ops, hu, -, hops, -⟩ := hfirst
    obtain ⟨t, l, ops', ht, hl, hlt⟩ := hall.rank_lt hwait hu hops
    rw [hu, Option.some.injEq] at ht
    subst ht
    rw [hops, List.cons.injEq, Op.lock.injEq] at hl
    rw [hl.1] at hlt
    exact Nat.lt_irrefl _ hlt
  exact ⟨fun i hwait => hcircle i (.single hwait), hcircle⟩

/-- Threads that run only orderly programs never wait in a circle. -/
theorem noDeadlock_of_run
    (hprograms : ∀ role program, programs role program → Orderly rank program)
    {roles : List ρ} {ls : List (Label L)} (hrun : Run (Step programs) (idle roles) ls s) :
    s.NoDeadlock := by
  have hall : AllOrderly rank s :=
    hrun.invariant (fun _ _ _ hs hstep => hs.step hprograms hstep) (allOrderly_idle roles)
  exact hall.noDeadlock

/-- A thread on its own takes the first two locks of a program. -/
theorem run_two_locks {role : ρ} {l m : L} {ops : List (Op L)} (hne : l ≠ m)
    (hprogram : programs role (.lock l :: .lock m :: ops)) :
    Run (Step programs) (idle [role]) [.start 0 (.lock l :: .lock m :: ops), .go 0, .go 0]
      [⟨role, [m, l], ops⟩] := by
  have hstart : Step programs (idle [role]) (.start 0 (.lock l :: .lock m :: ops))
      [⟨role, [], .lock l :: .lock m :: ops⟩] := .start (t := ⟨role, [], []⟩) rfl rfl hprogram
  have hfirst : Step programs [⟨role, [], .lock l :: .lock m :: ops⟩] (.go 0)
      [⟨role, [l], .lock m :: ops⟩] := by
    refine .lock (t := ⟨role, [], .lock l :: .lock m :: ops⟩) rfl rfl fun u hu => ?_
    rw [List.mem_singleton] at hu
    subst hu
    exact List.not_mem_nil
  have hsecond : Step programs [⟨role, [l], .lock m :: ops⟩] (.go 0) [⟨role, [m, l], ops⟩] := by
    refine .lock (t := ⟨role, [l], .lock m :: ops⟩) rfl rfl fun u hu => ?_
    rw [List.mem_singleton] at hu
    subst hu
    exact fun hmem => hne (List.mem_singleton.mp hmem).symm
  exact .cons hstart (.cons hfirst (.cons hsecond (.nil _)))

end Pool

end Locks
