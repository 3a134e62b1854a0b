import Mathlib.Data.List.Basic
import Mathlib.Logic.Function.Basic

/-!
# Interleavings of processes over a shared state

* `Machine` : what one process can do in one atomic step, every choice made outside it (an outcome, a
  failure) being part of the action's label;
* `Machine.move`, `Machine.run` : one step of one process, and a schedule of them;
* `Machine.Reach` : the configurations some schedule reaches, every step of it meeting a guard;
* `Machine.Reach.invariant` : what every step keeps holds in every configuration reached.
-/

namespace OciHpc.Interleave

/-- A shared state and the local state of every process. -/
structure Config (ι σ ℓ : Type) where
  shared : σ
  proc : ι → ℓ

/-- The atomic steps of one process: `none` when the action is not the process's next one. -/
structure Machine (σ ℓ α : Type) where
  step : σ → ℓ → α → Option (σ × ℓ)

namespace Machine
variable {ι σ ℓ α : Type} [DecidableEq ι] (M : Machine σ ℓ α)

/-- Process `i` takes action `a`. -/
def move (c : Config ι σ ℓ) (i : ι) (a : α) : Option (Config ι σ ℓ) :=
  (M.step c.shared (c.proc i) a).map fun r => ⟨r.1, Function.update c.proc i r.2⟩

/-- A guard on steps: the configuration before the step, the process and its action. -/
abbrev Guard (ι σ ℓ α : Type) := Config ι σ ℓ → ι → α → Prop

abbrev anyStep : Guard ι σ ℓ α := fun _ _ _ => True

/-- A schedule: which process takes which action, in order; `none` when an action is not the process's
next one or breaks the guard. -/
def run (G : Guard ι σ ℓ α) [∀ c i a, Decidable (G c i a)] (c : Config ι σ ℓ) :
    List (ι × α) → Option (Config ι σ ℓ)
  | [] => some c
  | (i, a) :: rest => if G c i a then (M.move c i a).bind fun c' => run G c' rest else none

/-- The configurations reached from `c₀` by steps that all meet the guard. -/
inductive Reach (G : Guard ι σ ℓ α) (c₀ : Config ι σ ℓ) : Config ι σ ℓ → Prop
  | refl : Reach G c₀ c₀
  | tail {c c' : Config ι σ ℓ} (i : ι) (a : α) :
      Reach G c₀ c → G c i a → M.move c i a = some c' → Reach G c₀ c'

variable {M}

theorem move_eq_some {c c' : Config ι σ ℓ} {i : ι} {a : α} :
    M.move c i a = some c' ↔
      ∃ s l, M.step c.shared (c.proc i) a = some (s, l) ∧ c' = ⟨s, Function.update c.proc i l⟩ := by
  constructor
  · intro h
    obtain ⟨⟨s, l⟩, hstep, rfl⟩ := Option.map_eq_some_iff.mp h
    exact ⟨s, l, hstep, rfl⟩
  · rintro ⟨s, l, hstep, rfl⟩
    simp [move, hstep]

theorem Reach.trans {G : Guard ι σ ℓ α} {c₀ c₁ c₂ : Config ι σ ℓ} (h₁ : M.Reach G c₀ c₁)
    (h₂ : M.Reach G c₁ c₂) : M.Reach G c₀ c₂ := by
  induction h₂ with
  | refl => exact h₁
  | tail i a _ hg hm ih => exact ih.tail i a hg hm

theorem Reach.mono {G G' : Guard ι σ ℓ α} {c₀ c : Config ι σ ℓ} (h : M.Reach G c₀ c)
    (hG : ∀ c i a, G c i a → G' c i a) : M.Reach G' c₀ c := by
  induction h with
  | refl => exact refl
  | tail i a _ hg hm ih => exact ih.tail i a (hG _ i a hg) hm

theorem Reach.of_run {G : Guard ι σ ℓ α} [∀ c i a, Decidable (G c i a)] {c₀ c : Config ι σ ℓ}
    {sched : List (ι × α)} (h : M.run G c₀ sched = some c) : M.Reach G c₀ c := by
  induction sched generalizing c₀ with
  | nil => cases h; exact Reach.refl
  | cons e rest ih =>
      unfold run at h
      split at h
      · rename_i hg
        obtain ⟨c₁, hm, hrest⟩ := Option.bind_eq_some_iff.mp h
        exact (Reach.refl.tail e.1 e.2 hg hm).trans (ih hrest)
      · cases h

/-- A schedule that runs to a configuration with a decidable property reaches one. -/
theorem Reach.exists_of_run {G : Guard ι σ ℓ α} [∀ c i a, Decidable (G c i a)] (c₀ : Config ι σ ℓ)
    (sched : List (ι × α)) (P : Config ι σ ℓ → Bool) (h : (M.run G c₀ sched).any P = true) :
    ∃ c, M.Reach G c₀ c ∧ P c = true := by
  obtain ⟨c, hc, hP⟩ := (Option.any_eq_true _ _).mp h
  exact ⟨c, Reach.of_run hc, hP⟩

/-- **The invariant rule.** -/
theorem Reach.invariant {G : Guard ι σ ℓ α} {c₀ : Config ι σ ℓ} (Inv : Config ι σ ℓ → Prop)
    (init : Inv c₀)
    (keep : ∀ c i a s l, Inv c → G c i a → M.step c.shared (c.proc i) a = some (s, l) →
      Inv ⟨s, Function.update c.proc i l⟩)
    {c : Config ι σ ℓ} (h : M.Reach G c₀ c) : Inv c := by
  induction h with
  | refl => exact init
  | tail i a _ hg hm ih =>
      obtain ⟨s, l, hstep, rfl⟩ := move_eq_some.mp hm
      exact keep _ i a s l ih hg hstep

end Machine

end OciHpc.Interleave
