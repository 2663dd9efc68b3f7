import Mathlib.Data.List.Infix

universe u v

/-- A system that takes labelled steps; a label that is not enabled gives no state. -/
structure StepSystem (σ : Type u) (ℓ : Type v) where
  init : σ
  step : σ → ℓ → Option σ

namespace StepSystem
variable {σ : Type u} {ℓ : Type v} (M : StepSystem σ ℓ)

/-- The state after taking the labels in order, if each is enabled when its turn comes. -/
def run : σ → List ℓ → Option σ
  | s, [] => some s
  | s, l :: ls => (M.step s l).bind fun t => run t ls

inductive Reachable : σ → Prop
  | init : Reachable M.init
  | step {s t l} : Reachable s → M.step s l = some t → Reachable t

/-- Each step the run takes meets the condition in the state it is taken from. -/
def EveryStep (C : σ → ℓ → Prop) : σ → List ℓ → Prop
  | _, [] => True
  | s, l :: ls => ∀ t, M.step s l = some t → C s l ∧ EveryStep C t ls

variable {M}

@[simp] theorem run_nil (s : σ) : M.run s [] = some s := rfl

theorem run_cons_eq_some {s t : σ} {l : ℓ} {ls : List ℓ} :
    M.run s (l :: ls) = some t ↔ ∃ r, M.step s l = some r ∧ M.run r ls = some t :=
  Option.bind_eq_some_iff

theorem run_append_eq_some {s t : σ} {ls ks : List ℓ} :
    M.run s (ls ++ ks) = some t ↔ ∃ r, M.run s ls = some r ∧ M.run r ks = some t := by
  induction ls generalizing s with
  | nil => simp
  | cons l ls ih =>
    simp only [List.cons_append, run_cons_eq_some, ih]
    constructor
    · rintro ⟨q, first, r, middle, last⟩
      exact ⟨r, ⟨q, first, middle⟩, last⟩
    · rintro ⟨r, ⟨q, first, middle⟩, last⟩
      exact ⟨q, first, r, middle, last⟩

theorem Reachable.run {s t : σ} {ls : List ℓ} (reach : M.Reachable s)
    (ran : M.run s ls = some t) : M.Reachable t := by
  induction ls generalizing s with
  | nil => cases ran; exact reach
  | cons l ls ih =>
    obtain ⟨r, first, rest⟩ := run_cons_eq_some.mp ran
    exact ih (reach.step first) rest

theorem reachable_iff_run {t : σ} : M.Reachable t ↔ ∃ ls, M.run M.init ls = some t := by
  constructor
  · intro reach
    induction reach with
    | init => exact ⟨[], rfl⟩
    | @step s t l _ taken ih =>
      obtain ⟨ls, ran⟩ := ih
      exact ⟨ls ++ [l], run_append_eq_some.mpr ⟨s, ran, run_cons_eq_some.mpr ⟨t, taken, rfl⟩⟩⟩
  · rintro ⟨ls, ran⟩
    exact Reachable.init.run ran

/-- What holds at the start and survives each step holds in every reachable state. -/
theorem Reachable.invariant {P : σ → Prop} {s : σ} (reach : M.Reachable s) (start : P M.init)
    (keep : ∀ {s t l}, P s → M.step s l = some t → P t) : P s := by
  induction reach with
  | init => exact start
  | step _ taken ih => exact keep ih taken

theorem run_invariant {P : σ → Prop} {s t : σ} {ls : List ℓ} (start : P s)
    (keep : ∀ {s t l}, P s → M.step s l = some t → P t) (ran : M.run s ls = some t) : P t := by
  induction ls generalizing s with
  | nil => cases ran; exact start
  | cons l ls ih =>
    obtain ⟨r, first, rest⟩ := run_cons_eq_some.mp ran
    exact ih (keep start first) rest

/-- A given run can be checked step by step. -/
def decideEveryStep (C : σ → ℓ → Prop) [∀ s l, Decidable (C s l)] :
    (ls : List ℓ) → (s : σ) → Decidable (M.EveryStep C s ls)
  | [], _ => inferInstanceAs (Decidable True)
  | l :: ls, s =>
    have (t : σ) : Decidable (M.EveryStep C t ls) := decideEveryStep C ls t
    inferInstanceAs (Decidable (∀ t ∈ M.step s l, C s l ∧ M.EveryStep C t ls))

instance (C : σ → ℓ → Prop) [∀ s l, Decidable (C s l)] (s : σ) (ls : List ℓ) : Decidable (M.EveryStep C s ls) :=
  decideEveryStep C ls s

/-- What a step keeps that meets the condition, a run keeps whose steps all meet it. -/
theorem EveryStep.invariant {P : σ → Prop} {C : σ → ℓ → Prop} {s t : σ} {ls : List ℓ} (meets : M.EveryStep C s ls)
    (start : P s) (keep : ∀ {s t l}, P s → C s l → M.step s l = some t → P t) (ran : M.run s ls = some t) : P t := by
  induction ls generalizing s with
  | nil => cases ran; exact start
  | cons l ls ih =>
    obtain ⟨r, first, rest⟩ := run_cons_eq_some.mp ran
    obtain ⟨here, later⟩ := meets r first
    exact ih later (keep start here first) rest

/-- If a step keeps a property exactly when it meets the condition, a run keeps the
property at each of its points exactly when each of its steps meets the condition. -/
theorem everyStep_iff (Inv : σ → Prop) {P : σ → Prop} {C : σ → ℓ → Prop} {s : σ} {ls : List ℓ}
    (inv : Inv s) (start : P s)
    (keep : ∀ {s t l}, Inv s → M.step s l = some t → Inv t)
    (exact : ∀ {s t l}, Inv s → P s → M.step s l = some t → (P t ↔ C s l)) :
    M.EveryStep C s ls ↔ ∀ earlier t, earlier <+: ls → M.run s earlier = some t → P t := by
  induction ls generalizing s with
  | nil =>
    simp only [EveryStep, List.prefix_nil, true_iff]
    rintro earlier t rfl ran
    cases ran
    exact start
  | cons l ls ih =>
    constructor
    · intro meets earlier t before ran
      cases earlier with
      | nil => cases ran; exact start
      | cons k earlier =>
        obtain ⟨rfl, shorter⟩ := List.cons_prefix_cons.mp before
        obtain ⟨r, first, rest⟩ := run_cons_eq_some.mp ran
        obtain ⟨here, later⟩ := meets r first
        have next := (exact inv start first).mpr here
        exact (ih (keep inv first) next).mp later earlier t shorter rest
    · intro holds r first
      have next := holds [l] r (by simp) (run_cons_eq_some.mpr ⟨r, first, rfl⟩)
      refine ⟨(exact inv start first).mp next, (ih (keep inv first) next).mpr ?_⟩
      intro earlier t before rest
      exact holds (l :: earlier) t (List.cons_prefix_cons.mpr ⟨rfl, before⟩)
        (run_cons_eq_some.mpr ⟨r, first, rest⟩)

end StepSystem
