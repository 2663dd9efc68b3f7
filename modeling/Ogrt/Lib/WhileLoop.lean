import Mathlib.Data.Fintype.EquivFin
import Mathlib.Logic.Relation

universe u v

/-- A loop `while (guard s) s = body s`. -/
structure WhileLoop (σ : Type u) where
  guard : σ → Bool
  body : σ → σ

namespace WhileLoop
variable {σ : Type u} (loop : WhileLoop σ)

/-- A run that ends: the states in which the body is executed, in order, and the last one. -/
inductive Runs : σ → List σ → σ → Prop
  | done {s} : loop.guard s = false → Runs s [] s
  | next {s trace t} : loop.guard s = true → Runs (loop.body s) trace t → Runs s (s :: trace) t

/-- Some iterations, with the states in which they start; the loop may go on after them. -/
inductive Takes : σ → List σ → σ → Prop
  | here {s} : Takes s [] s
  | next {s trace t} : loop.guard s = true → Takes (loop.body s) trace t → Takes s (s :: trace) t

/-- The body is executed in the first state and leads to the second. -/
def Iterates (s t : σ) : Prop := loop.guard s = true ∧ t = loop.body s

/-- The states at which the guard is tested, in runs that end and in runs that do not. -/
def Visits : σ → σ → Prop := Relation.ReflTransGen loop.Iterates

def Ends (s : σ) : Prop := ∃ trace t, loop.Runs s trace t

/-- The last state of a run that takes at most so many iterations. -/
def run : Nat → σ → Option σ
  | 0, s => if loop.guard s then none else some s
  | fuel + 1, s => if loop.guard s then run fuel (loop.body s) else some s

variable {loop}

theorem Runs.unique {s t r : σ} {trace other : List σ} (one : loop.Runs s trace t) (two : loop.Runs s other r) :
    trace = other ∧ t = r := by
  induction one generalizing other with
  | done stop =>
    cases two with
    | done => exact ⟨rfl, rfl⟩
    | next go => exact absurd (stop.symm.trans go) Bool.false_ne_true
  | next go _ ih =>
    cases two with
    | done stop => exact absurd (stop.symm.trans go) Bool.false_ne_true
    | next _ rest =>
      obtain ⟨sameTrace, sameLast⟩ := ih rest
      exact ⟨congrArg _ sameTrace, sameLast⟩

theorem Takes.runs {s t r : σ} {trace rest : List σ} (takes : loop.Takes s trace t) (runs : loop.Runs t rest r) :
    loop.Runs s (trace ++ rest) r := by
  induction takes with
  | here => exact runs
  | next go _ ih => exact .next go (ih runs)

/-- The states in which a run executes the body are those visited with a true guard. -/
theorem Runs.mem_iff {s t r : σ} {trace : List σ} (runs : loop.Runs s trace t) :
    r ∈ trace ↔ loop.Visits s r ∧ loop.guard r = true := by
  induction runs with
  | @done s stop =>
    refine iff_of_false List.not_mem_nil ?_
    rintro ⟨visits, go⟩
    rcases Relation.ReflTransGen.cases_head visits with rfl | ⟨q, ⟨start, _⟩, _⟩
    · exact Bool.false_ne_true (stop.symm.trans go)
    · exact Bool.false_ne_true (stop.symm.trans start)
  | @next s trace t go rest ih =>
    rw [List.mem_cons, ih]
    constructor
    · rintro (rfl | ⟨visits, guarded⟩)
      · exact ⟨.refl, go⟩
      · exact ⟨visits.head ⟨go, rfl⟩, guarded⟩
    · rintro ⟨visits, guarded⟩
      rcases Relation.ReflTransGen.cases_head visits with rfl | ⟨q, ⟨_, rfl⟩, later⟩
      · exact Or.inl rfl
      · exact Or.inr ⟨later, guarded⟩

/-- What holds at the start and survives each iteration holds at the end. -/
theorem Runs.invariant {P : σ → Prop} {s t : σ} {trace : List σ} (runs : loop.Runs s trace t) (start : P s)
    (keep : ∀ r, P r → loop.guard r = true → P (loop.body r)) : P t := by
  induction runs with
  | done => exact start
  | next go _ ih => exact ih (keep _ start go)

theorem run_eq_some_iff {fuel : Nat} {s t : σ} :
    loop.run fuel s = some t ↔ ∃ trace, loop.Runs s trace t ∧ trace.length ≤ fuel := by
  induction fuel generalizing s with
  | zero =>
    rw [run]
    split
    · rename_i go
      refine iff_of_false nofun ?_
      rintro ⟨trace, runs, short⟩
      cases runs with
      | done stop => exact Bool.false_ne_true (stop.symm.trans go)
      | next => simp at short
    · rename_i stop
      constructor
      · rintro ⟨⟩
        exact ⟨[], .done (Bool.eq_false_iff.mpr stop), Nat.le_refl 0⟩
      · rintro ⟨trace, runs, _⟩
        exact congrArg some (Runs.unique (.done (Bool.eq_false_iff.mpr stop)) runs).2
  | succ fuel ih =>
    rw [run]
    split
    · rename_i go
      rw [ih]
      constructor
      · rintro ⟨trace, runs, short⟩
        exact ⟨s :: trace, .next go runs, Nat.succ_le_succ short⟩
      · rintro ⟨trace, runs, short⟩
        cases runs with
        | done stop => exact absurd (stop.symm.trans go) Bool.false_ne_true
        | next _ rest => exact ⟨_, rest, Nat.le_of_succ_le_succ short⟩
    · rename_i stop
      constructor
      · rintro ⟨⟩
        exact ⟨[], .done (Bool.eq_false_iff.mpr stop), Nat.zero_le _⟩
      · rintro ⟨trace, runs, _⟩
        exact congrArg some (Runs.unique (.done (Bool.eq_false_iff.mpr stop)) runs).2

/-- A state that comes back is never left behind. -/
theorem not_ends_of_cycle {s : σ} (cycle : Relation.TransGen loop.Iterates s s) : ¬ loop.Ends s := by
  rintro ⟨trace, t, runs⟩
  induction runs with
  | done stop =>
    obtain ⟨q, ⟨go, _⟩, _⟩ := Relation.TransGen.head'_iff.mp cycle
    exact Bool.false_ne_true (stop.symm.trans go)
  | @next s trace t _ _ ih =>
    obtain ⟨q, step, back⟩ := Relation.TransGen.head'_iff.mp cycle
    obtain ⟨go, rfl⟩ := step
    exact ih (Relation.TransGen.tail' back ⟨go, rfl⟩)

theorem ends_iff_of_iterates {s t : σ} (iterates : loop.Iterates s t) : loop.Ends s ↔ loop.Ends t := by
  obtain ⟨go, rfl⟩ := iterates
  constructor
  · rintro ⟨trace, t, runs⟩
    cases runs with
    | done stop => exact absurd (stop.symm.trans go) Bool.false_ne_true
    | next _ rest => exact ⟨_, t, rest⟩
  · rintro ⟨trace, t, runs⟩
    exact ⟨s :: trace, t, .next go runs⟩

theorem ends_iff_of_visits {s t : σ} (visits : loop.Visits s t) : loop.Ends s ↔ loop.Ends t := by
  induction visits with
  | refl => exact Iff.rfl
  | tail _ iterates ih => exact ih.trans (ends_iff_of_iterates iterates)

/-- A run that ends executes the body at most once in each state. -/
theorem Runs.nodup {s t : σ} {trace : List σ} (runs : loop.Runs s trace t) : trace.Nodup := by
  induction runs with
  | done => exact List.nodup_nil
  | @next s trace t go rest ih =>
    refine List.nodup_cons.mpr ⟨fun member => ?_, ih⟩
    have back := (rest.mem_iff.mp member).1
    exact not_ends_of_cycle (Relation.TransGen.head' ⟨go, rfl⟩ back) ⟨_, t, .next go rest⟩

section Projection
variable {τ : Type v} {coarse : WhileLoop τ} {f : σ → τ}

/-- Part of the state that goes through the loop on its own. -/
structure Projects (loop : WhileLoop σ) (coarse : WhileLoop τ) (f : σ → τ) : Prop where
  guard : ∀ s, coarse.guard (f s) = loop.guard s
  body : ∀ s, loop.guard s = true → coarse.body (f s) = f (loop.body s)

theorem Runs.map (projects : Projects loop coarse f) {s t : σ} {trace : List σ} (runs : loop.Runs s trace t) :
    coarse.Runs (f s) (trace.map f) (f t) := by
  induction runs with
  | done stop => exact .done ((projects.guard _).trans stop)
  | next go _ ih =>
    rw [List.map_cons]
    rw [← projects.body _ go] at ih
    exact .next ((projects.guard _).trans go) ih

theorem Runs.lift (projects : Projects loop coarse f) {p q : τ} {trace : List τ} (runs : coarse.Runs p trace q)
    {s : σ} (over_s : f s = p) : ∃ fine t, loop.Runs s fine t ∧ fine.map f = trace ∧ f t = q := by
  induction runs generalizing s with
  | done stop =>
    subst over_s
    exact ⟨[], s, .done ((projects.guard s).symm.trans stop), rfl, rfl⟩
  | next go _ ih =>
    subst over_s
    have goes := (projects.guard s).symm.trans go
    obtain ⟨fine, t, rest, same, last⟩ := ih (projects.body s goes).symm
    exact ⟨s :: fine, t, .next goes rest, congrArg _ same, last⟩

theorem Projects.ends_iff (projects : Projects loop coarse f) {s : σ} : loop.Ends s ↔ coarse.Ends (f s) := by
  constructor
  · rintro ⟨trace, t, runs⟩
    exact ⟨_, _, runs.map projects⟩
  · rintro ⟨trace, q, runs⟩
    obtain ⟨fine, t, lifted, _⟩ := runs.lift projects rfl
    exact ⟨fine, t, lifted⟩

theorem Projects.visits (projects : Projects loop coarse f) {s t : σ} (visits : loop.Visits s t) :
    coarse.Visits (f s) (f t) := by
  induction visits with
  | refl => exact .refl
  | tail _ iterates ih =>
    obtain ⟨go, rfl⟩ := iterates
    exact ih.tail ⟨(projects.guard _).trans go, (projects.body _ go).symm⟩

theorem Projects.visits_lift (projects : Projects loop coarse f) {s : σ} {q : τ} (visits : coarse.Visits (f s) q) :
    ∃ t, loop.Visits s t ∧ f t = q := by
  induction visits with
  | refl => exact ⟨s, .refl, rfl⟩
  | tail _ iterates ih =>
    obtain ⟨t, reached, rfl⟩ := ih
    obtain ⟨go, rfl⟩ := iterates
    have goes := (projects.guard t).symm.trans go
    exact ⟨loop.body t, reached.tail ⟨goes, rfl⟩, (projects.body t goes).symm⟩

/-- With finitely many coarse states, as many iterations as there are of them decide whether
the loop ends. -/
theorem Projects.run_eq_some_iff [Fintype τ] (projects : Projects loop coarse f) {fuel : Nat}
    (enough : Fintype.card τ ≤ fuel) {s t : σ} :
    loop.run fuel s = some t ↔ ∃ trace, loop.Runs s trace t := by
  rw [WhileLoop.run_eq_some_iff]
  constructor
  · rintro ⟨trace, runs, _⟩
    exact ⟨trace, runs⟩
  · rintro ⟨trace, runs⟩
    refine ⟨trace, runs, ?_⟩
    have distinct := (runs.map projects).nodup
    have short := distinct.length_le_card
    rw [List.length_map] at short
    exact short.trans enough

end Projection

end WhileLoop
