import Ogrt.Lib.StepSystem
import Mathlib.Data.Finset.Basic
import Mathlib.Data.List.Nodup

/-! Resources that are acquired, used and released. -/

namespace ResourceTrace

inductive Event (ρ : Type)
  | acquire (resource : ρ)
  | use (resource : ρ)
  | release (resource : ρ)
  deriving DecidableEq, Repr

variable {ρ τ : Type}

def Event.resource : Event ρ → ρ
  | .acquire r => r
  | .use r => r
  | .release r => r

def Event.map (name : ρ → τ) : Event ρ → Event τ
  | .acquire r => .acquire (name r)
  | .use r => .use (name r)
  | .release r => .release (name r)

@[simp] theorem Event.resource_acquire (r : ρ) : (Event.acquire r).resource = r := rfl
@[simp] theorem Event.resource_use (r : ρ) : (Event.use r).resource = r := rfl
@[simp] theorem Event.resource_release (r : ρ) : (Event.release r).resource = r := rfl

@[simp] theorem Event.resource_map (name : ρ → τ) (e : Event ρ) : (e.map name).resource = name e.resource := by
  cases e <;> rfl

/-- What an event does to the resource it is about. One that is held is not handed out again,
and one that is not held is neither used nor released. -/
def turn (held : Bool) : Event ρ → Option Bool
  | .acquire _ => if held then none else some true
  | .use _ => if held then some true else none
  | .release _ => if held then some false else none

@[simp] theorem turn_acquire (held : Bool) (r : ρ) : turn held (.acquire r) = if held then none else some true := rfl
@[simp] theorem turn_use (held : Bool) (r : ρ) : turn held (.use r) = if held then some true else none := rfl
@[simp] theorem turn_release (held : Bool) (r : ρ) : turn held (.release r) = if held then some false else none := rfl

/-- The account of one resource. -/
@[simp] def history : Bool → List (Event ρ) → Option Bool
  | held, [] => some held
  | held, e :: events => (turn held e).bind fun after => history after events

theorem history_append (held : Bool) (events more : List (Event ρ)) :
    history held (events ++ more) = (history held events).bind fun after => history after more := by
  induction events generalizing held with
  | nil => rfl
  | cons e events ih =>
    rw [List.cons_append, history, history]
    cases turn held e with
    | none => rfl
    | some after => exact ih after

theorem history_map (name : ρ → τ) (held : Bool) (events : List (Event ρ)) :
    history held (events.map (Event.map name)) = history held events := by
  induction events generalizing held with
  | nil => rfl
  | cons e events ih =>
    have same : turn held (e.map name) = turn held e := by cases e <;> rfl
    rw [List.map_cons, history, history, same]
    exact congrArg _ (funext ih)

/-- The events of a loop over a list that knows the index of each element. -/
def loopAt {α : Type} (turns : Nat → α → List (Event ρ)) : Nat → List α → List (Event ρ)
  | _, [] => []
  | i, a :: rest => turns i a ++ loopAt turns (i + 1) rest

section Ledger
variable [DecidableEq ρ]

def place (resource : ρ) (held : Finset ρ) (after : Bool) : Finset ρ :=
  if after then insert resource held else held.erase resource

/-- The resources that are held. -/
def ledger (ρ : Type) [DecidableEq ρ] : StepSystem (Finset ρ) (Event ρ) where
  init := ∅
  step held e := (turn (e.resource ∈ held) e).map (place e.resource held)

/-- The events about one resource. -/
def own (r : ρ) (events : List (Event ρ)) : List (Event ρ) := events.filter (·.resource = r)

@[simp] theorem own_nil (r : ρ) : own r [] = [] := rfl

@[simp] theorem own_append (r : ρ) (events more : List (Event ρ)) : own r (events ++ more) = own r events ++ own r more :=
  List.filter_append ..

@[simp] theorem own_cons (r : ρ) (e : Event ρ) (events : List (Event ρ)) :
    own r (e :: events) = if e.resource = r then e :: own r events else own r events := by
  by_cases same : e.resource = r <;> simp [own, same]

theorem own_eq_nil {r : ρ} {events : List (Event ρ)} (other : ∀ e ∈ events, e.resource ≠ r) : own r events = [] := by
  rw [own, List.filter_eq_nil_iff]
  intro e member same
  exact other e member (of_decide_eq_true same)

/-- Events about one resource are that resource's own. -/
theorem own_of_about {s : ρ} {events : List (Event ρ)} (about : ∀ e ∈ events, e.resource = s) (r : ρ) :
    own r events = if s = r then events else [] := by
  split
  · rename_i same
    exact List.filter_eq_self.mpr fun e member => decide_eq_true ((about e member).trans same)
  · rename_i apart
    exact own_eq_nil fun e member same => apart ((about e member).symm.trans same)

theorem own_ite (r : ρ) (p : Prop) [Decidable p] (events others : List (Event ρ)) :
    own r (if p then events else others) = if p then own r events else own r others := by
  split
  · rfl
  · rfl

theorem own_map [DecidableEq τ] {name : ρ → τ} (injective : Function.Injective name) (r : ρ) (events : List (Event ρ)) :
    own (name r) (events.map (Event.map name)) = (own r events).map (Event.map name) := by
  unfold own
  rw [List.filter_map]
  refine congrArg _ (List.filter_congr fun e _ => ?_)
  rw [Function.comp_apply, Event.resource_map]
  exact decide_eq_decide.mpr injective.eq_iff

omit [DecidableEq ρ] in
theorem own_map_eq_nil [DecidableEq τ] {name : ρ → τ} {t : τ} (other : ∀ r, name r ≠ t) (events : List (Event ρ)) :
    own t (events.map (Event.map name)) = [] := by
  refine own_eq_nil fun e member => ?_
  obtain ⟨original, _, rfl⟩ := List.mem_map.mp member
  rw [Event.resource_map]
  exact other _

/-- A loop whose turns are about resources of their own shows a resource the turn it belongs to. -/
theorem own_loopAt {α : Type} {r : ρ} {turns : Nat → α → List (Event ρ)} (k : Nat)
    (apart : ∀ j a, j ≠ k → own r (turns j a) = []) (i : Nat) (xs : List α) :
    own r (loopAt turns i xs) = if i ≤ k then (xs[k - i]?).elim [] fun a => own r (turns k a) else [] := by
  induction xs generalizing i with
  | nil => rw [loopAt, own_nil, List.getElem?_nil, Option.elim_none, ite_self]
  | cons x xs ih =>
    rw [loopAt, own_append, ih]
    by_cases here : i = k
    · subst here
      rw [if_neg (by omega), if_pos (Nat.le_refl i), Nat.sub_self, List.append_nil]
      rfl
    · rw [apart i x here, List.nil_append]
      by_cases later : i ≤ k
      · have index : k - i = k - (i + 1) + 1 := by omega
        rw [if_pos later, if_pos (by omega), index, List.getElem?_cons_succ]
      · rw [if_neg later, if_neg (by omega)]

/-- What no turn changes the loop does not change. -/
theorem history_loopAt {α : Type} {r : ρ} {turns : Nat → α → List (Event ρ)} {held : Bool}
    (keeps : ∀ j a, history held (own r (turns j a)) = some held) (i : Nat) (xs : List α) :
    history held (own r (loopAt turns i xs)) = some held := by
  induction xs generalizing i with
  | nil => rfl
  | cons x xs ih =>
    rw [loopAt, own_append, history_append, keeps i x]
    exact ih (i + 1)

/-- A loop does to a resource what the turn does that is about it. -/
theorem history_loopAt_turn {α : Type} {r : ρ} {turns : Nat → α → List (Event ρ)} {held after : Bool} {xs : List α} (k : Nat)
    (apart : ∀ j a, j ≠ k → own r (turns j a) = [])
    (turned : ∀ a, xs[k]? = some a → history held (own r (turns k a)) = some after) (outside : xs.length ≤ k → held = after) :
    history held (own r (loopAt turns 0 xs)) = some after := by
  rw [own_loopAt k apart, if_pos (Nat.zero_le k), Nat.sub_zero]
  cases found : xs[k]? with
  | none => exact congrArg some (outside (List.getElem?_eq_none_iff.mp found))
  | some a => exact turned a found

@[simp] theorem own_loopAt_eq_nil {α : Type} {r : ρ} {turns : Nat → α → List (Event ρ)}
    (other : ∀ j a, own r (turns j a) = []) (i : Nat) (xs : List α) : own r (loopAt turns i xs) = [] := by
  induction xs generalizing i with
  | nil => rfl
  | cons x xs ih => rw [loopAt, own_append, other i x, ih, List.nil_append]

theorem mem_place {resource r : ρ} {held : Finset ρ} {after : Bool} :
    r ∈ place resource held after ↔ if resource = r then after = true else r ∈ held := by
  unfold place
  by_cases same : resource = r
  · subst same
    cases after <;> simp
  · have apart : r ≠ resource := Ne.symm same
    cases after <;> simp [same, apart]

/-- The ledger stands a run of events exactly when each resource stands its own. -/
theorem run_eq_some_iff {held after : Finset ρ} {events : List (Event ρ)} :
    (ledger ρ).run held events = some after ↔
      ∀ r, history (decide (r ∈ held)) (own r events) = some (decide (r ∈ after)) := by
  induction events generalizing held with
  | nil =>
    simp only [StepSystem.run_nil, Option.some.injEq, own_nil, history, decide_eq_decide]
    exact Finset.ext_iff
  | cons e events ih =>
    rw [StepSystem.run_cons_eq_some]
    have elsewhere {r : ρ} (apart : ¬ e.resource = r) (now : Bool) :
        decide (r ∈ place e.resource held now) = decide (r ∈ held) := by simp [mem_place, apart]
    have here (now : Bool) : decide (e.resource ∈ place e.resource held now) = now := by simp [mem_place]
    constructor
    · rintro ⟨next, taken, rest⟩ r
      obtain ⟨now, turned, rfl⟩ := Option.map_eq_some_iff.mp taken
      have later := ih.mp rest r
      rw [own_cons]
      by_cases same : e.resource = r
      · subst same
        rw [here] at later
        rw [if_pos rfl, history, turned]
        exact later
      · rw [elsewhere same] at later
        rw [if_neg same]
        exact later
    · intro stands
      have turned := stands e.resource
      rw [own_cons, if_pos rfl] at turned
      obtain ⟨now, turned, rest⟩ := Option.bind_eq_some_iff.mp turned
      refine ⟨place e.resource held now, Option.map_eq_some_iff.mpr ⟨now, turned, rfl⟩, ih.mpr fun r => ?_⟩
      by_cases same : e.resource = r
      · subst same
        rw [here]
        exact rest
      · have other := stands r
        rw [own_cons, if_neg same] at other
        rw [elsewhere same]
        exact other

/-- If each resource stands its own events, the ledger stands them all, and is left with those
that their own events leave held. -/
theorem run_of_histories {held : Finset ρ} {events : List (Event ρ)} {Kept : ρ → Prop}
    (stands : ∀ r, ∃ after, history (decide (r ∈ held)) (own r events) = some after ∧ (after = true ↔ Kept r)) :
    ∃ after, (ledger ρ).run held events = some after ∧ ∀ r, r ∈ after ↔ Kept r := by
  let mentioned : Finset ρ := held ∪ (events.map Event.resource).toFinset
  let after := mentioned.filter fun r => history (decide (r ∈ held)) (own r events) = some true
  have kept (r : ρ) : r ∈ after ↔ history (decide (r ∈ held)) (own r events) = some true := by
    rw [Finset.mem_filter, and_iff_right_iff_imp]
    intro ends
    by_contra absent
    obtain ⟨unheld, silent⟩ : r ∉ held ∧ r ∉ (events.map Event.resource).toFinset := by
      rw [← not_or, ← Finset.mem_union]
      exact absent
    have nothing : own r events = [] := own_eq_nil fun e member same =>
      silent (List.mem_toFinset.mpr (List.mem_map.mpr ⟨e, member, same⟩))
    rw [nothing, decide_eq_false unheld, history] at ends
    cases ends
  refine ⟨after, run_eq_some_iff.mpr fun r => ?_, fun r => ?_⟩
  · obtain ⟨ends, there, _⟩ := stands r
    rw [there]
    refine congrArg some (Bool.eq_iff_iff.mpr ?_)
    rw [decide_eq_true_iff, kept, there, Option.some.injEq]
  · obtain ⟨ends, there, same⟩ := stands r
    rw [kept, there, Option.some.injEq]
    exact same

end Ledger

end ResourceTrace
