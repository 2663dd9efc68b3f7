import Mathlib.Data.List.Basic

/-! Computations that can fail, and when they do not. -/

namespace Checked
universe u v w
variable {ε : Type u} {α : Type v} {β : Type w}

def Succeeds (c : Except ε α) : Prop := ∃ a, c = .ok a

@[simp] theorem succeeds_ok (a : α) : Succeeds (.ok a : Except ε α) := ⟨a, rfl⟩

@[simp] theorem not_succeeds_error (e : ε) : ¬ Succeeds (.error e : Except ε α) := nofun

theorem bind_eq_ok {α β : Type v} {c : Except ε α} {f : α → Except ε β} {b : β} :
    c >>= f = .ok b ↔ ∃ a, c = .ok a ∧ f a = .ok b := by
  cases c with
  | error e => exact iff_of_false nofun nofun
  | ok a =>
    constructor
    · intro same
      exact ⟨a, rfl, same⟩
    · rintro ⟨_, same, result⟩
      cases same
      exact result

/-- A sequence succeeds when its first part does and then the rest on what that has left. -/
theorem succeeds_bind {α β : Type v} {c : Except ε α} {f : α → Except ε β} :
    Succeeds (c >>= f) ↔ ∃ a, c = .ok a ∧ Succeeds (f a) := by
  unfold Succeeds
  simp only [bind_eq_ok]
  constructor
  · rintro ⟨b, a, first, rest⟩
    exact ⟨a, first, b, rest⟩
  · rintro ⟨a, first, b, rest⟩
    exact ⟨b, a, first, rest⟩

/-- A check in front. -/
theorem succeeds_bind_unit {β : Type} {c : Except ε Unit} {f : Unit → Except ε β} :
    Succeeds (c >>= f) ↔ Succeeds c ∧ Succeeds (f ()) := by
  rw [succeeds_bind]
  exact ⟨fun ⟨_, done, rest⟩ => ⟨⟨_, done⟩, rest⟩, fun ⟨⟨_, done⟩, rest⟩ => ⟨_, done, rest⟩⟩

/-- When the rest cannot fail, the first part decides. -/
theorem succeeds_bind_of_forall {α β : Type v} {c : Except ε α} {f : α → Except ε β}
    (rest : ∀ a, Succeeds (f a)) : Succeeds (c >>= f) ↔ Succeeds c := by
  rw [succeeds_bind]
  exact exists_congr fun a => and_iff_left (rest a)

/-- A result that is there, or a failure in its place. -/
def orFail (failure : ε) : Option α → Except ε α
  | some a => .ok a
  | none => .error failure

@[simp] theorem orFail_eq_ok {failure : ε} {o : Option α} {a : α} : orFail failure o = .ok a ↔ o = some a := by
  cases o with
  | none => exact iff_of_false nofun nofun
  | some b => exact ⟨fun same => congrArg some (Except.ok.inj same), fun same => congrArg Except.ok (Option.some.inj same)⟩

@[simp] theorem succeeds_orFail {failure : ε} {o : Option α} : Succeeds (orFail failure o) ↔ o.isSome := by
  cases o with
  | none => exact iff_of_false (not_succeeds_error _) Bool.false_ne_true
  | some a => exact iff_of_true (succeeds_ok a) rfl

/-- A loop over a list that knows the index of each element. -/
def mapAt (f : Nat → α → Except ε β) : Nat → List α → Except ε (List β)
  | _, [] => .ok []
  | i, a :: rest =>
    match f i a with
    | .error e => .error e
    | .ok b => (mapAt f (i + 1) rest).map (b :: ·)

theorem succeeds_map {c : Except ε α} {f : α → β} : Succeeds (c.map f) ↔ Succeeds c := by
  cases c with
  | error e => exact iff_of_false (not_succeeds_error e) (not_succeeds_error e)
  | ok a => exact iff_of_true ⟨f a, rfl⟩ ⟨a, rfl⟩

/-- The loop succeeds exactly when each of its turns does. -/
theorem succeeds_mapAt {f : Nat → α → Except ε β} {i : Nat} {xs : List α} :
    Succeeds (mapAt f i xs) ↔ ∀ j a, xs[j]? = some a → Succeeds (f (i + j) a) := by
  induction xs generalizing i with
  | nil => exact iff_of_true (succeeds_ok _) nofun
  | cons x rest ih =>
    have later : (∀ j a, rest[j]? = some a → Succeeds (f (i + 1 + j) a)) ↔
        ∀ j a, (x :: rest)[j + 1]? = some a → Succeeds (f (i + (j + 1)) a) := by
      simp only [List.getElem?_cons_succ, Nat.add_assoc, Nat.add_comm 1]
    rw [mapAt]
    cases here : f i x with
    | error e =>
      refine iff_of_false (not_succeeds_error e) fun each => ?_
      have first := each 0 x rfl
      rw [Nat.add_zero, here] at first
      exact not_succeeds_error e first
    | ok b =>
      dsimp only
      rw [succeeds_map, ih, later]
      constructor
      · intro each j a found
        cases j with
        | zero =>
          cases found
          exact ⟨b, here⟩
        | succ j => exact each j a found
      · intro each j
        exact each (j + 1)

/-- What the first turn and the later ones have made. -/
theorem mapAt_cons_eq_ok {f : Nat → α → Except ε β} {i : Nat} {x : α} {rest : List α} {ys : List β}
    (done : mapAt f i (x :: rest) = .ok ys) :
    ∃ y zs, f i x = .ok y ∧ mapAt f (i + 1) rest = .ok zs ∧ ys = y :: zs := by
  rw [mapAt] at done
  split at done
  · cases done
  · rename_i y here
    cases later : mapAt f (i + 1) rest with
    | error e =>
      rw [later] at done
      cases done
    | ok zs =>
      rw [later] at done
      exact ⟨y, zs, here, rfl, (Except.ok.inj done).symm⟩

theorem mapAt_length {f : Nat → α → Except ε β} {i : Nat} {xs : List α} {ys : List β} (done : mapAt f i xs = .ok ys) :
    ys.length = xs.length := by
  induction xs generalizing i ys with
  | nil =>
    cases done
    rfl
  | cons x rest ih =>
    obtain ⟨y, zs, _, later, rfl⟩ := mapAt_cons_eq_ok done
    rw [List.length_cons, List.length_cons, ih later]

/-- Each element of the result is what its turn has made. -/
theorem mapAt_getElem? {f : Nat → α → Except ε β} {i : Nat} {xs : List α} {ys : List β} (done : mapAt f i xs = .ok ys)
    {j : Nat} {a : α} (found : xs[j]? = some a) : ∃ b, ys[j]? = some b ∧ f (i + j) a = .ok b := by
  induction xs generalizing i j ys with
  | nil => cases found
  | cons x rest ih =>
    obtain ⟨y, zs, here, later, rfl⟩ := mapAt_cons_eq_ok done
    cases j with
    | zero =>
      cases found
      exact ⟨y, rfl, here⟩
    | succ j =>
      have index : i + (j + 1) = i + 1 + j := by omega
      rw [index]
      exact ih later found

end Checked
