import Mathlib.Data.List.Basic

universe u

namespace BlockExchange
variable {α : Type u}

/-- Two places exchange their elements. No result is a place outside the list. -/
def swap (xs : List α) (i j : Nat) : Option (List α) := do
  let x ← xs[i]?
  let y ← xs[j]?
  some ((xs.set i y).set j x)

/-- So many places from i on exchange their elements with those from j on, one by one. -/
def swapRange (xs : List α) (i j : Nat) : Nat → Option (List α)
  | 0 => some xs
  | len + 1 => (swap xs i j).bind fun ys => swapRange ys (i + 1) (j + 1) len

/-- The segments [bottom, middle) and [middle, top) change places. The shorter one goes to the far
end of the longer one, where it stays; the rest of the longer one is exchanged next. -/
def exchange (xs : List α) (bottom middle top : Nat) : Option (List α) :=
  if middle < top ∧ bottom < middle then
    if middle - bottom < top - middle then
      (swapRange xs bottom (top - (middle - bottom)) (middle - bottom)).bind fun ys =>
        exchange ys bottom middle (top - (middle - bottom))
    else
      (swapRange xs bottom middle (top - middle)).bind fun ys =>
        exchange ys (bottom + (top - middle)) middle top
  else some xs
termination_by top - bottom

theorem swap_append (front mid back : List α) (x y : α) :
    swap (front ++ x :: mid ++ y :: back) front.length (front.length + mid.length + 1) =
      some (front ++ y :: mid ++ x :: back) := by
  have first : (front ++ x :: mid ++ y :: back)[front.length]? = some x := by simp
  have place : front.length + mid.length + 1 = (front ++ x :: mid).length := by simp; omega
  have second : (front ++ x :: mid ++ y :: back)[front.length + mid.length + 1]? = some y := by
    rw [place, List.getElem?_append_right (Nat.le_refl _)]
    simp
  have moved : ((front ++ x :: mid ++ y :: back).set front.length y).set (front.length + mid.length + 1) x =
      front ++ y :: mid ++ x :: back := by
    rw [List.append_assoc, List.set_append_right _ _ (Nat.le_refl _), Nat.sub_self, Nat.add_assoc,
      List.set_append_right _ _ (Nat.le_add_right _ _), Nat.add_sub_cancel_left]
    simp
  simp only [swap, first, second, moved, Option.bind_eq_bind, Option.bind_some]

theorem swapRange_append (front xs mid ys back : List α) (size : ys.length = xs.length) :
    swapRange (front ++ xs ++ mid ++ ys ++ back) front.length (front.length + xs.length + mid.length) xs.length =
      some (front ++ ys ++ mid ++ xs ++ back) := by
  induction xs generalizing front mid ys with
  | nil =>
    obtain rfl := List.eq_nil_of_length_eq_zero size
    simp [swapRange]
  | cons x xs ih =>
    obtain ⟨y, ys, rfl⟩ := List.exists_cons_of_length_eq_add_one size
    have step := swap_append front (xs ++ mid) (ys ++ back) x y
    have later := ih (front ++ [y]) (mid ++ [x]) ys (Nat.succ.inj size)
    simp only [List.append_assoc, List.cons_append, List.nil_append, List.length_append, List.length_cons,
      List.length_nil] at step later ⊢
    rw [swapRange, show front.length + (xs.length + 1) + mid.length = front.length + (xs.length + mid.length) + 1 by omega,
      step, Option.bind_some, ← later]
    congr 1
    omega

theorem exists_append {n : Nat} {xs : List α} (inside : n ≤ xs.length) :
    ∃ near far, near ++ far = xs ∧ near.length = n ∧ far.length = xs.length - n :=
  ⟨xs.take n, xs.drop n, List.take_append_drop n xs, by rw [List.length_take]; omega, List.length_drop⟩

/-- Whatever the lengths of the two segments, each comes out whole and in its order. -/
theorem exchange_append (front xs ys back : List α) :
    exchange (front ++ xs ++ ys ++ back) front.length (front.length + xs.length)
      (front.length + xs.length + ys.length) = some (front ++ ys ++ xs ++ back) := by
  obtain ⟨size, total⟩ : ∃ size, xs.length + ys.length = size := ⟨_, rfl⟩
  induction size using Nat.strongRecOn generalizing front xs ys back with
  | ind size ih =>
    rw [exchange]
    split
    · rename_i both
      split
      · rename_i short
        -- the far end of ys is as long as xs
        obtain ⟨near, far, rfl, nearSize, farSize⟩ := exists_append (Nat.sub_le ys.length xs.length)
        have same : far.length = xs.length := by omega
        have moved := swapRange_append front xs near far back same
        have rest := ih (far.length + near.length) (by omega) front far near (xs ++ back) rfl
        simp only [List.append_assoc, List.length_append] at moved rest ⊢
        rw [show front.length + xs.length + (near.length + far.length) - (front.length + xs.length - front.length) =
            front.length + xs.length + near.length by omega, Nat.add_sub_cancel_left, moved, Option.bind_some, ← same, rest]
      · rename_i long
        -- the near end of xs is as long as ys
        obtain ⟨near, far, rfl, same, _⟩ := exists_append (show ys.length ≤ xs.length by omega)
        have moved := swapRange_append front near far ys back same.symm
        have rest := ih (far.length + near.length) (by rw [List.length_append] at total both; omega) (front ++ ys) far near
          back rfl
        simp only [List.append_assoc, List.length_append] at moved rest ⊢
        rw [show front.length + (near.length + far.length) + ys.length - (front.length + (near.length + far.length)) =
            near.length by omega, ← Nat.add_assoc, moved, Option.bind_some, ← rest, same,
          show front.length + ys.length + far.length = front.length + (ys.length + far.length) by omega]
    · rename_i stop
      by_cases noXs : xs = []
      · simp [noXs]
      · have some_xs := List.length_pos_iff.mpr noXs
        have noYs : ys = [] := List.eq_nil_of_length_eq_zero (by omega)
        simp [noYs]

end BlockExchange
