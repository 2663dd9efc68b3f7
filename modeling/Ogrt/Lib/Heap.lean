import Mathlib.Logic.Function.Basic

/-! A heap of blocks that are allocated, stored to and freed. -/

universe u

/-- The blocks in use by their addresses. Addresses are handed out in order and not used again. -/
structure Heap (κ : Type u) where
  cells : Nat → Option κ
  next : Nat
  fresh : ∀ p, next ≤ p → cells p = none

namespace Heap
open Function
variable {κ : Type u}

theorem lt_next {heap : Heap κ} {p : Nat} (inUse : (heap.cells p).isSome) : p < heap.next := by
  by_contra outside
  rw [heap.fresh p (by omega)] at inUse
  cases inUse

theorem update_fresh {heap : Heap κ} {p : Nat} (below : p < heap.next) (content : Option κ) :
    ∀ q, heap.next ≤ q → update heap.cells p content q = none := by
  intro q outside
  rw [update_of_ne (by omega)]
  exact heap.fresh q outside

theorem alloc_fresh (heap : Heap κ) (content : κ) :
    ∀ q, heap.next + 1 ≤ q → update heap.cells heap.next (some content) q = none := by
  intro q outside
  rw [update_of_ne (by omega)]
  exact heap.fresh q (by omega)

/-- A new block; its address is the old `next`. -/
def alloc (heap : Heap κ) (content : κ) : Heap κ :=
  ⟨update heap.cells heap.next (some content), heap.next + 1, heap.alloc_fresh content⟩

/-- A store to a block in use. -/
def store (heap : Heap κ) (p : Nat) (content : κ) : Option (Heap κ) :=
  if inUse : (heap.cells p).isSome then
    some ⟨update heap.cells p (some content), heap.next, update_fresh (lt_next inUse) (some content)⟩
  else none

/-- A block is freed only while it is in use. -/
def free (heap : Heap κ) (p : Nat) : Option (Heap κ) :=
  if inUse : (heap.cells p).isSome then
    some ⟨update heap.cells p none, heap.next, update_fresh (lt_next inUse) none⟩
  else none

@[simp] theorem alloc_next (heap : Heap κ) (content : κ) : (heap.alloc content).next = heap.next + 1 := rfl

theorem alloc_self (heap : Heap κ) (content : κ) : (heap.alloc content).cells heap.next = some content :=
  update_self ..

theorem alloc_of_ne {heap : Heap κ} {content : κ} {p : Nat} (other : p ≠ heap.next) :
    (heap.alloc content).cells p = heap.cells p := update_of_ne other ..

theorem alloc_below {heap : Heap κ} {content : κ} {p : Nat} (below : p < heap.next) :
    (heap.alloc content).cells p = heap.cells p := alloc_of_ne (Nat.ne_of_lt below)

/-- A store changes the one block. -/
theorem store_spec {heap : Heap κ} {p : Nat} {old : κ} (inUse : heap.cells p = some old) (content : κ) :
    ∃ heap', heap.store p content = some heap' ∧ heap'.next = heap.next ∧
      heap'.cells = update heap.cells p (some content) := by
  have present : (heap.cells p).isSome := by rw [inUse]; rfl
  exact ⟨_, dif_pos present, rfl, rfl⟩

/-- Freeing takes the one block away. -/
theorem free_spec {heap : Heap κ} {p : Nat} {old : κ} (inUse : heap.cells p = some old) :
    ∃ heap', heap.free p = some heap' ∧ heap'.next = heap.next ∧ heap'.cells = update heap.cells p none := by
  have present : (heap.cells p).isSome := by rw [inUse]; rfl
  exact ⟨_, dif_pos present, rfl, rfl⟩

end Heap
