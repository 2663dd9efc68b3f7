import Mathlib.Data.List.Basic

/-- The bytes of a process by their address. -/
abbrev Memory := Nat → UInt8

namespace Memory
variable (memory : Memory)

/-- The bytes from an address on. -/
def read : Nat → Nat → List UInt8
  | _, 0 => []
  | address, size + 1 => memory address :: read (address + 1) size

def Holds (address : Nat) (bytes : List UInt8) : Prop := memory.read address bytes.length = bytes

instance (address : Nat) (bytes : List UInt8) : Decidable (memory.Holds address bytes) :=
  inferInstanceAs (Decidable (_ = _))

/-- A pointer to a C string: its characters and, behind them, the first NUL. -/
structure CString (pointer : Nat) (text : List UInt8) : Prop where
  holds : memory.Holds pointer (text ++ [0])
  noNul : 0 ∉ text

variable {memory}

@[simp] theorem read_length (address size : Nat) : (memory.read address size).length = size := by
  induction size generalizing address with
  | zero => rfl
  | succ size ih => rw [read, List.length_cons, ih]

theorem read_add (address m n : Nat) :
    memory.read address (m + n) = memory.read address m ++ memory.read (address + m) n := by
  induction m generalizing address with
  | zero => simp [read]
  | succ m ih =>
    rw [Nat.succ_add, read, ih, read, List.cons_append, Nat.add_assoc address 1 m, Nat.add_comm 1 m]

theorem holds_append {address : Nat} {xs ys : List UInt8} :
    memory.Holds address (xs ++ ys) ↔ memory.Holds address xs ∧ memory.Holds (address + xs.length) ys := by
  rw [Holds, List.length_append, read_add]
  constructor
  · intro same
    exact List.append_inj same (read_length _ _)
  · rintro ⟨first, rest⟩
    exact congrArg₂ _ first rest

theorem holds_cons {address : Nat} {x : UInt8} {xs : List UInt8} :
    memory.Holds address (x :: xs) ↔ memory address = x ∧ memory.Holds (address + 1) xs := by
  rw [Holds, List.length_cons, read, List.cons.injEq, Holds]

/-- Bytes laid out at an address. -/
theorem holds_getD (pointer : Nat) (bytes : List UInt8) :
    Holds (fun address => bytes.getD (address - pointer) 0) pointer bytes := by
  suffices tail : ∀ n, read (fun address => bytes.getD (address - pointer) 0) (pointer + n) (bytes.length - n) =
      bytes.drop n from tail 0
  intro n
  obtain ⟨left, length⟩ : ∃ left, bytes.length - n = left := ⟨_, rfl⟩
  rw [length]
  induction left generalizing n with
  | zero => exact (List.drop_eq_nil_of_le (by omega)).symm
  | succ left ih =>
    have inside : n < bytes.length := by omega
    rw [read, Nat.add_assoc, ih (n + 1) (by omega), List.drop_eq_getElem_cons inside, Nat.add_sub_cancel_left,
      List.getD_eq_getElem?_getD, List.getElem?_eq_getElem inside, Option.getD_some]

/-- The bytes that lie somewhere, by their addresses. -/
theorem exists_byte_iff {pointer n : Nat} {bytes : List UInt8} (holds : memory.Holds pointer bytes) {x : UInt8} :
    (∃ address, pointer + n ≤ address ∧ address < pointer + bytes.length ∧ memory address = x) ↔ x ∈ bytes.drop n := by
  induction bytes generalizing pointer n with
  | nil =>
    refine iff_of_false ?_ (by simp)
    rintro ⟨address, after, before, _⟩
    rw [List.length_nil] at before
    omega
  | cons y ys ih =>
    obtain ⟨first, rest⟩ := holds_cons.mp holds
    rw [List.length_cons]
    cases n with
    | zero =>
      have behind := @ih (pointer + 1) 0 rest
      rw [List.drop_zero] at behind
      rw [List.drop_zero, List.mem_cons, ← behind]
      constructor
      · rintro ⟨address, after, before, here⟩
        by_cases start : address = pointer
        · subst start
          exact Or.inl (here.symm.trans first)
        · exact Or.inr ⟨address, by omega, by omega, here⟩
      · rintro (rfl | ⟨address, after, before, here⟩)
        · exact ⟨pointer, by omega, by omega, first⟩
        · exact ⟨address, by omega, by omega, here⟩
    | succ n =>
      rw [List.drop_succ_cons, ← ih rest]
      constructor
      · rintro ⟨address, after, before, here⟩
        exact ⟨address, by omega, by omega, here⟩
      · rintro ⟨address, after, before, here⟩
        exact ⟨address, by omega, by omega, here⟩

/-- The string a pointer starts ends within a bound exactly when there is a NUL before it. -/
theorem exists_cString_iff {pointer bound : Nat} :
    (∃ text, memory.CString pointer text ∧ pointer + text.length < bound) ↔
      ∃ address, pointer ≤ address ∧ address < bound ∧ memory address = 0 := by
  constructor
  · rintro ⟨text, ⟨holds, _⟩, inside⟩
    have nul := (holds_cons.mp (holds_append.mp holds).2).1
    exact ⟨pointer + text.length, Nat.le_add_right _ _, inside, nul⟩
  · rintro ⟨address, after, inside, nul⟩
    obtain ⟨distance, rfl⟩ := Nat.exists_eq_add_of_le after
    clear after
    -- the string stops at the first NUL, which may lie before the given one
    induction distance generalizing pointer with
    | zero => exact ⟨[], ⟨holds_cons.mpr ⟨nul, rfl⟩, List.not_mem_nil⟩, inside⟩
    | succ distance ih =>
      by_cases here : memory pointer = 0
      · exact ⟨[], ⟨holds_cons.mpr ⟨here, rfl⟩, List.not_mem_nil⟩, Nat.lt_of_le_of_lt (Nat.le_add_right _ _) inside⟩
      · have shift : pointer + (distance + 1) = pointer + 1 + distance := by omega
        rw [shift] at inside nul
        obtain ⟨text, ⟨holds, noNul⟩, ends⟩ := ih inside nul
        refine ⟨memory pointer :: text, ⟨holds_cons.mpr ⟨rfl, holds⟩, ?_⟩, ?_⟩
        · intro member
          rcases List.mem_cons.mp member with same | member
          · exact here same.symm
          · exact noNul member
        · rw [List.length_cons]
          omega

/-- A pointer spells one string. -/
theorem CString.unique {pointer : Nat} {text other : List UInt8} (one : memory.CString pointer text)
    (two : memory.CString pointer other) : text = other := by
  obtain ⟨holds, noNul⟩ := one
  obtain ⟨otherHolds, otherNoNul⟩ := two
  induction text generalizing pointer other with
  | nil =>
    cases other with
    | nil => rfl
    | cons y ys =>
      have here := (holds_cons.mp holds).1
      have there := (holds_cons.mp otherHolds).1
      exact absurd (here.symm.trans there ▸ List.mem_cons_self) otherNoNul
  | cons x xs ih =>
    obtain ⟨here, rest⟩ := holds_cons.mp holds
    cases other with
    | nil =>
      have there := (holds_cons.mp otherHolds).1
      exact absurd (there.symm.trans here ▸ List.mem_cons_self) noNul
    | cons y ys =>
      obtain ⟨there, otherRest⟩ := holds_cons.mp otherHolds
      rw [here.symm.trans there, ih rest (fun member => noNul (List.mem_cons_of_mem _ member)) otherRest
        (fun member => otherNoNul (List.mem_cons_of_mem _ member))]

end Memory
