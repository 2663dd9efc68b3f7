import Mathlib.Data.List.Basic

namespace ByteBuffer
universe u
variable {α : Type u}

/-- The array after `data` has been copied over its beginning, as far as it reaches. -/
def overwrite (array data : List α) : List α :=
  data.take array.length ++ array.drop data.length

/-- The half-open range of an array that a slice looks through. A slice holds no elements
of its own: reading it shows what the array holds then. -/
structure Window where
  lo : Nat
  hi : Nat
  deriving DecidableEq, Repr

/-- The slice rule: the bounds are ordered and lie within the capacity. -/
def slice (capacity lo hi : Nat) : Option Window :=
  if lo ≤ hi ∧ hi ≤ capacity then some ⟨lo, hi⟩ else none

def Window.read (window : Window) (array : List α) : List α :=
  (array.take window.hi).drop window.lo

/-- The block after `data` has been copied into it at an offset. -/
def store (block : List α) (offset : Nat) (data : List α) : List α :=
  block.take offset ++ overwrite (block.drop offset) data

/-- A store at an index that may be negative, refused where it would leave the block. -/
def storeWithin (block : List α) (index : Int) (data : List α) : Option (List α) :=
  if 0 ≤ index ∧ index.toNat + data.length ≤ block.length then some (store block index.toNat data) else none

@[simp] theorem overwrite_length (array data : List α) :
    (overwrite array data).length = array.length := by
  simp only [overwrite, List.length_append, List.length_take, List.length_drop]
  omega

@[simp] theorem store_length (block : List α) (offset : Nat) (data : List α) :
    (store block offset data).length = block.length := by
  rw [store, List.length_append, overwrite_length, ← List.length_append, List.take_append_drop]

theorem storeWithin_isSome {block : List α} {index : Int} {data : List α} :
    (storeWithin block index data).isSome ↔ 0 ≤ index ∧ index.toNat + data.length ≤ block.length := by
  unfold storeWithin
  split
  · rename_i inside
    exact iff_of_true rfl inside
  · rename_i outside
    exact iff_of_false Bool.false_ne_true outside

theorem overwrite_getElem? (array data : List α) (i : Nat) :
    (overwrite array data)[i]? =
      if i < array.length ∧ i < data.length then data[i]? else array[i]? := by
  simp only [overwrite, List.getElem?_append, List.length_take, List.getElem?_take, List.getElem?_drop]
  by_cases inside : i < min array.length data.length
  · have both : i < array.length ∧ i < data.length := by omega
    simp only [if_pos inside, both.1, both, and_self, if_true]
  · simp only [if_neg inside]
    by_cases short : data.length ≤ array.length
    · have past : ¬ (i < array.length ∧ i < data.length) := by omega
      rw [if_neg past, show data.length + (i - min array.length data.length) = i by omega]
    · have past : ¬ (i < array.length ∧ i < data.length) := by omega
      rw [if_neg past, List.getElem?_eq_none (by omega), List.getElem?_eq_none (by omega)]

theorem overwrite_getElem?_data {array data : List α} {i : Nat}
    (inArray : i < array.length) (inData : i < data.length) :
    (overwrite array data)[i]? = data[i]? := by
  rw [overwrite_getElem?, if_pos ⟨inArray, inData⟩]

theorem overwrite_of_le {array data : List α} (fits : data.length ≤ array.length) :
    overwrite array data = data ++ array.drop data.length := by
  rw [overwrite, List.take_of_length_le fits]

/-- Copying again what is already there changes nothing. -/
theorem overwrite_overwrite_prefix {array data more : List α} (starts : data <+: more) :
    overwrite (overwrite array more) data = overwrite array more := by
  apply List.ext_getElem?
  intro i
  by_cases covered : i < array.length ∧ i < data.length
  · obtain ⟨inArray, inData⟩ := covered
    have inMore : i < more.length := Nat.lt_of_lt_of_le inData starts.length_le
    rw [overwrite_getElem?_data (by rw [overwrite_length]; exact inArray) inData,
      overwrite_getElem?_data inArray inMore]
    obtain ⟨tail, rfl⟩ := starts
    rw [List.getElem?_append_left inData]
  · rw [overwrite_getElem?, overwrite_length, if_neg covered]

/-- A store that stays within the block replaces just the bytes it covers. -/
theorem store_append {before old after data : List α} (length : data.length = old.length) :
    store (before ++ (old ++ after)) before.length data = before ++ (data ++ after) := by
  have room : data.length ≤ (old ++ after).length := by
    rw [length, List.length_append]
    omega
  rw [store, List.take_left, List.drop_left, overwrite_of_le room, List.drop_left' length.symm]

theorem slice_eq_some {capacity lo hi : Nat} {window : Window} :
    slice capacity lo hi = some window ↔ window = ⟨lo, hi⟩ ∧ lo ≤ hi ∧ hi ≤ capacity := by
  unfold slice
  split
  · rename_i ordered
    simp only [Option.some.injEq]
    exact ⟨fun same => ⟨same.symm, ordered⟩, fun same => same.1.symm⟩
  · rename_i refused
    simp only [reduceCtorEq, false_iff]
    exact fun same => refused same.2

namespace Window

theorem read_getElem? (window : Window) (array : List α) (i : Nat) :
    (window.read array)[i]? = if window.lo + i < window.hi then array[window.lo + i]? else none := by
  simp only [read, List.getElem?_drop, List.getElem?_take]

theorem read_length (window : Window) (array : List α) :
    (window.read array).length = min window.hi array.length - window.lo := by
  simp only [read, List.length_drop, List.length_take]

/-- Two arrays look alike through a window exactly when they agree at each of its indices. -/
theorem read_eq_iff (window : Window) (array other : List α) :
    window.read array = window.read other ↔
      ∀ i, window.lo ≤ i → i < window.hi → array[i]? = other[i]? := by
  constructor
  · intro same i lower upper
    have at_i := congrArg (fun xs => xs[i - window.lo]?) same
    simpa only [read_getElem?, Nat.add_sub_cancel' lower, upper, if_true] using at_i
  · intro agree
    apply List.ext_getElem?
    intro i
    simp only [read_getElem?]
    split
    · rename_i inside
      exact agree _ (Nat.le_add_right _ _) inside
    · rfl

/-- A window that the copied data fills shows the data. -/
theorem read_overwrite {window : Window} {array data : List α}
    (inArray : window.hi ≤ array.length) (inData : window.hi ≤ data.length) :
    window.read (overwrite array data) = window.read data := by
  rw [read_eq_iff]
  intro i _ upper
  exact overwrite_getElem?_data (by omega) (by omega)

end Window

end ByteBuffer
