import Mathlib.Data.Nat.Digits.Defs
import Mathlib.Data.List.Basic

/-! Strings and integers in JSON text, and sequences of items up to a closing byte. -/

namespace JsonText

abbrev Bytes := List UInt8

variable {α : Type}

/-- Items up to a closing byte; an item is told whether it is the first. -/
def readMany (close : UInt8) (item : Bool → Bytes → Option (α × Bytes)) :
    Nat → Bool → Bytes → Option (List α × Bytes)
  | 0, _, _ => none
  | _, _, [] => none
  | n + 1, first, c :: rest =>
    if c = close then some ([], rest)
    else (item first (c :: rest)).bind fun read =>
      (readMany close item n false read.2).map fun more => (read.1 :: more.1, more.2)

def printMany (close : UInt8) (item : Bool → α → Bytes) : Bool → List α → Bytes
  | _, [] => [close]
  | first, x :: rest => item first x ++ printMany close item false rest

theorem printMany_pos (close : UInt8) (item : Bool → α → Bytes) (first : Bool) (xs : List α) :
    0 < (printMany close item first xs).length := by
  induction xs generalizing first with
  | nil => exact Nat.zero_lt_one
  | cons x rest ih =>
    have later := ih false
    rw [printMany, List.length_append]
    omega

theorem length_item_lt (close : UInt8) (item : Bool → α → Bytes) {xs : List α} {x : α} (member : x ∈ xs)
    (first : Bool) : ∃ flag, (item flag x).length < (printMany close item first xs).length := by
  induction xs generalizing first with
  | nil => cases member
  | cons y rest ih =>
    rw [printMany, List.length_append]
    rcases List.mem_cons.mp member with rfl | later
    · refine ⟨first, ?_⟩
      have := printMany_pos close item false rest
      omega
    · obtain ⟨flag, shorter⟩ := ih later false
      exact ⟨flag, by omega⟩

theorem readMany_printMany {close : UInt8} {read : Bool → Bytes → Option (α × Bytes)} {item : Bool → α → Bytes}
    (Follows : Bytes → Prop) {xs : List α} {tail : Bytes} {n : Nat} (enough : xs.length < n) (first : Bool)
    (starts : ∀ x ∈ xs, ∀ flag, ∃ c rest, item flag x = c :: rest ∧ c ≠ close)
    (closes : Follows (close :: tail)) (goesOn : ∀ x ∈ xs, ∀ s, Follows (item false x ++ s))
    (reads : ∀ x ∈ xs, ∀ flag s, Follows s → read flag (item flag x ++ s) = some (x, s)) :
    readMany close read n first (printMany close item first xs ++ tail) = some (xs, tail) := by
  induction xs generalizing n first with
  | nil =>
    obtain ⟨n, rfl⟩ := Nat.exists_eq_add_one_of_ne_zero (Nat.ne_of_gt enough)
    rw [printMany, List.cons_append, List.nil_append, readMany, if_pos rfl]
  | cons x rest ih =>
    obtain ⟨n, rfl⟩ := Nat.exists_eq_add_one_of_ne_zero (Nat.ne_zero_of_lt enough)
    have later := ih (Nat.lt_of_succ_lt_succ enough) false
      (fun y member => starts y (List.mem_cons_of_mem _ member))
      (fun y member => goesOn y (List.mem_cons_of_mem _ member))
      (fun y member => reads y (List.mem_cons_of_mem _ member))
    have follows : Follows (printMany close item false rest ++ tail) := by
      cases rest with
      | nil => exact closes
      | cons y rest =>
        rw [printMany, List.append_assoc]
        exact goesOn y (List.mem_cons_of_mem _ (List.mem_cons_self ..)) _
    have one := reads x (List.mem_cons_self ..) first _ follows
    obtain ⟨c, body, shape, other⟩ := starts x (List.mem_cons_self ..) first
    rw [printMany, List.append_assoc]
    rw [shape, List.cons_append] at one ⊢
    rw [readMany, if_neg other, one, Option.bind_some, later, Option.map_some]

/-- A reader that succeeds does so on every longer text, and leaves the addition. -/
def Extends (read longer : Bytes → Option (α × Bytes)) : Prop :=
  ∀ text x rest more, read text = some (x, rest) → longer (text ++ more) = some (x, rest ++ more)

theorem readMany_extends (close : UInt8) {read longer : Bool → Bytes → Option (α × Bytes)} {n m : Nat}
    (item : ∀ flag, Extends (read flag) (longer flag)) (more : n ≤ m) (first : Bool) :
    Extends (readMany close read n first) (readMany close longer m first) := by
  induction n generalizing m first with
  | zero => exact nofun
  | succ n ih =>
    intro text xs rest addition done
    obtain ⟨m, rfl⟩ := Nat.exists_eq_add_one_of_ne_zero (Nat.ne_zero_of_lt more)
    cases text with
    | nil => cases done
    | cons c text =>
      rw [readMany] at done
      rw [List.cons_append, readMany]
      by_cases closed : c = close
      · rw [if_pos closed] at done ⊢
        cases done
        rfl
      · rw [if_neg closed] at done ⊢
        obtain ⟨⟨x, middle⟩, one, others⟩ := Option.bind_eq_some_iff.mp done
        obtain ⟨⟨ys, last⟩, later, same⟩ := Option.map_eq_some_iff.mp others
        cases same
        rw [← List.cons_append, item first _ x middle addition one, Option.bind_some,
          ih (Nat.le_of_succ_le_succ more) false middle ys last addition later]
        rfl

/-! Strings. -/

def hexDigit (n : Nat) : UInt8 := UInt8.ofNat (if n < 10 then 0x30 + n else 0x57 + n)

def hexValue (c : UInt8) : Nat := if c < 0x3A then c.toNat - 0x30 else c.toNat - 0x57

/-- Quotes, backslashes, control bytes and the three HTML bytes are escaped. -/
def escapeByte (b : UInt8) : Bytes :=
  if b = 0x22 ∨ b = 0x5C then [0x5C, b]
  else if b = 0x0A then [0x5C, 0x6E]
  else if b = 0x0D then [0x5C, 0x72]
  else if b = 0x09 then [0x5C, 0x74]
  else if b < 0x20 ∨ b = 0x3C ∨ b = 0x3E ∨ b = 0x26 then
    [0x5C, 0x75, 0x30, 0x30, hexDigit (b.toNat / 16), hexDigit (b.toNat % 16)]
  else [b]

/-- The byte that a one-letter escape stands for. -/
def unescape (e : UInt8) : Option UInt8 :=
  if e = 0x22 ∨ e = 0x5C then some e
  else if e = 0x6E then some 0x0A
  else if e = 0x72 then some 0x0D
  else if e = 0x74 then some 0x09
  else none

def readHex : Bytes → Option (UInt8 × Bytes)
  | a :: b :: high :: low :: rest =>
    if a = 0x30 ∧ b = 0x30 then some (UInt8.ofNat (16 * hexValue high + hexValue low), rest) else none
  | _ => none

def readByte : Bytes → Option (UInt8 × Bytes)
  | [] => none
  | [c] => if c = 0x5C then none else some (c, [])
  | c :: e :: rest =>
    if c ≠ 0x5C then some (c, e :: rest)
    else if e = 0x75 then readHex rest
    else (unescape e).map fun b => (b, rest)

def quote (text : Bytes) : Bytes := 0x22 :: printMany 0x22 (fun _ => escapeByte) true text

def readQuoted : Bytes → Option (Bytes × Bytes)
  | 0x22 :: rest => readMany 0x22 (fun _ => readByte) rest.length true rest
  | _ => none

theorem hex_byte (b : UInt8) :
    UInt8.ofNat (16 * hexValue (hexDigit (b.toNat / 16)) + hexValue (hexDigit (b.toNat % 16))) = b := by
  have digit : ∀ n < 16, hexValue (hexDigit n) = n := by decide
  have bound := b.toNat_lt
  rw [digit _ (by omega), digit _ (by omega), Nat.div_add_mod, UInt8.ofNat_toNat]

theorem readByte_plain {c : UInt8} (plain : c ≠ 0x5C) (s : Bytes) : readByte (c :: s) = some (c, s) := by
  cases s with
  | nil => rw [readByte, if_neg plain]
  | cons e rest => rw [readByte, if_pos plain]

theorem readByte_escapeByte (b : UInt8) (s : Bytes) : readByte (escapeByte b ++ s) = some (b, s) := by
  unfold escapeByte
  split
  · rename_i marked
    have other : b ≠ 0x75 := by
      rintro rfl
      revert marked
      decide
    simp [readByte, unescape, marked, other]
  split
  · rename_i newline
    simp [readByte, unescape, newline]
  split
  · rename_i carriageReturn
    simp [readByte, unescape, carriageReturn]
  split
  · rename_i tab
    simp [readByte, unescape, tab]
  split
  · simp only [List.cons_append, List.nil_append, readByte, readHex, hex_byte, ne_eq, not_true_eq_false,
      if_false, if_true, and_self]
  · rename_i marked _ _ _ _
    exact readByte_plain (fun same => marked (Or.inr same)) s

theorem readHex_extends : Extends readHex readHex := by
  intro text x rest more done
  unfold readHex at done
  split at done
  · exact Option.ite_none_right_eq_some.mpr ((Option.ite_none_right_eq_some.mp done).imp_right fun same => by
      cases same
      rfl)
  · cases done

theorem readByte_extends : Extends readByte readByte := by
  intro text x rest more done
  cases text with
  | nil => cases done
  | cons c text =>
    by_cases plain : c = 0x5C
    · subst plain
      cases text with
      | nil => cases done
      | cons e text =>
        simp only [List.cons_append, readByte, ne_eq, not_true_eq_false, if_false] at done ⊢
        split at done
        · rename_i hex
          rw [if_pos hex]
          exact readHex_extends _ _ _ more done
        · rename_i letter
          obtain ⟨b, known, same⟩ := Option.map_eq_some_iff.mp done
          cases same
          rw [if_neg letter, known]
          rfl
    · rw [readByte_plain plain] at done
      cases done
      exact readByte_plain plain _

theorem escapeByte_starts (b : UInt8) : ∃ c rest, escapeByte b = c :: rest ∧ c ≠ 0x22 := by
  unfold escapeByte
  split
  · exact ⟨_, _, rfl, by decide⟩
  split
  · exact ⟨_, _, rfl, by decide⟩
  split
  · exact ⟨_, _, rfl, by decide⟩
  split
  · exact ⟨_, _, rfl, by decide⟩
  split
  · exact ⟨_, _, rfl, by decide⟩
  · rename_i marked _ _ _ _
    exact ⟨_, _, rfl, fun same => marked (Or.inl same)⟩

theorem length_lt_printMany {close : UInt8} {item : Bool → α → Bytes} {xs : List α} (first : Bool)
    (starts : ∀ x ∈ xs, ∀ flag, item flag x ≠ []) : xs.length < (printMany close item first xs).length := by
  induction xs generalizing first with
  | nil => exact Nat.zero_lt_one
  | cons x rest ih =>
    have later := ih false fun y member => starts y (List.mem_cons_of_mem _ member)
    have some := List.length_pos_iff.mpr (starts x (List.mem_cons_self ..) first)
    rw [printMany, List.length_append, List.length_cons]
    omega

theorem readQuoted_quote (text tail : Bytes) : readQuoted (quote text ++ tail) = some (text, tail) := by
  unfold quote
  rw [List.cons_append, readQuoted]
  refine readMany_printMany (fun _ => True) ?_ true (fun b _ _ => escapeByte_starts b) trivial
    (fun _ _ _ => trivial) (fun b _ _ s _ => readByte_escapeByte b s)
  rw [List.length_append]
  have long : text.length < (printMany 0x22 (fun _ => escapeByte) true text).length :=
    length_lt_printMany true fun b _ _ => by
      obtain ⟨c, rest, shape, _⟩ := escapeByte_starts b
      rw [shape]
      exact List.cons_ne_nil _ _
  omega

theorem readQuoted_extends : Extends readQuoted readQuoted := by
  intro text x rest more done
  unfold readQuoted at done
  split at done
  · rename_i body
    have longer : body.length ≤ (body ++ more).length := by
      rw [List.length_append]
      omega
    exact readMany_extends 0x22 (fun _ => readByte_extends) longer true _ _ _ more done
  · cases done

/-! Numbers. A number ends at the byte that follows it, so it is read inside an array or an
object only. -/

def isDigit (c : UInt8) : Bool := 0x30 ≤ c && c ≤ 0x39

def printNatural (n : Nat) : Bytes :=
  if n = 0 then [0x30] else (Nat.digits 10 n).reverse.map fun d => UInt8.ofNat (0x30 + d)

def naturalOf (digits : Bytes) : Nat := Nat.ofDigits 10 (digits.reverse.map fun c => c.toNat - 0x30)

def readNatural (text : Bytes) : Option (Nat × Bytes) :=
  if text.takeWhile isDigit ≠ [] ∧ text.dropWhile isDigit ≠ [] then
    some (naturalOf (text.takeWhile isDigit), text.dropWhile isDigit)
  else none

def printInteger (n : Int) : Bytes :=
  if n < 0 then 0x2D :: printNatural n.natAbs else printNatural n.natAbs

def readInteger : Bytes → Option (Int × Bytes)
  | [] => none
  | c :: rest =>
    if c = 0x2D then (readNatural rest).map fun read => (-(read.1 : Int), read.2)
    else (readNatural (c :: rest)).map fun read => ((read.1 : Int), read.2)

/-- The text goes on with a byte that is no digit. -/
def Delimited (s : Bytes) : Prop := ∃ c rest, s = c :: rest ∧ isDigit c = false

theorem digit_byte (d : Nat) (small : d < 10) :
    isDigit (UInt8.ofNat (0x30 + d)) = true ∧ (UInt8.ofNat (0x30 + d)).toNat - 0x30 = d := by
  revert d
  decide

theorem printNatural_digits (n : Nat) : ∀ c ∈ printNatural n, isDigit c = true := by
  intro c member
  unfold printNatural at member
  split at member
  · cases List.mem_singleton.mp member
    decide
  · obtain ⟨d, digit, rfl⟩ := List.mem_map.mp member
    exact (digit_byte d (Nat.digits_lt_base (by decide) (List.mem_reverse.mp digit))).1

theorem printNatural_ne_nil (n : Nat) : printNatural n ≠ [] := by
  unfold printNatural
  split
  · exact List.cons_ne_nil _ _
  · rename_i positive
    rw [Ne, List.map_eq_nil_iff, List.reverse_eq_nil_iff]
    exact Nat.digits_ne_nil_iff_ne_zero.mpr positive

theorem naturalOf_printNatural (n : Nat) : naturalOf (printNatural n) = n := by
  unfold printNatural naturalOf
  split
  · rename_i zero
    rw [zero]
    rfl
  · simp only [List.map_reverse, List.reverse_reverse, List.map_map]
    have same : (Nat.digits 10 n).map ((fun c : UInt8 => c.toNat - 0x30) ∘ fun d => UInt8.ofNat (0x30 + d)) =
        Nat.digits 10 n := by
      refine (List.map_congr_left fun d digit => ?_).trans (List.map_id _)
      exact (digit_byte d (Nat.digits_lt_base (by decide) digit)).2
    rw [same, Nat.ofDigits_digits]

theorem readNatural_printNatural (n : Nat) {s : Bytes} (delimited : Delimited s) :
    readNatural (printNatural n ++ s) = some (n, s) := by
  obtain ⟨c, rest, rfl, other⟩ := delimited
  have digits := printNatural_digits n
  have stop : ¬ isDigit c = true := by
    rw [other]
    exact Bool.false_ne_true
  unfold readNatural
  rw [List.takeWhile_append_of_pos digits, List.dropWhile_append_of_pos digits,
    List.takeWhile_cons_of_neg stop, List.dropWhile_cons_of_neg stop, List.append_nil,
    if_pos ⟨printNatural_ne_nil n, List.cons_ne_nil _ _⟩, naturalOf_printNatural]

theorem readNatural_extends : Extends readNatural readNatural := by
  intro text n rest more done
  unfold readNatural at done
  obtain ⟨⟨digits, stop⟩, same⟩ := Option.ite_none_right_eq_some.mp done
  cases same
  have dropped : (text ++ more).dropWhile isDigit = text.dropWhile isDigit ++ more := by
    rw [List.dropWhile_append, if_neg (by rwa [List.isEmpty_iff])]
  have taken : (text ++ more).takeWhile isDigit = text.takeWhile isDigit := by
    rw [List.takeWhile_append, if_neg]
    intro whole
    have parts := congrArg List.length (List.takeWhile_append_dropWhile (p := isDigit) (l := text))
    rw [List.length_append, whole] at parts
    exact stop (List.eq_nil_of_length_eq_zero (by omega))
  unfold readNatural
  rw [taken, dropped, if_pos ⟨digits, fun empty => stop (List.append_eq_nil_iff.mp empty).1⟩]

theorem readInteger_printInteger (n : Int) {s : Bytes} (delimited : Delimited s) :
    readInteger (printInteger n ++ s) = some (n, s) := by
  have read := readNatural_printNatural n.natAbs delimited
  unfold printInteger
  split
  · rw [List.cons_append, readInteger, if_pos rfl, read, Option.map_some]
    simp only [Option.some.injEq, Prod.mk.injEq, and_true]
    omega
  · obtain ⟨c, digits, shape⟩ := List.exists_cons_of_ne_nil (printNatural_ne_nil n.natAbs)
    have digit := printNatural_digits n.natAbs c (by rw [shape]; exact List.mem_cons_self ..)
    have other : c ≠ 0x2D := by
      rintro rfl
      revert digit
      decide
    rw [shape] at read ⊢
    rw [List.cons_append] at read ⊢
    rw [readInteger, if_neg other, read, Option.map_some]
    simp only [Option.some.injEq, Prod.mk.injEq, and_true]
    omega

theorem readInteger_extends : Extends readInteger readInteger := by
  intro text n rest more done
  cases text with
  | nil => cases done
  | cons c text =>
    rw [readInteger] at done
    rw [List.cons_append, readInteger]
    split at done
    · rename_i minus
      obtain ⟨⟨m, r⟩, read, same⟩ := Option.map_eq_some_iff.mp done
      cases same
      rw [if_pos minus, readNatural_extends _ _ _ more read]
      rfl
    · rename_i plus
      obtain ⟨⟨m, r⟩, read, same⟩ := Option.map_eq_some_iff.mp done
      cases same
      rw [if_neg plus, ← List.cons_append, readNatural_extends _ _ _ more read]
      rfl

end JsonText
