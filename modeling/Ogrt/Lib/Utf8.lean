import Mathlib.Data.List.Basic

/-! UTF-8 in byte strings: where a rune ends, and the coercion of invalid bytes to U+FFFD. -/

namespace Utf8

/-- The length of the rune that a first byte announces, or 0. -/
def leadLength (a : UInt8) : Nat :=
  if a < 0x80 then 1
  else if a < 0xC2 then 0
  else if a < 0xE0 then 2
  else if a < 0xF0 then 3
  else if a < 0xF5 then 4
  else 0

def continues (b : UInt8) : Bool := 0x80 ≤ b && b ≤ 0xBF

/-- The second byte may be any continuation byte, but for overlong forms, surrogates and
code points above U+10FFFF. -/
def second (a b : UInt8) : Bool :=
  if a = 0xE0 then 0xA0 ≤ b && b ≤ 0xBF
  else if a = 0xED then 0x80 ≤ b && b ≤ 0x9F
  else if a = 0xF0 then 0x90 ≤ b && b ≤ 0xBF
  else if a = 0xF4 then 0x80 ≤ b && b ≤ 0x8F
  else continues b

/-- Whether these bytes can follow the first byte of a rune. -/
def follows (a : UInt8) : List UInt8 → Bool
  | [] => true
  | b :: more => second a b && more.all continues

/-- The length of the rune at the head of the string, 0 where there is none. -/
def runeWidth : List UInt8 → Nat
  | [] => 0
  | a :: rest =>
    if leadLength a ≤ rest.length + 1 ∧ follows a (rest.take (leadLength a - 1)) then leadLength a else 0

/-- U+FFFD. -/
def replacement : List UInt8 := [0xEF, 0xBF, 0xBD]

/-- Copies the rest of a rune, then replaces each byte at which no rune starts. -/
def coerceFrom : Nat → List UInt8 → List UInt8
  | _, [] => []
  | left + 1, a :: rest => a :: coerceFrom left rest
  | 0, a :: rest =>
    match runeWidth (a :: rest) with
    | 0 => replacement ++ coerceFrom 0 rest
    | width + 1 => a :: coerceFrom width rest

def toValidUtf8 (text : List UInt8) : List UInt8 := coerceFrom 0 text

theorem runeWidth_cons (a : UInt8) (rest : List UInt8) : runeWidth (a :: rest) =
    if leadLength a ≤ rest.length + 1 ∧ follows a (rest.take (leadLength a - 1)) then leadLength a else 0 := rfl

theorem runeWidth_le (text : List UInt8) : runeWidth text ≤ text.length := by
  cases text with
  | nil => exact Nat.le_refl _
  | cons a rest =>
    rw [runeWidth_cons]
    split
    · rename_i fits
      exact fits.1
    · exact Nat.zero_le _

/-- The width depends on the bytes of the rune alone. -/
theorem runeWidth_take {text : List UInt8} (some : runeWidth text ≠ 0) (other : List UInt8) :
    runeWidth (text.take (runeWidth text) ++ other) = runeWidth text := by
  cases text with
  | nil => exact absurd rfl some
  | cons a rest =>
    have fits : leadLength a ≤ rest.length + 1 ∧ follows a (rest.take (leadLength a - 1)) := by
      by_contra none
      exact some (if_neg none)
    have width : runeWidth (a :: rest) = leadLength a := if_pos fits
    rw [width] at some ⊢
    obtain ⟨more, lead⟩ := Nat.exists_eq_succ_of_ne_zero some
    have inside : more ≤ rest.length := by omega
    have taken : (rest.take more ++ other).take more = rest.take more := by
      rw [List.take_append_of_le_length (by rw [List.length_take]; omega), List.take_take, Nat.min_self]
    rw [lead] at fits ⊢
    rw [List.take_succ_cons, List.cons_append, runeWidth_cons, lead, Nat.succ_sub_one, taken, if_pos]
    exact ⟨by rw [List.length_append, List.length_take]; omega, fits.2⟩

theorem coerceFrom_eq (left : Nat) (text : List UInt8) :
    coerceFrom left text = text.take left ++ toValidUtf8 (text.drop left) := by
  induction left generalizing text with
  | zero => rfl
  | succ left ih =>
    cases text with
    | nil => rfl
    | cons a rest => exact congrArg (a :: ·) (ih rest)

theorem toValidUtf8_invalid {a : UInt8} {rest : List UInt8} (none : runeWidth (a :: rest) = 0) :
    toValidUtf8 (a :: rest) = replacement ++ toValidUtf8 rest := by
  unfold toValidUtf8
  rw [coerceFrom, none]

theorem toValidUtf8_rune {text : List UInt8} (some : runeWidth text ≠ 0) :
    toValidUtf8 text = text.take (runeWidth text) ++ toValidUtf8 (text.drop (runeWidth text)) := by
  cases text with
  | nil => rfl
  | cons a rest =>
    obtain ⟨width, found⟩ := Nat.exists_eq_succ_of_ne_zero some
    rw [found, List.take_succ_cons, List.drop_succ_cons, List.cons_append, ← coerceFrom_eq]
    unfold toValidUtf8
    rw [coerceFrom, found]

/-- A sequence of runes. -/
inductive Valid : List UInt8 → Prop
  | nil : Valid []
  | rune {text rest} : text ≠ [] → runeWidth text = text.length → Valid rest → Valid (text ++ rest)

theorem valid_toValidUtf8 (text : List UInt8) : Valid (toValidUtf8 text) := by
  obtain ⟨n, bound⟩ : ∃ n, text.length ≤ n := ⟨_, Nat.le_refl _⟩
  induction n generalizing text with
  | zero =>
    rw [List.eq_nil_of_length_eq_zero (Nat.le_zero.mp bound)]
    exact .nil
  | succ n ih =>
    cases text with
    | nil => exact .nil
    | cons a rest =>
      rw [List.length_cons] at bound
      by_cases none : runeWidth (a :: rest) = 0
      · rw [toValidUtf8_invalid none]
        exact .rune (List.cons_ne_nil _ _) (by decide) (ih rest (by omega))
      · rw [toValidUtf8_rune none]
        have inside := runeWidth_le (a :: rest)
        refine .rune ?_ ?_ (ih _ ?_)
        · rw [Ne, List.take_eq_nil_iff]
          exact not_or.mpr ⟨none, List.cons_ne_nil _ _⟩
        · have alone := runeWidth_take none []
          rw [List.append_nil] at alone
          rw [alone, List.length_take]
          omega
        · rw [List.length_drop, List.length_cons]
          omega

theorem toValidUtf8_eq_self {text : List UInt8} (valid : Valid text) : toValidUtf8 text = text := by
  induction valid with
  | nil => rfl
  | @rune text rest nonempty width _ ih =>
    have some : runeWidth text ≠ 0 := by
      rw [width]
      exact fun zero => nonempty (List.eq_nil_of_length_eq_zero zero)
    have same : runeWidth (text ++ rest) = text.length := by
      have longer := runeWidth_take some rest
      rwa [width, List.take_length] at longer
    rw [toValidUtf8_rune (by rw [same, ← width]; exact some), same, List.take_left, List.drop_left, ih]

@[simp] theorem toValidUtf8_idem (text : List UInt8) : toValidUtf8 (toValidUtf8 text) = toValidUtf8 text :=
  toValidUtf8_eq_self (valid_toValidUtf8 text)

/-- The coercion leaves alone exactly the valid strings. -/
theorem toValidUtf8_eq_self_iff {text : List UInt8} : toValidUtf8 text = text ↔ Valid text :=
  ⟨fun same => same ▸ valid_toValidUtf8 text, toValidUtf8_eq_self⟩

instance (text : List UInt8) : Decidable (Valid text) := decidable_of_iff _ toValidUtf8_eq_self_iff

end Utf8
