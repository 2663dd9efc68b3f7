import Mathlib.Data.List.Basic

/-! The characters of a C source text: trigraphs, continued lines, and escape sequences. -/

namespace CStringLiteral

def backslash : UInt8 := 0x5C
def newline : UInt8 := 0x0A
def question : UInt8 := 0x3F

/-- The character that a trigraph with this last character stands for. -/
def trigraph (c : UInt8) : Option UInt8 :=
  if c = 0x3D then some 0x23
  else if c = 0x2F then some backslash
  else if c = 0x27 then some 0x5E
  else if c = 0x28 then some 0x5B
  else if c = 0x29 then some 0x5D
  else if c = 0x21 then some 0x7C
  else if c = 0x3C then some 0x7B
  else if c = 0x3E then some 0x7D
  else if c = 0x2D then some 0x7E
  else none

def replaceTrigraphs : List UInt8 → List UInt8
  | a :: b :: c :: rest =>
    if a = question ∧ b = question then
      match trigraph c with
      | some r => r :: replaceTrigraphs rest
      | none => a :: replaceTrigraphs (b :: c :: rest)
    else a :: replaceTrigraphs (b :: c :: rest)
  | short => short

/-- A backslash and the newline behind it are deleted. -/
def spliceLines : List UInt8 → List UInt8
  | a :: b :: rest =>
    if a = backslash ∧ b = newline then spliceLines rest else a :: spliceLines (b :: rest)
  | short => short

def octalDigit (c : UInt8) : Option Nat := if 0x30 ≤ c ∧ c ≤ 0x37 then some (c.toNat - 0x30) else none

def hexadecimalDigit (c : UInt8) : Option Nat :=
  if 0x30 ≤ c ∧ c ≤ 0x39 then some (c.toNat - 0x30)
  else if 0x61 ≤ c ∧ c ≤ 0x66 then some (c.toNat - 0x57)
  else if 0x41 ≤ c ∧ c ≤ 0x46 then some (c.toNat - 0x37)
  else none

/-- The quotes, the question mark and the backslash, then \a \b \f \n \r \t \v, and the \e of gcc. -/
def simpleEscape (c : UInt8) : Option UInt8 :=
  if c = 0x27 ∨ c = 0x22 ∨ c = question ∨ c = backslash then some c
  else if c = 0x61 then some 0x07
  else if c = 0x62 then some 0x08
  else if c = 0x66 then some 0x0C
  else if c = 0x6E then some newline
  else if c = 0x72 then some 0x0D
  else if c = 0x74 then some 0x09
  else if c = 0x76 then some 0x0B
  else if c = 0x65 ∨ c = 0x45 then some 0x1B
  else none

/-- The code points that a universal character name may have. -/
def universalAllowed (value : Nat) : Bool :=
  (0xA0 ≤ value ∨ value = 0x24 ∨ value = 0x40 ∨ value = 0x60) ∧ ¬ (0xD800 ≤ value ∧ value ≤ 0xDFFF) ∧ value ≤ 0x10FFFF

def utf8 (value : Nat) : List UInt8 :=
  if value < 0x80 then [UInt8.ofNat value]
  else if value < 0x800 then [UInt8.ofNat (0xC0 + value / 0x40), UInt8.ofNat (0x80 + value % 0x40)]
  else if value < 0x10000 then
    [UInt8.ofNat (0xE0 + value / 0x1000), UInt8.ofNat (0x80 + value / 0x40 % 0x40), UInt8.ofNat (0x80 + value % 0x40)]
  else
    [UInt8.ofNat (0xF0 + value / 0x40000), UInt8.ofNat (0x80 + value / 0x1000 % 0x40),
      UInt8.ofNat (0x80 + value / 0x40 % 0x40), UInt8.ofNat (0x80 + value % 0x40)]

/-- Where in an escape sequence the characters of a literal have led. -/
inductive EscapeMode
  | plain
  | escape
  | octal (digits value : Nat)
  | hexadecimal (value : Option Nat)
  | universal (long : Bool) (read value : Nat)
  deriving DecidableEq, Repr

def plainStep (c : UInt8) : List UInt8 × EscapeMode := if c = backslash then ([], .escape) else ([c], .plain)

/-- The characters that one character completes, and where it leads. An unknown escape sequence
stands for its character. -/
def escapeStep : EscapeMode → UInt8 → Option (List UInt8 × EscapeMode)
  | .plain, c => some (plainStep c)
  | .escape, c =>
    match simpleEscape c with
    | some e => some ([e], .plain)
    | none =>
      match octalDigit c with
      | some d => some ([], .octal 1 d)
      | none =>
        if c = 0x78 then some ([], .hexadecimal none)
        else if c = 0x75 then some ([], .universal false 0 0)
        else if c = 0x55 then some ([], .universal true 0 0)
        else some ([c], .plain)
  | .octal digits value, c =>
    match octalDigit c with
    | some d =>
      if digits < 3 then some ([], .octal (digits + 1) (8 * value + d))
      else some (UInt8.ofNat value :: (plainStep c).1, (plainStep c).2)
    | none => some (UInt8.ofNat value :: (plainStep c).1, (plainStep c).2)
  | .hexadecimal value, c =>
    match hexadecimalDigit c with
    | some d => some ([], .hexadecimal (some (16 * value.getD 0 + d)))
    | none => value.map fun value => (UInt8.ofNat value :: (plainStep c).1, (plainStep c).2)
  | .universal long read value, c =>
    match hexadecimalDigit c with
    | some d =>
      if read + 1 < (if long then 8 else 4) then some ([], .universal long (read + 1) (16 * value + d))
      else if universalAllowed (16 * value + d) then some (utf8 (16 * value + d), .plain) else none
    | none => none

def escapeEnd : EscapeMode → Option (List UInt8)
  | .plain => some []
  | .octal _ value => some [UInt8.ofNat value]
  | .hexadecimal (some value) => some [UInt8.ofNat value]
  | _ => none

def decodeFrom : EscapeMode → List UInt8 → Option (List UInt8)
  | mode, [] => escapeEnd mode
  | mode, c :: rest =>
    match escapeStep mode c with
    | some (made, next) => (decodeFrom next rest).map (made ++ ·)
    | none => none

/-- The characters that the spelling between the quotes of a literal stands for. -/
def decode (body : List UInt8) : Option (List UInt8) := decodeFrom .plain body

/-- At most this many of the characters that were read can still come out. -/
def EscapeMode.credit : EscapeMode → Nat
  | .plain => 0
  | .escape => 0
  | .octal _ _ => 1
  | .hexadecimal value => if value.isSome then 1 else 0
  | .universal _ read _ => read + 1

theorem utf8_length (value : Nat) : (utf8 value).length ≤ 4 := by
  unfold utf8
  split
  · show 1 ≤ 4
    omega
  · split
    · show 2 ≤ 4
      omega
    · split
      · show 3 ≤ 4
        omega
      · exact Nat.le_refl 4

theorem plainStep_credit (c : UInt8) : (plainStep c).1.length + (plainStep c).2.credit ≤ 1 := by
  unfold plainStep
  split
  · exact Nat.zero_le 1
  · exact Nat.le_refl 1

/-- A character brings no more than one character. -/
theorem escapeStep_credit {mode next : EscapeMode} {c : UInt8} {made : List UInt8}
    (stepped : escapeStep mode c = some (made, next)) : made.length + next.credit ≤ mode.credit + 1 := by
  have plain := plainStep_credit c
  cases mode with
  | plain =>
    rw [Option.some.inj stepped] at plain
    exact plain
  | escape =>
    rw [escapeStep] at stepped
    split at stepped
    · cases stepped
      exact Nat.le_refl 1
    · split at stepped
      · cases stepped
        exact Nat.le_refl 1
      · split at stepped
        · cases stepped
          exact Nat.zero_le 1
        · split at stepped
          · cases stepped
            exact Nat.le_refl 1
          · split at stepped <;> cases stepped <;> exact Nat.le_refl 1
  | octal digits value =>
    rw [escapeStep] at stepped
    split at stepped
    · split at stepped <;> cases stepped
      · show 0 + 1 ≤ 1 + 1
        omega
      · rw [List.length_cons]
        show _ ≤ 1 + 1
        omega
    · cases stepped
      rw [List.length_cons]
      show _ ≤ 1 + 1
      omega
  | hexadecimal value =>
    rw [escapeStep] at stepped
    split at stepped
    · cases stepped
      show 0 + 1 ≤ _
      omega
    · cases value with
      | none => cases stepped
      | some value =>
        cases stepped
        rw [List.length_cons]
        show _ ≤ 1 + 1
        omega
  | universal long read value =>
    rw [escapeStep] at stepped
    cases digit : hexadecimalDigit c with
    | none =>
      rw [digit] at stepped
      cases stepped
    | some d =>
      rw [digit] at stepped
      dsimp only at stepped
      by_cases more : read + 1 < (if long = true then 8 else 4)
      · rw [if_pos more] at stepped
        cases stepped
        show 0 + (read + 1 + 1) ≤ read + 1 + 1
        omega
      · rw [if_neg more] at stepped
        by_cases allowed : universalAllowed (16 * value + d) = true
        · rw [if_pos allowed] at stepped
          cases stepped
          have few := utf8_length (16 * value + d)
          have enough : 4 ≤ read + 1 := by
            split at more <;> omega
          show (utf8 (16 * value + d)).length + 0 ≤ read + 1 + 1
          omega
        · rw [if_neg allowed] at stepped
          cases stepped

theorem escapeEnd_credit {mode : EscapeMode} {made : List UInt8} (ended : escapeEnd mode = some made) :
    made.length ≤ mode.credit := by
  cases mode with
  | plain => cases ended; exact Nat.le_refl 0
  | octal digits value => cases ended; exact Nat.le_refl 1
  | hexadecimal value =>
    cases value with
    | none => cases ended
    | some value => cases ended; exact Nat.le_refl 1
  | escape => cases ended
  | universal long read value => cases ended

theorem decodeFrom_length {mode : EscapeMode} {body made : List UInt8} (decoded : decodeFrom mode body = some made) :
    made.length ≤ body.length + mode.credit := by
  induction body generalizing mode made with
  | nil =>
    have few := escapeEnd_credit decoded
    rw [List.length_nil]
    omega
  | cons c rest ih =>
    rw [decodeFrom] at decoded
    split at decoded
    · rename_i first next stepped
      obtain ⟨later, behind, rfl⟩ := Option.map_eq_some_iff.mp decoded
      have few := ih behind
      have here := escapeStep_credit stepped
      rw [List.length_append, List.length_cons]
      omega
    · cases decoded

theorem decode_cons_plain {c : UInt8} (other : c ≠ backslash) (body : List UInt8) :
    decode (c :: body) = (decode body).map (c :: ·) := by
  have stepped : escapeStep .plain c = some ([c], .plain) := by
    rw [escapeStep, plainStep, if_neg other]
  rw [decode, decodeFrom, stepped]
  rfl

/-- Without a backslash a literal stands for its characters. -/
theorem decode_plain {body : List UInt8} (plain : backslash ∉ body) : decode body = some body := by
  induction body with
  | nil => rfl
  | cons c rest ih =>
    have other : c ≠ backslash := fun same => plain (same ▸ List.mem_cons_self ..)
    rw [decode_cons_plain other, ih fun member => plain (List.mem_cons_of_mem c member)]
    rfl

theorem decode_length {body made : List UInt8} (decoded : decode body = some made) : made.length ≤ body.length :=
  decodeFrom_length decoded

/-- Every escape sequence is longer than what it stands for. -/
theorem noBackslash_of_decode_length {body made : List UInt8} (decoded : decode body = some made)
    (same : made.length = body.length) : backslash ∉ body := by
  induction body generalizing made with
  | nil => exact List.not_mem_nil
  | cons c rest ih =>
    by_cases escape : c = backslash
    · exfalso
      have stepped : escapeStep .plain c = some ([], .escape) := by
        rw [escapeStep, plainStep, if_pos escape]
      rw [decode, decodeFrom, stepped] at decoded
      obtain ⟨later, behind, rfl⟩ := Option.map_eq_some_iff.mp decoded
      have few : later.length ≤ rest.length + 0 := decodeFrom_length behind
      rw [List.nil_append, List.length_cons] at same
      omega
    · rw [decode_cons_plain escape] at decoded
      obtain ⟨later, behind, rfl⟩ := Option.map_eq_some_iff.mp decoded
      rw [List.length_cons, List.length_cons, Nat.add_right_cancel_iff] at same
      rw [List.mem_cons, not_or]
      exact ⟨Ne.symm escape, ih behind same⟩

/-- No three characters in a row are a trigraph. -/
def NoTrigraph (text : List UInt8) : Prop :=
  ∀ before c after, text = before ++ question :: question :: c :: after → trigraph c = none

theorem NoTrigraph.tail {a : UInt8} {text : List UInt8} (none : NoTrigraph (a :: text)) : NoTrigraph text := by
  rintro before c after rfl
  exact none (a :: before) c after rfl

theorem noTrigraph_cons {a b c : UInt8} {rest : List UInt8} (first : a = question ∧ b = question → trigraph c = none)
    (later : NoTrigraph (b :: c :: rest)) : NoTrigraph (a :: b :: c :: rest) := by
  intro before d after split
  cases before with
  | nil =>
    cases split
    exact first ⟨rfl, rfl⟩
  | cons e before =>
    exact later before d after (List.cons.inj split).2

theorem noTrigraph_short {text : List UInt8} (short : text.length < 3) : NoTrigraph text := by
  rintro before c after rfl
  simp only [List.length_append, List.length_cons] at short
  omega

/-- A character that is in no trigraph separates the texts before and behind it. -/
theorem NoTrigraph.append {front rest : List UInt8} {c : UInt8} (before : NoTrigraph front) (behind : NoTrigraph rest)
    (notQuestion : c ≠ question) (notLast : trigraph c = none) : NoTrigraph (front ++ c :: rest) := by
  induction front with
  | nil =>
    cases rest with
    | nil => exact noTrigraph_short (show 1 < 3 by omega)
    | cons d rest =>
      cases rest with
      | nil => exact noTrigraph_short (show 2 < 3 by omega)
      | cons e rest => exact noTrigraph_cons (fun both => absurd both.1 notQuestion) behind
  | cons a front ih =>
    have later := ih before.tail
    cases front with
    | nil =>
      cases rest with
      | nil => exact noTrigraph_short (show 2 < 3 by omega)
      | cons d rest => exact noTrigraph_cons (fun both => absurd both.2 notQuestion) later
    | cons b front =>
      cases front with
      | nil => exact noTrigraph_cons (fun _ => notLast) later
      | cons d front =>
        refine noTrigraph_cons (fun both => before [] d front ?_) later
        rw [both.1, both.2]
        rfl

theorem NoTrigraph.middle {before piece after : List UInt8} (none : NoTrigraph (before ++ piece ++ after)) :
    NoTrigraph piece := by
  rintro front c rest rfl
  exact none (before ++ front) c (rest ++ after) (by simp)

theorem replaceTrigraphs_short {text : List UInt8} (short : ∀ a b c rest, text = a :: b :: c :: rest → False) :
    replaceTrigraphs text = text := by
  unfold replaceTrigraphs
  split
  · rename_i a b c rest
    exact absurd rfl (short a b c rest)
  · rfl

/-- Without a trigraph the first phase changes nothing. -/
theorem replaceTrigraphs_eq {text : List UInt8} (none : NoTrigraph text) : replaceTrigraphs text = text := by
  induction text using replaceTrigraphs.induct with
  | case1 a b c rest both r replaced ih =>
    have no := none [] c rest (by rw [both.1, both.2]; rfl)
    rw [replaced] at no
    cases no
  | case2 a b c rest both replaced ih =>
    rw [replaceTrigraphs, if_pos both, replaced]
    dsimp only
    rw [ih none.tail]
  | case3 a b c rest other ih => rw [replaceTrigraphs, if_neg other, ih none.tail]
  | case4 text short => exact replaceTrigraphs_short short

/-- The first phase makes no text longer, and one with a trigraph shorter. -/
theorem replaceTrigraphs_length (text : List UInt8) : (replaceTrigraphs text).length ≤ text.length ∧
    ((replaceTrigraphs text).length = text.length → NoTrigraph text) := by
  induction text using replaceTrigraphs.induct with
  | case1 a b c rest both r replaced ih =>
    rw [replaceTrigraphs, if_pos both, replaced]
    dsimp only
    simp only [List.length_cons]
    have few := ih.1
    exact ⟨by omega, fun same => absurd same (by omega)⟩
  | case2 a b c rest both replaced ih =>
    rw [replaceTrigraphs, if_pos both, replaced]
    dsimp only
    exact ⟨Nat.succ_le_succ ih.1, fun same => noTrigraph_cons (fun _ => replaced) (ih.2 (Nat.succ.inj same))⟩
  | case3 a b c rest other ih =>
    rw [replaceTrigraphs, if_neg other]
    exact ⟨Nat.succ_le_succ ih.1, fun same => noTrigraph_cons (fun both => absurd both other) (ih.2 (Nat.succ.inj same))⟩
  | case4 text short =>
    have few : text.length < 3 := by
      match text, short with
      | [], _ => exact Nat.succ_pos 2
      | [_], _ => exact Nat.succ_lt_succ (Nat.succ_pos 1)
      | [_, _], _ => exact Nat.lt_succ_self 2
      | a :: b :: c :: rest, short => exact absurd rfl (short a b c rest)
    rw [replaceTrigraphs_short short]
    exact ⟨Nat.le_refl _, fun _ => noTrigraph_short few⟩

theorem spliceLines_short {text : List UInt8} (short : ∀ a b rest, text = a :: b :: rest → False) :
    spliceLines text = text := by
  unfold spliceLines
  split
  · rename_i a b rest
    exact absurd rfl (short a b rest)
  · rfl

theorem spliceLines_eq {text : List UInt8} (none : backslash ∉ text) : spliceLines text = text := by
  induction text using spliceLines.induct with
  | case1 a b rest both ih => exact absurd (both.1 ▸ List.mem_cons_self ..) none
  | case2 a b rest other ih =>
    rw [spliceLines, if_neg other, ih fun member => none (List.mem_cons_of_mem a member)]
  | case3 text short => exact spliceLines_short short

theorem spliceLines_length (text : List UInt8) : (spliceLines text).length ≤ text.length ∧
    ((spliceLines text).length = text.length → spliceLines text = text) := by
  induction text using spliceLines.induct with
  | case1 a b rest both ih =>
    rw [spliceLines, if_pos both]
    simp only [List.length_cons]
    have few := ih.1
    exact ⟨by omega, fun same => absurd same (by omega)⟩
  | case2 a b rest other ih =>
    rw [spliceLines, if_neg other]
    exact ⟨Nat.succ_le_succ ih.1, fun same => by rw [ih.2 (Nat.succ.inj same)]⟩
  | case3 text short =>
    rw [spliceLines_short short]
    exact ⟨Nat.le_refl _, fun _ => rfl⟩

end CStringLiteral
