import Ogrt.Lib.JsonText

/-! JSON values with integer numbers, their compact text, and a reader for it. -/

namespace JsonText

variable {α : Type}

inductive Json
  | string (text : Bytes)
  | number (value : Int)
  | array (items : List Json)
  | object (members : List (Bytes × Json))

/-- Nothing before the first item, a comma before the others. -/
def separator (first : Bool) : Bytes := if first then [] else [0x2C]

def afterSeparator (first : Bool) (text : Bytes) : Option Bytes :=
  if first then some text
  else match text with
    | 0x2C :: rest => some rest
    | _ => none

mutual
def Json.print : Json → Bytes
  | .string text => quote text
  | .number value => printInteger value
  | .array items => 0x5B :: printItems true items
  | .object members => 0x7B :: printMembers true members

def printItems : Bool → List Json → Bytes
  | _, [] => [0x5D]
  | first, item :: rest => separator first ++ item.print ++ printItems false rest

def printMembers : Bool → List (Bytes × Json) → Bytes
  | _, [] => [0x7D]
  | first, (key, value) :: rest =>
    separator first ++ (quote key ++ 0x3A :: value.print) ++ printMembers false rest
end

def readMember (value : Bytes → Option (Json × Bytes)) (text : Bytes) : Option ((Bytes × Json) × Bytes) :=
  (readQuoted text).bind fun key =>
    match key.2 with
    | 0x3A :: rest => (value rest).map fun read => ((key.1, read.1), read.2)
    | _ => none

/-- The fuel bounds the nesting of arrays and objects. -/
def read : Nat → Bytes → Option (Json × Bytes)
  | 0, _ => none
  | _, [] => none
  | depth + 1, c :: rest =>
    if c = 0x22 then (readQuoted (c :: rest)).map fun read => (.string read.1, read.2)
    else if c = 0x5B then
      (readMany 0x5D (fun first text => (afterSeparator first text).bind (read depth)) rest.length true rest).map
        fun items => (.array items.1, items.2)
    else if c = 0x7B then
      (readMany 0x7D (fun first text => (afterSeparator first text).bind (readMember (read depth)))
        rest.length true rest).map fun members => (.object members.1, members.2)
    else (readInteger (c :: rest)).map fun read => (.number read.1, read.2)

theorem printItems_eq (first : Bool) (items : List Json) :
    printItems first items = printMany 0x5D (fun flag item => separator flag ++ item.print) first items := by
  induction items generalizing first with
  | nil => rfl
  | cons item rest ih => rw [printItems, printMany, ih]

theorem printMembers_eq (first : Bool) (members : List (Bytes × Json)) : printMembers first members =
    printMany 0x7D (fun flag member => separator flag ++ (quote member.1 ++ 0x3A :: member.2.print)) first members := by
  induction members generalizing first with
  | nil => rfl
  | cons member rest ih => rw [printMembers, printMany, ih]

theorem printInteger_starts (n : Int) :
    ∃ c rest, printInteger n = c :: rest ∧ (c = 0x2D ∨ isDigit c = true) := by
  unfold printInteger
  split
  · exact ⟨_, _, rfl, Or.inl rfl⟩
  · obtain ⟨c, rest, shape⟩ := List.exists_cons_of_ne_nil (printNatural_ne_nil n.natAbs)
    exact ⟨c, rest, shape, Or.inr (printNatural_digits n.natAbs c (by rw [shape]; exact List.mem_cons_self ..))⟩

theorem print_starts (v : Json) : ∃ c rest, v.print = c :: rest ∧ c ≠ 0x5D := by
  cases v with
  | string text => exact ⟨_, _, by rw [Json.print, quote], by decide⟩
  | array items => exact ⟨_, _, by rw [Json.print], by decide⟩
  | object members => exact ⟨_, _, by rw [Json.print], by decide⟩
  | number value =>
    obtain ⟨c, rest, shape, numeral⟩ := printInteger_starts value
    refine ⟨c, rest, by rw [Json.print, shape], ?_⟩
    rintro rfl
    revert numeral
    decide

theorem afterSeparator_separator (first : Bool) (text : Bytes) :
    afterSeparator first (separator first ++ text) = some text := by
  cases first with
  | true => rfl
  | false => rfl

theorem readMember_print {value : Bytes → Option (Json × Bytes)} {member : Bytes × Json} {s : Bytes}
    (read : value (member.2.print ++ s) = some (member.2, s)) :
    readMember value (quote member.1 ++ 0x3A :: member.2.print ++ s) = some (member, s) := by
  unfold readMember
  rw [List.append_assoc, readQuoted_quote, Option.bind_some, List.cons_append]
  simp only [read, Option.map_some]

theorem delimited_printed {close : UInt8} (noDigit : isDigit close = false) (tail : Bytes) :
    Delimited (close :: tail) := ⟨close, tail, rfl, noDigit⟩

theorem readItems_printItems {value : Bytes → Option (Json × Bytes)} {items : List Json} {n : Nat}
    (enough : items.length < n) (tail : Bytes)
    (reads : ∀ x ∈ items, ∀ s, Delimited s → value (x.print ++ s) = some (x, s)) :
    readMany 0x5D (fun first text => (afterSeparator first text).bind value) n true
      (printItems true items ++ tail) = some (items, tail) := by
  rw [printItems_eq]
  refine readMany_printMany Delimited enough true (fun x _ flag => ?_) (delimited_printed (by decide) tail)
    (fun x _ s => ?_) (fun x member flag s follows => ?_)
  · obtain ⟨c, rest, shape, other⟩ := print_starts x
    cases flag with
    | true => exact ⟨c, rest, shape, other⟩
    | false => exact ⟨0x2C, _, rfl, by decide⟩
  · exact delimited_printed (by decide) _
  · rw [List.append_assoc, afterSeparator_separator, Option.bind_some]
    exact reads x member s follows

theorem readMembers_printMembers {value : Bytes → Option (Json × Bytes)} {members : List (Bytes × Json)} {n : Nat}
    (enough : members.length < n) (tail : Bytes)
    (reads : ∀ x ∈ members, ∀ s, Delimited s → value (x.2.print ++ s) = some (x.2, s)) :
    readMany 0x7D (fun first text => (afterSeparator first text).bind (readMember value)) n true
      (printMembers true members ++ tail) = some (members, tail) := by
  rw [printMembers_eq]
  refine readMany_printMany Delimited enough true (fun x _ flag => ?_) (delimited_printed (by decide) tail)
    (fun x _ s => ?_) (fun x member flag s follows => ?_)
  · cases flag with
    | true => exact ⟨0x22, _, rfl, by decide⟩
    | false => exact ⟨0x2C, _, rfl, by decide⟩
  · exact delimited_printed (by decide) _
  · rw [List.append_assoc, afterSeparator_separator, Option.bind_some]
    exact readMember_print (reads x member s follows)

theorem printItems_length (items : List Json) : items.length < (printItems true items).length := by
  rw [printItems_eq]
  refine length_lt_printMany true fun x _ flag empty => ?_
  obtain ⟨c, rest, shape, _⟩ := print_starts x
  rw [shape] at empty
  exact List.cons_ne_nil _ _ (List.append_eq_nil_iff.mp empty).2

theorem printMembers_length (members : List (Bytes × Json)) : members.length < (printMembers true members).length := by
  rw [printMembers_eq]
  refine length_lt_printMany true fun x _ flag empty => ?_
  exact List.cons_ne_nil _ _ (List.append_eq_nil_iff.mp (List.append_eq_nil_iff.mp empty).2).1

theorem item_length {items : List Json} {x : Json} (member : x ∈ items) :
    x.print.length < (printItems true items).length := by
  rw [printItems_eq]
  obtain ⟨flag, shorter⟩ := length_item_lt 0x5D (fun flag item => separator flag ++ Json.print item) member true
  rw [List.length_append] at shorter
  exact Nat.lt_of_le_of_lt (Nat.le_add_left _ _) shorter

theorem member_length {members : List (Bytes × Json)} {x : Bytes × Json} (member : x ∈ members) :
    x.2.print.length < (printMembers true members).length := by
  rw [printMembers_eq]
  obtain ⟨flag, shorter⟩ := length_item_lt 0x7D
    (fun flag member => separator flag ++ (quote member.1 ++ 0x3A :: Json.print member.2)) member true
  simp only [List.length_append, List.length_cons] at shorter
  omega

/-- The reader inverts the printer. -/
theorem read_print (depth : Nat) (v : Json) (deep : v.print.length ≤ depth) (s : Bytes)
    (delimited : ∀ n, v = .number n → Delimited s) : read depth (v.print ++ s) = some (v, s) := by
  induction depth generalizing v s with
  | zero =>
    obtain ⟨c, rest, shape, _⟩ := print_starts v
    rw [shape, List.length_cons] at deep
    omega
  | succ depth ih =>
    cases v with
    | string text =>
      have quoted := readQuoted_quote text s
      rw [Json.print]
      rw [quote, List.cons_append] at quoted ⊢
      rw [read, if_pos rfl, quoted, Option.map_some]
    | number value =>
      have number := readInteger_printInteger value (delimited value rfl)
      obtain ⟨c, rest, shape, numeral⟩ := printInteger_starts value
      have other : c ≠ 0x22 ∧ c ≠ 0x5B ∧ c ≠ 0x7B := by
        refine ⟨?_, ?_, ?_⟩ <;> (rintro rfl; revert numeral; decide)
      rw [Json.print]
      rw [shape, List.cons_append] at number ⊢
      rw [read, if_neg other.1, if_neg other.2.1, if_neg other.2.2, number, Option.map_some]
    | array items =>
      rw [Json.print, List.length_cons] at deep
      have count := printItems_length items
      have enough : items.length < (printItems true items ++ s).length := by
        rw [List.length_append]
        omega
      have readItems := readItems_printItems enough s fun x member t follows =>
        ih x (by have := item_length member; omega) t fun _ _ => follows
      rw [Json.print, List.cons_append, read, if_neg (by decide), if_pos rfl, readItems, Option.map_some]
    | object members =>
      rw [Json.print, List.length_cons] at deep
      have count := printMembers_length members
      have enough : members.length < (printMembers true members ++ s).length := by
        rw [List.length_append]
        omega
      have readMembers := readMembers_printMembers enough s fun x member t follows =>
        ih x.2 (by have := member_length member; omega) t fun _ _ => follows
      rw [Json.print, List.cons_append, read, if_neg (by decide), if_neg (by decide), if_pos rfl, readMembers,
        Option.map_some]

theorem afterSeparator_extends {value longer : Bytes → Option (α × Bytes)} (extend : Extends value longer)
    (first : Bool) : Extends (fun text => (afterSeparator first text).bind value)
      (fun text => (afterSeparator first text).bind longer) := by
  intro text x rest more done
  obtain ⟨body, after, found⟩ := Option.bind_eq_some_iff.mp done
  have still : afterSeparator first (text ++ more) = some (body ++ more) := by
    cases first with
    | true =>
      cases after
      rfl
    | false =>
      unfold afterSeparator at after
      rw [if_neg Bool.false_ne_true] at after
      split at after
      · cases after
        rfl
      · cases after
  dsimp only
  rw [still, Option.bind_some]
  exact extend _ _ _ more found

theorem readMember_extends {value longer : Bytes → Option (Json × Bytes)} (extend : Extends value longer) :
    Extends (readMember value) (readMember longer) := by
  intro text x rest more done
  unfold readMember at done
  obtain ⟨⟨key, middle⟩, quoted, tail⟩ := Option.bind_eq_some_iff.mp done
  unfold readMember
  rw [readQuoted_extends _ _ _ more quoted, Option.bind_some]
  dsimp only at tail
  split at tail
  · obtain ⟨⟨v, last⟩, found, same⟩ := Option.map_eq_some_iff.mp tail
    cases same
    simp only [List.cons_append, extend _ _ _ more found, Option.map_some]
  · cases tail

theorem read_extends {depth deeper : Nat} (more : depth ≤ deeper) : Extends (read depth) (read deeper) := by
  induction depth generalizing deeper with
  | zero => exact nofun
  | succ depth ih =>
    intro text v rest addition done
    obtain ⟨deeper, rfl⟩ := Nat.exists_eq_add_one_of_ne_zero (Nat.ne_zero_of_lt more)
    have value := ih (Nat.le_of_succ_le_succ more)
    cases text with
    | nil => cases done
    | cons c text =>
      have longer : text.length ≤ (text ++ addition).length := by
        rw [List.length_append]
        omega
      rw [read] at done
      rw [List.cons_append, read]
      split at done
      · rename_i string
        obtain ⟨⟨t, r⟩, found, same⟩ := Option.map_eq_some_iff.mp done
        cases same
        rw [if_pos string, ← List.cons_append, readQuoted_extends _ _ _ addition found, Option.map_some]
      rename_i noString
      rw [if_neg noString]
      split at done
      · rename_i array
        obtain ⟨⟨items, r⟩, found, same⟩ := Option.map_eq_some_iff.mp done
        cases same
        have extended := readMany_extends 0x5D (fun flag => afterSeparator_extends value flag) longer true
        rw [if_pos array, extended _ _ _ addition found, Option.map_some]
      rename_i noArray
      rw [if_neg noArray]
      split at done
      · rename_i object
        obtain ⟨⟨members, r⟩, found, same⟩ := Option.map_eq_some_iff.mp done
        cases same
        have extended := readMany_extends 0x7D
          (fun flag => afterSeparator_extends (readMember_extends value) flag) longer true
        rw [if_pos object, extended _ _ _ addition found, Option.map_some]
      rename_i noObject
      rw [if_neg noObject]
      obtain ⟨⟨n, r⟩, found, same⟩ := Option.map_eq_some_iff.mp done
      cases same
      rw [← List.cons_append, readInteger_extends _ _ _ addition found, Option.map_some]

/-- The value whose text this is, with nothing after it. -/
def parse (text : Bytes) : Option Json :=
  match read text.length text with
  | some (v, []) => some v
  | _ => none

theorem parse_print {v : Json} (closed : ∀ n, v ≠ .number n) : parse v.print = some v := by
  have done := read_print v.print.length v (Nat.le_refl _) [] fun n number => absurd number (closed n)
  rw [List.append_nil] at done
  unfold parse
  rw [done]

/-- A text that is cut short is no text. -/
theorem parse_short {v : Json} (closed : ∀ n, v ≠ .number n) {text : Bytes} (before : text <+: v.print)
    (shorter : text ≠ v.print) : parse text = none := by
  obtain ⟨rest, whole⟩ := before
  unfold parse
  split
  · rename_i w done
    have bound : text.length ≤ v.print.length := by
      rw [← whole, List.length_append]
      omega
    have extended := read_extends bound text w [] rest done
    have full := read_print v.print.length v (Nat.le_refl _) [] fun n number => absurd number (closed n)
    rw [whole, List.nil_append] at extended
    rw [List.append_nil, extended] at full
    have nothing : rest = [] := (Prod.mk.inj (Option.some.inj full)).2
    rw [nothing, List.append_nil] at whole
    exact absurd whole shorter
  · rfl

/-- The members that have a value. -/
def present (fields : List (Bytes × Option Json)) : List (Bytes × Json) :=
  fields.filterMap fun field => field.2.map fun v => (field.1, v)

theorem lookup_present {fields : List (Bytes × Option Json)} (distinct : (fields.map Prod.fst).Nodup)
    {key : Bytes} {value : Option Json} (member : (key, value) ∈ fields) :
    (present fields).lookup key = value := by
  induction fields with
  | nil => cases member
  | cons field rest ih =>
    obtain ⟨fresh, distinct⟩ := List.nodup_cons.mp distinct
    have step : present (field :: rest) = (field.2.map fun v => (field.1, v)).toList ++ present rest := by
      unfold present
      cases found : field.2 with
      | none => simp [found]
      | some v => simp [found]
    rw [step]
    rcases List.mem_cons.mp member with rfl | later
    · cases value with
      | some v => simp
      | none =>
        refine List.lookup_eq_none_iff.mpr fun entry inRest => ?_
        obtain ⟨other, isField, found⟩ := List.mem_filterMap.mp inRest
        obtain ⟨v, _, rfl⟩ := Option.map_eq_some_iff.mp found
        have known : other.1 ∈ rest.map Prod.fst := List.mem_map.mpr ⟨other, isField, rfl⟩
        have apart : key ≠ other.1 := fun same => fresh (by rw [same]; exact known)
        simpa using apart
    · have apart : key ≠ field.1 := fun same => fresh (same ▸ List.mem_map_of_mem later)
      cases field.2 with
      | none => exact ih distinct later
      | some v =>
        have unequal : (key == field.1) = false := beq_false_of_ne apart
        rw [Option.map_some, Option.toList_some, List.cons_append, List.lookup_cons, unequal]
        exact ih distinct later

end JsonText
