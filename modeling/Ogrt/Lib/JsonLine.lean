import Ogrt.Lib.JsonValue

/-! The text of a value stays on one line. -/

namespace JsonText

variable {α : Type}

/-- No control byte. -/
def Visible (text : Bytes) : Prop := ∀ c ∈ text, 0x20 ≤ c

theorem Visible.nil : Visible [] := fun _ member => absurd member List.not_mem_nil

theorem Visible.append {text more : Bytes} (first : Visible text) (second : Visible more) : Visible (text ++ more) := by
  intro c member
  exact (List.mem_append.mp member).elim (first c) (second c)

theorem Visible.cons {c : UInt8} {text : Bytes} (here : 0x20 ≤ c) (rest : Visible text) : Visible (c :: text) :=
  List.forall_mem_cons.mpr ⟨here, rest⟩

theorem visible_printMany {close : UInt8} {item : Bool → α → Bytes} (closes : 0x20 ≤ close) (first : Bool) {xs : List α}
    (items : ∀ x ∈ xs, ∀ flag, Visible (item flag x)) : Visible (printMany close item first xs) := by
  induction xs generalizing first with
  | nil => exact .cons closes .nil
  | cons x rest ih =>
    obtain ⟨here, later⟩ := List.forall_mem_cons.mp items
    rw [printMany]
    exact (here first).append (ih false later)

theorem hexDigit_visible (n : Nat) (small : n < 16) : 0x20 ≤ hexDigit n := by
  revert n
  decide

theorem visible_escapeByte (b : UInt8) : Visible (escapeByte b) := by
  have bound := b.toNat_lt
  have letter {e : UInt8} (shown : 0x20 ≤ e) : Visible [0x5C, e] := .cons (by decide) (.cons shown .nil)
  unfold escapeByte
  split
  · rename_i marked
    rcases marked with rfl | rfl
    · exact letter (by decide)
    · exact letter (by decide)
  split
  · exact letter (by decide)
  split
  · exact letter (by decide)
  split
  · exact letter (by decide)
  split
  · have high := hexDigit_visible (b.toNat / 16) (by omega)
    have low := hexDigit_visible (b.toNat % 16) (by omega)
    exact (letter (by decide)).append (.cons (by decide) (.cons (by decide) (.cons high (.cons low .nil))))
  · rename_i plain
    exact .cons (UInt8.not_lt.mp fun control => plain (Or.inl control)) .nil

theorem visible_quote (text : Bytes) : Visible (quote text) :=
  Visible.cons (by decide) (visible_printMany (by decide) true fun b _ _ => visible_escapeByte b)

theorem digit_visible {c : UInt8} (digit : isDigit c = true) : 0x20 ≤ c := by
  have lower : 0x30 ≤ c := of_decide_eq_true (Bool.and_eq_true_iff.mp digit).1
  exact UInt8.le_trans (by decide) lower

theorem visible_printInteger (n : Int) : Visible (printInteger n) := by
  unfold printInteger
  split
  · exact Visible.cons (by decide) fun c member => digit_visible (printNatural_digits _ c member)
  · exact fun c member => digit_visible (printNatural_digits _ c member)

theorem visible_separator (flag : Bool) : Visible (separator flag) := by
  cases flag with
  | true => exact .nil
  | false => exact .cons (by decide) .nil

/-- By induction on a bound for the length of the text. -/
theorem visible_print (v : Json) : Visible v.print := by
  generalize deep : v.print.length = depth
  induction depth using Nat.strong_induction_on generalizing v with
  | _ depth ih =>
    cases v with
    | string text => exact visible_quote text
    | number value => exact visible_printInteger value
    | array items =>
      rw [Json.print, List.length_cons] at deep
      rw [Json.print, printItems_eq]
      refine Visible.cons (by decide) (visible_printMany (by decide) true fun x member flag => ?_)
      exact (visible_separator flag).append (ih _ (by have := item_length member; omega) x rfl)
    | object members =>
      rw [Json.print, List.length_cons] at deep
      rw [Json.print, printMembers_eq]
      refine Visible.cons (by decide) (visible_printMany (by decide) true fun x member flag => ?_)
      have value := ih _ (by have := member_length member; omega) x.2 rfl
      exact (visible_separator flag).append ((visible_quote x.1).append (Visible.cons (by decide) value))

end JsonText
