import Mathlib.Data.List.Infix

/-! Texts one after the other, each with a delimiter behind it. -/

namespace DelimitedStream

variable {α : Type} [BEq α] [LawfulBEq α]

def write (delimiter : α) (texts : List (List α)) : List α := texts.flatMap (· ++ [delimiter])

/-- The texts whose delimiter has come. -/
def complete (delimiter : α) (stream : List α) : List (List α) := (stream.splitOn delimiter).dropLast

variable {delimiter : α}

omit [BEq α] [LawfulBEq α] in
theorem write_cons (text : List α) (texts : List (List α)) :
    write delimiter (text :: texts) = text ++ delimiter :: write delimiter texts := by
  rw [write, List.flatMap_cons, List.append_assoc, List.singleton_append]
  rfl

omit [BEq α] [LawfulBEq α] in
theorem write_concat (texts : List (List α)) (text : List α) :
    write delimiter (texts ++ [text]) = write delimiter texts ++ (text ++ [delimiter]) := by
  rw [write, List.flatMap_append, List.flatMap_singleton]
  rfl

theorem complete_of_clean {text : List α} (clean : delimiter ∉ text) : complete delimiter text = [] := by
  rw [complete, List.splitOn_eq_singleton clean, List.dropLast_singleton]

theorem complete_cons {text : List α} (clean : delimiter ∉ text) (rest : List α) :
    complete delimiter (text ++ delimiter :: rest) = text :: complete delimiter rest := by
  rw [complete, List.splitOn_append_cons_self_of_not_mem clean, List.dropLast_cons_of_ne_nil (List.splitOn_ne_nil _ _)]
  rfl

/-- A reader that has got a part of the stream has got the first of its texts, and part of the next. -/
theorem complete_prefix {texts : List (List α)} (clean : ∀ text ∈ texts, delimiter ∉ text) {got : List α}
    (part : got <+: write delimiter texts) : ∃ k rest, complete delimiter got = texts.take k ∧
      got = write delimiter (texts.take k) ++ rest ∧ delimiter ∉ rest := by
  induction texts generalizing got with
  | nil =>
    obtain rfl := List.prefix_nil.mp part
    exact ⟨0, [], complete_of_clean List.not_mem_nil, rfl, List.not_mem_nil⟩
  | cons text rest ih =>
    obtain ⟨here, later⟩ := List.forall_mem_cons.mp clean
    rw [write_cons] at part
    rcases Nat.lt_or_ge text.length got.length with longer | short
    · obtain ⟨got', rfl⟩ := List.prefix_of_prefix_length_le (List.prefix_append text _) part longer.le
      have behind := (List.prefix_append_right_inj text).mp part
      cases got' with
      | nil =>
        rw [List.append_nil] at longer
        exact absurd longer (Nat.lt_irrefl _)
      | cons c got' =>
        obtain ⟨rfl, behind⟩ := List.cons_prefix_cons.mp behind
        obtain ⟨k, unfinished, texts, split, open_⟩ := ih later behind
        refine ⟨k + 1, unfinished, ?_, ?_, open_⟩
        · rw [complete_cons here, texts, List.take_succ_cons]
        · rw [List.take_succ_cons, write_cons, List.append_assoc, List.cons_append, ← split]
    · have inside := List.prefix_of_prefix_length_le part (List.prefix_append text _) short
      have unfinished : delimiter ∉ got := fun member => here (inside.subset member)
      exact ⟨0, got, complete_of_clean unfinished, rfl, unfinished⟩

theorem complete_write {texts : List (List α)} (clean : ∀ text ∈ texts, delimiter ∉ text) :
    complete delimiter (write delimiter texts) = texts := by
  induction texts with
  | nil => exact complete_of_clean List.not_mem_nil
  | cons text rest ih =>
    obtain ⟨here, later⟩ := List.forall_mem_cons.mp clean
    rw [write_cons, complete_cons here, ih later]

end DelimitedStream
