import Ogrt.Lib.CInitializer

/-! A list of texts written as the string literals of an initialiser, and read back. -/

namespace CInitializer
open CStringLiteral

def quoted (piece : List UInt8) : List UInt8 := quote :: (piece ++ [quote])

/-- The literals of the pieces with a comma and a space between them. -/
def literalList (pieces : List (List UInt8)) : List UInt8 :=
  List.intercalate [comma, space] (pieces.map quoted)

/-- The spelling between the quotes stands for itself. -/
def Plain (piece : List UInt8) : Prop :=
  quote ∉ piece ∧ backslash ∉ piece ∧ newline ∉ piece ∧ NoTrigraph piece

theorem literalList_single (piece : List UInt8) : literalList [piece] = quoted piece := by
  rw [literalList, List.map_singleton, List.intercalate_singleton]

theorem literalList_cons (piece next : List UInt8) (rest : List (List UInt8)) :
    literalList (piece :: next :: rest) = quoted piece ++ comma :: space :: literalList (next :: rest) := by
  rw [literalList, List.map_cons, List.map_cons, List.intercalate_cons_cons, literalList, List.map_cons]
  rw [List.append_assoc]
  rfl

theorem quoted_length (piece : List UInt8) : (quoted piece).length = piece.length + 2 := by
  rw [quoted, List.length_cons, List.length_append]
  rfl

/-- Two quotes a literal, two characters between two literals. -/
theorem literalList_length {pieces : List (List UInt8)} (filled : pieces ≠ []) :
    (literalList pieces).length + 2 = pieces.flatten.length + 4 * pieces.length := by
  induction pieces with
  | nil => exact absurd rfl filled
  | cons piece rest ih =>
    rw [List.flatten_cons, List.length_append, List.length_cons]
    cases rest with
    | nil =>
      rw [literalList_single, quoted_length]
      rfl
    | cons next rest =>
      have behind := ih (List.cons_ne_nil next rest)
      rw [literalList_cons, List.length_append, quoted_length, List.length_cons, List.length_cons]
      omega

theorem quoted_noComma {piece : List UInt8} (plain : comma ∉ piece) : comma ∉ quoted piece := by
  rw [quoted, List.mem_cons, List.mem_append, List.mem_singleton, not_or, not_or]
  exact ⟨by decide, plain, by decide⟩

/-- Splitting at the commas gives as many parts as there are pieces. -/
theorem literalList_splitOn_length {pieces : List (List UInt8)} (filled : pieces ≠ [])
    (plain : ∀ piece ∈ pieces, comma ∉ piece) : ((literalList pieces).splitOn comma).length = pieces.length := by
  induction pieces with
  | nil => exact absurd rfl filled
  | cons piece rest ih =>
    rw [List.forall_mem_cons] at plain
    have inside := quoted_noComma plain.1
    cases rest with
    | nil =>
      rw [literalList_single, List.splitOn_eq_singleton inside]
      rfl
    | cons next rest =>
      have behind := ih (List.cons_ne_nil next rest) plain.2
      rw [literalList_cons, List.splitOn_append_cons_self_of_not_mem inside, List.length_cons,
        List.splitOn_cons_eq_if_modifyHead, if_neg (by decide), List.length_modifyHead, behind]
      rfl

theorem mem_literalList {pieces : List (List UInt8)} {piece : List UInt8} (member : piece ∈ pieces) :
    ∃ before after, literalList pieces = before ++ piece ++ after := by
  induction pieces with
  | nil => exact absurd member List.not_mem_nil
  | cons first rest ih =>
    cases rest with
    | nil =>
      rw [List.mem_singleton] at member
      exact ⟨[quote], [quote], by rw [literalList_single, member]; rfl⟩
    | cons next rest =>
      rw [literalList_cons]
      rcases List.mem_cons.mp member with rfl | later
      · exact ⟨[quote], quote :: comma :: space :: literalList (next :: rest), by simp [quoted]⟩
      · obtain ⟨before, after, split⟩ := ih later
        exact ⟨quoted first ++ comma :: space :: before, after, by rw [split]; simp⟩

theorem quoted_quotes (piece : List UInt8) : (quoted piece).count quote = piece.count quote + 2 := by
  rw [quoted, List.count_cons_self, List.count_append]
  rfl

theorem literalList_quotes (pieces : List (List UInt8)) : (literalList pieces).count quote =
    pieces.flatten.count quote + 2 * pieces.length := by
  induction pieces with
  | nil => rfl
  | cons piece rest ih =>
    rw [List.flatten_cons, List.count_append, List.length_cons]
    cases rest with
    | nil =>
      rw [literalList_single, quoted_quotes]
      rfl
    | cons next rest =>
      have apart : comma ≠ quote ∧ space ≠ quote := by decide
      rw [literalList_cons, List.count_append, quoted_quotes, List.count_cons_of_ne apart.1, List.count_cons_of_ne apart.2,
        ih]
      omega

theorem commaSpaced_append {front rest : List UInt8} (plain : comma ∉ front) (spaced : CommaSpaced rest) :
    CommaSpaced (front ++ rest) := by
  induction front with
  | nil => exact spaced
  | cons c front ih =>
    rw [List.mem_cons, not_or] at plain
    exact ⟨fun isComma => absurd isComma.symm plain.1, ih plain.2⟩

theorem literalList_commaSpaced {pieces : List (List UInt8)} (plain : ∀ piece ∈ pieces, comma ∉ piece) :
    CommaSpaced (literalList pieces) := by
  induction pieces with
  | nil => exact trivial
  | cons piece rest ih =>
    rw [List.forall_mem_cons] at plain
    cases rest with
    | nil =>
      rw [literalList_single, ← List.append_nil (quoted piece)]
      exact commaSpaced_append (quoted_noComma plain.1) trivial
    | cons next rest =>
      rw [literalList_cons]
      exact commaSpaced_append (quoted_noComma plain.1) ⟨fun _ => rfl, fun isComma => absurd isComma (by decide), ih plain.2⟩

/-- The literals, and between two of them a comma and a blank. -/
def listTokens : List (List UInt8) → List Token
  | [] => []
  | [piece] => [.literal piece]
  | piece :: next :: rest => .literal piece :: .comma :: .blank space :: listTokens (next :: rest)

theorem lex_literal_plain {piece : List UInt8} (noQuote : quote ∉ piece) (noBackslash : backslash ∉ piece)
    (noNewline : newline ∉ piece) (body rest : List UInt8) :
    lex (.literal body) (piece ++ quote :: rest) = (lex .top rest).map (.literal (body ++ piece) :: ·) := by
  induction piece generalizing body with
  | nil => rw [List.nil_append, List.append_nil, lex, if_pos rfl]
  | cons c piece ih =>
    rw [List.mem_cons, not_or] at noQuote noBackslash noNewline
    rw [List.cons_append, lex, if_neg (Ne.symm noQuote.1), if_neg (Ne.symm noBackslash.1), if_neg (Ne.symm noNewline.1),
      ih noQuote.2 noBackslash.2 noNewline.2, List.append_assoc, List.singleton_append]

theorem lex_quoted {piece : List UInt8} (plain : Plain piece) (rest : List UInt8) :
    lex .top (quoted piece ++ rest) = (lex .top rest).map (.literal piece :: ·) := by
  have opened : lex .top (quoted piece ++ rest) = lex (.literal []) (piece ++ quote :: rest) := by
    rw [quoted, List.cons_append, List.append_assoc, List.singleton_append, lex, if_neg (by decide), if_pos rfl]
  rw [opened, lex_literal_plain plain.1 plain.2.1 plain.2.2.1, List.nil_append]

theorem lex_literalList {pieces : List (List UInt8)} (plain : ∀ piece ∈ pieces, Plain piece) :
    lex .top (literalList pieces) = some (listTokens pieces) := by
  induction pieces with
  | nil => rfl
  | cons piece rest ih =>
    rw [List.forall_mem_cons] at plain
    cases rest with
    | nil =>
      rw [literalList_single, ← List.append_nil (quoted piece), lex_quoted plain.1]
      rfl
    | cons next rest =>
      have behind : lex .top (comma :: space :: literalList (next :: rest)) =
          (lex .top (literalList (next :: rest))).map fun tokens => .comma :: .blank space :: tokens := by
        rw [lex, if_neg (by decide), if_neg (by decide), if_pos rfl, lex, if_neg (by decide), if_neg (by decide),
          if_neg (by decide), if_pos (by decide), Option.map_map]
        rfl
      rw [literalList_cons, lex_quoted plain.1, behind, ih plain.2]
      rfl

theorem elements_listTokens {pieces : List (List UInt8)} (plain : ∀ piece ∈ pieces, Plain piece) :
    elements none (listTokens pieces) = some pieces := by
  induction pieces with
  | nil => rfl
  | cons piece rest ih =>
    rw [List.forall_mem_cons] at plain
    cases rest with
    | nil =>
      rw [listTokens, elements, decode_plain plain.1.2.1]
      rfl
    | cons next rest =>
      rw [listTokens, elements, decode_plain plain.1.2.1]
      show (elements none (listTokens (next :: rest))).map (([] ++ piece) :: ·) = some (piece :: next :: rest)
      rw [ih plain.2]
      rfl

theorem quoted_noTrigraph {piece : List UInt8} (plain : NoTrigraph piece) {rest : List UInt8} (behind : NoTrigraph rest) :
    NoTrigraph (quoted piece ++ rest) := by
  have closed : NoTrigraph (piece ++ quote :: rest) := plain.append behind (by decide) (by decide)
  have opened := @NoTrigraph.append [] _ quote (noTrigraph_short (show 0 < 3 by omega)) closed (by decide) (by decide)
  simpa only [quoted, List.cons_append, List.append_assoc, List.nil_append] using opened

theorem literalList_noTrigraph {pieces : List (List UInt8)} (plain : ∀ piece ∈ pieces, Plain piece) :
    NoTrigraph (literalList pieces) := by
  have nothing : NoTrigraph [] := noTrigraph_short (by decide)
  induction pieces with
  | nil => exact nothing
  | cons piece rest ih =>
    rw [List.forall_mem_cons] at plain
    cases rest with
    | nil =>
      rw [literalList_single, ← List.append_nil (quoted piece)]
      exact quoted_noTrigraph plain.1.2.2.2 nothing
    | cons next rest =>
      have spaced : NoTrigraph (space :: literalList (next :: rest)) :=
        nothing.append (ih plain.2) (by decide) (by decide)
      rw [literalList_cons]
      exact quoted_noTrigraph plain.1.2.2.2 (nothing.append spaced (by decide) (by decide))

theorem literalList_noBackslash {pieces : List (List UInt8)} (plain : ∀ piece ∈ pieces, Plain piece) :
    backslash ∉ literalList pieces := by
  have around {piece : List UInt8} (inside : backslash ∉ piece) : backslash ∉ quoted piece := by
    rw [quoted, List.mem_cons, List.mem_append, List.mem_singleton, not_or, not_or]
    exact ⟨by decide, inside, by decide⟩
  induction pieces with
  | nil => exact List.not_mem_nil
  | cons piece rest ih =>
    rw [List.forall_mem_cons] at plain
    cases rest with
    | nil =>
      rw [literalList_single]
      exact around plain.1.2.1
    | cons next rest =>
      rw [literalList_cons, List.mem_append, List.mem_cons, List.mem_cons, not_or, not_or, not_or]
      exact ⟨around plain.1.2.1, by decide, by decide, ih plain.2⟩

/-- Plain pieces come back as they were. -/
theorem translate_literalList {pieces : List (List UInt8)} (plain : ∀ piece ∈ pieces, Plain piece) :
    translate (literalList pieces) = some pieces := by
  rw [translate, replaceTrigraphs_eq (literalList_noTrigraph plain), spliceLines_eq (literalList_noBackslash plain),
    lex_literalList plain]
  exact elements_listTokens plain

/-- Where the elements are the pieces in some order, no piece was changed on the way. -/
theorem plain_of_translate {pieces made : List (List UInt8)} (filled : pieces ≠ [])
    (noComma : ∀ piece ∈ pieces, comma ∉ piece) (translated : translate (literalList pieces) = some made)
    (same : made.Perm pieces) : ∀ piece ∈ pieces, Plain piece := by
  have characters : made.flatten.length = pieces.flatten.length := same.flatten.length_eq
  have tight : (literalList pieces).length + 2 = made.flatten.length + 4 * made.length := by
    rw [characters, same.length_eq]
    exact literalList_length filled
  have ⟨noTrigraph, noBackslash, noNewline, quotes⟩ := translate_tight (literalList_commaSpaced noComma) translated tight
  rw [literalList_quotes, same.length_eq, Nat.add_eq_right, List.count_eq_zero] at quotes
  intro piece member
  obtain ⟨before, after, split⟩ := mem_literalList member
  rw [split] at noTrigraph noBackslash noNewline
  rw [List.mem_append, List.mem_append, not_or, not_or] at noBackslash noNewline
  exact ⟨fun inside => quotes (List.mem_flatten_of_mem member inside), noBackslash.1.2, noNewline.1.2, noTrigraph.middle⟩

end CInitializer
