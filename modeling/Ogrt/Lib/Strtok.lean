import Mathlib.Data.List.TakeWhile

/-! The tokenizer of C, which cuts a string in place and remembers where it has stopped. -/

namespace Strtok
variable {isDelim : UInt8 → Bool}

/-- The tokens of a text: the pieces between its delimiters that are not empty. -/
def pieces (isDelim : UInt8 → Bool) (text : List UInt8) : List (List UInt8) :=
  (text.splitOnP isDelim).filter (· ≠ [])

/-- The first index from `start` on at which the predicate does not hold. -/
def span (p : UInt8 → Bool) (buffer : List UInt8) (start : Nat) : Nat :=
  start + ((buffer.drop start).takeWhile p).length

/-- The token by its index in the buffer, the buffer as it is left, and the position where the
next call starts. -/
structure Result where
  token : Option Nat
  buffer : List UInt8
  saved : Nat

/-- A call that starts at an index. No result is a read outside the buffer. -/
def strtok (isDelim : UInt8 → Bool) (buffer : List UInt8) (start : Nat) : Option Result :=
  let first := span isDelim buffer start
  buffer[first]?.bind fun c =>
    if c = 0 then some ⟨none, buffer, first⟩
    else
      let stop := span (fun c => c ≠ 0 && !isDelim c) buffer first
      buffer[stop]?.map fun c =>
        if c = 0 then ⟨some first, buffer, stop⟩ else ⟨some first, buffer.set stop 0, stop + 1⟩

theorem not_mem_of_mem_splitOn (separator : UInt8) (text : List UInt8) :
    ∀ piece ∈ text.splitOn separator, separator ∉ piece := by
  induction text with
  | nil => simp
  | cons c rest ih =>
    rw [List.splitOn_cons_eq_if_modifyHead]
    split
    · exact List.forall_mem_cons.mpr ⟨List.not_mem_nil, ih⟩
    · rename_i other
      cases split : rest.splitOn separator with
      | nil => exact nofun
      | cons first more =>
        rw [split] at ih
        obtain ⟨head, behind⟩ := List.forall_mem_cons.mp ih
        refine List.forall_mem_cons.mpr ⟨fun member => ?_, behind⟩
        rcases List.mem_cons.mp member with same | member
        · exact other (beq_iff_eq.mpr same.symm)
        · exact head member

@[simp] theorem pieces_nil : pieces isDelim [] = [] := rfl

theorem pieces_delim {c : UInt8} (delim : isDelim c = true) (text : List UInt8) :
    pieces isDelim (c :: text) = pieces isDelim text := by
  rw [pieces, List.splitOnP_cons_eq_if_modifyHead, if_pos delim]
  rfl

/-- Leading delimiters make no token. -/
theorem pieces_skip {skipped : List UInt8} (delims : ∀ c ∈ skipped, isDelim c = true) (text : List UInt8) :
    pieces isDelim (skipped ++ text) = pieces isDelim text := by
  induction skipped with
  | nil => rfl
  | cons c skipped ih =>
    rw [List.cons_append, pieces_delim (delims c (List.mem_cons_self ..))]
    exact ih fun d member => delims d (List.mem_cons_of_mem c member)

/-- A text without delimiters is one token. -/
theorem pieces_last {token : List UInt8} (plain : ∀ c ∈ token, isDelim c = false) (some : token ≠ []) :
    pieces isDelim token = [token] := by
  rw [pieces, List.splitOnP_eq_singleton plain]
  exact List.filter_cons_of_pos (decide_eq_true some)

theorem pieces_first {token : List UInt8} (plain : ∀ c ∈ token, isDelim c = false) (some : token ≠ []) {c : UInt8}
    (delim : isDelim c = true) (rest : List UInt8) :
    pieces isDelim (token ++ c :: rest) = token :: pieces isDelim rest := by
  rw [pieces, List.splitOnP_append_cons_of_forall_mem plain c delim]
  exact List.filter_cons_of_pos (decide_eq_true some)

/-- A span ends behind the elements that have the property. -/
theorem span_append {p : UInt8 → Bool} {before inside after : List UInt8} {c : UInt8} (all : ∀ d ∈ inside, p d = true)
    (stop : p c = false) : span p (before ++ (inside ++ c :: after)) before.length = (before ++ inside).length := by
  rw [span, List.drop_left, List.takeWhile_append_of_pos all, List.takeWhile_cons, if_neg (Bool.eq_false_iff.mp stop),
    List.append_nil, List.length_append]

/-- A text is delimiters, and behind them nothing or a token with what follows it. -/
theorem split_text (isDelim : UInt8 → Bool) (text : List UInt8) :
    ∃ skipped token rest, text = skipped ++ (token ++ rest) ∧ (∀ c ∈ skipped, isDelim c = true) ∧
      (∀ c ∈ token, isDelim c = false) ∧ (token = [] → rest = []) ∧ ∀ c, rest.head? = some c → isDelim c = true := by
  refine ⟨text.takeWhile isDelim, (text.dropWhile isDelim).takeWhile (fun c => !isDelim c),
    (text.dropWhile isDelim).dropWhile (fun c => !isDelim c), ?_, ?_, ?_, ?_, ?_⟩
  · rw [List.takeWhile_append_dropWhile, List.takeWhile_append_dropWhile]
  · intro c member
    exact List.mem_takeWhile_imp member
  · intro c member
    have plain := List.mem_takeWhile_imp member
    exact (Bool.not_eq_true' _).mp plain
  · intro empty
    cases body : text.dropWhile isDelim with
    | nil => rfl
    | cons c rest =>
      have first : isDelim c = false := by
        have head := List.head?_dropWhile_not isDelim text
        rw [body] at head
        exact (Bool.not_eq_true' _).mp (by simpa using head)
      rw [body, List.takeWhile_cons, first] at empty
      cases empty
  · intro c head
    have stops := List.head?_dropWhile_not (fun c => !isDelim c) (text.dropWhile isDelim)
    rw [head] at stops
    exact (Bool.not_eq_false' _).mp stops

/-- The buffer holds a string of which this text is left from the index on. -/
def Rest (buffer : List UInt8) (start : Nat) (text : List UInt8) : Prop :=
  ∃ before, buffer = before ++ (text ++ [0]) ∧ start = before.length ∧ 0 ∉ text

/-- The string at an index of the buffer. -/
def StringAt (buffer : List UInt8) (index : Nat) (text : List UInt8) : Prop :=
  ∃ before after, buffer = before ++ (text ++ 0 :: after) ∧ index = before.length ∧ 0 ∉ text

theorem StringAt.noNul {buffer text : List UInt8} {index : Nat} (found : StringAt buffer index text) : 0 ∉ text := by
  obtain ⟨_, _, _, _, plain⟩ := found
  exact plain

theorem getElem?_length (before after : List UInt8) (c : UInt8) : (before ++ c :: after)[before.length]? = some c := by
  rw [List.getElem?_append_right (Nat.le_refl _), Nat.sub_self]
  rfl

theorem set_length (before after : List UInt8) (c d : UInt8) :
    (before ++ c :: after).set before.length d = before ++ d :: after := by
  rw [List.set_append_right _ _ (Nat.le_refl _), Nat.sub_self]
  rfl

/-- Without a token the call gives none and leaves the buffer as it is. -/
theorem Rest.none {buffer text : List UInt8} {start : Nat} (noNul : isDelim 0 = false) (left : Rest buffer start text)
    (empty : pieces isDelim text = []) : ∃ saved, strtok isDelim buffer start = some ⟨none, buffer, saved⟩ := by
  obtain ⟨before, rfl, rfl, _⟩ := left
  obtain ⟨skipped, token, rest, rfl, delims, plain, whole, ends⟩ := split_text isDelim text
  have nothing : token = [] := by
    by_contra some
    rw [pieces_skip delims] at empty
    cases rest with
    | nil =>
      rw [List.append_nil, pieces_last plain some] at empty
      cases empty
    | cons c rest =>
      rw [pieces_first plain some (ends c rfl)] at empty
      cases empty
  rw [nothing, whole nothing, List.append_nil, List.append_nil]
  refine ⟨(before ++ skipped).length, ?_⟩
  have nul : (before ++ (skipped ++ [0]))[(before ++ skipped).length]? = Option.some 0 := by
    rw [← List.append_assoc]
    exact getElem?_length _ _ _
  rw [strtok, span_append delims noNul, nul]
  rfl

/-- A call that finds a token stops behind it, at the end of the string or at a delimiter that
is overwritten. -/
theorem strtok_cut {before skipped token after : List UInt8} {c : UInt8} (delims : ∀ d ∈ skipped, isDelim d = true)
    (plain : ∀ d ∈ token, isDelim d = false) (some : token ≠ []) (text : 0 ∉ token) (stops : c = 0 ∨ isDelim c = true) :
    strtok isDelim (before ++ (skipped ++ (token ++ c :: after))) before.length =
      Option.some (if c = 0 then
          ⟨Option.some (before ++ skipped).length, before ++ (skipped ++ (token ++ c :: after)),
            (before ++ skipped ++ token).length⟩
        else
          ⟨Option.some (before ++ skipped).length, before ++ (skipped ++ (token ++ 0 :: after)),
            (before ++ skipped ++ token).length + 1⟩) := by
  have inToken : ∀ d ∈ token, (d ≠ 0 && !isDelim d) = true := by
    intro d member
    rw [plain d member, Bool.not_false, Bool.and_true, decide_eq_true_iff]
    exact fun nul => text (nul ▸ member)
  have stop : (c ≠ 0 && !isDelim c) = false := by
    rcases stops with rfl | delim
    · rfl
    · rw [delim, Bool.not_true, Bool.and_false]
  obtain ⟨head, tail, split⟩ := List.exists_cons_of_ne_nil some
  have headPlain : isDelim head = false := plain head (split ▸ List.mem_cons_self ..)
  have headSome : head ≠ 0 := fun nul => text (split ▸ nul ▸ List.mem_cons_self ..)
  have first : span isDelim (before ++ (skipped ++ (token ++ c :: after))) before.length = (before ++ skipped).length := by
    rw [split]
    exact span_append delims headPlain
  have atFirst : (before ++ (skipped ++ (token ++ c :: after)))[(before ++ skipped).length]? = Option.some head := by
    rw [← List.append_assoc, split]
    exact getElem?_length _ _ _
  have last : span (fun d => d ≠ 0 && !isDelim d) (before ++ (skipped ++ (token ++ c :: after)))
      (before ++ skipped).length = (before ++ skipped ++ token).length := by
    rw [← List.append_assoc]
    exact span_append inToken stop
  have regroup (d : UInt8) :
      before ++ (skipped ++ (token ++ d :: after)) = (before ++ skipped ++ token) ++ d :: after := by
    simp only [List.append_assoc]
  have atLast : (before ++ (skipped ++ (token ++ c :: after)))[(before ++ skipped ++ token).length]? = Option.some c := by
    rw [regroup]
    exact getElem?_length _ _ _
  have cut : (before ++ (skipped ++ (token ++ c :: after))).set (before ++ skipped ++ token).length 0 =
      before ++ (skipped ++ (token ++ 0 :: after)) := by
    rw [regroup, regroup]
    exact set_length _ _ _ _
  rw [strtok]
  dsimp only
  rw [first, atFirst, Option.bind_some, if_neg headSome, last, atLast, Option.map_some, cut]

/-- A call finds the first token of what is left and leaves the others for the next one. -/
theorem Rest.token {buffer text token : List UInt8} {more : List (List UInt8)} {start : Nat}
    (left : Rest buffer start text) (first : pieces isDelim text = token :: more) :
    ∃ index buffer' saved text', strtok isDelim buffer start = some ⟨some index, buffer', saved⟩ ∧
      StringAt buffer' index token ∧ Rest buffer' saved text' ∧ pieces isDelim text' = more ∧
      text'.length < text.length := by
  obtain ⟨before, rfl, rfl, noText⟩ := left
  obtain ⟨skipped, token', rest, rfl, delims, plain, whole, ends⟩ := split_text isDelim text
  rw [pieces_skip delims] at first
  have some : token' ≠ [] := by
    intro nothing
    rw [nothing, whole nothing] at first
    cases first
  have noToken : 0 ∉ token' := by
    intro member
    exact noText (List.mem_append_right _ (List.mem_append_left _ member))
  have count := List.length_pos_iff.mpr some
  cases rest with
  | nil =>
    rw [List.append_nil, pieces_last plain some] at first
    obtain ⟨rfl, rfl⟩ := List.cons.inj first
    have found := @strtok_cut isDelim before skipped token' [] 0 delims plain some noToken (Or.inl rfl)
    rw [if_pos rfl] at found
    refine ⟨_, _, _, [], by rw [List.append_nil, List.append_assoc]; exact found, ?_, ?_, rfl, ?_⟩
    · exact ⟨before ++ skipped, [], by simp only [List.append_assoc], rfl, noToken⟩
    · exact ⟨before ++ skipped ++ token', by simp only [List.append_assoc, List.nil_append], rfl, List.not_mem_nil⟩
    · simp only [List.append_nil, List.length_append, List.length_nil]
      omega
  | cons c rest =>
    have delim := ends c rfl
    rw [pieces_first plain some delim] at first
    obtain ⟨rfl, rfl⟩ := List.cons.inj first
    have noRest : 0 ∉ c :: rest := by
      intro member
      exact noText (List.mem_append_right _ (List.mem_append_right _ member))
    have found := @strtok_cut isDelim before skipped token' (rest ++ [0]) c delims plain some noToken (Or.inr delim)
    have other : c ≠ 0 := fun nul => noRest (nul ▸ List.mem_cons_self ..)
    rw [if_neg other] at found
    refine ⟨_, _, _, rest, by simpa only [List.append_assoc, List.cons_append] using found, ?_, ?_, rfl, ?_⟩
    · exact ⟨before ++ skipped, rest ++ [0], by simp only [List.append_assoc], rfl, noToken⟩
    · refine ⟨before ++ skipped ++ token' ++ [0], ?_, ?_, fun member => noRest (List.mem_cons_of_mem c member)⟩
      · simp only [List.append_assoc, List.singleton_append]
      · simp only [List.length_append, List.length_singleton, Nat.add_assoc]
    · simp only [List.length_append, List.length_cons]
      omega

theorem Rest.pieces_length {buffer text : List UInt8} {start : Nat} (left : Rest buffer start text) :
    (pieces isDelim text).length ≤ text.length := by
  generalize found : pieces isDelim text = tokens
  induction tokens generalizing buffer text start with
  | nil => exact Nat.zero_le _
  | cons token more ih =>
    obtain ⟨_, _, _, text', _, _, next, others, shorter⟩ := left.token found
    have fewer := ih next others
    rw [List.length_cons]
    omega

theorem Rest.noNul {buffer text token : List UInt8} {start : Nat} (left : Rest buffer start text)
    (member : token ∈ pieces isDelim text) : 0 ∉ token := by
  generalize found : pieces isDelim text = tokens at member
  induction tokens generalizing buffer text start with
  | nil => exact absurd member List.not_mem_nil
  | cons first more ih =>
    obtain ⟨_, _, _, text', _, ⟨_, _, _, _, plain⟩, next, others, _⟩ := left.token found
    rcases List.mem_cons.mp member with rfl | member
    · exact plain
    · exact ih next others member

end Strtok
