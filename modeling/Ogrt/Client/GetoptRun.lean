import Ogrt.Client.GetoptScan

namespace Ogrt

variable {s : GetoptState} {program : Argument} {rest : List Argument}

/-- Arguments with a mark on those that were taken with an option: in their order, and the others in theirs. -/
def optionsOf (marked : List (Argument × Bool)) : List Argument := (marked.filter (·.2)).map (·.1)

def nonoptionsOf (marked : List (Argument × Bool)) : List Argument := (marked.filter fun m => !m.2).map (·.1)

def markAll (mark : Bool) (args : List Argument) : List (Argument × Bool) := args.map fun arg => (arg, mark)

section Marks
variable (marked more : List (Argument × Bool)) (args : List Argument)

@[simp] theorem optionsOf_append : optionsOf (marked ++ more) = optionsOf marked ++ optionsOf more := by simp [optionsOf]

@[simp] theorem nonoptionsOf_append : nonoptionsOf (marked ++ more) = nonoptionsOf marked ++ nonoptionsOf more := by
  simp [nonoptionsOf]

@[simp] theorem optionsOf_markAll_true : optionsOf (markAll true args) = args := by
  induction args with
  | nil => rfl
  | cons arg args ih => exact congrArg (arg :: ·) ih

@[simp] theorem nonoptionsOf_markAll_true : nonoptionsOf (markAll true args) = [] := by
  simp [nonoptionsOf, markAll]

@[simp] theorem optionsOf_markAll_false : optionsOf (markAll false args) = [] := by simp [optionsOf, markAll]

@[simp] theorem nonoptionsOf_markAll_false : nonoptionsOf (markAll false args) = args := by
  induction args with
  | nil => rfl
  | cons arg args ih => exact congrArg (arg :: ·) ih

@[simp] theorem map_fst_markAll (mark : Bool) : (markAll mark args).map (·.1) = args := by simp [markAll, Function.comp_def]

end Marks

/-- Whether an option takes the argument behind it, when this is what is left of it to scan. -/
def takesNext (optstring : GoString) (table : List LongOption) (arg : Argument) (text : GoString) : Bool :=
  if charAt arg.val 1 = dash then longTakesNext table text else shortTakesNext optstring text

/-- The marks that one reading from left to right gives: options have one, "--" and the arguments
that options take; behind "--" nothing has. The Boolean says that the option before takes the next. -/
def markArguments (optstring : GoString) (table : List LongOption) : Bool → List Argument → List (Argument × Bool)
  | _, [] => []
  | true, value :: rest => (value, true) :: markArguments optstring table false rest
  | false, arg :: rest =>
    if isNonoption arg then (arg, false) :: markArguments optstring table false rest
    else if arg.val = [dash, dash] then (arg, true) :: markAll false rest
    else (arg, true) :: markArguments optstring table (takesNext optstring table arg (optionText (some table) arg)) rest

/-- How getopt leaves the arguments of a program: each one is there, the marked ones first, both
kinds in the order in which they came, and optind behind the marked ones. -/
structure Permuted (t : GetoptState) (program : Argument) (args : List Argument) (marked : List (Argument × Bool)) : Prop where
  original : marked.map (·.1) = args
  argv : t.argv = program :: (optionsOf marked ++ nonoptionsOf marked)
  optind : t.optind = (optionsOf marked).length + 1

section MarkArguments
variable {optstring : GoString} {table : List LongOption}

@[simp] theorem markArguments_nil (mark : Bool) : markArguments optstring table mark [] = [] := by cases mark <;> rfl

/-- The non-options in front. -/
theorem markArguments_skip (rest : List Argument) :
    markArguments optstring table false rest =
      markAll false (rest.takeWhile isNonoption) ++ markArguments optstring table false (rest.dropWhile isNonoption) := by
  induction rest with
  | nil => rfl
  | cons arg rest ih =>
    rw [List.takeWhile_cons, List.dropWhile_cons]
    by_cases skips : isNonoption arg = true
    · rw [if_pos skips, if_pos skips, markArguments, if_pos skips, ih]
      rfl
    · rw [if_neg skips, if_neg skips]
      rfl

theorem markArguments_terminator {arg : Argument} {more : List Argument} (isOption : isNonoption arg = false)
    (terminator : arg.val = [dash, dash]) :
    markArguments optstring table false (arg :: more) = (arg, true) :: markAll false more := by
  rw [markArguments, if_neg (Bool.eq_false_iff.mp isOption), if_pos terminator]

theorem markArguments_option {arg : Argument} {more : List Argument} (isOption : isNonoption arg = false)
    (goesOn : arg.val ≠ [dash, dash]) :
    markArguments optstring table false (arg :: more) =
      (arg, true) :: markArguments optstring table (takesNext optstring table arg (optionText (some table) arg)) more := by
  rw [markArguments, if_neg (Bool.eq_false_iff.mp isOption), if_neg goesOn]

end MarkArguments

/-- Between two calls: the arguments so far with their marks, and those to come. -/
structure ScannedSoFar (s : GetoptState) (program : Argument) (args : List Argument) (marked : List (Argument × Bool))
    (rest : List Argument) : Prop where
  original : marked.map (·.1) ++ rest = args
  placed : ∃ moved passed, moved ++ passed = optionsOf marked ∧
    s.Layout program moved (nonoptionsOf marked) passed rest
  initialized : s.initialized = true
  cluster : s.nextchar.getD [] ≠ [] → rest ≠ []

/-- The characters that arguments hold, each with its NUL. -/
def textLength : List Argument → Nat
  | [] => 0
  | arg :: rest => arg.val.length + 1 + textLength rest

/-- What is left to be scanned. -/
def scanCost (s : GetoptState) (rest : List Argument) : Nat :=
  match s.nextchar.getD [] with
  | [] => textLength rest
  | _ :: text => text.length + 1 + textLength rest.tail

/-- The marks of what is not scanned yet, which begins in the midst of an argument when characters are pending. -/
def pendingMarks (optstring : GoString) (table : List LongOption) (s : GetoptState) :
    List Argument → List (Argument × Bool)
  | [] => []
  | arg :: more =>
    if s.nextchar.getD [] = [] then markArguments optstring table false (arg :: more)
    else (arg, true) :: markArguments optstring table (takesNext optstring table arg (s.nextchar.getD [])) more

theorem pendingMarks_of_empty {t : GetoptState} (fresh : t.nextchar.getD [] = []) (optstring : GoString)
    (table : List LongOption) (rest : List Argument) :
    pendingMarks optstring table t rest = markArguments optstring table false rest := by
  cases rest with
  | nil => rw [pendingMarks, markArguments_nil]
  | cons arg more => rw [pendingMarks, if_pos fresh]

section Scanning
variable {args : List Argument} {marked : List (Argument × Bool)}

theorem ScannedSoFar.advance {t : GetoptState} {n : Nat} (scanned : ScannedSoFar s program args marked rest)
    (advances : Advances s t n) (cluster : t.nextchar.getD [] ≠ [] → rest.drop n ≠ []) :
    ScannedSoFar t program args (marked ++ markAll true (rest.take n)) (rest.drop n) where
  original := by
    rw [List.map_append, map_fst_markAll, List.append_assoc, List.take_append_drop]
    exact scanned.original
  placed := by
    obtain ⟨moved, passed, options, layout⟩ := scanned.placed
    have inside : n ≤ rest.length := by
      have bound := advances.inside
      have total := congrArg List.length layout.argv
      rw [advances.optind, layout.optind, GetoptState.argc, total] at bound
      simp only [List.length_cons, List.length_append] at bound
      omega
    refine ⟨moved, passed ++ rest.take n, ?_, ?_⟩
    · rw [optionsOf_append, optionsOf_markAll_true, ← options, List.append_assoc]
    · rw [nonoptionsOf_append, nonoptionsOf_markAll_true, List.append_nil]
      refine ⟨?_, advances.firstNonopt.trans layout.firstNonopt, advances.lastNonopt.trans layout.lastNonopt, ?_⟩
      · rw [advances.argv, layout.argv]
        simp
      · rw [advances.optind, layout.optind, List.length_append, List.length_take]
        omega
  initialized := advances.initialized.trans scanned.initialized
  cluster := cluster

/-- An option is next: it and what follows stay, the non-options before it are skipped. -/
theorem ScannedSoFar.start (scanned : ScannedSoFar s program args marked rest) {arg : Argument} {more : List Argument}
    (next : rest.dropWhile isNonoption = arg :: more) (text : GoString) :
    ScannedSoFar { s.arranged program (optionsOf marked) (nonoptionsOf marked ++ rest.takeWhile isNonoption) (arg :: more) with
      nextchar := some text } program args (marked ++ markAll false (rest.takeWhile isNonoption)) (arg :: more) where
  original := by
    rw [List.map_append, map_fst_markAll, List.append_assoc, ← next, List.takeWhile_append_dropWhile]
    exact scanned.original
  placed := by
    refine ⟨optionsOf marked, [], ?_, ?_⟩
    · rw [optionsOf_append, optionsOf_markAll_false]
    · rw [nonoptionsOf_append, nonoptionsOf_markAll_false]
      exact ⟨by simp [GetoptState.arranged], rfl, rfl, rfl⟩
  initialized := scanned.initialized
  cluster := fun _ => List.cons_ne_nil _ _

theorem isOption_of_next {arg : Argument} {more : List Argument} (next : rest.dropWhile isNonoption = arg :: more) :
    isNonoption arg = false := by
  have head := List.head?_dropWhile_not isNonoption rest
  rw [next] at head
  exact Bool.eq_false_iff.mpr (by simpa using head)

/-- No option is next. -/
theorem ScannedSoFar.stop (scanned : ScannedSoFar s program args marked rest) (next : rest.dropWhile isNonoption = [])
    (optstring : GoString) (table : List LongOption) :
    Permuted (s.ended program (optionsOf marked) (nonoptionsOf marked ++ rest)) program args
      (marked ++ markArguments optstring table false rest) := by
  have all : rest.takeWhile isNonoption = rest := by
    conv => rhs; rw [← @List.takeWhile_append_dropWhile _ isNonoption rest, next, List.append_nil]
  rw [markArguments_skip, next, markArguments_nil, List.append_nil, all]
  refine ⟨?_, by simp [GetoptState.ended, GetoptState.arranged], by simp [GetoptState.ended]⟩
  rw [List.map_append, map_fst_markAll]
  exact scanned.original

/-- "--" is next. -/
theorem ScannedSoFar.terminate (scanned : ScannedSoFar s program args marked rest) {arg : Argument} {more : List Argument}
    (next : rest.dropWhile isNonoption = arg :: more) (terminator : arg.val = [dash, dash])
    (optstring : GoString) (table : List LongOption) :
    Permuted (s.ended program (optionsOf marked ++ [arg]) (nonoptionsOf marked ++ rest.takeWhile isNonoption ++ more))
      program args (marked ++ markArguments optstring table false rest) := by
  have marks : markArguments optstring table false rest =
      markAll false (rest.takeWhile isNonoption) ++ (markAll true [arg] ++ markAll false more) := by
    rw [markArguments_skip, next, markArguments_terminator (isOption_of_next next) terminator]
    rfl
  rw [marks]
  refine ⟨?_, by simp [GetoptState.ended, GetoptState.arranged], by simp [GetoptState.ended]⟩
  simp only [List.map_append, map_fst_markAll, List.singleton_append]
  rw [← next, List.takeWhile_append_dropWhile]
  exact scanned.original

theorem textLength_dropWhile_le (rest : List Argument) : textLength (rest.dropWhile isNonoption) ≤ textLength rest := by
  induction rest with
  | nil => exact Nat.le_refl _
  | cons arg rest ih =>
    rw [List.dropWhile_cons]
    split
    · rw [textLength]
      omega
    · exact Nat.le_refl _

theorem textLength_drop_le (n : Nat) (rest : List Argument) : textLength (rest.drop n) ≤ textLength rest := by
  induction rest generalizing n with
  | nil => simp
  | cons arg rest ih =>
    cases n with
    | zero => exact Nat.le_refl _
    | succ n =>
      rw [List.drop_succ_cons, textLength]
      have shorter := ih n
      omega

theorem scanCost_of_empty {t : GetoptState} (fresh : t.nextchar.getD [] = []) (rest : List Argument) :
    scanCost t rest = textLength rest := by
  rw [scanCost, fresh]

/-- What a step over an option leaves is less than the option itself. -/
theorem scanCost_lt {t : GetoptState} {arg : Argument} {more : List Argument} {n : Nat} {text : GoString}
    (moves : n = 0 ∧ t.nextchar = some text ∧ text ≠ [] ∨ 0 < n ∧ t.nextchar.getD [] = []) :
    scanCost t ((arg :: more).drop n) < text.length + 1 + textLength more := by
  rcases moves with ⟨rfl, next, nonempty⟩ | ⟨moved, fresh⟩
  · obtain ⟨c, left, rfl⟩ := List.exists_cons_of_ne_nil nonempty
    rw [scanCost, next]
    show left.length + 1 + textLength more < _
    rw [List.length_cons]
    omega
  · obtain ⟨n, rfl⟩ := Nat.exists_eq_succ_of_ne_zero (Nat.pos_iff_ne_zero.mp moved)
    rw [scanCost_of_empty fresh, List.drop_succ_cons]
    have shorter := textLength_drop_le n more
    omega

theorem ScannedSoFar.named (scanned : ScannedSoFar s program args marked rest) : s.argv[0]? = some program := by
  obtain ⟨_, _, _, layout⟩ := scanned.placed
  rw [layout.argv, List.getElem?_cons_zero]

theorem ScannedSoFar.here {arg : Argument} {more : List Argument} (scanned : ScannedSoFar s program args marked (arg :: more)) :
    s.argv[s.optind]? = some arg := by
  obtain ⟨moved, passed, _, layout⟩ := scanned.placed
  have place : s.optind = (program :: (moved ++ nonoptionsOf marked ++ passed)).length := by
    rw [layout.optind, List.length_cons, List.length_append, List.length_append]
    omega
  rw [place, layout.argv, ← List.cons_append, List.getElem?_append_right (Nat.le_refl _), Nat.sub_self,
    List.getElem?_cons_zero]

/-- The option at optind is taken up, a long one whole and of short ones the next character. -/
def takeOption (optstring : GoString) (table : List LongOption) (printErrors : Bool) (arg : Argument) (s : GetoptState) :
    Option (Int × GetoptState) :=
  if charAt arg.val 1 = dash then checkLongOpt optstring table printErrors s else checkShortOpt optstring printErrors s

/-- A step over an option, as checkLongOpt_advances and checkShortOpt_advances describe it. -/
theorem takeOption_advances {arg : Argument} {more : List Argument} (scanned : ScannedSoFar s program args marked (arg :: more))
    (optstring : GoString) (table : List LongOption) (printErrors : Bool) {text : GoString}
    (next : s.nextchar = some text) (shortText : charAt arg.val 1 ≠ dash → text ≠ []) :
    ∃ c t n, takeOption optstring table printErrors arg s = some (c, t) ∧ Advances s t n ∧
      (n = 0 ∧ t.nextchar = some text.tail ∧ text.tail ≠ [] ∧
          takesNext optstring table arg text = takesNext optstring table arg text.tail ∨
        n = optionSpan (takesNext optstring table arg text) s ∧ t.nextchar.getD [] = []) ∧
      Returnable optstring table c := by
  by_cases long : charAt arg.val 1 = dash
  · obtain ⟨c, t, taken, advances, fresh, returned⟩ :=
      checkLongOpt_advances optstring table printErrors scanned.named scanned.here next
    refine ⟨c, t, _, (if_pos long).trans taken, advances, Or.inr ⟨?_, ?_⟩, returned⟩
    · rw [takesNext, if_pos long]
    · rw [fresh]
      rfl
  · obtain ⟨c, left, rfl⟩ := List.exists_cons_of_ne_nil (shortText long)
    obtain ⟨ret, t, n, taken, advances, moves, returned⟩ :=
      checkShortOpt_advances optstring table printErrors scanned.named scanned.here next
    refine ⟨ret, t, n, (if_neg long).trans taken, advances, ?_, returned⟩
    simp only [takesNext, if_neg long]
    exact moves

theorem ScannedSoFar.before_last {arg : Argument} {more : List Argument}
    (scanned : ScannedSoFar s program args marked (arg :: more)) : s.optind + 1 < s.argc ↔ more ≠ [] := by
  obtain ⟨moved, passed, _, layout⟩ := scanned.placed
  rw [GetoptState.argc, layout.argv, layout.optind, ← List.length_pos_iff]
  simp only [List.length_cons, List.length_append]
  omega

/-- The marks of an option and of what it takes are those of the reading from left to right. -/
theorem ScannedSoFar.span_marks {arg : Argument} {more : List Argument}
    (scanned : ScannedSoFar s program args marked (arg :: more)) (optstring : GoString) (table : List LongOption) (takes : Bool) :
    markAll true ((arg :: more).take (optionSpan takes s)) ++
        markArguments optstring table false ((arg :: more).drop (optionSpan takes s)) =
      (arg, true) :: markArguments optstring table takes more := by
  cases more with
  | nil =>
    rw [optionSpan_of_last takes fun inside => scanned.before_last.mp inside rfl, markArguments_nil]
    rfl
  | cons value rest =>
    cases takes with
    | true =>
      rw [optionSpan_two rfl (scanned.before_last.mpr (List.cons_ne_nil _ _))]
      rfl
    | false =>
      rw [optionSpan_one rfl]
      rfl

theorem ScannedSoFar.takes {arg : Argument} {more : List Argument} (scanned : ScannedSoFar s program args marked (arg :: more))
    (optstring : GoString) (table : List LongOption) (printErrors : Bool) {text : GoString}
    (next : s.nextchar = some text) (shortText : charAt arg.val 1 ≠ dash → text ≠ []) :
    ∃ c t marked' rest', takeOption optstring table printErrors arg s = some (c, t) ∧
      Returnable optstring table c ∧ ScannedSoFar t program args marked' rest' ∧
      scanCost t rest' < text.tail.length + 1 + textLength more ∧
      marked' ++ pendingMarks optstring table t rest' =
        marked ++ (arg, true) :: markArguments optstring table (takesNext optstring table arg text) more := by
  obtain ⟨c, t, n, taken, advances, moves, returned⟩ := takeOption_advances scanned optstring table printErrors next shortText
  refine ⟨c, t, _, _, taken, returned, scanned.advance advances ?_, scanCost_lt ?_, ?_⟩
  · intro goesOn
    rcases moves with ⟨rfl, _⟩ | ⟨_, fresh⟩
    · exact List.cons_ne_nil _ _
    · exact absurd fresh goesOn
  · rcases moves with ⟨here, pending, nonempty, _⟩ | ⟨rfl, fresh⟩
    · exact Or.inl ⟨here, pending, nonempty⟩
    · exact Or.inr ⟨optionSpan_pos _ _, fresh⟩
  · rcases moves with ⟨rfl, pending, nonempty, same⟩ | ⟨rfl, fresh⟩
    · rw [same, List.drop_zero, pendingMarks, pending, Option.getD_some, if_neg nonempty]
      simp [markAll]
    · rw [pendingMarks_of_empty fresh, List.append_assoc, scanned.span_marks]

/-- The errors that getopt prints. -/
def printsErrors (optstring : GoString) (s : GetoptState) : Bool := if charAt optstring 0 = colon then false else s.opterr

/-- A call that is not the first. -/
theorem getoptInternalR_later (optstring : GoString) (table : List LongOption) (some_args : 0 < s.argc)
    (started : s.optind ≠ 0) (initialized : s.initialized = true) :
    getoptInternalR optstring (some table) s =
      (if s.nextchar.getD [] = [] then shuffleArgv (some table) { s with optarg := none }
        else some (0, { s with optarg := none })).bind fun (ret, t) =>
          if ret ≠ 0 then some (ret, t)
          else t.argv[t.optind]?.bind fun arg => takeOption optstring table (printsErrors optstring s) arg t := by
  have enough : ¬ s.argc < 1 := by omega
  have later : ¬ (s.optind = 0 ∨ s.initialized = false) := by
    rw [initialized]
    intro first
    rcases first with zero | fresh
    · exact started zero
    · exact Bool.noConfusion fresh
  rw [getoptInternalR, if_neg enough]
  simp only [if_neg later]
  split <;> rfl

theorem optionText_of_not_dash (longopts : Option (List LongOption)) {arg : Argument} (isOption : isNonoption arg = false)
    (short : charAt arg.val 1 ≠ dash) : optionText longopts arg ≠ [] := by
  rw [optionText, if_neg fun both => short both.2]
  intro empty
  have size := List.drop_eq_nil_iff.mp empty
  have nul : charAt arg.val 1 = 0 := by
    rw [charAt, List.getD_eq_getElem?_getD, List.getElem?_eq_none size]
    rfl
  rw [isNonoption, nul] at isOption
  simp at isOption

theorem optionText_length_le (longopts : Option (List LongOption)) (arg : Argument) :
    (optionText longopts arg).tail.length ≤ arg.val.length := by
  rw [optionText, List.length_tail, List.length_drop]
  omega

theorem goes_on {t : GetoptState} {arg : Argument} (here : t.argv[t.optind]? = some arg)
    (take : Argument → Option (Int × GetoptState)) :
    (if (0 : Int) ≠ 0 then some ((0 : Int), t) else t.argv[t.optind]?.bind take) = take arg := by
  rw [if_neg (not_not_intro rfl), here, Option.bind_some]

theorem ScannedSoFar.unread (scanned : ScannedSoFar s program args marked rest) :
    ScannedSoFar { s with optarg := none } program args marked rest := by
  obtain ⟨moved, passed, options, layout⟩ := scanned.placed
  exact ⟨scanned.original,
    ⟨moved, passed, options, layout.argv, layout.firstNonopt, layout.lastNonopt, layout.optind⟩,
    scanned.initialized, scanned.cluster⟩

theorem ScannedSoFar.getoptInternalR_eq (scanned : ScannedSoFar s program args marked rest) (optstring : GoString)
    (table : List LongOption) :
    getoptInternalR optstring (some table) s =
      (if s.nextchar.getD [] = [] then shuffleArgv (some table) { s with optarg := none }
        else some (0, { s with optarg := none })).bind fun (ret, t) =>
          if ret ≠ 0 then some (ret, t)
          else t.argv[t.optind]?.bind fun arg => takeOption optstring table (printsErrors optstring s) arg t := by
  obtain ⟨_, _, _, layout⟩ := scanned.placed
  refine getoptInternalR_later optstring table ?_ ?_ scanned.initialized
  · rw [GetoptState.argc, layout.argv]
    exact Nat.succ_pos _
  · rw [layout.optind]
    omega

/-- When no option character is pending: the non-options are skipped first. -/
theorem ScannedSoFar.getoptInternalR_fresh (scanned : ScannedSoFar s program args marked rest) (fresh : s.nextchar.getD [] = [])
    (optstring : GoString) (table : List LongOption) :
    getoptInternalR optstring (some table) s =
      ((passTerminator ({ s with optarg := none }.arranged program (optionsOf marked)
        (nonoptionsOf marked ++ rest.takeWhile isNonoption) (rest.dropWhile isNonoption))).bind
          (stopOrStart (some table))).bind fun (ret, t) =>
            if ret ≠ 0 then some (ret, t)
            else t.argv[t.optind]?.bind fun arg => takeOption optstring table (printsErrors optstring s) arg t := by
  obtain ⟨moved, passed, options, layout⟩ := scanned.unread.placed
  rw [scanned.getoptInternalR_eq, if_pos fresh, layout.shuffleArgv_eq, options]

theorem ScannedSoFar.call_stop (scanned : ScannedSoFar s program args marked rest) (fresh : s.nextchar.getD [] = [])
    (next : rest.dropWhile isNonoption = []) (optstring : GoString) (table : List LongOption) :
    getoptInternalR optstring (some table) s =
      some (-1, { s with optarg := none }.ended program (optionsOf marked) (nonoptionsOf marked ++ rest)) := by
  have all : rest.takeWhile isNonoption = rest := by
    conv => rhs; rw [← @List.takeWhile_append_dropWhile _ isNonoption rest, next, List.append_nil]
  rw [scanned.getoptInternalR_fresh fresh, next, passTerminator_nil, Option.bind_some, stopOrStart_nil, Option.bind_some, all]
  rfl

theorem ScannedSoFar.call_terminate (scanned : ScannedSoFar s program args marked rest) (fresh : s.nextchar.getD [] = [])
    {arg : Argument} {more : List Argument} (next : rest.dropWhile isNonoption = arg :: more)
    (terminator : arg.val = [dash, dash]) (optstring : GoString) (table : List LongOption) :
    getoptInternalR optstring (some table) s =
      some (-1, { s with optarg := none }.ended program (optionsOf marked ++ [arg])
        (nonoptionsOf marked ++ rest.takeWhile isNonoption ++ more)) := by
  rw [scanned.getoptInternalR_fresh fresh, next, passTerminator_stops terminator, Option.bind_some, stopOrStart_nil,
    Option.bind_some]
  rfl

theorem ScannedSoFar.call_option (scanned : ScannedSoFar s program args marked rest) (fresh : s.nextchar.getD [] = [])
    {arg : Argument} {more : List Argument} (next : rest.dropWhile isNonoption = arg :: more)
    (goesOn : arg.val ≠ [dash, dash]) (optstring : GoString) (table : List LongOption) :
    getoptInternalR optstring (some table) s =
      takeOption optstring table (printsErrors optstring s) arg
        { { s with optarg := none }.arranged program (optionsOf marked)
            (nonoptionsOf marked ++ rest.takeWhile isNonoption) (arg :: more) with
          nextchar := some (optionText (some table) arg) } := by
  have atOption := scanned.unread.start next (optionText (some table) arg)
  rw [scanned.getoptInternalR_fresh fresh, next, passTerminator_goes_on goesOn, Option.bind_some,
    stopOrStart_option _ (isOption_of_next next), Option.bind_some]
  exact goes_on atOption.here _

/-- What one call does: the scan ends with the arguments permuted, or it has come closer to its
end. The marks given so far and those to come stay the same. -/
theorem ScannedSoFar.call (scanned : ScannedSoFar s program args marked rest) (optstring : GoString) (table : List LongOption) :
    ∃ c t, getoptInternalR optstring (some table) s = some (c, t) ∧
      (c = -1 ∧ Permuted t program args (marked ++ pendingMarks optstring table s rest) ∨
        Returnable optstring table c ∧ ∃ marked' rest', ScannedSoFar t program args marked' rest' ∧
          scanCost t rest' < scanCost s rest ∧
          marked' ++ pendingMarks optstring table t rest' = marked ++ pendingMarks optstring table s rest) := by
  have again := scanned.unread
  by_cases fresh : s.nextchar.getD [] = []
  · rw [pendingMarks_of_empty fresh]
    cases next : rest.dropWhile isNonoption with
    | nil => exact ⟨-1, _, scanned.call_stop fresh next optstring table, Or.inl ⟨rfl, again.stop next optstring table⟩⟩
    | cons arg more =>
      by_cases terminator : arg.val = [dash, dash]
      · exact ⟨-1, _, scanned.call_terminate fresh next terminator optstring table,
          Or.inl ⟨rfl, again.terminate next terminator optstring table⟩⟩
      · have isOption := isOption_of_next next
        obtain ⟨c, t, marked', rest', taken, returned, scanned', cost, marks⟩ :=
          (again.start next (optionText (some table) arg)).takes optstring table (printsErrors optstring s) rfl
            (optionText_of_not_dash (some table) isOption)
        refine ⟨c, t, (scanned.call_option fresh next terminator optstring table).trans taken,
          Or.inr ⟨returned, marked', rest', scanned', ?_, ?_⟩⟩
        · have short := optionText_length_le (some table) arg
          have behind := textLength_dropWhile_le rest
          rw [next, textLength] at behind
          rw [scanCost_of_empty fresh]
          omega
        · rw [marks, markArguments_skip, next, markArguments_option isOption terminator, List.append_assoc]
  · obtain ⟨arg, more, rfl⟩ := List.exists_cons_of_ne_nil (scanned.cluster fresh)
    obtain ⟨text, next⟩ : ∃ text, s.nextchar = some text := by
      cases pointer : s.nextchar with
      | none => rw [pointer] at fresh; exact absurd rfl fresh
      | some text => exact ⟨text, rfl⟩
    have nonempty : text ≠ [] := by
      rw [next] at fresh
      exact fresh
    obtain ⟨c, t, marked', rest', taken, returned, scanned', cost, marks⟩ := again.takes optstring table
      (printsErrors optstring s) next (fun _ => nonempty)
    refine ⟨c, t, ?_, Or.inr ⟨returned, marked', rest', scanned', ?_, ?_⟩⟩
    · rw [scanned.getoptInternalR_eq, if_neg fresh, Option.bind_some]
      exact (goes_on again.here _).trans taken
    · obtain ⟨x, left, rfl⟩ := List.exists_cons_of_ne_nil nonempty
      have whole : scanCost s (arg :: more) = left.length + 1 + textLength more := by rw [scanCost, next]; rfl
      rw [whole]
      exact cost
    · rw [marks, pendingMarks, next, Option.getD_some, if_neg nonempty]

end Scanning

/-- A loop like `while ((c = custom_getopt_long (...)) != -1)`, which hands optind from one call to
the next: what the calls return, and how they leave their data. -/
def getoptCalls (options : GoString) (table : List LongOption) (opterr : Bool) :
    Nat → Nat → GetoptState → Option (List Int × GetoptState)
  | 0, _, _ => none
  | fuel + 1, optind, s =>
    (customGetoptLong options table optind opterr 0 s).bind fun (c, t) =>
      if c = -1 then some ([], t)
      else (getoptCalls options table opterr fuel t.optind t).map fun (calls, u) => (c :: calls, u)

theorem customGetoptLong_first (options : GoString) (table : List LongOption) (opterr : Bool) (i : Nat)
    (some_args : 0 < s.argc) :
    customGetoptLong options table 0 opterr i s =
      getoptInternalR options (some table) (customGetoptInitialize { s with optind := 1, opterr, longind := i }) := by
  have enough : ¬ s.argc < 1 := by omega
  show getoptInternalR options (some table) _ = _
  rw [getoptInternalR, getoptInternalR]
  show (if s.argc < 1 then _ else _) = if s.argc < 1 then _ else _
  rw [if_neg enough, if_neg enough]
  rfl

/-- Whatever earlier calls have left behind. -/
theorem scanned_first (args : List Argument) (argv : s.argv = program :: args) :
    ScannedSoFar (customGetoptInitialize { s with optind := 1 }) program args [] args where
  original := rfl
  placed := ⟨[], [], rfl, argv, rfl, rfl, rfl⟩
  initialized := rfl
  cluster := fun some_text => absurd rfl some_text

/-- No option has the value that says that there are no more options. -/
structure OptionsApart (options : GoString) (table : List LongOption) : Prop where
  long : ∀ option ∈ table, option.val ≠ -1
  short : ∀ x ∈ options, charValue x ≠ -1

theorem OptionsApart.returnable {options : GoString} {table : List LongOption} {c : Int}
    (apart : OptionsApart options table) (returned : Returnable options table c) : c ≠ -1 := by
  rcases returned with rfl | rfl | ⟨option, member, rfl⟩ | ⟨x, member, rfl⟩
  · decide
  · decide
  · exact apart.long option member
  · exact apart.short x member

theorem getoptCalls_of_scanned {args : List Argument} {options : GoString} {table : List LongOption}
    (apart : OptionsApart options table) (opterr : Bool) {fuel optind : Nat} {marked : List (Argument × Bool)}
    {entered : GetoptState}
    (enters : customGetoptLong options table optind opterr 0 s = getoptInternalR options (some table) entered)
    (scanned : ScannedSoFar entered program args marked rest) (enough : scanCost entered rest < fuel) :
    ∃ calls t, getoptCalls options table opterr fuel optind s = some (calls, t) ∧
      (∀ c ∈ calls, Returnable options table c) ∧
      Permuted t program args (marked ++ pendingMarks options table entered rest) := by
  induction fuel generalizing s optind marked rest entered with
  | zero => exact absurd enough (Nat.not_lt_zero _)
  | succ fuel ih =>
    obtain ⟨c, t, called, outcome⟩ := scanned.call options table
    rw [getoptCalls, enters, called, Option.bind_some]
    rcases outcome with ⟨rfl, permuted⟩ | ⟨returned, marked', rest', scanned', less, marks⟩
    · exact ⟨[], t, rfl, fun c member => absurd member List.not_mem_nil, permuted⟩
    · have again : ScannedSoFar { t with opterr, longind := 0 } program args marked' rest' := by
        obtain ⟨moved, passed, taken, layout⟩ := scanned'.placed
        exact ⟨scanned'.original, ⟨moved, passed, taken, layout.argv, layout.firstNonopt, layout.lastNonopt, layout.optind⟩,
          scanned'.initialized, scanned'.cluster⟩
      have closer : scanCost { t with opterr, longind := 0 } rest' < fuel := by
        show scanCost t rest' < fuel
        omega
      have same : pendingMarks options table { t with opterr, longind := 0 } rest' = pendingMarks options table t rest' := by
        cases rest' <;> rfl
      obtain ⟨calls, u, rest_of_run, values, permuted⟩ := ih rfl again closer
      rw [same, marks] at permuted
      refine ⟨c :: calls, u, ?_, ?_, permuted⟩
      · show (if c = -1 then _ else _) = _
        rw [if_neg (apart.returnable returned), rest_of_run]
        rfl
      · intro value member
        rcases List.mem_cons.mp member with rfl | later
        · exact returned
        · exact values value later

/-- Whatever the options and the arguments are, and whatever an earlier scan has left in the data,
the calls come to an end without a look behind the arguments. The options stand in front then with
the arguments they take, as a reading from left to right finds them, and behind them the others. -/
theorem getopt_permutes (options : GoString) (table : List LongOption) (apart : OptionsApart options table) (opterr : Bool)
    (s : GetoptState) (program : Argument) (args : List Argument) (argv : s.argv = program :: args) :
    ∃ calls t, getoptCalls options table opterr (textLength args + 1) 0 s = some (calls, t) ∧
      (∀ c ∈ calls, Returnable options table c) ∧ Permuted t program args (markArguments options table false args) := by
  have some_args : 0 < s.argc := by
    rw [GetoptState.argc, argv]
    exact Nat.succ_pos _
  have scanned := @scanned_first { s with opterr, longind := 0 } program args argv
  have marks : pendingMarks options table (customGetoptInitialize { s with opterr, longind := 0, optind := 1 }) args =
      markArguments options table false args := pendingMarks_of_empty rfl options table args
  have run := getoptCalls_of_scanned apart opterr (customGetoptLong_first options table opterr 0 some_args) scanned
    (Nat.lt_succ_self _)
  rw [List.nil_append] at run
  rw [← marks]
  exact run

/-- The static variables of getopt when the program starts. -/
def programStart (argv : List Argument) : GetoptState where
  argv := argv
  optind := 0
  opterr := false
  optopt := 0
  optarg := none
  initialized := false
  nextchar := none
  firstNonopt := 0
  lastNonopt := 0
  longind := 0
  stderr := []

theorem nul_filtered (text : GoString) : 0 ∉ text.filter (· ≠ 0) := fun member =>
  of_decide_eq_true (List.mem_filter.mp member).2 rfl

/-- What a shell makes of a word. -/
def argumentOf (word : String) : Argument := ⟨(ascii word).filter (· ≠ 0), nul_filtered _⟩

def tarArguments : List Argument :=
  [argumentOf "in", argumentOf "-xf", argumentOf "a.tar", argumentOf "out", argumentOf "--verb"]

def tarOptions : List LongOption := [⟨ascii "verbose", .noArgument, 0x76⟩]

theorem getopt_permutes_tar :
    ∃ calls t,
      getoptCalls (ascii "xf:") tarOptions true (textLength tarArguments + 1) 0 (programStart (argumentOf "tar" :: tarArguments)) =
        some (calls, t) ∧
      (∀ c ∈ calls, Returnable (ascii "xf:") tarOptions c) ∧
      Permuted t (argumentOf "tar") tarArguments (markArguments (ascii "xf:") tarOptions false tarArguments) :=
  getopt_permutes (ascii "xf:") tarOptions ⟨by decide, by decide +kernel⟩ true (programStart (argumentOf "tar" :: tarArguments))
    (argumentOf "tar") tarArguments rfl

example : (markArguments (ascii "xf:") tarOptions false tarArguments).map (·.2) = [false, true, true, false, true] := by
  decide +kernel

end Ogrt
