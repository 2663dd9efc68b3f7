import Mathlib.Data.List.TakeWhile
import Ogrt.Client.Getopt

namespace Ogrt

/-- How the arguments stand between two calls: options that are in front already, the non-options
that were skipped, the options processed since, and what was not looked at. -/
structure GetoptState.Layout (s : GetoptState) (program : Argument) (moved skipped passed rest : List Argument) : Prop where
  argv : s.argv = program :: (moved ++ skipped ++ passed ++ rest)
  firstNonopt : s.firstNonopt = moved.length + 1
  lastNonopt : s.lastNonopt = moved.length + 1 + skipped.length
  optind : s.optind = moved.length + 1 + skipped.length + passed.length

variable {s : GetoptState} {program : Argument} {moved skipped passed rest : List Argument}

theorem exchange_eq (layout : s.Layout program moved skipped passed rest) :
    exchange s = some { s with
      argv := program :: (moved ++ passed ++ skipped ++ rest)
      firstNonopt := moved.length + 1 + passed.length
      lastNonopt := s.optind } := by
  have exchanged := BlockExchange.exchange_append (program :: moved) skipped passed rest
  simp only [List.cons_append, List.length_cons] at exchanged
  rw [exchange, layout.argv, layout.firstNonopt, layout.lastNonopt, layout.optind, exchanged, Option.map_some,
    Nat.add_sub_cancel_left]

theorem bringForward_eq (layout : s.Layout program moved skipped passed rest) :
    ∃ last, bringForward s = some { s with
      argv := program :: (moved ++ passed ++ skipped ++ rest)
      firstNonopt := moved.length + 1 + passed.length
      lastNonopt := last } := by
  have lastStays : min s.lastNonopt s.optind = s.lastNonopt := by
    rw [layout.lastNonopt, layout.optind]
    omega
  have firstStays : min s.firstNonopt s.optind = s.firstNonopt := by
    rw [layout.firstNonopt, layout.optind]
    omega
  rw [bringForward, lastStays, firstStays]
  by_cases passes : passed = []
  · subst passes
    have here : s.lastNonopt = s.optind := by rw [layout.lastNonopt, layout.optind]; rfl
    refine ⟨s.lastNonopt, ?_⟩
    rw [if_neg (fun both => both.2 here), if_neg (fun moves => moves here)]
    have same := layout.argv
    rw [List.append_nil] at same ⊢
    rw [List.length_nil, Nat.add_zero, ← layout.firstNonopt, ← same]
  · have some_passed := List.length_pos_iff.mpr passes
    have moves : s.lastNonopt ≠ s.optind := by
      rw [layout.lastNonopt, layout.optind]
      omega
    by_cases skips : skipped = []
    · subst skips
      have none_skipped : s.firstNonopt = s.lastNonopt := by
        rw [layout.firstNonopt, layout.lastNonopt, List.length_nil, Nat.add_zero]
      refine ⟨s.lastNonopt, ?_⟩
      rw [if_neg (fun both => both.1 none_skipped), if_pos moves]
      have same := layout.argv
      have place := layout.optind
      rw [List.length_nil, Nat.add_zero] at place
      rw [List.append_nil] at same ⊢
      rw [← place, ← same]
    · have some_skipped := List.length_pos_iff.mpr skips
      have apart : s.firstNonopt ≠ s.lastNonopt := by
        rw [layout.firstNonopt, layout.lastNonopt]
        omega
      exact ⟨s.optind, (if_pos ⟨apart, moves⟩).trans (exchange_eq layout)⟩

theorem skipNonoptions_eq (rest : List Argument) (optind : Nat) :
    skipNonoptions rest optind = optind + (rest.takeWhile isNonoption).length := by
  induction rest generalizing optind with
  | nil => rfl
  | cons arg rest ih =>
    rw [skipNonoptions, List.takeWhile_cons]
    split
    · rw [ih, List.length_cons]
      omega
    · rfl

/-- Options in front, non-options behind them, then what getopt has not looked at. -/
def GetoptState.arranged (s : GetoptState) (program : Argument) (options nonoptions rest : List Argument) : GetoptState :=
  { s with
    argv := program :: (options ++ nonoptions ++ rest)
    optind := options.length + 1 + nonoptions.length
    firstNonopt := options.length + 1
    lastNonopt := options.length + 1 + nonoptions.length }

/-- How the arguments are left when no options follow: optind is back at the first non-option. -/
def GetoptState.ended (s : GetoptState) (program : Argument) (options nonoptions : List Argument) : GetoptState :=
  { s.arranged program options nonoptions [] with optind := options.length + 1 }

/-- What remains of an option behind the initial punctuation. -/
def optionText (longopts : Option (List LongOption)) (arg : Argument) : GoString :=
  arg.val.drop (1 + if longopts.isSome ∧ charAt arg.val 1 = dash then 1 else 0)

section Arranged
variable {options nonoptions : List Argument}

theorem arranged_getElem? (arg : Argument) :
    (s.arranged program options nonoptions (arg :: rest)).argv[options.length + 1 + nonoptions.length]? = some arg := by
  show (program :: (options ++ nonoptions ++ arg :: rest))[options.length + 1 + nonoptions.length]? = some arg
  rw [Nat.add_right_comm, List.getElem?_cons_succ, ← List.length_append, List.getElem?_append_right (Nat.le_refl _),
    Nat.sub_self, List.getElem?_cons_zero]

theorem arranged_argc : (s.arranged program options nonoptions rest).argc =
    options.length + 1 + nonoptions.length + rest.length := by
  show (program :: (options ++ nonoptions ++ rest)).length = _
  rw [List.length_cons, List.length_append, List.length_append]
  omega

theorem arranged_at_argc : (s.arranged program options nonoptions []).optind =
    (s.arranged program options nonoptions []).argc := by
  rw [arranged_argc]
  rfl

theorem stopOrStart_nil (longopts : Option (List LongOption)) :
    stopOrStart longopts (s.arranged program options nonoptions []) = some (-1, s.ended program options nonoptions) := by
  rw [stopOrStart, if_pos arranged_at_argc]
  split
  · rfl
  · rename_i same
    have none_left : options.length + 1 = options.length + 1 + nonoptions.length := Decidable.not_not.mp same
    rw [GetoptState.ended, none_left]
    rfl

theorem passTerminator_nil : passTerminator (s.arranged program options nonoptions []) =
    some (s.arranged program options nonoptions []) :=
  if_neg fun before => before arranged_at_argc

theorem arranged_before_argc (arg : Argument) : (s.arranged program options nonoptions (arg :: rest)).optind ≠
    (s.arranged program options nonoptions (arg :: rest)).argc := by
  rw [arranged_argc, List.length_cons]
  show options.length + 1 + nonoptions.length ≠ _
  omega

theorem passTerminator_goes_on {arg : Argument} (goesOn : arg.val ≠ [dash, dash]) :
    passTerminator (s.arranged program options nonoptions (arg :: rest)) =
      some (s.arranged program options nonoptions (arg :: rest)) := by
  rw [passTerminator, if_pos (arranged_before_argc arg)]
  show (s.arranged program options nonoptions (arg :: rest)).argv[options.length + 1 + nonoptions.length]?.bind _ = _
  rw [arranged_getElem?, Option.bind_some, if_neg goesOn]

theorem exchangeTerminator_eq {terminator : Argument} (layout : s.Layout program moved skipped [terminator] rest) :
    ∃ last, exchangeTerminator s = some { s with
      argv := program :: (moved ++ [terminator] ++ skipped ++ rest)
      firstNonopt := moved.length + 2
      lastNonopt := last } := by
  have behind : s.lastNonopt ≠ s.optind := by
    rw [layout.lastNonopt, layout.optind, List.length_singleton]
    omega
  rw [exchangeTerminator]
  by_cases skips : skipped = []
  · subst skips
    have none_skipped : s.firstNonopt = s.lastNonopt := layout.firstNonopt.trans layout.lastNonopt.symm
    have same := layout.argv
    refine ⟨s.lastNonopt, ?_⟩
    rw [if_neg (fun both => both.1 none_skipped), if_pos none_skipped, layout.optind]
    rw [List.append_nil] at same ⊢
    rw [← same]
    rfl
  · have some_skipped := List.length_pos_iff.mpr skips
    have apart : s.firstNonopt ≠ s.lastNonopt := by
      rw [layout.firstNonopt, layout.lastNonopt]
      omega
    exact ⟨s.optind, (if_pos ⟨apart, behind⟩).trans (exchange_eq layout)⟩

theorem passTerminator_stops {arg : Argument} (terminator : arg.val = [dash, dash]) :
    passTerminator (s.arranged program options nonoptions (arg :: rest)) =
      some (s.arranged program (options ++ [arg]) (nonoptions ++ rest) []) := by
  have layout : { s.arranged program options nonoptions (arg :: rest) with
      optind := options.length + 1 + nonoptions.length + 1 }.Layout program options nonoptions [arg] rest :=
    ⟨by simp [GetoptState.arranged], rfl, rfl, rfl⟩
  obtain ⟨last, exchanged⟩ := exchangeTerminator_eq layout
  rw [passTerminator, if_pos (arranged_before_argc arg)]
  show (s.arranged program options nonoptions (arg :: rest)).argv[options.length + 1 + nonoptions.length]?.bind _ = _
  rw [arranged_getElem?, Option.bind_some, if_pos terminator]
  show (exchangeTerminator { s.arranged program options nonoptions (arg :: rest) with
    optind := options.length + 1 + nonoptions.length + 1 }).bind _ = _
  rw [exchanged, Option.bind_some]
  simp only [GetoptState.arranged, GetoptState.argc, List.append_assoc, List.append_nil, List.length_append,
    List.length_cons, List.length_nil, List.singleton_append]
  congr 2 <;> omega

theorem stopOrStart_option (longopts : Option (List LongOption)) {arg : Argument} (isOption : isNonoption arg = false) :
    stopOrStart longopts (s.arranged program options nonoptions (arg :: rest)) =
      some (0, { s.arranged program options nonoptions (arg :: rest) with nextchar := some (optionText longopts arg) }) := by
  rw [stopOrStart, if_neg (arranged_before_argc arg)]
  show (s.arranged program options nonoptions (arg :: rest)).argv[options.length + 1 + nonoptions.length]?.bind _ = _
  rw [arranged_getElem?, Option.bind_some, if_neg (Bool.eq_false_iff.mp isOption)]
  rfl

end Arranged

theorem GetoptState.Layout.shuffleArgv_eq (longopts : Option (List LongOption)) (layout : s.Layout program moved skipped passed rest) :
    shuffleArgv longopts s =
      (passTerminator (s.arranged program (moved ++ passed) (skipped ++ rest.takeWhile isNonoption)
        (rest.dropWhile isNonoption))).bind (stopOrStart longopts) := by
  obtain ⟨last, brought⟩ := bringForward_eq layout
  have behind : (program :: (moved ++ passed ++ skipped ++ rest)).drop s.optind = rest := by
    have place : s.optind = (program :: (moved ++ passed ++ skipped)).length := by
      rw [layout.optind, List.length_cons, List.length_append, List.length_append]
      omega
    rw [place, ← List.cons_append]
    exact List.drop_left
  rw [shuffleArgv, brought]
  simp only [Option.bind_eq_bind, Option.bind_some, behind, skipNonoptions_eq]
  congr 2
  simp only [GetoptState.arranged, List.append_assoc, List.length_append, layout.optind,
    List.takeWhile_append_dropWhile]
  congr 1 <;> omega

/-- A call has gone on by so many arguments. -/
structure Advances (s t : GetoptState) (n : Nat) : Prop where
  argv : t.argv = s.argv
  firstNonopt : t.firstNonopt = s.firstNonopt
  lastNonopt : t.lastNonopt = s.lastNonopt
  initialized : t.initialized = s.initialized
  optind : t.optind = s.optind + n
  inside : t.optind ≤ s.argc

/-- What the table has for a long option, which stands there without its dashes. -/
def optionNamed (table : List LongOption) (text : GoString) : LongMatch :=
  findLongOption (text.takeWhile (· ≠ equalSign)) table 0 ⟨none, false, false⟩

/-- Whether a long option takes the argument behind it. -/
def longTakesNext (table : List LongOption) (text : GoString) : Bool :=
  match text.dropWhile (· ≠ equalSign), (optionNamed table text).pfound with
  | [], some (option, _) =>
    (!(optionNamed table text).ambig || (optionNamed table text).isExact) && option.hasArg = .requiredArgument
  | _, _ => false

/-- Whether the last of these short options takes the argument behind them. An option that wants an
argument has the characters behind it for that when there are any. -/
def shortTakesNext (optstring : GoString) : GoString → Bool
  | [] => false
  | c :: text =>
    match optstring.dropWhile (· ≠ c) with
    | [] => shortTakesNext optstring text
    | _ :: temp =>
      if c = colon ∨ charAt temp 0 ≠ colon then shortTakesNext optstring text
      else charAt temp 1 ≠ colon && text.isEmpty

/-- The arguments that an option takes up which may want the next one, at the end of the vector too. -/
def optionSpan (takesNext : Bool) (s : GetoptState) : Nat := if takesNext ∧ s.optind + 1 < s.argc then 2 else 1

theorem optionSpan_two {takesNext : Bool} (takes : takesNext = true) (inside : s.optind + 1 < s.argc) :
    optionSpan takesNext s = 2 :=
  if_pos ⟨takes, inside⟩

theorem optionSpan_of_last (takesNext : Bool) (last : ¬ s.optind + 1 < s.argc) : optionSpan takesNext s = 1 :=
  if_neg fun both => last both.2

theorem optionSpan_one {takesNext : Bool} (alone : takesNext = false) : optionSpan takesNext s = 1 :=
  if_neg fun both => Bool.noConfusion (alone.symm.trans both.1)

theorem optionSpan_pos (takesNext : Bool) (s : GetoptState) : 0 < optionSpan takesNext s := by
  rw [optionSpan]
  split <;> omega

/-- What getopt may return for an option. -/
def Returnable (optstring : GoString) (table : List LongOption) (c : Int) : Prop :=
  c = questionMark ∨ c = charValue colon ∨ (∃ option ∈ table, c = option.val) ∨ ∃ x ∈ optstring, c = charValue x

theorem print_eq (printErrors : Bool) (message : List UInt8) (named : s.argv[0]? = some program) :
    ∃ stderr, s.print printErrors message = some { s with stderr } := by
  unfold GetoptState.print
  split
  · rw [named]
    exact ⟨_, rfl⟩
  · exact ⟨s.stderr, rfl⟩

theorem findLongOption_mem (name : GoString) (table : List LongOption) (n : Nat) (found : LongMatch) {p : LongOption} {i : Nat}
    (result : (findLongOption name table n found).pfound = some (p, i)) : p ∈ table ∨ found.pfound = some (p, i) := by
  induction table generalizing n found with
  | nil => exact Or.inr result
  | cons q rest ih =>
    rw [findLongOption] at result
    split at result
    · split at result
      · obtain ⟨rfl, _⟩ := Prod.mk.inj (Option.some.inj result)
        exact Or.inl List.mem_cons_self
      · split at result
        · rcases ih _ _ result with member | same
          · exact Or.inl (List.mem_cons_of_mem _ member)
          · obtain ⟨rfl, _⟩ := Prod.mk.inj (Option.some.inj same)
            exact Or.inl List.mem_cons_self
        · split at result
          · exact (ih _ _ result).imp_left (List.mem_cons_of_mem _)
          · exact (ih _ _ result).imp_left (List.mem_cons_of_mem _)
    · exact (ih _ _ result).imp_left (List.mem_cons_of_mem _)

section LongTakesNext
variable {table : List LongOption} {text : GoString}

theorem longTakesNext_ambiguous
    (ambiguous : (optionNamed table text).ambig = true ∧ ¬ (optionNamed table text).isExact = true) :
    longTakesNext table text = false := by
  rw [longTakesNext]
  split
  · rw [ambiguous.1, Bool.eq_false_iff.mpr ambiguous.2]
    rfl
  · rfl

theorem longTakesNext_unknown (unknown : (optionNamed table text).pfound = none) : longTakesNext table text = false := by
  rw [longTakesNext, unknown]
  cases text.dropWhile (· ≠ equalSign) <;> rfl

theorem longTakesNext_valued {x : UInt8} {value : GoString} (valued : text.dropWhile (· ≠ equalSign) = x :: value) :
    longTakesNext table text = false := by
  rw [longTakesNext, valued]

theorem longTakesNext_found {option : LongOption} {i : Nat}
    (clear : ¬ ((optionNamed table text).ambig = true ∧ ¬ (optionNamed table text).isExact = true))
    (found : (optionNamed table text).pfound = some (option, i)) (plain : text.dropWhile (· ≠ equalSign) = []) :
    longTakesNext table text = decide (option.hasArg = .requiredArgument) := by
  have settled : (!(optionNamed table text).ambig || (optionNamed table text).isExact) = true := by grind
  rw [longTakesNext, found, plain]
  show (_ && _) = _
  rw [settled, Bool.true_and]

end LongTakesNext

theorem checkLongOpt_advances (optstring : GoString) (table : List LongOption) (printErrors : Bool) {arg : Argument}
    {text : GoString} (named : s.argv[0]? = some program) (here : s.argv[s.optind]? = some arg)
    (next : s.nextchar = some text) :
    ∃ c t, checkLongOpt optstring table printErrors s = some (c, t) ∧
      Advances s t (optionSpan (longTakesNext table text) s) ∧ t.nextchar = some [] ∧ Returnable optstring table c := by
  obtain ⟨before, _⟩ := List.getElem?_eq_some_iff.mp here
  have one : s.optind + 1 ≤ s.argc := before
  rw [checkLongOpt, next]
  simp only [Option.bind_eq_bind, Option.bind_some, here]
  split
  · rename_i ambiguous
    obtain ⟨stderr, printed⟩ := print_eq printErrors _ named
    rw [printed, Option.bind_some, optionSpan_one (longTakesNext_ambiguous ambiguous)]
    exact ⟨_, _, rfl, ⟨rfl, rfl, rfl, rfl, rfl, one⟩, rfl, Or.inl rfl⟩
  · rename_i clear
    split
    · rename_i pfound optionIndex result
      have member : pfound ∈ table := (findLongOption_mem _ _ _ _ result).resolve_right (by simp)
      have returned : Returnable optstring table pfound.val := Or.inr (Or.inr (Or.inl ⟨pfound, member, rfl⟩))
      split
      · rename_i valued
        rw [optionSpan_one (longTakesNext_valued valued)]
        split
        · exact ⟨_, _, rfl, ⟨rfl, rfl, rfl, rfl, rfl, one⟩, rfl, returned⟩
        · obtain ⟨stderr, printed⟩ := @print_eq { s with optind := s.optind + 1, nextchar := some text } program printErrors _ named
          rw [printed, Option.bind_some]
          exact ⟨_, _, rfl, ⟨rfl, rfl, rfl, rfl, rfl, one⟩, rfl, Or.inl rfl⟩
      · rename_i plain
        have takes := longTakesNext_found clear result plain
        split
        · rename_i required
          split
          · rename_i inside
            have inside : s.optind + 1 < s.argv.length := inside
            rw [List.getElem?_eq_getElem inside, Option.bind_some, optionSpan_two (takes.trans (decide_eq_true required)) inside]
            exact ⟨_, _, rfl, ⟨rfl, rfl, rfl, rfl, rfl, inside⟩, rfl, returned⟩
          · rename_i last
            obtain ⟨stderr, printed⟩ := @print_eq { s with optind := s.optind + 1, nextchar := some text } program printErrors _ named
            rw [printed, Option.bind_some, optionSpan_of_last _ last]
            refine ⟨_, _, rfl, ⟨rfl, rfl, rfl, rfl, rfl, one⟩, rfl, ?_⟩
            split
            · exact Or.inr (Or.inl rfl)
            · exact Or.inl rfl
        · rename_i alone
          rw [optionSpan_one (takes.trans (decide_eq_false alone))]
          exact ⟨_, _, rfl, ⟨rfl, rfl, rfl, rfl, rfl, one⟩, rfl, returned⟩
    · rename_i unknown
      obtain ⟨stderr, printed⟩ := print_eq printErrors _ named
      rw [printed, Option.bind_some, optionSpan_one (longTakesNext_unknown unknown)]
      exact ⟨_, _, rfl, ⟨rfl, rfl, rfl, rfl, rfl, one⟩, rfl, Or.inl rfl⟩

section ShortTakesNext
variable {optstring : GoString} {c : UInt8} {text : GoString}

theorem shortTakesNext_unlisted (unlisted : optstring.dropWhile (· ≠ c) = []) :
    shortTakesNext optstring (c :: text) = shortTakesNext optstring text := by
  rw [shortTakesNext, unlisted]

theorem shortTakesNext_plain {x : UInt8} {temp : GoString} (listed : optstring.dropWhile (· ≠ c) = x :: temp)
    (plain : c = colon ∨ charAt temp 0 ≠ colon) : shortTakesNext optstring (c :: text) = shortTakesNext optstring text := by
  rw [shortTakesNext, listed]
  exact if_pos plain

theorem shortTakesNext_wanting {x : UInt8} {temp : GoString} (listed : optstring.dropWhile (· ≠ c) = x :: temp)
    (known : c ≠ colon) (wanting : charAt temp 0 = colon) :
    shortTakesNext optstring (c :: text) = (decide (charAt temp 1 ≠ colon) && text.isEmpty) := by
  rw [shortTakesNext, listed]
  refine if_neg ?_
  intro plain
  rcases plain with same | noColon
  · exact known same
  · exact noColon wanting

end ShortTakesNext

/-- A step over a short option: to the next character, or over the argument when it was the last,
and over the one behind it if the option takes that. -/
def ShortStep (optstring : GoString) (c : UInt8) (text : GoString) (s t : GetoptState) (n : Nat) : Prop :=
  n = 0 ∧ t.nextchar = some text ∧ text ≠ [] ∧ shortTakesNext optstring (c :: text) = shortTakesNext optstring text ∨
    n = optionSpan (shortTakesNext optstring (c :: text)) s ∧ t.nextchar.getD [] = []

/-- An option that takes nothing of what is behind it. -/
theorem ShortStep.plain {optstring : GoString} {c : UInt8} {text : GoString} {t : GetoptState}
    (passes : shortTakesNext optstring (c :: text) = shortTakesNext optstring text) (next : t.nextchar = some text) :
    ShortStep optstring c text s t (if text = [] then 1 else 0) := by
  by_cases ended : text = []
  · subst ended
    refine Or.inr ⟨?_, by rw [next]; rfl⟩
    rw [if_pos rfl, optionSpan_one passes]
  · exact Or.inl ⟨if_neg ended, next, ended, passes⟩

theorem mem_of_listed {optstring : GoString} {c x : UInt8} {temp : GoString}
    (listed : optstring.dropWhile (· ≠ c) = x :: temp) : c ∈ optstring := by
  by_contra absent
  have all : ∀ x ∈ optstring, decide (x ≠ c) = true := fun x member =>
    decide_eq_true fun same => absent (same ▸ member)
  rw [List.dropWhile_eq_nil_iff.mpr all] at listed
  exact List.cons_ne_nil _ _ listed.symm

/-- An option with a colon behind it takes the rest of the argument, the next one, or nothing. -/
theorem checkShortOpt_wanting {optstring : GoString} (table : List LongOption) (printErrors : Bool) {c x : UInt8}
    {text temp : GoString} (named : s.argv[0]? = some program) (one : s.optind + 1 ≤ s.argc)
    (next : s.nextchar = some (c :: text)) (listed : optstring.dropWhile (· ≠ c) = x :: temp) (known : c ≠ colon)
    (wanting : charAt temp 0 = colon) :
    ∃ ret t n, checkShortOpt optstring printErrors s = some (ret, t) ∧ Advances s t n ∧ ShortStep optstring c text s t n ∧
      Returnable optstring table ret := by
  have returned : Returnable optstring table (charValue c) := Or.inr (Or.inr (Or.inr ⟨c, mem_of_listed listed, rfl⟩))
  have takes := @shortTakesNext_wanting optstring c text _ _ listed known wanting
  rw [checkShortOpt, next]
  simp only [Option.bind_eq_bind, listed, if_neg known, if_pos wanting]
  by_cases ended : text = []
  · subst ended
    have stays := not_not_intro (@rfl _ ([] : GoString))
    simp only [if_pos, if_neg stays]
    split
    · rename_i optional
      have alone : shortTakesNext optstring [c] = false := by
        rw [takes, decide_eq_false (not_not_intro optional)]
        rfl
      exact ⟨_, _, 1, rfl, ⟨rfl, rfl, rfl, rfl, rfl, one⟩, Or.inr ⟨(optionSpan_one alone).symm, rfl⟩, returned⟩
    · rename_i required
      have takes : shortTakesNext optstring [c] = true := by
        rw [takes, decide_eq_true required]
        rfl
      split
      · rename_i last
        have last : s.optind + 1 = s.argc := last
        obtain ⟨stderr, printed⟩ :=
          @print_eq { s with nextchar := some [], optind := s.optind + 1 } program printErrors _ named
        rw [printed, Option.bind_some]
        refine ⟨_, _, 1, rfl, ⟨rfl, rfl, rfl, rfl, rfl, one⟩, Or.inr ⟨?_, rfl⟩, ?_⟩
        · rw [optionSpan_of_last _ fun inside => Nat.ne_of_lt inside last]
        · split
          · exact Or.inr (Or.inl rfl)
          · exact Or.inl rfl
      · rename_i before_end
        have inside : s.optind + 1 < s.argv.length := Nat.lt_of_le_of_ne one before_end
        rw [List.getElem?_eq_getElem inside, Option.bind_some]
        exact ⟨_, _, 2, rfl, ⟨rfl, rfl, rfl, rfl, rfl, inside⟩, Or.inr ⟨(optionSpan_two takes inside).symm, rfl⟩, returned⟩
  · -- The rest of the argument is what the option wants.
    have alone : shortTakesNext optstring (c :: text) = false := by
      rw [takes, List.isEmpty_eq_false_iff.mpr ended, Bool.and_false]
    simp only [if_neg ended, if_pos ended]
    split <;>
      exact ⟨_, _, 1, rfl, ⟨rfl, rfl, rfl, rfl, rfl, one⟩, Or.inr ⟨(optionSpan_one alone).symm, rfl⟩, returned⟩

theorem checkShortOpt_advances (optstring : GoString) (table : List LongOption) (printErrors : Bool) {arg : Argument}
    {c : UInt8} {text : GoString} (named : s.argv[0]? = some program) (here : s.argv[s.optind]? = some arg)
    (next : s.nextchar = some (c :: text)) :
    ∃ ret t n, checkShortOpt optstring printErrors s = some (ret, t) ∧ Advances s t n ∧ ShortStep optstring c text s t n ∧
      Returnable optstring table ret := by
  obtain ⟨before, _⟩ := List.getElem?_eq_some_iff.mp here
  have one : s.optind + 1 ≤ s.argc := before
  obtain ⟨n, nIs⟩ : ∃ n, n = if text = [] then 1 else 0 := ⟨_, rfl⟩
  have optind : (if text = [] then s.optind + 1 else s.optind) = s.optind + n := by
    rw [nIs]
    split <;> rfl
  have atMost : s.optind + n ≤ s.argc := by
    rw [nIs]
    split <;> omega
  cases listed : optstring.dropWhile (· ≠ c) with
  | nil =>
    obtain ⟨stderr, printed⟩ := @print_eq { s with nextchar := some text, optind := s.optind + n } program printErrors _ named
    rw [checkShortOpt, next]
    simp only [Option.bind_eq_bind, optind, listed]
    rw [printed, Option.bind_some]
    refine ⟨_, _, n, rfl, ⟨rfl, rfl, rfl, rfl, rfl, atMost⟩, ?_, Or.inl rfl⟩
    rw [nIs]
    exact ShortStep.plain (shortTakesNext_unlisted listed) rfl
  | cons x temp =>
    by_cases isColon : c = colon
    · obtain ⟨stderr, printed⟩ := @print_eq { s with nextchar := some text, optind := s.optind + n } program printErrors _ named
      rw [checkShortOpt, next]
      simp only [Option.bind_eq_bind, optind, listed, if_pos isColon]
      rw [printed, Option.bind_some]
      refine ⟨_, _, n, rfl, ⟨rfl, rfl, rfl, rfl, rfl, atMost⟩, ?_, Or.inl rfl⟩
      rw [nIs]
      exact ShortStep.plain (shortTakesNext_plain listed (Or.inl isColon)) rfl
    by_cases wanting : charAt temp 0 = colon
    · exact checkShortOpt_wanting table printErrors named one next listed isColon wanting
    · rw [checkShortOpt, next]
      simp only [optind, listed, if_neg isColon, if_neg wanting]
      refine ⟨_, _, n, rfl, ⟨rfl, rfl, rfl, rfl, rfl, atMost⟩, ?_,
        Or.inr (Or.inr (Or.inr ⟨c, mem_of_listed listed, rfl⟩))⟩
      rw [nIs]
      exact ShortStep.plain (shortTakesNext_plain listed (Or.inr wanting)) rfl

end Ogrt
