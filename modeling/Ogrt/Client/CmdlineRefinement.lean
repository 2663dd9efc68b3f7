import Ogrt.Client.CmdlineReading

namespace Ogrt

/-- The parameters that cmdline_parser hands on. -/
def parserParams : CmdlineParserParams := ⟨false, true, true, false, true⟩

theorem updateArg_again {packageName longOpt : GoString} {fields : OptionFields} {value : Option GoString} {argType : ArgType}
    (before : fields.prevGiven ≠ 0) :
    updateArg packageName fields value argType false false false longOpt dash [] =
      .error (packageName ++ ascii ": `--" ++ longOpt ++ ascii "' option given more than once\n") := by
  rw [updateArg, if_pos ⟨rfl, Or.inl before⟩, if_neg (not_not_intro rfl), List.append_nil, List.append_assoc]
  rfl

section FirstTime
variable {packageName longOpt : GoString} {field origField : Option GoString} {value : Option GoString} {argType : ArgType}

theorem updateArg_first : updateArg packageName ⟨field, origField, 0, 0⟩ value .argNo false false false longOpt dash [] =
    .ok ⟨field, origField, 1, 1⟩ := by
  have once : ¬ (false = false ∧ ((0 : Nat) ≠ 0 ∨ false = true ∧ (0 : Nat) ≠ 0)) := by simp
  have fresh : ¬ ((0 : Nat) ≠ 0 ∧ false = false) := by simp
  rw [updateArg, if_neg once, if_neg fresh]

theorem updateArg_first_string {val : GoString} :
    updateArg packageName ⟨field, origField, 0, 0⟩ (some val) .argString false false false longOpt dash [] =
      .ok ⟨some val, some val, 1, 1⟩ := by
  have once : ¬ (false = false ∧ ((0 : Nat) ≠ 0 ∨ false = true ∧ (0 : Nat) ≠ 0)) := by simp
  have fresh : ¬ ((0 : Nat) ≠ 0 ∧ false = false) := by simp
  rw [updateArg, if_neg once, if_neg fresh]

end FirstTime

/-- What the loop knows of the options before: those that were asked for were given once. -/
structure Counts (localArgsInfo : ArgsInfo) (generate : Bool) (file : Option GoString) : Prop where
  generate : localArgsInfo.generateSignatureGiven = if generate then 1 else 0
  show_ : localArgsInfo.showSignatureGiven = if file.isSome then 1 else 0

section OneCall
variable {version packageName : GoString} {fuel optind : Nat} {s u : GetoptState} {argsInfo localArgsInfo : ArgsInfo} {c : Int}
  {generate : Bool} {file : Option GoString}

/-- The loop of the parser for cmdline_parser, behind these options. -/
def parseFrom (version packageName : GoString) (fuel optind : Nat) (s : GetoptState) (generate : Bool) (file : Option GoString)
    (localArgsInfo : ArgsInfo) : Option ParserOutcome :=
  parseOptions version packageName parserParams [] fuel optind s (requested generate file) localArgsInfo

theorem parse_stops (called : customGetoptLong (ascii "hV") longOptions optind true 0 s = some (c, u)) :
    (c = -1 → parseFrom version packageName (fuel + 1) optind s generate file localArgsInfo =
      some (.success (requested generate file) u.stderr)) ∧
    (c = 0x68 → parseFrom version packageName (fuel + 1) optind s generate file localArgsInfo =
      some (.exits (printHelp version) u.stderr)) ∧
    (c = 0x56 → parseFrom version packageName (fuel + 1) optind s generate file localArgsInfo =
      some (.exits (printVersion version) u.stderr)) ∧
    (c = questionMark → parseFrom version packageName (fuel + 1) optind s generate file localArgsInfo =
      some (.failure u.stderr)) := by
  have step := parseOptions.eq_2 version packageName parserParams [] optind s (requested generate file) localArgsInfo fuel
  rw [show parserParams.printErrors = true from rfl, called] at step
  refine ⟨?_, ?_, ?_, ?_⟩ <;> rintro rfl <;> exact step

/-- Where the loop goes on after --generate-signature. -/
theorem parse_generate (called : customGetoptLong (ascii "hV") longOptions optind true 0 s = some (0, u))
    (option : u.longind = 2) (counts : Counts localArgsInfo generate file) :
    (generate = true → parseFrom version packageName (fuel + 1) optind s generate file localArgsInfo =
      some (.failure (u.stderr ++ (packageName ++ ascii ": `--" ++ ascii "generate-signature" ++
        ascii "' option given more than once\n")))) ∧
    (generate = false → ∃ later, Counts later true file ∧
      parseFrom version packageName (fuel + 1) optind s generate file localArgsInfo =
        parseFrom version packageName fuel u.optind u true file later) := by
  have step := parseOptions.eq_2 version packageName parserParams [] optind s (requested generate file) localArgsInfo fuel
  rw [show parserParams.printErrors = true from rfl, called, Option.bind_eq_bind, Option.bind_some] at step
  simp only [option] at step
  constructor
  · rintro rfl
    have updated : updateArg packageName ⟨none, none, (requested true file).generateSignatureGiven,
        localArgsInfo.generateSignatureGiven⟩ u.optarg .argNo parserParams.checkAmbiguity parserParams.override false
        (ascii "generate-signature") dash [] =
        .error (packageName ++ ascii ": `--" ++ ascii "generate-signature" ++ ascii "' option given more than once\n") := by
      refine updateArg_again ?_
      rw [counts.generate]
      exact Nat.one_ne_zero
    rw [updated] at step
    exact step
  · rintro rfl
    refine ⟨{ localArgsInfo with generateSignatureGiven := 1 }, ⟨rfl, counts.show_⟩, ?_⟩
    have none_before : localArgsInfo.generateSignatureGiven = 0 := counts.generate
    have updated : updateArg packageName ⟨none, none, (requested false file).generateSignatureGiven,
        localArgsInfo.generateSignatureGiven⟩ u.optarg .argNo parserParams.checkAmbiguity parserParams.override false
        (ascii "generate-signature") dash [] = .ok ⟨none, none, 1, 1⟩ := by
      rw [none_before]
      exact updateArg_first
    rw [updated] at step
    refine Eq.trans step ?_
    show parseOptions _ _ _ _ _ _ _ { requested false file with
      linkInfoModeCounter := (requested false file).linkInfoModeCounter + 1
      generateSignatureGiven := 1 } _ = _
    rw [parseFrom]
    congr 1
    simp only [requested, Bool.false_eq_true, if_false, if_true]
    congr 1
    omega

/-- Where it goes on after --show-signature. -/
theorem parse_show (called : customGetoptLong (ascii "hV") longOptions optind true 0 s = some (0, u))
    (option : u.longind = 3) {value : GoString} (optarg : u.optarg = some value) (counts : Counts localArgsInfo generate file) :
    (file ≠ none → parseFrom version packageName (fuel + 1) optind s generate file localArgsInfo =
      some (.failure (u.stderr ++ (packageName ++ ascii ": `--" ++ ascii "show-signature" ++
        ascii "' option given more than once\n")))) ∧
    (file = none → ∃ later, Counts later generate (some value) ∧
      parseFrom version packageName (fuel + 1) optind s generate file localArgsInfo =
        parseFrom version packageName fuel u.optind u generate (some value) later) := by
  have step := parseOptions.eq_2 version packageName parserParams [] optind s (requested generate file) localArgsInfo fuel
  rw [show parserParams.printErrors = true from rfl, called, Option.bind_eq_bind, Option.bind_some] at step
  simp only [option, optarg] at step
  constructor
  · intro before
    obtain ⟨earlier, rfl⟩ := Option.ne_none_iff_exists'.mp before
    have updated : updateArg packageName ⟨(requested generate (some earlier)).showSignatureArg,
        (requested generate (some earlier)).showSignatureOrig, (requested generate (some earlier)).showSignatureGiven,
        localArgsInfo.showSignatureGiven⟩ (some value) .argString parserParams.checkAmbiguity parserParams.override
        false (ascii "show-signature") dash [] =
        .error (packageName ++ ascii ": `--" ++ ascii "show-signature" ++ ascii "' option given more than once\n") := by
      refine updateArg_again ?_
      rw [counts.show_]
      exact Nat.one_ne_zero
    rw [updated] at step
    exact step
  · rintro rfl
    refine ⟨{ localArgsInfo with showSignatureGiven := 1 }, ⟨counts.generate, rfl⟩, ?_⟩
    have none_before : localArgsInfo.showSignatureGiven = 0 := counts.show_
    have updated : updateArg packageName ⟨(requested generate none).showSignatureArg,
        (requested generate none).showSignatureOrig, (requested generate none).showSignatureGiven,
        localArgsInfo.showSignatureGiven⟩ (some value) .argString parserParams.checkAmbiguity parserParams.override
        false (ascii "show-signature") dash [] = .ok ⟨some value, some value, 1, 1⟩ := by
      rw [none_before]
      exact updateArg_first_string
    rw [updated] at step
    exact step

end OneCall

section ShortOptions
variable {t : GetoptState} {program : Argument} {c : UInt8} {text : GoString}

theorem checkShortOpt_known (next : t.nextchar = some (c :: text)) (known : c = 0x68 ∨ c = 0x56) :
    ∃ u, checkShortOpt (ascii "hV") true t = some (charValue c, u) ∧ u.stderr = t.stderr := by
  rw [checkShortOpt, next]
  rcases known with rfl | rfl <;> exact ⟨_, rfl, rfl⟩

theorem checkShortOpt_unknown (named : t.argv[0]? = some program) (next : t.nextchar = some (c :: text))
    (notHelp : c ≠ 0x68) (notVersion : c ≠ 0x56) :
    ∃ u, checkShortOpt (ascii "hV") true t = some (questionMark, u) ∧
      u.stderr = complains t program (ascii "invalid option -- " ++ [c]) := by
  have absent : (ascii "hV").dropWhile (· ≠ c) = [] := by
    refine List.dropWhile_eq_nil_iff.mpr fun x member => decide_eq_true ?_
    rcases List.mem_cons.mp member with rfl | member
    · exact notHelp.symm
    · obtain rfl := List.mem_singleton.mp member
      exact notVersion.symm
  obtain ⟨v, vIs⟩ : ∃ v : GetoptState, v =
    { t with nextchar := some text, optind := if text = [] then t.optind + 1 else t.optind } := ⟨_, rfl⟩
  have printed := @print_true v program (by rw [vIs]; exact named)
  rw [checkShortOpt, next]
  simp only [absent, ← vIs, printed, Option.bind_eq_bind, Option.bind_some]
  refine ⟨_, rfl, ?_⟩
  rw [vIs]
  rfl

end ShortOptions

theorem readArguments_dropWhile (version : GoString) (program : Argument) (generate : Bool) (file : Option GoString)
    (rest : List Argument) : readArguments version program generate file rest =
      readArguments version program generate file (rest.dropWhile isNonoption) := by
  induction rest with
  | nil => rfl
  | cons arg rest ih =>
    rw [List.dropWhile_cons]
    split
    · rename_i nonoption
      rw [← ih, readArguments_nonoption nonoption]
    · rfl

section Refinement
variable {version : GoString} {program arg : Argument} {fuel optind : Nat} {s u t entered : GetoptState}
  {localArgsInfo : ArgsInfo} {generate : Bool} {file : Option GoString} {args rest more : List Argument}
  {marked : List (Argument × Bool)}

theorem complains_silent (silent : t.stderr = []) (message : GoString) :
    ParserOutcome.parsed (.failure (complains t program message)) = complaint program message := by
  rw [complains, silent]
  rfl

/-- Between two turns of the loop. -/
structure Turn (entered : GetoptState) (program : Argument) (args : List Argument) (marked : List (Argument × Bool))
    (rest : List Argument) : Prop where
  scanned : ScannedSoFar entered program args marked rest
  fresh : entered.nextchar.getD [] = []
  reports : entered.opterr = true
  silent : entered.stderr = []

theorem Took.turn {n index : Nat} {value : Option GoString} (took : Took t u n index value)
    (scanned : ScannedSoFar t program args marked rest) (silent : t.stderr = []) :
    Turn { u with opterr := true, longind := 0 } program args (marked ++ markAll true (rest.take n)) (rest.drop n) where
  scanned := by
    have next := scanned.advance took.advances fun pending => absurd took.fresh pending
    obtain ⟨moved, passed, taken, layout⟩ := next.placed
    exact ⟨next.original, ⟨moved, passed, taken, layout.argv, layout.firstNonopt, layout.lastNonopt, layout.optind⟩,
      next.initialized, next.cluster⟩
  fresh := took.fresh
  reports := rfl
  silent := took.stderr.trans silent

/-- The loop does what the plain reader does, wherever it stands. -/
def Reads (version : GoString) (program : Argument) (args : List Argument) (fuel : Nat) : Prop :=
  ∀ (optind : Nat) (s entered : GetoptState) (marked : List (Argument × Bool)) (rest : List Argument) (generate : Bool)
    (file : Option GoString) (localArgsInfo : ArgsInfo),
    customGetoptLong (ascii "hV") longOptions optind true 0 s = getoptInternalR (ascii "hV") (some longOptions) entered →
    Turn entered program args marked rest → Counts localArgsInfo generate file → rest.length < fuel →
    (parseFrom version program.val fuel optind s generate file localArgsInfo).map ParserOutcome.parsed =
      some (readArguments version program generate file rest)

theorem parse_complains {message : GoString}
    (called : customGetoptLong (ascii "hV") longOptions optind true 0 s = some (questionMark, u))
    (complaint_ : u.stderr = complains t program message) (silent : t.stderr = []) :
    (parseFrom version program.val (fuel + 1) optind s generate file localArgsInfo).map ParserOutcome.parsed =
      some (complaint program message) := by
  rw [(parse_stops called).2.2.2 rfl, complaint_, Option.map_some, complains_silent silent]

/-- A file for --show-signature, in the same argument or in the next one. -/
theorem Reads.shown (reads : Reads version program args fuel) {n : Nat} {value : GoString}
    (called : customGetoptLong (ascii "hV") longOptions optind true 0 s = some (0, u)) (took : Took t u n 3 (some value))
    (scanned : ScannedSoFar t program args marked rest) (silent : t.stderr = []) (counts : Counts localArgsInfo generate file)
    (enough : (rest.drop n).length < fuel) :
    (parseFrom version program.val (fuel + 1) optind s generate file localArgsInfo).map ParserOutcome.parsed =
      some (if file.isSome then twice program .showSignature
        else readArguments version program generate (some value) (rest.drop n)) := by
  obtain ⟨again, once⟩ := @parse_show version program.val fuel optind s u localArgsInfo generate file called took.longind value
    took.optarg counts
  cases file with
  | some earlier =>
    rw [again (Option.some_ne_none _), took.stderr, silent, Option.map_some, Option.isSome_some, if_pos rfl]
    simp only [ParserOutcome.parsed, twice, complaint, List.nil_append, List.append_assoc]
    rfl
  | none =>
    obtain ⟨later, counted, goes_on⟩ := once rfl
    rw [goes_on, reads _ u _ _ _ _ _ later rfl (took.turn scanned silent) counted enough]
    rfl

theorem Reads.generated (reads : Reads version program args fuel) {n : Nat} {value : Option GoString}
    (called : customGetoptLong (ascii "hV") longOptions optind true 0 s = some (0, u)) (took : Took t u n 2 value)
    (scanned : ScannedSoFar t program args marked rest) (silent : t.stderr = []) (counts : Counts localArgsInfo generate file)
    (enough : (rest.drop n).length < fuel) :
    (parseFrom version program.val (fuel + 1) optind s generate file localArgsInfo).map ParserOutcome.parsed =
      some (if generate then twice program .generateSignature
        else readArguments version program true file (rest.drop n)) := by
  obtain ⟨again, once⟩ := @parse_generate version program.val fuel optind s u localArgsInfo generate file called took.longind
    counts
  cases generate with
  | true =>
    rw [again rfl, took.stderr, silent, Option.map_some, if_pos rfl]
    simp only [ParserOutcome.parsed, twice, complaint, List.nil_append, List.append_assoc]
    rfl
  | false =>
    obtain ⟨later, counted, goes_on⟩ := once rfl
    rw [goes_on, reads _ u _ _ _ _ _ later rfl (took.turn scanned silent) counted enough]
    rfl

theorem charAt_one {text rest : GoString} {c : UInt8} (behind : text.drop 1 = c :: rest) : charAt text 1 = c := by
  have first : (text.drop 1)[0]? = some c := by rw [behind, List.getElem?_cons_zero]
  rw [List.getElem?_drop] at first
  rw [charAt, List.getD_eq_getElem?_getD, first]
  rfl

theorem reads_short (isOption : isNonoption arg = false) (short : charAt arg.val 1 ≠ dash)
    (goesOn : arg.val ≠ [dash, dash]) (scanned : ScannedSoFar t program args marked (arg :: more)) (silent : t.stderr = [])
    (next : t.nextchar = some (optionText (some longOptions) arg))
    (called : customGetoptLong (ascii "hV") longOptions optind true 0 s =
      takeOption (ascii "hV") longOptions true arg t) :
    (parseFrom version program.val (fuel + 1) optind s generate file localArgsInfo).map ParserOutcome.parsed =
      some (readArguments version program generate file (arg :: more)) := by
  have behind : optionText (some longOptions) arg = arg.val.drop 1 := by
    rw [optionText, if_neg fun both => short both.2]
  obtain ⟨c, text, split⟩ := List.exists_cons_of_ne_nil (optionText_of_not_dash (some longOptions) isOption short)
  have first : charAt arg.val 1 = c := charAt_one (behind.symm.trans split)
  rw [split] at next
  rw [takeOption, if_neg short] at called
  rw [readArguments_option isOption goesOn, readOption, if_pos short, first]
  by_cases help : c = 0x68
  · obtain ⟨u, taken, quiet⟩ := checkShortOpt_known next (Or.inl help)
    rw [(parse_stops (called.trans taken)).2.1 (by rw [help]; rfl), if_pos help, quiet, silent]
    rfl
  · by_cases asksVersion : c = 0x56
    · obtain ⟨u, taken, quiet⟩ := checkShortOpt_known next (Or.inr asksVersion)
      rw [(parse_stops (called.trans taken)).2.2.1 (by rw [asksVersion]; rfl), if_neg help, if_pos asksVersion, quiet, silent]
      rfl
    · obtain ⟨u, taken, printed⟩ := checkShortOpt_unknown scanned.named next help asksVersion
      rw [parse_complains (called.trans taken) printed silent, if_neg help, if_neg asksVersion]

theorem Reads.long (reads : Reads version program args fuel) (isOption : isNonoption arg = false)
    (long : charAt arg.val 1 = dash)
    (goesOn : arg.val ≠ [dash, dash]) (scanned : ScannedSoFar t program args marked (arg :: more)) (silent : t.stderr = [])
    (next : t.nextchar = some (optionText (some longOptions) arg)) (counts : Counts localArgsInfo generate file)
    (called : customGetoptLong (ascii "hV") longOptions optind true 0 s =
      takeOption (ascii "hV") longOptions true arg t) (enough : more.length < fuel) :
    (parseFrom version program.val (fuel + 1) optind s generate file localArgsInfo).map ParserOutcome.parsed =
      some (readArguments version program generate file (arg :: more)) := by
  have behind : optionText (some longOptions) arg = arg.val.drop 2 := by
    rw [optionText, if_pos ⟨rfl, long⟩]
  rw [behind] at next
  have here : AtLongOption t program arg (arg.val.drop 2) := ⟨scanned.named, scanned.here, long, next⟩
  rw [takeOption, if_pos long] at called
  rw [readArguments_option isOption goesOn, readOption, if_neg (not_not_intro long)]
  rcases findLongOption_longOptions ((arg.val.drop 2).takeWhile (· ≠ equalSign)) with ⟨unknown, _⟩ | ⟨request, _, found, _⟩ |
    ⟨ambiguous, _⟩
  · obtain ⟨u, taken, printed⟩ := here.unknown unknown
    rw [parse_complains (called.trans taken) printed silent]
    simp only [unknown]
  · cases given : (arg.val.drop 2).dropWhile (· ≠ equalSign) with
    | nil =>
      simp only [found, given]
      cases request with
      | help =>
        obtain ⟨u, taken, took⟩ := here.plain found given (by decide)
        rw [(parse_stops (called.trans taken)).2.1 rfl, took.stderr, silent]
        rfl
      | version =>
        obtain ⟨u, taken, took⟩ := here.plain found given (by decide)
        rw [(parse_stops (called.trans taken)).2.2.1 rfl, took.stderr, silent]
        rfl
      | generateSignature =>
        obtain ⟨u, taken, took⟩ := here.plain found given (by decide)
        exact reads.generated (called.trans taken) took scanned silent counts enough
      | showSignature =>
        cases more with
        | nil =>
          have last : t.optind + 1 = t.argc := by
            obtain ⟨moved, passed, _, layout⟩ := scanned.placed
            rw [GetoptState.argc, layout.argv, layout.optind]
            simp only [List.length_cons, List.length_append, List.length_nil]
            omega
          obtain ⟨u, taken, printed⟩ := here.misses found given last
          rw [parse_complains (called.trans taken) printed silent]
        | cons value later =>
          have following : t.argv[t.optind + 1]? = some value := by
            obtain ⟨moved, passed, _, layout⟩ := scanned.placed
            have place : t.optind = (program :: (moved ++ nonoptionsOf marked ++ passed)).length := by
              rw [layout.optind, List.length_cons, List.length_append, List.length_append]
              omega
            rw [place, layout.argv, ← List.cons_append, List.getElem?_append_right (Nat.le_add_right _ _),
              Nat.add_sub_cancel_left, List.getElem?_cons_succ, List.getElem?_cons_zero]
          obtain ⟨u, taken, took⟩ := here.takesNext found given following
          have shorter : later.length < fuel := Nat.lt_of_succ_lt enough
          exact reads.shown (called.trans taken) took scanned silent counts shorter
    | cons c value =>
      simp only [found, given]
      by_cases shows : request = .showSignature
      · subst shows
        obtain ⟨u, taken, took⟩ := here.takesValue found given
        exact reads.shown (called.trans taken) took scanned silent counts enough
      · obtain ⟨u, taken, printed⟩ := here.refuses found given shows
        rw [parse_complains (called.trans taken) printed silent]
        cases request <;> first | rfl | exact absurd rfl shows
  · obtain ⟨u, taken, printed⟩ := here.ambiguous ambiguous
    rw [parse_complains (called.trans taken) printed silent]
    simp only [ambiguous]
    rfl

theorem reads (version : GoString) (program : Argument) (args : List Argument) (fuel : Nat) :
    Reads version program args fuel := by
  induction fuel with
  | zero => exact fun _ _ _ _ _ _ _ _ _ _ _ enough => absurd enough (Nat.not_lt_zero _)
  | succ fuel ih =>
    intro optind s entered marked rest generate file localArgsInfo enters turn counts enough
    rw [readArguments_dropWhile]
    cases next : rest.dropWhile isNonoption with
    | nil =>
      have called := enters.trans (turn.scanned.call_stop turn.fresh next _ _)
      rw [(parse_stops called).1 rfl]
      exact congrArg (fun stderr => some (Parsed.returns _ stderr)) turn.silent
    | cons arg more =>
      have isOption := isOption_of_next next
      have shorter : more.length < fuel := by
        have whole := congrArg List.length (@List.takeWhile_append_dropWhile _ isNonoption rest)
        rw [List.length_append, next, List.length_cons] at whole
        omega
      by_cases terminator : arg.val = [dash, dash]
      · have called := enters.trans (turn.scanned.call_terminate turn.fresh next terminator _ _)
        rw [(parse_stops called).1 rfl, readArguments_terminator isOption terminator]
        exact congrArg (fun stderr => some (Parsed.returns _ stderr)) turn.silent
      · have called := enters.trans (turn.scanned.call_option turn.fresh next terminator _ _)
        have prints : printsErrors (ascii "hV") entered = true := turn.reports
        rw [prints] at called
        have scanned := turn.scanned.unread.start next (optionText (some longOptions) arg)
        by_cases long : charAt arg.val 1 = dash
        · exact ih.long isOption long terminator scanned turn.silent rfl counts called shorter
        · exact reads_short isOption long terminator scanned turn.silent rfl called

end Refinement

/-- The whole loop, from the first call of getopt on. -/
theorem parseFrom_begun (version : GoString) (s : GetoptState) (quiet : s.stderr = []) :
    (parseFrom version ((s.argv[0]?.map (·.val)).getD []) (s.argc + 1) 0 s false none .cleared).map ParserOutcome.parsed =
      some (readCommandLine version s.argv) := by
  cases argv : s.argv with
  | nil =>
    have none_there : GetoptState.argc { s with optind := 0, opterr := true, longind := 0 } < 1 := by
      rw [GetoptState.argc, argv]
      exact Nat.one_pos
    have called : customGetoptLong (ascii "hV") longOptions 0 true 0 s =
        some (-1, { s with optind := 0, opterr := true, longind := 0 }) := by
      rw [customGetoptLong, getoptInternalR, if_pos none_there]
    rw [(parse_stops called).1 rfl]
    exact congrArg (fun stderr => some (Parsed.returns _ stderr)) quiet
  | cons program args =>
    have some_there : 0 < s.argc := by
      rw [GetoptState.argc, argv]
      exact Nat.succ_pos _
    have turn : Turn (customGetoptInitialize { s with optind := 1, opterr := true, longind := 0 }) program args [] args :=
      ⟨@scanned_first { s with opterr := true, longind := 0 } program args argv, rfl, rfl, quiet⟩
    have enough : args.length < s.argc + 1 := by
      rw [GetoptState.argc, argv, List.length_cons]
      omega
    exact reads version program args (s.argc + 1) 0 s _ [] args false none .cleared
      (customGetoptLong_first _ _ true 0 some_there) turn ⟨rfl, rfl⟩ enough

/-- The parser, which moves the options in front of the other arguments while it goes through
them, makes of every command line what a reader makes of it that takes the arguments one by one. -/
theorem cmdlineParser_reads (version : GoString) (s : GetoptState) (quiet : s.stderr = []) (argsInfo : ArgsInfo) :
    cmdlineParser version s argsInfo = some (readCommandLine version s.argv) :=
  parseFrom_begun version s quiet

theorem cmdlineParser_reads_mixed :
    cmdlineParser [] (programStart [argumentOf "ogrt", argumentOf "a", argumentOf "--gen", argumentOf "--", argumentOf "-h"])
      .cleared = some (.returns (requested true none) []) :=
  (cmdlineParser_reads [] (programStart [argumentOf "ogrt", argumentOf "a", argumentOf "--gen", argumentOf "--", argumentOf "-h"])
    rfl .cleared).trans (congrArg some (by decide +kernel))

end Ogrt
