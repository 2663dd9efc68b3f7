import Ogrt.Client.CmdlineParser

namespace Ogrt

/-- What the options of the program ask for. -/
inductive Request
  | help
  | version
  | generateSignature
  | showSignature
  deriving DecidableEq, Repr

def Request.all : List Request := [.help, .version, .generateSignature, .showSignature]

def Request.name : Request → GoString
  | .help => ascii "help"
  | .version => ascii "version"
  | .generateSignature => ascii "generate-signature"
  | .showSignature => ascii "show-signature"

/-- The options that a name may stand for: it is one of their names or the beginning of one. -/
def candidates (name : GoString) : List Request := Request.all.filter fun request => name <+: request.name

def complaint (program : Argument) (message : GoString) : Parsed :=
  .exits exitFailure [] (program.val ++ ascii ": " ++ message ++ [0x0A])

def requested (generate : Bool) (file : Option GoString) : ArgsInfo where
  showSignatureArg := file
  showSignatureOrig := file
  helpGiven := 0
  versionGiven := 0
  generateSignatureGiven := if generate then 1 else 0
  showSignatureGiven := if file.isSome then 1 else 0
  linkInfoModeCounter := (if generate then 1 else 0) + if file.isSome then 1 else 0

/-- What an option means by itself. -/
inductive Reading
  | ends (outcome : Parsed)
  | generate
  | file (value : GoString)
  | fileNext
  deriving DecidableEq, Repr

def readOption (version : GoString) (program arg : Argument) : Reading :=
  if charAt arg.val 1 ≠ dash then
    if charAt arg.val 1 = 0x68 then .ends (.exits exitSuccess (printHelp version) [])
    else if charAt arg.val 1 = 0x56 then .ends (.exits exitSuccess (printVersion version) [])
    else .ends (complaint program (ascii "invalid option -- " ++ [charAt arg.val 1]))
  else
    let text := arg.val.drop 2
    match candidates (text.takeWhile (· ≠ equalSign)), text.dropWhile (· ≠ equalSign) with
    | [], _ => .ends (complaint program (ascii "unrecognized option `--" ++ text ++ ascii "'"))
    | [.help], [] => .ends (.exits exitSuccess (printHelp version) [])
    | [.version], [] => .ends (.exits exitSuccess (printVersion version) [])
    | [.generateSignature], [] => .generate
    | [.showSignature], [] => .fileNext
    | [.showSignature], _ :: value => .file value
    | [request], _ :: _ =>
      .ends (complaint program (ascii "option `--" ++ request.name ++ ascii "' doesn't allow an argument"))
    | _, _ => .ends (complaint program (ascii "option `" ++ arg.val ++ ascii "' is ambiguous"))

def twice (program : Argument) (request : Request) : Parsed :=
  complaint program (ascii "`--" ++ request.name ++ ascii "' option given more than once")

/-- The arguments read from left to right, with what was asked for by those before. Nothing is
moved, and what is no option is passed over. -/
def readArguments (version : GoString) (program : Argument) : Bool → Option GoString → List Argument → Parsed
  | generate, file, [] => .returns (requested generate file) []
  | generate, file, arg :: rest =>
    if isNonoption arg then readArguments version program generate file rest
    else if arg.val = [dash, dash] then .returns (requested generate file) []
    else
      match readOption version program arg with
      | .ends outcome => outcome
      | .generate =>
        if generate then twice program .generateSignature else readArguments version program true file rest
      | .file value =>
        if file.isSome then twice program .showSignature else readArguments version program generate (some value) rest
      | .fileNext =>
        match rest with
        | [] => complaint program (ascii "option `" ++ arg.val ++ ascii "' requires an argument")
        | value :: rest =>
          if file.isSome then twice program .showSignature
          else readArguments version program generate (some value.val) rest

theorem readArguments_nonoption {version : GoString} {program arg : Argument} {generate : Bool} {file : Option GoString}
    {rest : List Argument} (nonoption : isNonoption arg = true) :
    readArguments version program generate file (arg :: rest) = readArguments version program generate file rest := by
  exact (readArguments.eq_def ..).trans (if_pos nonoption)

theorem readArguments_terminator {version : GoString} {program arg : Argument} {generate : Bool} {file : Option GoString}
    {rest : List Argument} (isOption : isNonoption arg = false) (terminator : arg.val = [dash, dash]) :
    readArguments version program generate file (arg :: rest) = .returns (requested generate file) [] := by
  exact (readArguments.eq_def ..).trans ((if_neg (Bool.eq_false_iff.mp isOption)).trans (if_pos terminator))

theorem readArguments_option {version : GoString} {program arg : Argument} {generate : Bool} {file : Option GoString}
    {rest : List Argument} (isOption : isNonoption arg = false) (goesOn : arg.val ≠ [dash, dash]) :
    readArguments version program generate file (arg :: rest) =
      match readOption version program arg with
      | .ends outcome => outcome
      | .generate =>
        if generate then twice program .generateSignature else readArguments version program true file rest
      | .file value =>
        if file.isSome then twice program .showSignature else readArguments version program generate (some value) rest
      | .fileNext =>
        match rest with
        | [] => complaint program (ascii "option `" ++ arg.val ++ ascii "' requires an argument")
        | value :: rest =>
          if file.isSome then twice program .showSignature
          else readArguments version program generate (some value.val) rest := by
  exact (readArguments.eq_def ..).trans ((if_neg (Bool.eq_false_iff.mp isOption)).trans (if_neg goesOn))

/-- What a command line asks for. -/
def readCommandLine (version : GoString) : List Argument → Parsed
  | [] => .returns (requested false none) []
  | program :: args => readArguments version program false none args

def Request.option : Request → LongOption
  | .help => ⟨ascii "help", .noArgument, 0x68⟩
  | .version => ⟨ascii "version", .noArgument, 0x56⟩
  | .generateSignature => ⟨ascii "generate-signature", .noArgument, 0⟩
  | .showSignature => ⟨ascii "show-signature", .requiredArgument, 0⟩

def Request.index : Request → Nat
  | .help => 0
  | .version => 1
  | .generateSignature => 2
  | .showSignature => 3

theorem findLongOption_miss {name : GoString} {p : LongOption} (table : List LongOption) (n : Nat) (found : LongMatch)
    (miss : ¬ name <+: p.name) : findLongOption name (p :: table) n found = findLongOption name table (n + 1) found := by
  rw [findLongOption, if_neg fun same => miss (List.prefix_iff_eq_take.mpr same.symm)]

theorem findLongOption_hit {name : GoString} {p : LongOption} {table : List LongOption} (n : Nat)
    (hit : name <+: p.name) (others : ∀ q ∈ table, ¬ name <+: q.name) :
    ∃ isExact, findLongOption name (p :: table) n ⟨none, false, false⟩ = ⟨some (p, n), isExact, false⟩ := by
  have rest : ∀ (table : List LongOption) (n : Nat) (found : LongMatch), (∀ q ∈ table, ¬ name <+: q.name) →
      findLongOption name table n found = found := by
    intro table
    induction table with
    | nil => exact fun _ _ _ => rfl
    | cons q table ih =>
      intro n found others
      rw [findLongOption_miss _ _ _ (others q List.mem_cons_self), ih _ _ fun r member => others r (List.mem_cons_of_mem _ member)]
  rw [findLongOption, if_pos (List.prefix_iff_eq_take.mp hit).symm]
  split
  · exact ⟨true, rfl⟩
  · exact ⟨false, rest _ _ _ others⟩

/-- The names begin with different letters. -/
theorem prefix_unique {name : GoString} (nonempty : name ≠ []) {one two : Request} (first : name <+: one.name)
    (second : name <+: two.name) : one = two := by
  obtain ⟨x, xs, rfl⟩ := List.exists_cons_of_ne_nil nonempty
  have head : ∀ request : Request, (x :: xs) <+: request.name → request.name.head? = some x := by
    intro request begins
    obtain ⟨rest, same⟩ := begins
    rw [← same]
    rfl
  have same : one.name.head? = two.name.head? := (head one first).trans (head two second).symm
  have apart : ∀ one two : Request, one.name.head? = two.name.head? → one = two := by
    intro one two
    cases one <;> cases two <;> decide
  exact apart one two same

/-- The loop over the long options finds the candidates. -/
theorem findLongOption_longOptions (name : GoString) :
    candidates name = [] ∧ findLongOption name longOptions 0 ⟨none, false, false⟩ = ⟨none, false, false⟩ ∨
    (∃ request isExact, candidates name = [request] ∧
      findLongOption name longOptions 0 ⟨none, false, false⟩ = ⟨some (request.option, request.index), isExact, false⟩) ∨
    candidates name = Request.all ∧
      findLongOption name longOptions 0 ⟨none, false, false⟩ = ⟨some (Request.help.option, 0), false, true⟩ := by
  by_cases nonempty : name = []
  · subst nonempty
    exact Or.inr (Or.inr ⟨by decide, by decide⟩)
  · by_cases known : ∃ request : Request, name <+: request.name
    · obtain ⟨request, begins⟩ := known
      have others : ∀ other : Request, other ≠ request → ¬ name <+: other.name := fun other apart also =>
        apart (prefix_unique nonempty also begins)
      have alone : candidates name = [request] := by
        cases request <;> simp [candidates, Request.all, begins, others]
      have hit (requests : List Request) (apart : request ∉ requests) :
          ∃ isExact, findLongOption name (request.option :: requests.map (·.option)) request.index ⟨none, false, false⟩ =
            ⟨some (request.option, request.index), isExact, false⟩ := by
        refine findLongOption_hit request.index (by cases request <;> exact begins) fun q member => ?_
        obtain ⟨other, inside, rfl⟩ := List.mem_map.mp member
        have different : other ≠ request := fun same => apart (same ▸ inside)
        have misses := others other different
        cases other <;> exact misses
      have miss (other : Request) (apart : other ≠ request) (table : List LongOption) (n : Nat) (found : LongMatch) :
          findLongOption name (other.option :: table) n found = findLongOption name table (n + 1) found :=
        findLongOption_miss table n found (by have misses := others other apart; cases other <;> exact misses)
      suffices found : ∃ isExact, findLongOption name longOptions 0 ⟨none, false, false⟩ =
          ⟨some (request.option, request.index), isExact, false⟩ by
        obtain ⟨isExact, found⟩ := found
        exact Or.inr (Or.inl ⟨request, isExact, alone, found⟩)
      have table : longOptions = [Request.help.option, Request.version.option, Request.generateSignature.option,
        Request.showSignature.option] := rfl
      rw [table]
      cases request with
      | help => exact hit [.version, .generateSignature, .showSignature] (by decide)
      | version =>
        rw [miss .help (by decide)]
        exact hit [.generateSignature, .showSignature] (by decide)
      | generateSignature =>
        rw [miss .help (by decide), miss .version (by decide)]
        exact hit [.showSignature] (by decide)
      | showSignature =>
        rw [miss .help (by decide), miss .version (by decide), miss .generateSignature (by decide)]
        exact hit [] (by decide)
    · refine Or.inl ?_
      have none_begins : ∀ request : Request, ¬ name <+: request.name := fun request begins => known ⟨request, begins⟩
      refine ⟨List.filter_eq_nil_iff.mpr fun request _ begins => none_begins request (of_decide_eq_true begins), ?_⟩
      rw [longOptions, findLongOption_miss _ _ _ (none_begins .help), findLongOption_miss _ _ _ (none_begins .version),
        findLongOption_miss _ _ _ (none_begins .generateSignature), findLongOption_miss _ _ _ (none_begins .showSignature)]
      rfl

section TakingOptions
variable {t : GetoptState} {program arg : Argument} {text : GoString}

/-- A call that found an option, went on by so many arguments and printed nothing. -/
structure Took (t u : GetoptState) (n index : Nat) (value : Option GoString) : Prop where
  advances : Advances t u n
  fresh : u.nextchar.getD [] = []
  stderr : u.stderr = t.stderr
  longind : u.longind = index
  optarg : u.optarg = value

/-- What is printed behind the name of the program. -/
def complains (t : GetoptState) (program : Argument) (message : GoString) : List UInt8 :=
  t.stderr ++ program.val ++ ascii ": " ++ message ++ [0x0A]

theorem print_true (named : t.argv[0]? = some program) (message : GoString) :
    t.print true message = some { t with stderr := complains t program message } := by
  rw [GetoptState.print, if_pos rfl, named]
  rfl

/-- A long option is to be taken up. -/
structure AtLongOption (t : GetoptState) (program arg : Argument) (text : GoString) : Prop where
  named : t.argv[0]? = some program
  here : t.argv[t.optind]? = some arg
  long : charAt arg.val 1 = dash
  next : t.nextchar = some text

theorem AtLongOption.inside (here : AtLongOption t program arg text) : t.optind + 1 ≤ t.argc :=
  (List.getElem?_eq_some_iff.mp here.here).1

theorem AtLongOption.unknown (here : AtLongOption t program arg text)
    (unknown : candidates (text.takeWhile (· ≠ equalSign)) = []) :
    ∃ u, checkLongOpt (ascii "hV") longOptions true t = some (questionMark, u) ∧
      u.stderr = complains t program (ascii "unrecognized option `--" ++ text ++ ascii "'") := by
  have result : findLongOption (text.takeWhile (· ≠ equalSign)) longOptions 0 ⟨none, false, false⟩ = ⟨none, false, false⟩ := by
    rcases findLongOption_longOptions (text.takeWhile (· ≠ equalSign)) with ⟨_, result⟩ | ⟨_, _, other, _⟩ | ⟨other, _⟩
    · exact result
    · exact absurd (unknown.symm.trans other) (List.cons_ne_nil _ _).symm
    · exact absurd (unknown.symm.trans other) (List.cons_ne_nil _ _).symm
  rw [checkLongOpt, here.next]
  simp only [Option.bind_eq_bind, Option.bind_some, here.here, result, if_pos here.long, print_true here.named]
  refine ⟨_, rfl, ?_⟩
  show complains t program _ = _
  congr 1

theorem AtLongOption.ambiguous (here : AtLongOption t program arg text)
    (ambiguous : candidates (text.takeWhile (· ≠ equalSign)) = Request.all) :
    ∃ u, checkLongOpt (ascii "hV") longOptions true t = some (questionMark, u) ∧
      u.stderr = complains t program (ascii "option `" ++ arg.val ++ ascii "' is ambiguous") := by
  have result : findLongOption (text.takeWhile (· ≠ equalSign)) longOptions 0 ⟨none, false, false⟩ =
      ⟨some (Request.help.option, 0), false, true⟩ := by
    rcases findLongOption_longOptions (text.takeWhile (· ≠ equalSign)) with ⟨other, _⟩ | ⟨_, _, other, _⟩ | ⟨_, result⟩
    · exact absurd (ambiguous.symm.trans other) (List.cons_ne_nil _ _)
    · exact absurd (congrArg List.length (ambiguous.symm.trans other)) (by simp [Request.all])
    · exact result
  rw [checkLongOpt, here.next]
  simp only [Option.bind_eq_bind, Option.bind_some, here.here, result, print_true here.named]
  exact ⟨_, rfl, rfl⟩

section Found
variable {request : Request}

theorem findLongOption_found {name : GoString} (found : candidates name = [request]) :
    ∃ isExact, findLongOption name longOptions 0 ⟨none, false, false⟩ =
      ⟨some (request.option, request.index), isExact, false⟩ := by
  rcases findLongOption_longOptions name with ⟨other, _⟩ | ⟨same, isExact, alone, result⟩ | ⟨other, _⟩
  · exact absurd (found.symm.trans other) (List.cons_ne_nil _ _)
  · obtain rfl := List.head_eq_of_cons_eq (alone.symm.trans found)
    exact ⟨isExact, result⟩
  · exact absurd (congrArg List.length (found.symm.trans other)) (by simp [Request.all])

theorem AtLongOption.refuses (here : AtLongOption t program arg text) {c : UInt8} {value : GoString}
    (found : candidates (text.takeWhile (· ≠ equalSign)) = [request])
    (given : text.dropWhile (· ≠ equalSign) = c :: value) (plain : request ≠ .showSignature) :
    ∃ u, checkLongOpt (ascii "hV") longOptions true t = some (questionMark, u) ∧
      u.stderr = complains t program (ascii "option `--" ++ request.name ++ ascii "' doesn't allow an argument") := by
  obtain ⟨isExact, result⟩ := findLongOption_found found
  have refuses : request.option.hasArg = .noArgument := by
    cases request <;> first | rfl | exact absurd rfl plain
  have spelled : request.option.name = request.name := by cases request <;> rfl
  have printed := @print_true { t with optind := t.optind + 1, nextchar := some text } program here.named
  rw [checkLongOpt, here.next]
  simp only [Option.bind_eq_bind, Option.bind_some, here.here, result, given, refuses, if_pos here.long, printed, spelled]
  refine ⟨_, rfl, ?_⟩
  show complains t program _ = _
  congr 1

theorem AtLongOption.takesValue (here : AtLongOption t program arg text) {c : UInt8} {value : GoString}
    (found : candidates (text.takeWhile (· ≠ equalSign)) = [.showSignature])
    (given : text.dropWhile (· ≠ equalSign) = c :: value) :
    ∃ u, checkLongOpt (ascii "hV") longOptions true t = some (0, u) ∧ Took t u 1 3 (some value) := by
  obtain ⟨isExact, result⟩ := findLongOption_found found
  rw [checkLongOpt, here.next]
  simp only [Option.bind_eq_bind, Option.bind_some, here.here, result, given]
  exact ⟨_, rfl, ⟨rfl, rfl, rfl, rfl, rfl, here.inside⟩, rfl, rfl, rfl, rfl⟩

theorem AtLongOption.takesNext (here : AtLongOption t program arg text) {value : Argument}
    (found : candidates (text.takeWhile (· ≠ equalSign)) = [.showSignature])
    (bare : text.dropWhile (· ≠ equalSign) = []) (following : t.argv[t.optind + 1]? = some value) :
    ∃ u, checkLongOpt (ascii "hV") longOptions true t = some (0, u) ∧ Took t u 2 3 (some value.val) := by
  obtain ⟨isExact, result⟩ := findLongOption_found found
  have inside : t.optind + 1 < t.argc := (List.getElem?_eq_some_iff.mp following).1
  rw [checkLongOpt, here.next]
  have requires : Request.showSignature.option.hasArg = .requiredArgument := rfl
  simp only [Option.bind_eq_bind, Option.bind_some, here.here, result, bare, requires, if_true, Bool.false_eq_true, false_and,
    if_false]
  split
  · rw [following, Option.bind_some]
    exact ⟨_, rfl, ⟨rfl, rfl, rfl, rfl, rfl, inside⟩, rfl, rfl, rfl, rfl⟩
  · rename_i outside
    exact absurd inside outside

theorem AtLongOption.misses (here : AtLongOption t program arg text)
    (found : candidates (text.takeWhile (· ≠ equalSign)) = [.showSignature])
    (bare : text.dropWhile (· ≠ equalSign) = []) (last : t.optind + 1 = t.argc) :
    ∃ u, checkLongOpt (ascii "hV") longOptions true t = some (questionMark, u) ∧
      u.stderr = complains t program (ascii "option `" ++ arg.val ++ ascii "' requires an argument") := by
  obtain ⟨isExact, result⟩ := findLongOption_found found
  have outside : ¬ t.optind + 1 < t.argc := Nat.not_lt.mpr (Nat.le_of_eq last.symm)
  have printed := @print_true { t with optind := t.optind + 1, nextchar := some text } program here.named
  have requires : Request.showSignature.option.hasArg = .requiredArgument := rfl
  rw [checkLongOpt, here.next]
  simp only [Option.bind_eq_bind, Option.bind_some, here.here, result, bare, requires, if_true, Bool.false_eq_true, false_and,
    if_false]
  split
  · rename_i inside
    exact absurd inside outside
  · rw [printed, Option.bind_some]
    exact ⟨_, rfl, rfl⟩

theorem AtLongOption.plain (here : AtLongOption t program arg text)
    (found : candidates (text.takeWhile (· ≠ equalSign)) = [request])
    (bare : text.dropWhile (· ≠ equalSign) = []) (plain : request ≠ .showSignature) :
    ∃ u, checkLongOpt (ascii "hV") longOptions true t = some (request.option.val, u) ∧ Took t u 1 request.index t.optarg := by
  obtain ⟨isExact, result⟩ := findLongOption_found found
  have takesNone : request.option.hasArg = .noArgument := by
    cases request <;> first | rfl | exact absurd rfl plain
  rw [checkLongOpt, here.next]
  simp only [Option.bind_eq_bind, Option.bind_some, here.here, result, bare, takesNone]
  exact ⟨_, rfl, ⟨rfl, rfl, rfl, rfl, rfl, here.inside⟩, rfl, rfl, rfl, rfl⟩

end Found
end TakingOptions

end Ogrt
