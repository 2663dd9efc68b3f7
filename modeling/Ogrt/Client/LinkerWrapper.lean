import Mathlib.Data.List.TakeWhile
import Ogrt.Protocol

namespace Ogrt

/-- What the file system tells about a path: the file that it leads to, through links, whether
the tests -x and -d hold of that file. -/
structure InstalledFiles where
  file : GoString → Option Nat
  executable : Nat → Bool
  directory : Nat → Bool

/-- [[ -x path ]], which holds of directories too. -/
def InstalledFiles.passesX (files : InstalledFiles) (path : GoString) : Bool := (files.file path).any files.executable

/-- [[ path -ef other ]] -/
def InstalledFiles.sameFile (files : InstalledFiles) (path other : GoString) : Bool :=
  (files.file path).isSome && files.file path == files.file other

/-- A path that can be run as a program. -/
def InstalledFiles.isProgram (files : InstalledFiles) (path : GoString) : Bool :=
  files.passesX path && !(files.file path).any files.directory

/-- The outcomes of the commands around the signature file. A name that does not expand to one
word makes the redirection fail. -/
structure SignatureOutcome where
  commandOgrt : Bool
  mktemp : Option GoString
  expand : GoString → List GoString
  generate : Bool

/-- A call of the wrapper: $0, PATH, the variable `arguments` of the environment and $@. -/
structure WrapperCall where
  zero : GoString
  path : GoString
  argumentsVariable : Option GoString
  args : List GoString
  signature : SignatureOutcome

/-- ${0##*/} -/
def baseName (zero : GoString) : GoString := (zero.reverse.takeWhile (· ≠ 0x2F)).reverse

def binaryIn (name p : GoString) : GoString := p ++ 0x2F :: name

/-- IFS=: read -ra path <<< "$PATH" takes one line. Its last field is left out if it is empty. -/
def readPath (path : GoString) : List GoString :=
  let fields := (path.takeWhile (· ≠ 0x0A)).splitOn 0x3A
  if fields.getLast? = some [] then fields.dropLast else fields

/-- The search loop, with `unwrapped` as its result; none is its first value "false". -/
def searchLoop (files : InstalledFiles) (zero : GoString) : Bool → List GoString → Option GoString
  | _, [] => none
  | self, p :: rest =>
    let binary := binaryIn (baseName zero) p
    if self && files.passesX binary then some binary
    else if files.sameFile binary zero then searchLoop files zero true rest
    else searchLoop files zero self rest

/-- The signature file that is appended to `arguments`. -/
def SignatureOutcome.sigfile (o : SignatureOutcome) : Option GoString :=
  if o.commandOgrt then
    o.mktemp.bind fun sigfile =>
      match o.expand sigfile with
      | [word] => if o.generate then some word else none
      | _ => none
  else none

/-- The directories of PATH. An empty entry stands for the current one. -/
def pathDirectories (path : GoString) : List GoString :=
  (path.splitOn 0x3A).map fun directory => if directory = [] then [0x2E] else directory

/-- The program that exec runs for a name without a slash. -/
def findProgram (files : InstalledFiles) (path name : GoString) : Option GoString :=
  ((pathDirectories path).map (binaryIn name)).find? files.isProgram

structure Execution where
  program : Option GoString
  arguments : List GoString
  deriving DecidableEq, Repr

/-- What the wrapper execs. -/
def wrapperExec (files : InstalledFiles) (call : WrapperCall) : Execution :=
  let program := match searchLoop files call.zero false (readPath call.path) with
    | some unwrapped => some unwrapped
    | none => findProgram files call.path (ascii "false")
  if call.args = [] then ⟨program, []⟩
  else ⟨program, call.argumentsVariable.toList ++ call.signature.sigfile.toList ++ call.args⟩

/-- The candidates in these directories that come after the wrapper's first occurrence. -/
def behindWrapper (files : InstalledFiles) (zero : GoString) (directories : List GoString) : List GoString :=
  ((directories.map (binaryIn (baseName zero))).dropWhile fun binary => !files.sameFile binary zero).drop 1

/-- The first program behind the wrapper's first occurrence in PATH that is another file. -/
def realLinker (files : InstalledFiles) (call : WrapperCall) : Option GoString :=
  (behindWrapper files call.zero (pathDirectories call.path)).find? fun binary =>
    files.isProgram binary && !files.sameFile binary call.zero

/-- The wrapper execs the real linker if there is one and never itself, with the arguments of
the caller behind at most the signature file. -/
structure FindsLinker (files : InstalledFiles) (call : WrapperCall) : Prop where
  linker : ∀ binary, realLinker files call = some binary → (wrapperExec files call).program = some binary
  notItself : ∀ program, (wrapperExec files call).program = some program → files.sameFile program call.zero = false
  arguments : (wrapperExec files call).arguments = call.args ∨
    ∃ sigfile, call.signature.sigfile = some sigfile ∧ (wrapperExec files call).arguments = sigfile :: call.args

/-- What can be in the way: between the wrapper's first occurrence and the real linker, in the
directories that the wrapper reads from PATH, nothing passes -x. Where it finds nothing it runs
the program "false", which is the real linker only if that is its name. -/
structure SearchClear (files : InstalledFiles) (call : WrapperCall) : Prop where
  linker : ∀ binary, realLinker files call = some binary →
    (binary ∈ behindWrapper files call.zero (readPath call.path) ∧
      ∀ other ∈ (behindWrapper files call.zero (readPath call.path)).takeWhile (· ≠ binary),
        files.passesX other = false) ∨
    (∀ other ∈ behindWrapper files call.zero (readPath call.path), files.passesX other = false) ∧
      findProgram files call.path (ascii "false") = some binary
  noLinker : realLinker files call = none → ∀ program,
    ((behindWrapper files call.zero (readPath call.path)).find? files.passesX).or
      (findProgram files call.path (ascii "false")) = some program → files.sameFile program call.zero = false
  arguments : call.args = [] ∨ call.argumentsVariable = none

variable {files : InstalledFiles} {call : WrapperCall}

theorem searchLoop_true (zero : GoString) (directories : List GoString) :
    searchLoop files zero true directories = (directories.map (binaryIn (baseName zero))).find? files.passesX := by
  induction directories with
  | nil => rfl
  | cons p rest ih =>
    rw [searchLoop, List.map_cons, List.find?_cons]
    rw [Bool.true_and]
    cases files.passesX (binaryIn (baseName zero) p) with
    | true => rfl
    | false =>
      rw [if_neg Bool.false_ne_true, ite_self]
      exact ih

/-- The loop takes the first candidate behind the wrapper's first occurrence that passes -x. -/
theorem searchLoop_false (zero : GoString) (directories : List GoString) :
    searchLoop files zero false directories = (behindWrapper files zero directories).find? files.passesX := by
  induction directories with
  | nil => rfl
  | cons p rest ih =>
    unfold behindWrapper at ih ⊢
    rw [searchLoop, List.map_cons, List.dropWhile_cons]
    rw [Bool.false_and, if_neg Bool.false_ne_true]
    cases files.sameFile (binaryIn (baseName zero) p) zero with
    | true => exact searchLoop_true zero rest
    | false => exact ih

/-- An element is the first with a property exactly if it has it and none of those before it has. -/
theorem find?_eq_some_iff_takeWhile {p : GoString → Bool} {list : List GoString} {binary : GoString}
    (holds : p binary = true) :
    list.find? p = some binary ↔ binary ∈ list ∧ ∀ other ∈ list.takeWhile (· ≠ binary), p other = false := by
  induction list with
  | nil => exact iff_of_false nofun fun both => List.not_mem_nil both.1
  | cons first rest ih =>
    rw [List.find?_cons, List.takeWhile_cons]
    by_cases same : first = binary
    · subst same
      rw [holds]
      refine iff_of_true rfl ⟨List.mem_cons_self .., ?_⟩
      simp
    · have differs : decide (first ≠ binary) = true := decide_eq_true same
      rw [differs, if_pos rfl]
      cases early : p first with
      | true =>
        refine iff_of_false (fun found => same (Option.some.inj found)) fun both => ?_
        have none := both.2 first (List.mem_cons_self ..)
        rw [early] at none
        cases none
      | false =>
        dsimp only
        rw [ih, List.mem_cons, or_iff_right (Ne.symm same), List.forall_mem_cons, early]
        exact and_congr_right fun _ => (and_iff_right rfl).symm

theorem wrapperExec_program :
    (wrapperExec files call).program = ((behindWrapper files call.zero (readPath call.path)).find? files.passesX).or
      (findProgram files call.path (ascii "false")) := by
  unfold wrapperExec
  rw [searchLoop_false]
  dsimp only
  cases (behindWrapper files call.zero (readPath call.path)).find? files.passesX <;>
    · dsimp only
      split <;> rfl

/-- A program that passes -x is reached by the search, or as the program false when nothing is
found. -/
theorem wrapperExec_program_iff {binary : GoString} (passes : files.passesX binary = true) :
    (wrapperExec files call).program = some binary ↔
      (binary ∈ behindWrapper files call.zero (readPath call.path) ∧
        ∀ other ∈ (behindWrapper files call.zero (readPath call.path)).takeWhile (· ≠ binary),
          files.passesX other = false) ∨
      (∀ other ∈ behindWrapper files call.zero (readPath call.path), files.passesX other = false) ∧
        findProgram files call.path (ascii "false") = some binary := by
  rw [wrapperExec_program, Option.or_eq_some_iff, find?_eq_some_iff_takeWhile passes, List.find?_eq_none]
  simp only [Bool.not_eq_true]

theorem wrapperExec_arguments :
    (wrapperExec files call).arguments = if call.args = [] then [] else
      call.argumentsVariable.toList ++ call.signature.sigfile.toList ++ call.args := by
  unfold wrapperExec
  dsimp only
  split <;> rfl

theorem realLinker_some {binary : GoString} (found : realLinker files call = some binary) :
    files.passesX binary = true ∧ files.sameFile binary call.zero = false := by
  have both := List.find?_some found
  unfold InstalledFiles.isProgram at both
  simp only [Bool.and_eq_true, Bool.not_eq_true'] at both
  exact ⟨both.1.1, both.2⟩

/-- Only a variable of the environment gets between the signature file and the caller's arguments. -/
theorem arguments_iff :
    ((wrapperExec files call).arguments = call.args ∨
      ∃ sigfile, call.signature.sigfile = some sigfile ∧ (wrapperExec files call).arguments = sigfile :: call.args) ↔
    call.args = [] ∨ call.argumentsVariable = none := by
  rw [wrapperExec_arguments]
  by_cases empty : call.args = []
  · rw [if_pos empty, empty]
    exact iff_of_true (Or.inl rfl) (Or.inl rfl)
  · rw [if_neg empty, or_iff_right empty]
    cases call.argumentsVariable with
    | none =>
      refine iff_of_true ?_ rfl
      cases call.signature.sigfile with
      | none => exact Or.inl rfl
      | some sigfile => exact Or.inr ⟨sigfile, rfl, rfl⟩
    | some value =>
      refine iff_of_false ?_ nofun
      rintro (same | ⟨sigfile, made, same⟩)
      · have count := congrArg List.length same
        simp only [List.length_append, Option.toList_some, List.length_singleton] at count
        omega
      · have count := congrArg List.length same
        rw [made] at count
        simp only [List.length_append, Option.toList_some, List.length_cons] at count
        omega

/-- The wrapper execs the real linker, never itself, with the caller's arguments exactly when
nothing is in the way of its search and no variable in that of the arguments. -/
theorem wrapper_finds_linker_iff (files : InstalledFiles) (call : WrapperCall) :
    FindsLinker files call ↔ SearchClear files call := by
  constructor
  · intro finds
    refine ⟨fun binary found => ?_, fun _ program ran => ?_, arguments_iff.mp finds.arguments⟩
    · exact (wrapperExec_program_iff (realLinker_some found).1).mp (finds.linker binary found)
    · rw [← wrapperExec_program] at ran
      exact finds.notItself program ran
  · intro clear
    have linker : ∀ binary, realLinker files call = some binary → (wrapperExec files call).program = some binary := by
      intro binary found
      exact (wrapperExec_program_iff (realLinker_some found).1).mpr (clear.linker binary found)
    refine ⟨linker, fun program ran => ?_, arguments_iff.mpr clear.arguments⟩
    cases found : realLinker files call with
    | none =>
      rw [wrapperExec_program] at ran
      exact clear.noLinker found program ran
    | some binary =>
      rw [linker binary found] at ran
      cases ran
      exact (realLinker_some found).2

/-- The wrapper is reached through one of the directories. -/
def WrapperCall.Reached (files : InstalledFiles) (call : WrapperCall) : Prop :=
  ∃ directory ∈ pathDirectories call.path, files.sameFile (binaryIn (baseName call.zero) directory) call.zero = true

/-- The wrapper in /w and the linker in /usr/bin. -/
def twoLinkers : InstalledFiles where
  file path := if path = ascii "/w/ld" then some 1 else if path = ascii "/usr/bin/ld" then some 2 else none
  executable _ := true
  directory _ := false

/-- The wrapper's directory is in PATH twice. -/
def listedTwice : WrapperCall :=
  ⟨ascii "/w/ld", ascii "/w:/w:/usr/bin", none, [ascii "-v"], ⟨false, none, fun _ => [], false⟩⟩

/-- The wrapper execs itself, again and again. -/
theorem wrapper_execs_itself :
    ¬ ∀ (files : InstalledFiles) (call : WrapperCall), call.Reached files → FindsLinker files call := by
  intro finds
  have reached : listedTwice.Reached twoLinkers := ⟨ascii "/w", by decide, by decide⟩
  have ran : (wrapperExec twoLinkers listedTwice).program = some (ascii "/w/ld") := by decide
  exact absurd ((finds twoLinkers listedTwice reached).notItself _ ran) (by decide)

theorem not_mem_intercalate {c separator : UInt8} (other : c ≠ separator) {texts : List GoString}
    (plain : ∀ text ∈ texts, c ∉ text) : c ∉ [separator].intercalate texts := by
  induction texts with
  | nil => exact List.not_mem_nil
  | cons first rest ih =>
    obtain ⟨here, later⟩ := List.forall_mem_cons.mp plain
    cases rest with
    | nil =>
      rw [show [separator].intercalate [first] = first from List.append_nil first]
      exact here
    | cons second rest =>
      show c ∉ first ++ separator :: [separator].intercalate (second :: rest)
      rw [List.mem_append, List.mem_cons]
      rintro (member | rfl | member)
      · exact here member
      · exact other rfl
      · exact ih later member

/-- Names of directories without a newline are read from PATH as they stand in it. -/
theorem readPath_directories {directories : List GoString} (nonempty : directories ≠ [])
    (plain : ∀ directory ∈ directories, directory ≠ [] ∧ 0x3A ∉ directory ∧ 0x0A ∉ directory) :
    readPath ([0x3A].intercalate directories) = directories ∧
      pathDirectories ([0x3A].intercalate directories) = directories := by
  have split : ([0x3A].intercalate directories).splitOn 0x3A = directories :=
    List.splitOn_intercalate 0x3A (fun directory member => (plain directory member).2.1) nonempty
  have oneLine : ([0x3A].intercalate directories).takeWhile (· ≠ 0x0A) = [0x3A].intercalate directories := by
    have noNewline := not_mem_intercalate (show (0x0A : UInt8) ≠ 0x3A by decide)
      (fun directory member => (plain directory member).2.2)
    rw [List.takeWhile_eq_self_iff]
    intro c member
    exact decide_eq_true fun newline => noNewline (newline ▸ member)
  have last : directories.getLast? ≠ some [] := by
    intro empty
    exact (plain [] (List.mem_of_getLast? empty)).1 rfl
  constructor
  · rw [readPath, oneLine, split, if_neg last]
  · rw [pathDirectories, split]
    refine (List.map_congr_left fun directory member => if_neg (plain directory member).1).trans (List.map_id _)

end Ogrt
