import Ogrt.Lib.BlockExchange
import Ogrt.Client.CommandLine

namespace Ogrt

/-- The character of a C string at a place, the NUL behind the last one. -/
def charAt (text : GoString) (i : Nat) : UInt8 := text.getD i 0

def dash : UInt8 := 0x2D
def equalSign : UInt8 := 0x3D
def colon : UInt8 := 0x3A

/-- '?', what getopt returns for an option that is not to be had. -/
def questionMark : Int := 0x3F

inductive HasArg
  | noArgument
  | requiredArgument
  | optionalArgument
  deriving DecidableEq, Repr

/-- struct option, without flag, which is NULL in the one table of the program. -/
structure LongOption where
  name : GoString
  hasArg : HasArg
  val : Int
  deriving DecidableEq, Repr

/-- struct custom_getopt_data with what getopt works on beside it: the argument vector, the int at
longind and what is on stderr. A pointer into a string is the text from there on. -/
structure GetoptState where
  argv : List Argument
  optind : Nat
  opterr : Bool
  optopt : Int
  optarg : Option GoString
  initialized : Bool
  nextchar : Option GoString
  firstNonopt : Nat
  lastNonopt : Nat
  longind : Nat
  stderr : List UInt8
  deriving Repr

def GetoptState.argc (s : GetoptState) : Nat := s.argv.length

/-- fprintf to stderr, behind "%s: " with argv[0]. -/
def GetoptState.print (s : GetoptState) (printErrors : Bool) (message : List UInt8) : Option GetoptState := do
  if printErrors then
    let program ← s.argv[0]?
    some { s with stderr := s.stderr ++ program.val ++ ascii ": " ++ message ++ [0x0A] }
  else some s

/-- In the models of these functions no result is an access behind the last argument or behind
the end of a string. -/
def exchange (s : GetoptState) : Option GetoptState :=
  (BlockExchange.exchange s.argv s.firstNonopt s.lastNonopt s.optind).map fun argv =>
    { s with argv, firstNonopt := s.firstNonopt + (s.optind - s.lastNonopt), lastNonopt := s.optind }

def customGetoptInitialize (s : GetoptState) : GetoptState :=
  { s with firstNonopt := s.optind, lastNonopt := s.optind, nextchar := none, initialized := true }

/-- NONOPTION_P about an argument. -/
def isNonoption (arg : Argument) : Bool := charAt arg.val 0 != dash || charAt arg.val 1 == 0

/-- The loop over the arguments from optind on that are no options. -/
def skipNonoptions : List Argument → Nat → Nat
  | [], optind => optind
  | arg :: rest, optind => if isNonoption arg then skipNonoptions rest (optind + 1) else optind

/-- The start of shuffle_argv: options that were processed since non-options were skipped go in front of these. -/
def bringForward (s : GetoptState) : Option GetoptState :=
  let s := { s with lastNonopt := min s.lastNonopt s.optind, firstNonopt := min s.firstNonopt s.optind }
  if s.firstNonopt ≠ s.lastNonopt ∧ s.lastNonopt ≠ s.optind then exchange s
  else if s.lastNonopt ≠ s.optind then some { s with firstNonopt := s.optind }
  else some s

/-- The exchange behind "--", as if it were an option. -/
def exchangeTerminator (s : GetoptState) : Option GetoptState :=
  if s.firstNonopt ≠ s.lastNonopt ∧ s.lastNonopt ≠ s.optind then exchange s
  else if s.firstNonopt = s.lastNonopt then some { s with firstNonopt := s.optind }
  else some s

/-- The special argument "--" is passed like an option, and then all the others like non-options. -/
def passTerminator (s : GetoptState) : Option GetoptState :=
  if s.optind ≠ s.argc then do
    let arg ← s.argv[s.optind]?
    if arg.val = [dash, dash] then do
      let s ← exchangeTerminator { s with optind := s.optind + 1 }
      some { s with lastNonopt := s.argc, optind := s.argc }
    else some s
  else some s

/-- The end of shuffle_argv: the scan stops, or an option begins. -/
def stopOrStart (longopts : Option (List LongOption)) (s : GetoptState) : Option (Int × GetoptState) :=
  if s.optind = s.argc then
    if s.firstNonopt ≠ s.lastNonopt then some (-1, { s with optind := s.firstNonopt }) else some (-1, s)
  else do
    let arg ← s.argv[s.optind]?
    if isNonoption arg then some (1, { s with optarg := some arg.val, optind := s.optind + 1 })
    else
      let skip := 1 + if longopts.isSome ∧ charAt arg.val 1 = dash then 1 else 0
      some (0, { s with nextchar := some (arg.val.drop skip) })

def shuffleArgv (longopts : Option (List LongOption)) (s : GetoptState) : Option (Int × GetoptState) := do
  let s ← bringForward s
  let optind := skipNonoptions (s.argv.drop s.optind) s.optind
  let s ← passTerminator { s with optind, lastNonopt := optind }
  stopOrStart longopts s

/-- The variables of the loop over the long options. -/
structure LongMatch where
  pfound : Option (LongOption × Nat)
  isExact : Bool
  ambig : Bool
  deriving DecidableEq, Repr

/-- The test of all long options for either exact match or abbreviated matches. The name is what
stands before nameend; its length and strlen are compared as unsigned int. -/
def findLongOption (name : GoString) : List LongOption → Nat → LongMatch → LongMatch
  | [], _, found => found
  | p :: rest, optionIndex, found =>
    if p.name.take name.length = name then
      if name.length % 2 ^ 32 = p.name.length % 2 ^ 32 then { found with pfound := some (p, optionIndex), isExact := true }
      else
        match found.pfound with
        | none => findLongOption name rest (optionIndex + 1) { found with pfound := some (p, optionIndex) }
        | some (q, _) =>
          if q.hasArg ≠ p.hasArg ∨ q.val ≠ p.val then findLongOption name rest (optionIndex + 1) { found with ambig := true }
          else findLongOption name rest (optionIndex + 1) found
    else findLongOption name rest (optionIndex + 1) found

def checkLongOpt (optstring : GoString) (longopts : List LongOption) (printErrors : Bool) (s : GetoptState) :
    Option (Int × GetoptState) := do
  let nextchar ← s.nextchar
  let name := nextchar.takeWhile (· ≠ equalSign)
  let nameend := nextchar.dropWhile (· ≠ equalSign)
  let found := findLongOption name longopts 0 ⟨none, false, false⟩
  let arg ← s.argv[s.optind]?
  if found.ambig ∧ ¬ found.isExact then do
    let s ← s.print printErrors (ascii "option `" ++ arg.val ++ ascii "' is ambiguous")
    some (questionMark, { s with nextchar := some [], optind := s.optind + 1, optopt := 0 })
  else
    match found.pfound with
    | some (pfound, optionIndex) =>
      let s := { s with optind := s.optind + 1 }
      let done (s : GetoptState) : Option (Int × GetoptState) :=
        some (pfound.val, { s with nextchar := some [], longind := optionIndex })
      match nameend with
      | _ :: value =>
        if pfound.hasArg ≠ .noArgument then done { s with optarg := some value }
        else do
          let front := if charAt arg.val 1 = dash then [dash, dash] else [charAt arg.val 0]
          let s ← s.print printErrors (ascii "option `" ++ front ++ pfound.name ++ ascii "' doesn't allow an argument")
          some (questionMark, { s with nextchar := some [], optopt := pfound.val })
      | [] =>
        if pfound.hasArg = .requiredArgument then
          if s.optind < s.argc then do
            let value ← s.argv[s.optind]?
            done { s with optarg := some value.val, optind := s.optind + 1 }
          else do
            let s ← s.print printErrors (ascii "option `" ++ arg.val ++ ascii "' requires an argument")
            some (if charAt optstring 0 = colon then (colon.toNat : Int) else questionMark,
              { s with nextchar := some [], optopt := pfound.val })
        else done s
    | none => do
      let front := if charAt arg.val 1 = dash then [dash, dash] else [charAt arg.val 0]
      let s ← s.print printErrors (ascii "unrecognized option `" ++ front ++ nextchar ++ ascii "'")
      some (questionMark, { s with nextchar := some [], optind := s.optind + 1, optopt := 0 })

/-- A char that is returned as an int. -/
def charValue (c : UInt8) : Int := c.toInt8.toInt

def checkShortOpt (optstring : GoString) (printErrors : Bool) (s : GetoptState) : Option (Int × GetoptState) :=
  match s.nextchar with
  | some (c :: nextchar) =>
    let s := { s with nextchar := some nextchar, optind := if nextchar = [] then s.optind + 1 else s.optind }
    match optstring.dropWhile (· ≠ c) with
    | [] => do
      let s ← s.print printErrors (ascii "invalid option -- " ++ [c])
      some (questionMark, { s with optopt := charValue c })
    | _ :: temp =>
      if c = colon then do
        let s ← s.print printErrors (ascii "invalid option -- " ++ [c])
        some (questionMark, { s with optopt := charValue c })
      else if charAt temp 0 = colon then
        if charAt temp 1 = colon then
          if nextchar ≠ [] then
            some (charValue c, { s with optarg := some nextchar, optind := s.optind + 1, nextchar := none })
          else some (charValue c, { s with optarg := none, nextchar := none })
        else if nextchar ≠ [] then
          some (charValue c, { s with optarg := some nextchar, optind := s.optind + 1, nextchar := none })
        else if s.optind = s.argc then do
          let s ← s.print printErrors (ascii "option requires an argument -- " ++ [c])
          some (if charAt optstring 0 = colon then charValue colon else questionMark,
            { s with optopt := charValue c, nextchar := none })
        else do
          let value ← s.argv[s.optind]?
          some (charValue c, { s with optarg := some value.val, optind := s.optind + 1, nextchar := none })
      else some (charValue c, s)
  | _ => none

def getoptInternalR (optstring : GoString) (longopts : Option (List LongOption)) (s : GetoptState) :
    Option (Int × GetoptState) := do
  let printErrors := if charAt optstring 0 = colon then false else s.opterr
  if s.argc < 1 then some (-1, s)
  else
    let s := { s with optarg := none }
    let s := if s.optind = 0 ∨ s.initialized = false then
        customGetoptInitialize (if s.optind = 0 then { s with optind := 1 } else s)
      else s
    let (ret, s) ← if s.nextchar.getD [] = [] then shuffleArgv longopts s else some (0, s)
    if ret ≠ 0 then some (ret, s)
    else do
      let arg ← s.argv[s.optind]?
      match longopts with
      | some table =>
        if charAt arg.val 1 = dash then checkLongOpt optstring table printErrors s
        else checkShortOpt optstring printErrors s
      | none => checkShortOpt optstring printErrors s

/-- custom_getopt_long with the variables that its caller sets before each call: optind and opterr,
and the int at longind. What it leaves in custom_optarg, custom_optind and custom_optopt is in the
state that it returns. -/
def customGetoptLong (options : GoString) (longOptions : List LongOption) (optind : Nat) (opterr : Bool) (optIndex : Nat)
    (s : GetoptState) : Option (Int × GetoptState) :=
  getoptInternalR options (some longOptions) { s with optind, opterr, longind := optIndex }

end Ogrt
