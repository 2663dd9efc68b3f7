import Ogrt.Client.GetoptRun

namespace Ogrt

def gengetoptArgsInfoPurpose : GoString := []
def gengetoptArgsInfoUsage : GoString := ascii "Usage: ogrt [OPTIONS]..."
def gengetoptArgsInfoVersiontext : GoString := []
def gengetoptArgsInfoDescription : GoString := []

def gengetoptArgsInfoHelp : List GoString := [
  ascii "  -h, --help                 Print help and exit",
  ascii "  -V, --version              Print version and exit",
  ascii "\n Mode: link-info",
  ascii "      --generate-signature   generate signature object file",
  ascii "      --show-signature=file  show signature of ELF"]

def cmdlineParserPackage : GoString := ascii "ogrt"

/-- A text between line breaks, nothing for an empty one. -/
def paragraph (text : GoString) : List UInt8 := if text.length > 0 then [0x0A] ++ text ++ [0x0A] else []

/-- cmdline_parser_print_version; the version is put in when the client is configured. -/
def printVersion (version : GoString) : List UInt8 :=
  cmdlineParserPackage ++ [0x20] ++ version ++ [0x0A] ++ paragraph gengetoptArgsInfoVersiontext

def printHelp (version : GoString) : List UInt8 :=
  printVersion version ++ paragraph gengetoptArgsInfoPurpose ++ paragraph gengetoptArgsInfoUsage ++ [0x0A] ++
    (if gengetoptArgsInfoDescription.length > 0 then gengetoptArgsInfoDescription ++ [0x0A, 0x0A] else []) ++
    gengetoptArgsInfoHelp.flatMap (· ++ [0x0A])

/-- struct gengetopt_args_info without the pointers to the help texts. -/
structure ArgsInfo where
  showSignatureArg : Option GoString
  showSignatureOrig : Option GoString
  helpGiven : Nat
  versionGiven : Nat
  generateSignatureGiven : Nat
  showSignatureGiven : Nat
  linkInfoModeCounter : Nat
  deriving DecidableEq, Repr

/-- cmdline_parser_init -/
def ArgsInfo.cleared : ArgsInfo := ⟨none, none, 0, 0, 0, 0, 0⟩

structure CmdlineParserParams where
  override : Bool
  initializes : Bool
  checkRequired : Bool
  checkAmbiguity : Bool
  printErrors : Bool
  deriving DecidableEq, Repr

inductive ArgType
  | argNo
  | argString
  deriving DecidableEq, Repr

/-- What the pointers given to update_arg lead to. -/
structure OptionFields where
  field : Option GoString
  origField : Option GoString
  fieldGiven : Nat
  prevGiven : Nat
  deriving DecidableEq, Repr

/-- A failure is what is printed. No option of the program has possible values or a default. -/
def updateArg (packageName : GoString) (fields : OptionFields) (value : Option GoString) (argType : ArgType)
    (checkAmbiguity override multipleOption : Bool) (longOpt : GoString) (shortOpt : UInt8) (additionalError : GoString) :
    Except (List UInt8) OptionFields :=
  if multipleOption = false ∧ (fields.prevGiven ≠ 0 ∨ checkAmbiguity ∧ fields.fieldGiven ≠ 0) then
    if shortOpt ≠ dash then
      .error (packageName ++ ascii ": `--" ++ longOpt ++ ascii "' (`-" ++ [shortOpt] ++ ascii "') option given more than once" ++
        additionalError ++ [0x0A])
    else
      .error (packageName ++ ascii ": `--" ++ longOpt ++ ascii "' option given more than once" ++ additionalError ++ [0x0A])
  else if fields.fieldGiven ≠ 0 ∧ override = false then .ok fields
  else
    let fields := { fields with prevGiven := fields.prevGiven + 1, fieldGiven := fields.fieldGiven + 1 }
    match argType, value with
    | .argString, some val => .ok { fields with field := some val, origField := some val }
    | _, _ => .ok fields

def longOptions : List LongOption := [
  ⟨ascii "help", .noArgument, 0x68⟩,
  ⟨ascii "version", .noArgument, 0x56⟩,
  ⟨ascii "generate-signature", .noArgument, 0⟩,
  ⟨ascii "show-signature", .requiredArgument, 0⟩]

inductive ParserOutcome
  | success (argsInfo : ArgsInfo) (stderr : List UInt8)
  | failure (stderr : List UInt8)
  | exits (stdout stderr : List UInt8)
  | aborts (stderr : List UInt8)
  deriving DecidableEq, Repr

/-- The loop of cmdline_parser_internal. No result is an access outside the arguments, or that the
loop goes on when the fuel is used up. -/
def parseOptions (version packageName : GoString) (params : CmdlineParserParams) (additionalError : GoString) :
    Nat → Nat → GetoptState → ArgsInfo → ArgsInfo → Option ParserOutcome
  | 0, _, _, _, _ => none
  | fuel + 1, optind, s, argsInfo, localArgsInfo => do
    let (c, s) ← customGetoptLong (ascii "hV") longOptions optind params.printErrors 0 s
    if c = -1 then some (.success argsInfo s.stderr)
    else if c = 0x68 then some (.exits (printHelp version) s.stderr)
    else if c = 0x56 then some (.exits (printVersion version) s.stderr)
    else if c = 0 then do
      let option ← longOptions[s.longind]?
      if option.name = ascii "generate-signature" then
        let argsInfo := { argsInfo with linkInfoModeCounter := argsInfo.linkInfoModeCounter + 1 }
        match updateArg packageName ⟨none, none, argsInfo.generateSignatureGiven, localArgsInfo.generateSignatureGiven⟩ s.optarg
            .argNo params.checkAmbiguity params.override false (ascii "generate-signature") dash additionalError with
        | .error message => some (.failure (s.stderr ++ message))
        | .ok fields =>
          parseOptions version packageName params additionalError fuel s.optind s
            { argsInfo with generateSignatureGiven := fields.fieldGiven }
            { localArgsInfo with generateSignatureGiven := fields.prevGiven }
      else if option.name = ascii "show-signature" then
        let argsInfo := { argsInfo with linkInfoModeCounter := argsInfo.linkInfoModeCounter + 1 }
        match updateArg packageName
            ⟨argsInfo.showSignatureArg, argsInfo.showSignatureOrig, argsInfo.showSignatureGiven, localArgsInfo.showSignatureGiven⟩
            s.optarg .argString params.checkAmbiguity params.override false (ascii "show-signature") dash additionalError with
        | .error message => some (.failure (s.stderr ++ message))
        | .ok fields =>
          parseOptions version packageName params additionalError fuel s.optind s
            { argsInfo with
              showSignatureArg := fields.field
              showSignatureOrig := fields.origField
              showSignatureGiven := fields.fieldGiven }
            { localArgsInfo with showSignatureGiven := fields.prevGiven }
      else parseOptions version packageName params additionalError fuel s.optind s argsInfo localArgsInfo
    else if c = questionMark then some (.failure s.stderr)
    else some (.aborts (s.stderr ++ cmdlineParserPackage ++ ascii ": option unknown: " ++ [UInt8.ofInt c] ++ additionalError ++
      [0x0A]))

def cmdlineParserInternal (version : GoString) (params : CmdlineParserParams) (additionalError : GoString) (s : GetoptState)
    (argsInfo : ArgsInfo) : Option ParserOutcome :=
  let packageName := (s.argv[0]?.map (·.val)).getD []
  let argsInfo := if params.initializes then .cleared else argsInfo
  parseOptions version packageName params additionalError (s.argc + 1) 0 s argsInfo .cleared

/-- How a call of cmdline_parser ends. -/
inductive Parsed
  | returns (argsInfo : ArgsInfo) (stderr : List UInt8)
  | exits (status : Nat) (stdout stderr : List UInt8)
  | aborts (stderr : List UInt8)
  deriving DecidableEq, Repr

def exitSuccess : Nat := 0
def exitFailure : Nat := 1

/-- A failure ends the process in cmdline_parser2. -/
def ParserOutcome.parsed : ParserOutcome → Parsed
  | .success argsInfo stderr => .returns argsInfo stderr
  | .failure stderr => .exits exitFailure [] stderr
  | .exits stdout stderr => .exits exitSuccess stdout stderr
  | .aborts stderr => .aborts stderr

def cmdlineParser2 (version : GoString) (override initializes checkRequired : Bool) (s : GetoptState) (argsInfo : ArgsInfo) :
    Option Parsed :=
  (cmdlineParserInternal version ⟨override, initializes, checkRequired, false, true⟩ [] s argsInfo).map ParserOutcome.parsed

def cmdlineParser (version : GoString) (s : GetoptState) (argsInfo : ArgsInfo) : Option Parsed :=
  cmdlineParser2 version false true true s argsInfo

end Ogrt
