import Ogrt.Client.CmdlineRefinement
import Ogrt.Client.Watermark

namespace Ogrt

/-- What libelf makes of a file: an error, with which the process ends, a file that is no ELF
object, or the sections of one. -/
inductive ElfRead
  | fails (message : List UInt8)
  | notElf
  | elf (memory : Memory) (sections : List ElfSection)

structure CliHost where
  gethostname : Bool
  uuidGenerate : Uuid
  elf : GoString → ElfRead

/-- How a run of ogrt ends. The reports are those that ogrt_read_info prints. -/
inductive CliEnd
  | exits (status : Nat) (stdout stderr : List UInt8)
  | reports (status : Nat) (reports : List SignatureReport)
  | aborts (stderr : List UInt8)

/-- ogrt_read_info as main calls it. The number of notes that it returns becomes the exit status. -/
def showSignature (host : CliHost) (file stdout stderr : List UInt8) : Option CliEnd :=
  match host.elf file with
  | .fails message => some (.exits exitFailure stdout (stderr ++ message))
  | .notElf => some (.exits 1 stdout stderr)
  | .elf memory sections =>
    (ogrtReadInfo .little memory sections).map fun reports => .reports (reports.length % 256) reports

/-- The main function of ogrt-cli.c, with whatever is in the variable ai at first. -/
def ogrtMain (version : GoString) (host : CliHost) (ai : ArgsInfo) (s : GetoptState) : Option CliEnd :=
  (cmdlineParser version s ai).bind fun parsed =>
    match parsed with
    | .exits status stdout stderr => some (.exits status stdout stderr)
    | .aborts stderr => some (.aborts stderr)
    | .returns ai stderr =>
      let stdout := if s.argc = 1 then printHelp version else []
      if ai.generateSignatureGiven ≠ 0 then
        if host.gethostname then some (.exits 0 (stdout ++ generateSignature host.uuidGenerate) stderr)
        else some (.exits 1 stdout (stderr ++ ascii "failed to get hostname\n"))
      else if ai.showSignatureGiven ≠ 0 then
        ai.showSignatureArg.bind fun file => showSignature host file stdout stderr
      else some (.exits 0 stdout stderr)

section Runs
variable {version : GoString} {host : CliHost} {ai : ArgsInfo} {s : GetoptState}

/-- A command line with an option is no bare call, for which the help is printed. -/
theorem argc_of_requested {generate : Bool} {file : Option GoString}
    (asks : readCommandLine version s.argv = .returns (requested generate file) [])
    (some_option : generate = true ∨ file ≠ none) : s.argc ≠ 1 := by
  intro bare
  obtain ⟨program, alone⟩ := List.length_eq_one_iff.mp bare
  rw [alone] at asks
  have same : requested false none = requested generate file := (Parsed.returns.inj asks).1
  rcases some_option with rfl | named
  · exact absurd (congrArg ArgsInfo.generateSignatureGiven same) (by simp [requested])
  · exact named (congrArg ArgsInfo.showSignatureArg same).symm

theorem ogrtMain_generates {file : Option GoString} (quiet : s.stderr = []) (hostname : host.gethostname = true)
    (asks : readCommandLine version s.argv = .returns (requested true file) []) :
    ogrtMain version host ai s = some (.exits 0 (generateSignature host.uuidGenerate) []) := by
  have options := argc_of_requested asks (Or.inl rfl)
  rw [ogrtMain, show cmdlineParser version s ai = _ from parseFrom_begun version s quiet, asks]
  have given : (requested true file).generateSignatureGiven ≠ 0 := Nat.one_ne_zero
  simp only [Option.bind_some, if_pos given, if_pos hostname, if_neg options, List.nil_append]

theorem ogrtMain_shows {file : GoString} (quiet : s.stderr = [])
    (asks : readCommandLine version s.argv = .returns (requested false (some file)) []) :
    ogrtMain version host ai s = showSignature host file [] [] := by
  have options := argc_of_requested asks (Or.inr (Option.some_ne_none _))
  rw [ogrtMain, show cmdlineParser version s ai = _ from parseFrom_begun version s quiet, asks, Option.bind_some]
  show showSignature host file (if s.argc = 1 then printHelp version else []) [] = _
  rw [if_neg options]

end Runs

/-- Two runs of the program, however their options are spelled and wherever they stand: one that
generates a signature, and one that is to show the object file which the first has printed. -/
theorem ogrt_shows_generated (version : GoString) (generating showing : CliHost) (ai ai' : ArgsInfo) (s s' : GetoptState)
    (quiet : s.stderr = []) (quiet' : s'.stderr = []) (hostname : generating.gethostname = true) (other : Option GoString)
    (generates : readCommandLine version s.argv = .returns (requested true other) []) (file : GoString)
    (shows : readCommandLine version s'.argv = .returns (requested false (some file)) []) :
    ∃ object, ogrtMain version generating ai s = some (.exits 0 object []) ∧
      ∀ memory base, memory.Holds base object → showing.elf file = .elf memory (fileSections base object) →
        ∃ report, ogrtMain version showing ai' s' = some (.reports 1 [report]) ∧
          report.sectionName = ogrtSectionName ∧ report.version = 1 ∧
          memory.CString report.uuid generating.uuidGenerate.text := by
  refine ⟨_, ogrtMain_generates quiet hostname generates, ?_⟩
  intro memory base holds opened
  obtain ⟨report, found, name, written, uuid⟩ :=
    (watermark_sound generating.uuidGenerate).readInfo memory base holds
  refine ⟨report, ?_, name, written, uuid⟩
  rw [ogrtMain_shows quiet' shows, showSignature, opened]
  show (ogrtReadInfo .little memory _).map _ = _
  rw [found]
  rfl

theorem sixteen_length : ((List.range 16).map UInt8.ofNat).length = 16 := rfl

/-- 00010203-0405-0607-0809-0a0b0c0d0e0f -/
def countingUuid : Uuid := ⟨(List.range 16).map UInt8.ofNat, sixteen_length⟩

/-- A file that holds the object generated for this UUID, mapped at an address. -/
def generatedFile : ElfRead :=
  .elf (fun address => (generateSignature countingUuid).getD (address - 64) 0) (fileSections 64 (generateSignature countingUuid))

theorem ogrt_shows_generated_abbreviated :
    ∃ report, ogrtMain [] ⟨true, countingUuid, fun _ => generatedFile⟩ .cleared
        (programStart [argumentOf "ogrt", argumentOf "a.out", argumentOf "--sh", argumentOf "mark.o"]) =
          some (.reports 1 [report]) ∧
      report.sectionName = ogrtSectionName ∧ report.version = 1 ∧
      Memory.CString (fun address => (generateSignature countingUuid).getD (address - 64) 0) report.uuid countingUuid.text := by
  obtain ⟨object, printed, shown⟩ := ogrt_shows_generated [] ⟨true, countingUuid, fun _ => .notElf⟩
    ⟨true, countingUuid, fun _ => generatedFile⟩ .cleared .cleared (programStart [argumentOf "ogrt", argumentOf "--g"])
    (programStart [argumentOf "ogrt", argumentOf "a.out", argumentOf "--sh", argumentOf "mark.o"]) rfl rfl rfl none
    (by decide +kernel) (ascii "mark.o") (by decide +kernel)
  have generates := @ogrtMain_generates [] ⟨true, countingUuid, fun _ => .notElf⟩ .cleared
    (programStart [argumentOf "ogrt", argumentOf "--g"]) none rfl rfl (by decide +kernel)
  obtain rfl : generateSignature countingUuid = object := by
    have same := Option.some.inj (generates.symm.trans printed)
    injection same
  exact shown _ 64 (Memory.holds_getD _ _) rfl

end Ogrt
