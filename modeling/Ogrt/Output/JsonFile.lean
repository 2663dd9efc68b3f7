import Ogrt.Lib.CleanPath
import Ogrt.Lib.StepSystem
import Ogrt.Output.JobInfoJson
import Mathlib.Logic.Function.Basic

namespace Ogrt
open Function

/-- The identity of a regular file. -/
abbrev Location := GoString

abbrev Files := Location → Option (List UInt8)

/-- How a path name resolves to the regular file that it opens or creates. Directories and
names in missing directories resolve to none, and the output never makes a directory. -/
abbrev Resolve := GoString → Option Location

structure JsonFileOutput where
  path : GoString
  locked : Bool
  deriving DecidableEq, Repr

/-- What the file system does to one call: ReadFile fails although the file exists, Create
fails, Write fails after so many bytes. -/
structure IoOutcome where
  readFails : Bool
  createFails : Bool
  writeFails : Option Nat
  deriving DecidableEq, Repr

def IoOutcome.ok : IoOutcome := ⟨false, false, none⟩

inductive Outcome
  | returned
  | panicked
  deriving DecidableEq, Repr

def jobPath (path : GoString) (msg : ProcessInfo) : GoString := CleanPath.join path msg.getJobId

/-- ReadFile, Unmarshal, append and Marshal: the new text of the job's file. Any error of
ReadFile starts a new job; no result is log.Panic. -/
def readJob (codec : JsonCodec) (content : Option (List UInt8)) (msg : ProcessInfo) : Option (List UInt8) :=
  match content with
  | some json_bytes =>
    (codec.unmarshal json_bytes).map fun job => codec.marshal { job with processes := job.processes ++ [msg] }
  | none => some (codec.marshal ⟨some msg.getJobId, [msg]⟩)

/-- ioutil.ReadFile -/
def readFile (resolve : Resolve) (files : Files) (filepath : GoString) (fails : Bool) : Option (List UInt8) :=
  if fails then none else (resolve filepath).bind files

/-- os.Create empties the file; on failure the result is a nil file. -/
def createFile (resolve : Resolve) (files : Files) (filepath : GoString) (fails : Bool) : Option Location × Files :=
  match if fails then none else resolve filepath with
  | some file => (some file, update files file (some []))
  | none => (none, files)

/-- Write at the start of the file that a call has opened. -/
def overwriteFile (files : Files) (file : Location) (b : List UInt8) : Files :=
  update files file (some (b ++ ((files file).getD []).drop b.length))

/-- file.Write, which fails on a nil file; a Write that fails has left out the last byte at
least. The result says whether it has written everything. -/
def writeFile (files : Files) (file : Option Location) (b : List UInt8) (fails : Option Nat) : Bool × Files :=
  match file, fails with
  | none, _ => (false, files)
  | some file, none => (true, overwriteFile files file b)
  | some file, some n => (false, overwriteFile files file (b.take (min n (b.length - 1))))

/-- No result is a mutex that is never unlocked. A panic leaves it locked. -/
def JsonFileOutput.persistProcessInfo (codec : JsonCodec) (resolve : Resolve) (io : IoOutcome) (fw : JsonFileOutput)
    (files : Files) (msg : ProcessInfo) : Option (Outcome × JsonFileOutput × Files) :=
  if fw.locked then none else
  let filepath := jobPath fw.path msg
  let held := { fw with locked := true }
  match readJob codec (readFile resolve files filepath io.readFails) msg with
  | none => some (.panicked, held, files)
  | some b =>
    let (file, files) := createFile resolve files filepath io.createFails
    match writeFile files file b io.writeFails with
    | (false, files) => some (.panicked, held, files)
    | (true, files) => some (.returned, { held with locked := false }, files)

/-- The outcome of a call by the file that its job id resolves to. -/
inductive Persisted (codec : JsonCodec) (resolve : Resolve) (io : IoOutcome) (files : Files) (path : GoString)
    (msg : ProcessInfo) : Outcome → Files → Prop
  | unreadable {json_bytes} : readFile resolve files (jobPath path msg) io.readFails = some json_bytes →
      codec.unmarshal json_bytes = none → Persisted codec resolve io files path msg .panicked files
  | notCreated : io.createFails = true ∨ resolve (jobPath path msg) = none →
      Persisted codec resolve io files path msg .panicked files
  | cutShort {file b n} : io.createFails = false → resolve (jobPath path msg) = some file → io.writeFails = some n →
      readJob codec (readFile resolve files (jobPath path msg) io.readFails) msg = some b →
      Persisted codec resolve io files path msg .panicked
        (update files file (some (b.take (min n (b.length - 1)))))
  | written {file b} : io.createFails = false → resolve (jobPath path msg) = some file → io.writeFails = none →
      readJob codec (readFile resolve files (jobPath path msg) io.readFails) msg = some b →
      Persisted codec resolve io files path msg .returned (update files file (some b))

variable {codec : JsonCodec} {resolve : Resolve} {files : Files}

theorem overwriteFile_created (file : Location) (b : List UInt8) :
    overwriteFile (update files file (some [])) file b = update files file (some b) := by
  unfold overwriteFile
  rw [update_self, update_idem, Option.getD_some, List.drop_nil, List.append_nil]

variable (codec resolve files) in
/-- What a call does when it gets the mutex. -/
theorem persistProcessInfo_sound (io : IoOutcome) (path : GoString) (msg : ProcessInfo) :
    ∃ outcome after, Persisted codec resolve io files path msg outcome after ∧
      JsonFileOutput.persistProcessInfo codec resolve io ⟨path, false⟩ files msg =
        some (outcome, ⟨path, outcome = .panicked⟩, after) := by
  unfold JsonFileOutput.persistProcessInfo
  rw [if_neg Bool.false_ne_true]
  dsimp only
  cases text : readJob codec (readFile resolve files (jobPath path msg) io.readFails) msg with
  | none =>
    refine ⟨.panicked, files, ?_, rfl⟩
    unfold readJob at text
    split at text
    · rename_i json_bytes found
      exact .unreadable found (Option.map_eq_none_iff.mp text)
    · cases text
  | some b =>
    dsimp only
    unfold createFile
    cases create : io.createFails with
    | true => exact ⟨.panicked, files, .notCreated (Or.inl create), rfl⟩
    | false =>
      cases target : resolve (jobPath path msg) with
      | none => exact ⟨.panicked, files, .notCreated (Or.inr target), by simp [writeFile]⟩
      | some file =>
        cases write : io.writeFails with
        | none =>
          refine ⟨.returned, _, .written create target write text, ?_⟩
          simp [writeFile, overwriteFile_created]
        | some n =>
          refine ⟨.panicked, _, .cutShort create target write text, ?_⟩
          simp [writeFile, overwriteFile_created]

/-- One output directory over calls with any outcomes. After a panic the next process opens
the directory anew. `persisted` are the messages of the calls that have returned. -/
structure OutputState where
  writer : JsonFileOutput
  files : Files
  persisted : List ProcessInfo

def callsSystem (codec : JsonCodec) (resolve : Resolve) (path : GoString) (files : Files) :
    StepSystem OutputState (ProcessInfo × IoOutcome) where
  init := ⟨⟨path, false⟩, files, []⟩
  step s call :=
    (s.writer.persistProcessInfo codec resolve call.2 s.files call.1).map fun result =>
      match result with
      | (.returned, writer, files) => ⟨writer, files, s.persisted ++ [call.1]⟩
      | (.panicked, writer, files) => ⟨{ writer with locked := false }, files, s.persisted⟩

def Outcome.returns : Outcome → Bool
  | .returned => true
  | .panicked => false

variable (codec resolve) in
/-- A call never waits for the mutex, and it is over with one of the outcomes. -/
theorem call_sound {path : GoString} (before : Files) (s : OutputState) (ready : s.writer = ⟨path, false⟩)
    (msg : ProcessInfo) (io : IoOutcome) :
    ∃ outcome after, Persisted codec resolve io s.files path msg outcome after ∧
      (callsSystem codec resolve path before).step s (msg, io) =
        some ⟨⟨path, false⟩, after, s.persisted ++ if outcome.returns then [msg] else []⟩ := by
  obtain ⟨outcome, after, effect, result⟩ :=
    persistProcessInfo_sound codec resolve s.files io path msg
  refine ⟨outcome, after, effect, ?_⟩
  simp only [callsSystem, ready, result, Option.map_some]
  cases outcome with
  | returned => rfl
  | panicked => simp [Outcome.returns]

/-- A call touches no file but the one that its job id resolves to. -/
theorem Persisted.frame {io : IoOutcome} {path : GoString} {msg : ProcessInfo} {outcome : Outcome} {after : Files}
    (effect : Persisted codec resolve io files path msg outcome after) {q : Location}
    (other : resolve (jobPath path msg) ≠ some q) : after q = files q := by
  cases effect with
  | unreadable => rfl
  | notCreated => rfl
  | @cutShort file b n _ target =>
    have apart : q ≠ file := fun same => other (same ▸ target)
    exact update_of_ne apart ..
  | @written file b _ target =>
    have apart : q ≠ file := fun same => other (same ▸ target)
    exact update_of_ne apart ..

end Ogrt
