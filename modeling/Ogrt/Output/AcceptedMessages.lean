import Ogrt.Output.JobFiles
import Ogrt.Output.JobPath
import Ogrt.Output.JsonFileHistory

namespace Ogrt
open CleanPath Function

/-- PersistProcessInfo returns with its mutex released when no operation on a file fails. -/
def PersistReturns (codec : JsonCodec) (resolve : Resolve) (s : OutputState) (msg : ProcessInfo) : Prop :=
  ∃ writer files, s.writer.persistProcessInfo codec resolve .ok s.files msg = some (.returned, writer, files) ∧
    writer.locked = false

/-- No content, or one that json.Unmarshal takes for a job. -/
def Readable (codec : JsonCodec) (content : Option (List UInt8)) : Prop :=
  ∀ json_bytes, content = some json_bytes → codec.unmarshal json_bytes ≠ none

/-- The place is the directory or lies at some depth inside it. -/
def Within (path : GoString) (p : Place) : Prop :=
  p.rooted = (place path).rooted ∧ p.ups = (place path).ups ∧ (place path).names <:+ p.names

/-- The output directory exists and is empty. Its file system makes files in it under the names
that it takes for one; the directory itself is no file, and below its entries nothing can be made. -/
structure EmptyDirectory (resolve : Resolve) (files : Files) (path : GoString) (fileName : GoString → Prop) : Prop where
  exists_file : ∀ name, ∀ isName : IsName name,
    (∃ q, resolve ((place path).push name isName).render = some q) ↔ fileName name
  empty : ∀ name, ∀ isName : IsName name, ∀ q, resolve ((place path).push name isName).render = some q → files q = none
  no_file : ∀ p, Within path p → (∀ name isName, p ≠ (place path).push name isName) → resolve p.render = none

variable {codec : JsonCodec} {resolve : Resolve} {path : GoString} {files : Files}

theorem readJob_isSome_iff {content : Option (List UInt8)} {msg : ProcessInfo} :
    (∃ b, readJob codec content msg = some b) ↔ Readable codec content := by
  unfold readJob Readable
  cases content with
  | none => exact iff_of_true ⟨_, rfl⟩ nofun
  | some json_bytes =>
    simp only [Option.map_eq_some_iff, Option.some.injEq, forall_eq', ne_eq]
    rw [← ne_eq, Option.ne_none_iff_exists']
    constructor
    · rintro ⟨_, job, read, _⟩
      exact ⟨job, read⟩
    · rintro ⟨job, read⟩
      exact ⟨_, job, read, rfl⟩

/-- A call on its own returns exactly when its path is that of a file with readable content. -/
theorem persistReturns_iff {s : OutputState} {msg : ProcessInfo} (ready : s.writer = ⟨path, false⟩) :
    PersistReturns codec resolve s msg ↔
      ∃ q, resolve (jobPath path msg) = some q ∧ Readable codec (s.files q) := by
  obtain ⟨outcome, after, effect, result⟩ := persistProcessInfo_sound codec resolve s.files .ok path msg
  have content (q : Location) (target : resolve (jobPath path msg) = some q) :
      readFile resolve s.files (jobPath path msg) IoOutcome.ok.readFails = s.files q := by
    rw [readFile, IoOutcome.ok, if_neg Bool.false_ne_true, target, Option.bind_some]
  unfold PersistReturns
  rw [ready, result]
  cases effect with
  | unreadable found undecodable =>
    refine iff_of_false ?_ ?_
    · rintro ⟨_, _, same, _⟩
      cases same
    · rintro ⟨q, target, readable⟩
      rw [content q target] at found
      exact readable _ found undecodable
  | notCreated failed =>
    refine iff_of_false ?_ ?_
    · rintro ⟨_, _, same, _⟩
      cases same
    · rintro ⟨q, target, _⟩
      rcases failed with failed | failed
      · cases failed
      · rw [target] at failed
        cases failed
  | cutShort _ _ failed => cases failed
  | @written q b _ target _ text =>
    rw [content q target] at text
    exact iff_of_true ⟨_, _, rfl, rfl⟩ ⟨q, target, readJob_isSome_iff.mp ⟨b, text⟩⟩

/-- Every file holds what it held at first, or a job over content that could be read. -/
structure Rewritten (codec : JsonCodec) (path : GoString) (files : Files) (s : OutputState) : Prop where
  ready : s.writer = ⟨path, false⟩
  content : ∀ q, s.files q = files q ∨ (Readable codec (files q) ∧ ∃ job, s.files q = some (codec.marshal job))

theorem Rewritten.readable_iff {s : OutputState} (rewritten : Rewritten codec path files s) (q : Location) :
    Readable codec (s.files q) ↔ Readable codec (files q) := by
  rcases rewritten.content q with same | ⟨readable, job, stored⟩
  · rw [same]
  · refine iff_of_true ?_ readable
    rintro json_bytes same
    rw [stored] at same
    cases same
    rw [codec.unmarshal_marshal]
    exact Option.some_ne_none _

theorem Rewritten.call {s t : OutputState} {msg : ProcessInfo} (rewritten : Rewritten codec path files s)
    (taken : (callsSystem codec resolve path files).step s (msg, .ok) = some t) : Rewritten codec path files t := by
  obtain ⟨outcome, after, effect, same⟩ := call_sound codec resolve files s rewritten.ready msg .ok
  cases Option.some.inj (taken.symm.trans same)
  refine ⟨rfl, fun p => ?_⟩
  cases effect with
  | unreadable => exact rewritten.content p
  | notCreated => exact rewritten.content p
  | cutShort _ _ failed => cases failed
  | @written q b _ target _ text =>
    by_cases own : p = q
    · subst own
      rw [readFile, IoOutcome.ok, if_neg Bool.false_ne_true, target, Option.bind_some] at text
      obtain ⟨job, rfl⟩ := readJob_marshal text
      exact Or.inr ⟨(rewritten.readable_iff p).mp (readJob_isSome_iff.mp ⟨_, text⟩), job, update_self ..⟩
    · dsimp only
      rw [update_of_ne own]
      exact rewritten.content p

theorem rewritten_calls {msgs : List ProcessInfo} {s : OutputState}
    (ran : (callsSystem codec resolve path files).run (callsSystem codec resolve path files).init (callsFor msgs) = some s) :
    Rewritten codec path files s := by
  have start : Rewritten codec path files (callsSystem codec resolve path files).init := ⟨rfl, fun _ => Or.inl rfl⟩
  induction msgs using List.reverseRecOn generalizing s with
  | nil =>
    cases ran
    exact start
  | append_singleton msgs msg ih =>
    rw [callsFor, List.map_append] at ran
    obtain ⟨r, earlier, last⟩ := StepSystem.run_append_eq_some.mp ran
    obtain ⟨t, taken, rest⟩ := StepSystem.run_cons_eq_some.mp last
    cases rest
    exact (ih earlier).call taken

/-- After any earlier messages a call returns exactly when its job id leads to an entry whose
name can be that of a file, or out of the directory to a file whose content can be read. -/
theorem accepted_message_returns_iff (codec : JsonCodec) (resolve : Resolve) (files : Files) (path : GoString)
    (fileName : GoString → Prop) (nonempty : path ≠ []) (directory : EmptyDirectory resolve files path fileName)
    (earlier : List ProcessInfo) (s : OutputState)
    (ran : (callsSystem codec resolve path files).run (callsSystem codec resolve path files).init (callsFor earlier) =
      some s) (msg : ProcessInfo) :
    PersistReturns codec resolve s msg ↔
      (∃ name, LeadsTo path msg.getJobId name ∧ fileName name) ∨
        (¬ Within path ((place path).follow (relative msg.getJobId)) ∧
          ∃ q, resolve ((place path).follow (relative msg.getJobId)).render = some q ∧ Readable codec (files q)) := by
  have rewritten := rewritten_calls ran
  have filepath : jobPath path msg = ((place path).follow (relative msg.getJobId)).render := join_eq_render nonempty _
  have entry {name : GoString} (leads : LeadsTo path msg.getJobId name) :
      (place path).follow (relative msg.getJobId) = (place path).push name leads.isName :=
    follow_eq_push_iff.mpr ⟨leads.down, leads.up⟩
  rw [persistReturns_iff rewritten.ready, filepath]
  constructor
  · rintro ⟨q, target, readable⟩
    rw [rewritten.readable_iff] at readable
    by_cases within : Within path ((place path).follow (relative msg.getJobId))
    · by_cases leads : ∃ name, LeadsTo path msg.getJobId name
      · obtain ⟨name, leads⟩ := leads
        rw [entry leads] at target
        exact Or.inl ⟨name, leads, (directory.exists_file name leads.isName).mp ⟨q, target⟩⟩
      · have noFile := directory.no_file _ within fun name isName same => leads
          ⟨name, (follow_eq_push_iff.mp same).1, (follow_eq_push_iff.mp same).2⟩
        cases noFile.symm.trans target
    · exact Or.inr ⟨within, q, target, readable⟩
  · rintro (⟨name, leads, accepted⟩ | ⟨_, q, target, readable⟩)
    · obtain ⟨q, target⟩ := (directory.exists_file name leads.isName).mpr accepted
      refine ⟨q, by rw [entry leads]; exact target, (rewritten.readable_iff q).mpr ?_⟩
      rw [directory.empty name leads.isName q target]
      exact nofun
    · exact ⟨q, target, (rewritten.readable_iff q).mpr readable⟩

/-- The usual names of files. -/
def LinuxName (name : GoString) : Prop := name.length ≤ 255 ∧ 0 ∉ name

instance (name : GoString) : Decidable (LinuxName name) := inferInstanceAs (Decidable (_ ∧ _))

/-- A file system with files in the output directory only. -/
def onlyInside (path : GoString) : Resolve := fun filepath =>
  match (place filepath).names with
  | [] => none
  | name :: rest =>
    if (place filepath).rooted = (place path).rooted ∧ (place filepath).ups = (place path).ups ∧
      rest = (place path).names ∧ LinuxName name then some filepath else none

theorem onlyInside_emptyDirectory (path : GoString) :
    EmptyDirectory (onlyInside path) (fun _ => none) path LinuxName where
  exists_file name isName := by
    unfold onlyInside
    simp only [place_render, Place.push_names, Place.push_rooted, Place.push_ups, true_and]
    split
    · rename_i linux
      exact iff_of_true ⟨_, rfl⟩ linux
    · rename_i other
      refine iff_of_false ?_ other
      rintro ⟨_, target⟩
      cases target
  empty _ _ _ _ := rfl
  no_file p _ notEntry := by
    unfold onlyInside
    rw [place_render]
    split
    · rfl
    · rename_i name rest names
      refine if_neg ?_
      rintro ⟨top, level, below, _⟩
      have isName := p.isName name (names ▸ List.mem_cons_self)
      exact notEntry name isName (Place.ext top level (names.trans (congrArg (name :: ·) below)))

/-- After the reports of two jobs and one without a job id between them, over which the server was
started anew, comes another one of the first job. -/
theorem accepted_message_returns_iff_later :
    ∃ s, (callsSystem goJson (onlyInside [0x6F, 0x75, 0x74]) [0x6F, 0x75, 0x74] fun _ => none).run
        (callsSystem goJson (onlyInside [0x6F, 0x75, 0x74]) [0x6F, 0x75, 0x74] fun _ => none).init
        (callsFor [reportFor [0x31], reportFor [], reportFor [0x32]]) = some s ∧
      s.persisted = [reportFor [0x31], reportFor [0x32]] ∧
      (PersistReturns goJson (onlyInside [0x6F, 0x75, 0x74]) s (reportFor [0x31]) ↔
        (∃ name, LeadsTo [0x6F, 0x75, 0x74] [0x31] name ∧ LinuxName name) ∨
          (¬ Within [0x6F, 0x75, 0x74] ((place [0x6F, 0x75, 0x74]).follow (relative [0x31])) ∧
            ∃ q, onlyInside [0x6F, 0x75, 0x74] ((place [0x6F, 0x75, 0x74]).follow (relative [0x31])).render = some q ∧
              Readable goJson none)) := by
  have ran : ((callsSystem goJson (onlyInside [0x6F, 0x75, 0x74]) [0x6F, 0x75, 0x74] fun _ => none).run
      (callsSystem goJson (onlyInside [0x6F, 0x75, 0x74]) [0x6F, 0x75, 0x74] fun _ => none).init
      (callsFor [reportFor [0x31], reportFor [], reportFor [0x32]])).map (·.persisted) =
        some [reportFor [0x31], reportFor [0x32]] := by
    decide +kernel
  obtain ⟨s, final, persisted⟩ := Option.map_eq_some_iff.mp ran
  exact ⟨s, final, persisted, accepted_message_returns_iff goJson (onlyInside [0x6F, 0x75, 0x74]) (fun _ => none)
    [0x6F, 0x75, 0x74] LinuxName (by decide) (onlyInside_emptyDirectory _)
    [reportFor [0x31], reportFor [], reportFor [0x32]] s final (reportFor [0x31])⟩

/-- A message without a job id makes the path that of the directory itself. -/
theorem message_without_job_panics :
    ¬ ∀ (codec : JsonCodec) (resolve : Resolve) (files : Files) (path : GoString) (fileName : GoString → Prop),
      path ≠ [] → EmptyDirectory resolve files path fileName → ∀ (earlier : List ProcessInfo) (s : OutputState),
      (callsSystem codec resolve path files).run (callsSystem codec resolve path files).init (callsFor earlier) = some s →
      ∀ msg : ProcessInfo, msg.hasRequired → PersistReturns codec resolve s msg := by
  intro returns
  let msg := { reportFor [] with jobId := none }
  have call := returns goJson (onlyInside [0x6F, 0x75, 0x74]) (fun _ => none) [0x6F, 0x75, 0x74] LinuxName (by decide)
    (onlyInside_emptyDirectory _) [] _ rfl msg (by decide)
  obtain ⟨q, target, _⟩ := (persistReturns_iff rfl).mp call
  have noFile : onlyInside [0x6F, 0x75, 0x74] (jobPath [0x6F, 0x75, 0x74] msg) = none := by decide
  cases noFile.symm.trans target

end Ogrt
