import Ogrt.Output.JsonFile

namespace Ogrt
open Function

variable {codec : JsonCodec} {resolve : Resolve} {path : GoString}

/-- The messages that calls have put into one file. -/
def messagesAt (resolve : Resolve) (path : GoString) (log : List ProcessInfo) (q : Location) : List ProcessInfo :=
  log.filter fun msg => resolve (jobPath path msg) = some q

theorem messagesAt_concat {log : List ProcessInfo} {msg : ProcessInfo} {q : Location}
    (target : resolve (jobPath path msg) = some q) :
    messagesAt resolve path (log ++ [msg]) q = messagesAt resolve path log q ++ [msg] := by
  unfold messagesAt
  rw [List.filter_append, List.filter_singleton]
  simp [target]

theorem messagesAt_concat_other {log : List ProcessInfo} {msg : ProcessInfo} {q : Location}
    (other : resolve (jobPath path msg) ≠ some q) :
    messagesAt resolve path (log ++ [msg]) q = messagesAt resolve path log q := by
  unfold messagesAt
  rw [List.filter_append, List.filter_singleton]
  simp [other]

/-- The records that a file held before the first call. -/
def initialProcesses (codec : JsonCodec) (initial : Option (List UInt8)) : List ProcessInfo :=
  ((initial.bind codec.unmarshal).map JobInfo.processes).getD []

theorem initialProcesses_job {json_bytes : List UInt8} {job : JobInfo} (read : codec.unmarshal json_bytes = some job) :
    initialProcesses codec (some json_bytes) = job.processes := by
  rw [initialProcesses, Option.bind_some, read]
  rfl

/-- The records that a file should hold: those that were in it at first and those of the calls. -/
def recordsAt (codec : JsonCodec) (resolve : Resolve) (path : GoString) (files : Files) (log : List ProcessInfo)
    (q : Location) : List ProcessInfo :=
  initialProcesses codec (files q) ++ messagesAt resolve path log q

theorem recordsAt_concat {files : Files} {log : List ProcessInfo} {msg : ProcessInfo} {q : Location}
    (target : resolve (jobPath path msg) = some q) :
    recordsAt codec resolve path files (log ++ [msg]) q = recordsAt codec resolve path files log q ++ [msg] := by
  rw [recordsAt, recordsAt, messagesAt_concat target, List.append_assoc]

theorem recordsAt_concat_other {files : Files} {log : List ProcessInfo} {msg : ProcessInfo} {q : Location}
    (other : resolve (jobPath path msg) ≠ some q) :
    recordsAt codec resolve path files (log ++ [msg]) q = recordsAt codec resolve path files log q := by
  rw [recordsAt, recordsAt, messagesAt_concat_other other]

/-- A file with records decodes to a job that contains them. -/
def KeptAt (codec : JsonCodec) (content : Option (List UInt8)) (records : List ProcessInfo) : Prop :=
  records ≠ [] → ∃ json_bytes job, content = some json_bytes ∧ codec.unmarshal json_bytes = some job ∧
    (records.map ProcessInfo.toValidUtf8).Sublist job.processes

def Kept (codec : JsonCodec) (resolve : Resolve) (path : GoString) (files : Files) (s : OutputState) : Prop :=
  ∀ q, KeptAt codec (s.files q) (recordsAt codec resolve path files s.persisted q)

/-- The call does not reach Create's truncation, or there is nothing to lose in the file, or
both the read before it and the write after it succeed. -/
def SafeCall (codec : JsonCodec) (resolve : Resolve) (path : GoString) (files : Files) (s : OutputState)
    (call : ProcessInfo × IoOutcome) : Prop :=
  call.2.createFails = true ∨
  (∀ q, resolve (jobPath path call.1) = some q → recordsAt codec resolve path files s.persisted q = []) ∨
  (call.2.readFails = false ∧ call.2.writeFails = none)

/-- Records that were decoded hold valid texts. -/
theorem kept_init (codec : JsonCodec) (resolve : Resolve) (path : GoString) (files : Files) :
    Kept codec resolve path files (callsSystem codec resolve path files).init := by
  intro q some_records
  rw [recordsAt, show messagesAt resolve path (callsSystem codec resolve path files).init.persisted q = [] from rfl,
    List.append_nil] at some_records ⊢
  show ∃ json_bytes job, files q = some json_bytes ∧ _
  cases content : files q with
  | none =>
    rw [content] at some_records
    exact absurd rfl some_records
  | some json_bytes =>
    rw [content] at some_records
    cases read : codec.unmarshal json_bytes with
    | none =>
      rw [initialProcesses, Option.bind_some, read] at some_records
      exact absurd rfl some_records
    | some job =>
      refine ⟨json_bytes, job, rfl, read, ?_⟩
      have valid := congrArg JobInfo.processes (codec.unmarshal_valid _ _ read)
      rw [initialProcesses_job read, show job.processes.map ProcessInfo.toValidUtf8 = job.processes from valid]

theorem readJob_marshal {content : Option (List UInt8)} {msg : ProcessInfo} {b : List UInt8}
    (text : readJob codec content msg = some b) : ∃ job, b = codec.marshal job := by
  unfold readJob at text
  split at text
  · obtain ⟨job, _, rfl⟩ := Option.map_eq_some_iff.mp text
    exact ⟨_, rfl⟩
  · exact ⟨_, (Option.some.inj text).symm⟩

theorem unmarshal_cutShort (job : JobInfo) (n : Nat) :
    codec.unmarshal ((codec.marshal job).take (min n ((codec.marshal job).length - 1))) = none := by
  have some := List.length_pos_iff.mpr (codec.marshal_ne_nil job)
  refine codec.unmarshal_short job _ (List.take_prefix ..) fun whole => ?_
  have count := congrArg List.length whole
  rw [List.length_take] at count
  omega

/-- What is read back after the message has been appended to what was read. -/
theorem unmarshal_appended {json_bytes : List UInt8} {job : JobInfo} (read : codec.unmarshal json_bytes = some job)
    (msg : ProcessInfo) : codec.unmarshal (codec.marshal { job with processes := job.processes ++ [msg] }) =
      some { job with processes := job.processes ++ [msg.toValidUtf8] } := by
  have valid := codec.unmarshal_valid _ _ read
  obtain ⟨id, processes⟩ := job
  simp only [JobInfo.toValidUtf8, JobInfo.mk.injEq] at valid
  rw [codec.unmarshal_marshal]
  simp only [JobInfo.toValidUtf8, List.map_append, List.map_cons, List.map_nil, valid.1, valid.2]

theorem keptAt_readJob {content : Option (List UInt8)} {messages : List ProcessInfo} {msg : ProcessInfo}
    {b : List UInt8} (kept : KeptAt codec content messages) (text : readJob codec content msg = some b) :
    KeptAt codec (some b) (messages ++ [msg]) := by
  intro _
  unfold readJob at text
  split at text
  · obtain ⟨job, read, rfl⟩ := Option.map_eq_some_iff.mp text
    refine ⟨_, _, rfl, unmarshal_appended read msg, ?_⟩
    rw [List.map_append]
    refine List.Sublist.append ?_ (List.Sublist.refl _)
    by_cases first : messages = []
    · rw [first]
      exact List.nil_sublist _
    · obtain ⟨json_bytes, job', same, read', contains⟩ := kept first
      cases same
      cases Option.some.inj (read.symm.trans read')
      exact contains
  · have first : messages = [] := by
      by_contra some
      obtain ⟨json_bytes, _, present, _⟩ := kept some
      cases present
    cases text
    rw [first]
    exact ⟨_, _, rfl, codec.unmarshal_marshal _, List.Sublist.refl _⟩

/-- A call that starts a new job over an old file keeps only what was never there. -/
theorem keptAt_newJob {messages : List ProcessInfo} {msg : ProcessInfo} {b : List UInt8}
    (text : readJob codec none msg = some b) : KeptAt codec (some b) (messages ++ [msg]) ↔ messages = [] := by
  cases text
  constructor
  · intro kept
    obtain ⟨json_bytes, job, same, read, contains⟩ := kept (by simp)
    cases same
    rw [codec.unmarshal_marshal] at read
    cases read
    have count := contains.length_le
    simp only [JobInfo.toValidUtf8, List.length_map, List.length_append, List.length_singleton] at count
    exact List.eq_nil_of_length_eq_zero (by omega)
  · rintro rfl _
    exact ⟨_, _, rfl, codec.unmarshal_marshal _, List.Sublist.refl _⟩

/-- Only the file of the call decides. -/
theorem kept_update {files : Files} {s : OutputState} {writer : JsonFileOutput} {log : List ProcessInfo} {q : Location}
    {content : Option (List UInt8)} (kept : Kept codec resolve path files s)
    (others : ∀ p, p ≠ q → recordsAt codec resolve path files log p = recordsAt codec resolve path files s.persisted p) :
    Kept codec resolve path files ⟨writer, update s.files q content, log⟩ ↔
      KeptAt codec content (recordsAt codec resolve path files log q) := by
  constructor
  · intro after
    have own := after q
    dsimp only at own
    rwa [update_self] at own
  · intro own p
    by_cases same : p = q
    · subst same
      dsimp only
      rwa [update_self]
    · dsimp only
      rw [update_of_ne same, others p same]
      exact kept p

theorem kept_call_iff {files : Files} {s t : OutputState} {call : ProcessInfo × IoOutcome}
    (ready : s.writer = ⟨path, false⟩) (kept : Kept codec resolve path files s)
    (taken : (callsSystem codec resolve path files).step s call = some t) :
    Kept codec resolve path files t ↔ SafeCall codec resolve path files s call := by
  obtain ⟨msg, io⟩ := call
  obtain ⟨outcome, after, effect, same⟩ := call_sound codec resolve files s ready msg io
  cases Option.some.inj (taken.symm.trans same)
  unfold SafeCall
  dsimp only
  have unchanged : s.persisted ++ (if Outcome.panicked.returns then [msg] else []) = s.persisted := List.append_nil _
  cases effect with
  | @unreadable json_bytes found undecodable =>
    rw [unchanged]
    refine iff_of_true kept (Or.inr (Or.inl fun q target => ?_))
    unfold readFile at found
    split at found
    · cases found
    rw [target, Option.bind_some] at found
    by_contra some
    obtain ⟨bytes, job, same, read, _⟩ := kept q some
    cases Option.some.inj (found.symm.trans same)
    rw [undecodable] at read
    cases read
  | notCreated failed =>
    rw [unchanged]
    refine iff_of_true kept (failed.imp_right fun nowhere => Or.inl fun q target => ?_)
    rw [nowhere] at target
    cases target
  | @cutShort q b n created target failed text =>
    obtain ⟨job, rfl⟩ := readJob_marshal text
    rw [unchanged, kept_update kept fun _ _ => rfl, created, target, failed]
    simp only [Bool.false_eq_true, false_or, reduceCtorEq, and_false, or_false, Option.some.injEq, forall_eq']
    constructor
    · intro after
      by_contra some
      obtain ⟨bytes, job', same, read, _⟩ := after some
      cases same
      rw [unmarshal_cutShort] at read
      cases read
    · exact fun nothing some => absurd nothing some
  | @written q b created target complete text =>
    have others (p : Location) (apart : p ≠ q) : recordsAt codec resolve path files (s.persisted ++ [msg]) p =
        recordsAt codec resolve path files s.persisted p :=
      recordsAt_concat_other fun same => apart (Option.some.inj (target.symm.trans same)).symm
    have appended : s.persisted ++ (if Outcome.returned.returns then [msg] else []) = s.persisted ++ [msg] := rfl
    rw [appended, kept_update kept others, recordsAt_concat target]
    cases failed : io.readFails with
    | false =>
      rw [readFile, failed, if_neg Bool.false_ne_true, target, Option.bind_some] at text
      exact iff_of_true (keptAt_readJob (kept q) text) (Or.inr (Or.inr ⟨rfl, complete⟩))
    | true =>
      rw [readFile, failed, if_pos rfl] at text
      rw [keptAt_newJob text, created, target]
      simp

theorem call_ready {files : Files} {s t : OutputState} {call : ProcessInfo × IoOutcome}
    (ready : s.writer = ⟨path, false⟩) (taken : (callsSystem codec resolve path files).step s call = some t) :
    t.writer = ⟨path, false⟩ := by
  obtain ⟨outcome, after, _, same⟩ := call_sound codec resolve files s ready call.1 call.2
  cases Option.some.inj (taken.symm.trans same)
  rfl

end Ogrt
