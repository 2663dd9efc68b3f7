import Ogrt.Output.JsonFile

namespace Ogrt
open Function

variable {codec : JsonCodec} {resolve : Resolve} {path : GoString} {files : Files}

theorem ProcessInfo.getJobId_toValidUtf8 (msg : ProcessInfo) :
    msg.toValidUtf8.getJobId = Utf8.toValidUtf8 msg.getJobId := by
  unfold ProcessInfo.getJobId ProcessInfo.toValidUtf8
  cases msg.jobId with
  | none => rfl
  | some id => rfl

/-- The path depends on the job id alone. -/
theorem jobPath_congr {msg other : ProcessInfo} (same : msg.getJobId = other.getJobId) :
    jobPath path msg = jobPath path other := congrArg (CleanPath.join path) same

def sameJob (done : List ProcessInfo) (msg : ProcessInfo) : List ProcessInfo :=
  done.filter (·.getJobId = msg.getJobId)

/-- The directory after the calls for these messages. -/
structure JobFiles (codec : JsonCodec) (resolve : Resolve) (path : GoString) (files : Files)
    (done : List ProcessInfo) (s : OutputState) : Prop where
  ready : s.writer = ⟨path, false⟩
  returned : s.persisted = done
  stored : ∀ msg ∈ done, ∃ q json_bytes, resolve (jobPath path msg) = some q ∧ s.files q = some json_bytes ∧
    codec.unmarshal json_bytes = some ⟨some msg.getJobId, sameJob done msg⟩
  others : ∀ q, (∀ msg ∈ done, resolve (jobPath path msg) ≠ some q) → s.files q = files q

theorem JobFiles.readJob {done : List ProcessInfo} {s : OutputState} {msg : ProcessInfo} {q : Location}
    (inv : JobFiles codec resolve path files done s) (target : resolve (jobPath path msg) = some q)
    (absent : files q = none)
    (distinct : ∀ m ∈ done, resolve (jobPath path m) = some q → m.getJobId = msg.getJobId) :
    Ogrt.readJob codec (readFile resolve s.files (jobPath path msg) false) msg =
      some (codec.marshal ⟨some msg.getJobId, sameJob done msg ++ [msg]⟩) := by
  have content : readFile resolve s.files (jobPath path msg) false = s.files q := by
    rw [readFile, if_neg Bool.false_ne_true, target, Option.bind_some]
  rw [content]
  by_cases first : ∀ m ∈ done, resolve (jobPath path m) ≠ some q
  · have nothing : sameJob done msg = [] := by
      unfold sameJob
      rw [List.filter_eq_nil_iff]
      intro m member same
      rw [decide_eq_true_eq] at same
      exact first m member (jobPath_congr same ▸ target)
    rw [inv.others q first, absent, nothing]
    rfl
  · simp only [not_forall, not_not] at first
    obtain ⟨m, member, atSame⟩ := first
    obtain ⟨q', json_bytes, target', found, read⟩ := inv.stored m member
    have same := distinct m member atSame
    have file : q' = q := Option.some.inj (target'.symm.trans atSame)
    rw [← file, found]
    unfold Ogrt.readJob
    simp only [read, Option.map_some, sameJob, same]

theorem sameJob_concat {done : List ProcessInfo} {msg other : ProcessInfo} (same : other.getJobId = msg.getJobId) :
    sameJob (done ++ [msg]) other = sameJob done msg ++ [msg] := by
  unfold sameJob
  rw [List.filter_append, List.filter_singleton]
  simp [same]

theorem sameJob_concat_other {done : List ProcessInfo} {msg other : ProcessInfo}
    (apart : other.getJobId ≠ msg.getJobId) : sameJob (done ++ [msg]) other = sameJob done other := by
  unfold sameJob
  rw [List.filter_append, List.filter_singleton]
  simp [Ne.symm apart]

/-- With valid strings JSON gives back what was marshalled. -/
theorem unmarshal_marshal_valid {msg : ProcessInfo} {processes : List ProcessInfo}
    (own : msg.toValidUtf8 = msg) (valid : ∀ m ∈ processes, m.toValidUtf8 = m) :
    codec.unmarshal (codec.marshal ⟨some msg.getJobId, processes⟩) = some ⟨some msg.getJobId, processes⟩ := by
  have id : Utf8.toValidUtf8 msg.getJobId = msg.getJobId := by
    rw [← ProcessInfo.getJobId_toValidUtf8, own]
  have same : processes.map ProcessInfo.toValidUtf8 = processes := map_eq_self valid
  rw [codec.unmarshal_marshal]
  simp only [JobInfo.toValidUtf8, Option.map_some, id, same]

/-- With no I/O error and a file that can be decoded, a call writes the new text. -/
theorem call_writes {s : OutputState} {msg : ProcessInfo} {q : Location} {b : List UInt8}
    (ready : s.writer = ⟨path, false⟩) (target : resolve (jobPath path msg) = some q)
    (text : Ogrt.readJob codec (readFile resolve s.files (jobPath path msg) false) msg = some b) :
    (callsSystem codec resolve path files).step s (msg, .ok) =
      some ⟨⟨path, false⟩, update s.files q (some b), s.persisted ++ [msg]⟩ := by
  obtain ⟨outcome, after, effect, taken⟩ := call_sound codec resolve files s ready msg .ok
  rw [taken]
  cases effect with
  | unreadable found undecodable =>
    rw [IoOutcome.ok] at found
    rw [found] at text
    simp only [Ogrt.readJob, undecodable] at text
    cases text
  | notCreated failed =>
    rcases failed with failed | failed
    · cases failed
    · rw [target] at failed
      cases failed
  | cutShort _ _ failed => cases failed
  | written _ target' _ text' =>
    cases Option.some.inj (target.symm.trans target')
    cases Option.some.inj (text.symm.trans text')
    rfl

theorem JobFiles.call {done : List ProcessInfo} {s : OutputState} {msg : ProcessInfo} {q : Location}
    (inv : JobFiles codec resolve path files done s) (target : resolve (jobPath path msg) = some q)
    (absent : files q = none)
    (distinct : ∀ m ∈ done, resolve (jobPath path m) = some q → m.getJobId = msg.getJobId)
    (valid : ∀ m ∈ done ++ [msg], m.toValidUtf8 = m) :
    ∃ t, (callsSystem codec resolve path files).step s (msg, .ok) = some t ∧
      JobFiles codec resolve path files (done ++ [msg]) t := by
  refine ⟨_, call_writes inv.ready target (inv.readJob target absent distinct), rfl,
    congrArg (· ++ [msg]) inv.returned, fun m member => ?_, fun q' apart => ?_⟩
  · by_cases same : m.getJobId = msg.getJobId
    · refine ⟨q, _, jobPath_congr same ▸ target, update_self .., ?_⟩
      rw [same, sameJob_concat same]
      refine unmarshal_marshal_valid (valid msg (by simp)) fun n listed => valid n ?_
      rw [← sameJob_concat rfl] at listed
      exact List.mem_of_mem_filter listed
    · have old : m ∈ done := by
        rcases List.mem_append.mp member with old | new
        · exact old
        · exact absurd (congrArg ProcessInfo.getJobId (List.mem_singleton.mp new)) same
      obtain ⟨q', json_bytes, target', found, stored⟩ := inv.stored m old
      have other : q' ≠ q := fun equal => same (distinct m old (equal ▸ target'))
      refine ⟨q', json_bytes, target', ?_, by rw [sameJob_concat_other same]; exact stored⟩
      dsimp only
      rw [update_of_ne other]
      exact found
  · have other : q' ≠ q := fun equal => apart msg (by simp) (equal ▸ target)
    dsimp only
    rw [update_of_ne other]
    exact inv.others q' fun m member => apart m (List.mem_append_left _ member)

/-- The calls for these messages, without an I/O error. -/
def callsFor (msgs : List ProcessInfo) : List (ProcessInfo × IoOutcome) := msgs.map fun msg => (msg, .ok)

theorem JobFiles.calls {done msgs : List ProcessInfo} {s : OutputState}
    (inv : JobFiles codec resolve path files done s)
    (resolves : ∀ msg ∈ msgs, ∃ q, files q = none ∧ resolve (jobPath path msg) = some q)
    (distinct : ∀ m ∈ done ++ msgs, ∀ n ∈ msgs, resolve (jobPath path m) = resolve (jobPath path n) →
      m.getJobId = n.getJobId)
    (valid : ∀ m ∈ done ++ msgs, m.toValidUtf8 = m) :
    ∃ t, (callsSystem codec resolve path files).run s (callsFor msgs) = some t ∧
      JobFiles codec resolve path files (done ++ msgs) t := by
  induction msgs generalizing done s with
  | nil => exact ⟨s, rfl, by rwa [List.append_nil]⟩
  | cons msg rest ih =>
    obtain ⟨q, absent, target⟩ := resolves msg (List.mem_cons_self ..)
    have split : done ++ msg :: rest = (done ++ [msg]) ++ rest := by simp
    obtain ⟨t, taken, next⟩ := inv.call target absent
      (fun m member same => distinct m (List.mem_append_left _ member) msg (List.mem_cons_self ..)
        (same.trans target.symm))
      (fun m member => valid m (split ▸ List.mem_append_left _ member))
    obtain ⟨u, ran, last⟩ := ih next (fun m member => resolves m (List.mem_cons_of_mem _ member))
      (fun m member n later => distinct m (split ▸ member) n (List.mem_cons_of_mem _ later)) (split ▸ valid)
    exact ⟨u, StepSystem.run_cons_eq_some.mpr ⟨t, taken, ran⟩, split ▸ last⟩

/-- From an empty directory, calls whose job ids resolve to its entries, each to its own,
all return and leave for each job the file with its messages in call order, and no other
file; a call changes the file of its own job only. -/
theorem job_files_hold_calls (codec : JsonCodec) (resolve : Resolve) (path : GoString) (files : Files)
    (entries : Location → Prop) (empty : ∀ q, entries q → files q = none) (msgs : List ProcessInfo)
    (inside : ∀ msg ∈ msgs, ∃ q, entries q ∧ resolve (jobPath path msg) = some q)
    (distinct : ∀ m ∈ msgs, ∀ n ∈ msgs, resolve (jobPath path m) = resolve (jobPath path n) →
      m.getJobId = n.getJobId)
    (valid : ∀ msg ∈ msgs, ∀ s ∈ msg.strings, Utf8.Valid s) :
    ∃ t, (callsSystem codec resolve path files).run (callsSystem codec resolve path files).init (callsFor msgs) =
        some t ∧
      JobFiles codec resolve path files msgs t ∧
      (∀ q, entries q → (∀ msg ∈ msgs, resolve (jobPath path msg) ≠ some q) → t.files q = none) ∧
      ∀ before msg after, msgs = before ++ msg :: after →
        ∃ u v, (callsSystem codec resolve path files).run (callsSystem codec resolve path files).init
            (callsFor before) = some u ∧
          (callsSystem codec resolve path files).step u (msg, .ok) = some v ∧
          ∀ q, resolve (jobPath path msg) ≠ some q → v.files q = u.files q := by
  have start : JobFiles codec resolve path files [] (callsSystem codec resolve path files).init :=
    ⟨rfl, rfl, fun _ member => absurd member List.not_mem_nil, fun _ _ => rfl⟩
  have absent (msg : ProcessInfo) (member : msg ∈ msgs) :
      ∃ q, files q = none ∧ resolve (jobPath path msg) = some q := by
    obtain ⟨q, entry, target⟩ := inside msg member
    exact ⟨q, empty q entry, target⟩
  have coerced (msg : ProcessInfo) (member : msg ∈ msgs) : msg.toValidUtf8 = msg :=
    ProcessInfo.toValidUtf8_eq_self (valid msg member)
  obtain ⟨t, ran, stored⟩ := start.calls absent distinct coerced
  refine ⟨t, ran, stored, fun q entry apart => (stored.others q apart).trans (empty q entry), ?_⟩
  rintro before msg after rfl
  have part (m : ProcessInfo) (member : m ∈ before) : m ∈ before ++ msg :: after := List.mem_append_left _ member
  obtain ⟨u, ranBefore, reached⟩ := start.calls (fun m member => absent m (part m member))
    (fun m member n later => distinct m (part m member) n (part n later)) (fun m member => coerced m (part m member))
  obtain ⟨outcome, written, effect, taken⟩ :=
    call_sound codec resolve files u reached.ready msg .ok
  exact ⟨u, _, ranBefore, taken, fun q other => effect.frame other⟩

/-- Three calls for two jobs in "/out". -/
theorem job_files_hold_calls_two_jobs :
    ∃ msgs t, msgs.length = 3 ∧ (msgs.map ProcessInfo.getJobId).dedup.length = 2 ∧
      (callsSystem goJson some [0x2F, 0x6F, 0x75, 0x74] fun _ => none).run
        (callsSystem goJson some [0x2F, 0x6F, 0x75, 0x74] fun _ => none).init (callsFor msgs) = some t ∧
      JobFiles goJson some [0x2F, 0x6F, 0x75, 0x74] (fun _ => none) msgs t := by
  let report (pid : Int32) (job : GoString) : ProcessInfo :=
    ⟨some [0x61], some pid, some 1, some 5, none, some job, none, none, none, [], [], [], []⟩
  let msgs := [report 7 [0x31], report 8 [0x32], report 9 [0x31]]
  have valid : ∀ msg ∈ msgs, ∀ s ∈ msg.strings, Utf8.toValidUtf8 s = s := by decide
  obtain ⟨t, ran, stored, _⟩ := job_files_hold_calls goJson some [0x2F, 0x6F, 0x75, 0x74] (fun _ => none)
    (fun _ => True) (fun _ _ => rfl) msgs (fun msg _ => ⟨_, trivial, rfl⟩) (by decide)
    (fun msg member s inside => Utf8.toValidUtf8_eq_self_iff.mp (valid msg member s inside))
  exact ⟨msgs, t, rfl, by decide, ran, stored⟩

end Ogrt
