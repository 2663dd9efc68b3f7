import Ogrt.Output.JsonFileHistory

namespace Ogrt
open Function

/-- How far a worker is in PersistProcessInfo: outside, after Lock, after Marshal, after
Create, after Close. -/
inductive PersistPhase
  | idle
  | locked (msg : ProcessInfo)
  | marshalled (msg : ProcessInfo) (b : List UInt8)
  | created (msg : ProcessInfo) (b : List UInt8) (file : Option Location)
  | closed (msg : ProcessInfo)

/-- The workers of one output. Each has a writer of its own, with its own mutex. -/
structure WorkersState (workers : Nat) where
  files : Files
  writers : Fin workers → JsonFileOutput
  phases : Fin workers → PersistPhase
  persisted : List ProcessInfo
  crashed : Bool

inductive WorkersLabel (workers : Nat)
  | lock (i : Fin workers) (msg : ProcessInfo)
  | read (i : Fin workers)
  | create (i : Fin workers)
  | write (i : Fin workers)
  | unlock (i : Fin workers)

variable {workers : Nat}

/-- A panic in one worker ends the process. -/
def workersStep (codec : JsonCodec) (resolve : Resolve) (s : WorkersState workers) (label : WorkersLabel workers) :
    Option (WorkersState workers) :=
  if s.crashed then none else
  match label with
  | .lock i msg =>
    match s.phases i with
    | .idle =>
      if (s.writers i).locked then none
      else some { s with
        writers := update s.writers i { s.writers i with locked := true }
        phases := update s.phases i (.locked msg) }
    | _ => none
  | .read i =>
    match s.phases i with
    | .locked msg =>
      match readJob codec (readFile resolve s.files (jobPath (s.writers i).path msg) false) msg with
      | some b => some { s with phases := update s.phases i (.marshalled msg b) }
      | none => some { s with crashed := true }
    | _ => none
  | .create i =>
    match s.phases i with
    | .marshalled msg b =>
      match createFile resolve s.files (jobPath (s.writers i).path msg) false with
      | (file, files) => some { s with files := files, phases := update s.phases i (.created msg b file) }
    | _ => none
  | .write i =>
    match s.phases i with
    | .created msg b file =>
      match writeFile s.files file b none with
      | (true, files) => some { s with files := files, phases := update s.phases i (.closed msg) }
      | (false, _) => some { s with crashed := true }
    | _ => none
  | .unlock i =>
    match s.phases i with
    | .closed msg =>
      some { s with
        writers := update s.writers i { s.writers i with locked := false }
        phases := update s.phases i .idle
        persisted := s.persisted ++ [msg] }
    | _ => none

def workersSystem (codec : JsonCodec) (resolve : Resolve) (path : GoString) (files : Files) (workers : Nat) :
    StepSystem (WorkersState workers) (WorkersLabel workers) where
  init := ⟨files, fun _ => ⟨path, false⟩, fun _ => .idle, [], false⟩
  step := workersStep codec resolve

/-- The steps by what they do; the last one collects the panics. -/
inductive WorkersStep (codec : JsonCodec) (resolve : Resolve) (s : WorkersState workers) :
    WorkersLabel workers → WorkersState workers → Prop
  | lock {i msg} : s.phases i = .idle → (s.writers i).locked = false →
      WorkersStep codec resolve s (.lock i msg) { s with
        writers := update s.writers i { s.writers i with locked := true }
        phases := update s.phases i (.locked msg) }
  | read {i msg b} : s.phases i = .locked msg →
      readJob codec (readFile resolve s.files (jobPath (s.writers i).path msg) false) msg = some b →
      WorkersStep codec resolve s (.read i) { s with phases := update s.phases i (.marshalled msg b) }
  | create {i msg b file files} : s.phases i = .marshalled msg b →
      createFile resolve s.files (jobPath (s.writers i).path msg) false = (file, files) →
      WorkersStep codec resolve s (.create i) { s with
        files := files
        phases := update s.phases i (.created msg b file) }
  | write {i msg b file files} : s.phases i = .created msg b file → writeFile s.files file b none = (true, files) →
      WorkersStep codec resolve s (.write i) { s with files := files, phases := update s.phases i (.closed msg) }
  | unlock {i msg} : s.phases i = .closed msg →
      WorkersStep codec resolve s (.unlock i) { s with
        writers := update s.writers i { s.writers i with locked := false }
        phases := update s.phases i .idle
        persisted := s.persisted ++ [msg] }
  | panic {label} : WorkersStep codec resolve s label { s with crashed := true }

variable {codec : JsonCodec} {resolve : Resolve} {path : GoString} {files : Files}

theorem workersStep_sound {s t : WorkersState workers} {label : WorkersLabel workers}
    (taken : (workersSystem codec resolve path files workers).step s label = some t) :
    WorkersStep codec resolve s label t := by
  change workersStep codec resolve s label = some t at taken
  unfold workersStep at taken
  split at taken
  · cases taken
  cases label with
  | lock i msg =>
    simp only at taken
    split at taken
    · rename_i idle
      split at taken
      · cases taken
      · rename_i free
        cases taken
        exact .lock idle (Bool.eq_false_iff.mpr free)
    · cases taken
  | read i =>
    simp only at taken
    split at taken
    · rename_i held
      split at taken
      · rename_i text
        cases taken
        exact .read held text
      · cases taken
        exact .panic
    · cases taken
  | create i =>
    simp only at taken
    split at taken
    · rename_i marshalled
      cases taken
      exact .create marshalled rfl
    · cases taken
  | write i =>
    simp only at taken
    split at taken
    · rename_i created
      split at taken
      · rename_i written
        cases taken
        exact .write created written
      · cases taken
        exact .panic
    · cases taken
  | unlock i =>
    simp only at taken
    split at taken
    · rename_i closed
      cases taken
      exact .unlock closed
    · cases taken

theorem workersStep_complete {s t : WorkersState workers} {label : WorkersLabel workers}
    (effect : WorkersStep codec resolve s label t) (live : s.crashed = false) (stays : t.crashed = false) :
    (workersSystem codec resolve path files workers).step s label = some t := by
  change workersStep codec resolve s label = some t
  have running : ¬ s.crashed = true := by
    rw [live]
    exact Bool.false_ne_true
  unfold workersStep
  rw [if_neg running]
  cases effect with
  | lock idle free => simp only [idle, free, Bool.false_eq_true, if_false]
  | read held text => simp only [held, text]
  | create marshalled target => simp only [marshalled, target]
  | write created written => simp only [created, written]
  | unlock closed => simp only [closed]
  | panic => cases stays

theorem createFile_resolved {filepath : GoString} {q : Location} (target : resolve filepath = some q) :
    createFile resolve files filepath false = (some q, update files q (some [])) := by
  unfold createFile
  rw [if_neg Bool.false_ne_true, target]

theorem writeFile_created (q : Location) (b : List UInt8) :
    writeFile (update files q (some [])) (some q) b none = (true, update files q (some b)) := by
  unfold writeFile
  dsimp only
  rw [overwriteFile_created]

theorem first_half {s : WorkersState workers} {i : Fin workers} {msg : ProcessInfo} {b : List UInt8}
    (live : s.crashed = false) (idle : s.phases i = .idle) (writer : s.writers i = ⟨path, false⟩)
    (text : readJob codec (readFile resolve s.files (jobPath path msg) false) msg = some b) :
    (workersSystem codec resolve path files workers).run s [.lock i msg, .read i] =
      some { s with
        writers := update s.writers i ⟨path, true⟩
        phases := update s.phases i (.marshalled msg b) } := by
  refine StepSystem.run_cons_eq_some.mpr
    ⟨_, workersStep_complete (.lock idle (by rw [writer])) live live, ?_⟩
  refine StepSystem.run_cons_eq_some.mpr
    ⟨_, workersStep_complete (.read (update_self ..) (by simp only [update_self, writer]; exact text)) live live, ?_⟩
  simp only [StepSystem.run_nil, update_idem, writer]

theorem second_half {s : WorkersState workers} {i : Fin workers} {msg : ProcessInfo} {b : List UInt8} {q : Location}
    (live : s.crashed = false) (marshalled : s.phases i = .marshalled msg b) (writer : s.writers i = ⟨path, true⟩)
    (target : resolve (jobPath path msg) = some q) :
    (workersSystem codec resolve path files workers).run s [.create i, .write i, .unlock i] =
      some { s with
        files := update s.files q (some b)
        writers := update s.writers i ⟨path, false⟩
        phases := update s.phases i .idle
        persisted := s.persisted ++ [msg] } := by
  have created : createFile resolve s.files (jobPath (s.writers i).path msg) false =
      (some q, update s.files q (some [])) := by
    rw [writer]
    exact createFile_resolved target
  refine StepSystem.run_cons_eq_some.mpr ⟨_, workersStep_complete (.create marshalled created) live live, ?_⟩
  refine StepSystem.run_cons_eq_some.mpr
    ⟨_, workersStep_complete (.write (update_self ..) (writeFile_created q b)) live live, ?_⟩
  refine StepSystem.run_cons_eq_some.mpr
    ⟨_, workersStep_complete (.unlock (update_self ..)) live live, ?_⟩
  simp only [StepSystem.run_nil, update_idem, writer]

/-- The five steps of one worker, with no other in between, are a call of PersistProcessInfo. -/
theorem uninterrupted_call {s : WorkersState workers} {i : Fin workers} {msg : ProcessInfo} {after : Files}
    (live : s.crashed = false) (idle : s.phases i = .idle) (writer : s.writers i = ⟨path, false⟩)
    (call : JsonFileOutput.persistProcessInfo codec resolve .ok ⟨path, false⟩ s.files msg =
      some (.returned, ⟨path, false⟩, after)) :
    (workersSystem codec resolve path files workers).run s
        ([.lock i msg, .read i] ++ [.create i, .write i, .unlock i]) =
      some { s with files := after, persisted := s.persisted ++ [msg] } := by
  obtain ⟨outcome, _, effect, same⟩ := persistProcessInfo_sound codec resolve s.files .ok path msg
  cases Option.some.inj (call.symm.trans same)
  cases effect with
  | written _ target _ text =>
    refine StepSystem.run_append_eq_some.mpr ⟨_, first_half live idle writer text,
      (second_half (by exact live) (update_self ..) (update_self ..) target).trans ?_⟩
    simp only [update_idem, ← idle, update_eq_self, ← writer]

/-- A file between calls: untouched, or with the initial records and the messages put into it. -/
structure SettledAt (codec : JsonCodec) (initial content : Option (List UInt8)) (messages : List ProcessInfo) :
    Prop where
  untouched : messages = [] → content = initial
  stored : messages ≠ [] → ∃ json_bytes job, content = some json_bytes ∧ codec.unmarshal json_bytes = some job ∧
    job.processes = initialProcesses codec initial ++ messages.map ProcessInfo.toValidUtf8

/-- A text that adds one message to what a file holds. -/
def AppendsAt (codec : JsonCodec) (initial : Option (List UInt8)) (messages : List ProcessInfo) (msg : ProcessInfo)
    (b : List UInt8) : Prop :=
  ∃ job, codec.unmarshal b = some job ∧
    job.processes = initialProcesses codec initial ++ (messages ++ [msg]).map ProcessInfo.toValidUtf8

theorem SettledAt.readJob {initial content : Option (List UInt8)} {messages : List ProcessInfo} {msg : ProcessInfo}
    {b : List UInt8} (settled : SettledAt codec initial content messages)
    (text : Ogrt.readJob codec content msg = some b) : AppendsAt codec initial messages msg b := by
  unfold Ogrt.readJob at text
  split at text
  · rename_i json_bytes
    obtain ⟨job, read, rfl⟩ := Option.map_eq_some_iff.mp text
    refine ⟨_, unmarshal_appended read msg, ?_⟩
    rw [List.map_append, ← List.append_assoc]
    refine congrArg (· ++ [msg.toValidUtf8]) ?_
    by_cases first : messages = []
    · rw [first, ← settled.untouched first, initialProcesses, Option.bind_some, read]
      simp
    · obtain ⟨bytes, job', same, read', processes⟩ := settled.stored first
      cases same
      cases Option.some.inj (read.symm.trans read')
      exact processes
  · have first : messages = [] := by
      by_contra some
      obtain ⟨bytes, _, present, _⟩ := settled.stored some
      cases present
    cases text
    refine ⟨_, codec.unmarshal_marshal _, ?_⟩
    rw [first, ← settled.untouched first]
    rfl

theorem AppendsAt.settled {initial : Option (List UInt8)} {messages : List ProcessInfo} {msg : ProcessInfo}
    {b : List UInt8} (appends : AppendsAt codec initial messages msg b) :
    SettledAt codec initial (some b) (messages ++ [msg]) := by
  refine ⟨fun nothing => absurd nothing (by simp), fun _ => ?_⟩
  obtain ⟨job, read, processes⟩ := appends
  exact ⟨b, job, rfl, read, processes⟩

/-- Each file that messages have been put into decodes to a job with its initial records and
these messages, each as often as it was persisted. -/
def AllKept (codec : JsonCodec) (resolve : Resolve) (path : GoString) (files : Files) (s : WorkersState workers) :
    Prop :=
  ∀ q, messagesAt resolve path s.persisted q ≠ [] → ∃ json_bytes job, s.files q = some json_bytes ∧
    codec.unmarshal json_bytes = some job ∧
    job.processes.Perm (initialProcesses codec (files q) ++
      (messagesAt resolve path s.persisted q).map ProcessInfo.toValidUtf8)

def Settled (codec : JsonCodec) (resolve : Resolve) (path : GoString) (files : Files) (s : WorkersState workers)
    (q : Location) : Prop :=
  SettledAt codec (files q) (s.files q) (messagesAt resolve path s.persisted q)

def Appends (codec : JsonCodec) (resolve : Resolve) (path : GoString) (files : Files) (s : WorkersState workers)
    (q : Location) (msg : ProcessInfo) (b : List UInt8) : Prop :=
  AppendsAt codec (files q) (messagesAt resolve path s.persisted q) msg b

/-- A worker that has not yet emptied its file holds a text that is still up to date. -/
def Resting (codec : JsonCodec) (resolve : Resolve) (path : GoString) (files : Files) (s : WorkersState workers) :
    PersistPhase → Prop
  | .idle => True
  | .locked _ => True
  | .marshalled msg b => ∀ q, resolve (jobPath path msg) = some q → Appends codec resolve path files s q msg b
  | .created _ _ file => file = none
  | .closed _ => False

/-- The worker has emptied or rewritten its file, and every other file is settled. -/
structure Rewriting (codec : JsonCodec) (resolve : Resolve) (path : GoString) (files : Files)
    (s : WorkersState workers) (i : Fin workers) (q : Location) (msg : ProcessInfo) (b : List UInt8) : Prop where
  target : resolve (jobPath path msg) = some q
  appends : Appends codec resolve path files s q msg b
  others : ∀ p, p ≠ q → Settled codec resolve path files s p
  phase : (s.phases i = .created msg b (some q) ∧ s.files q = some []) ∨
    (s.phases i = .closed msg ∧ s.files q = some b)

structure SingleInv (codec : JsonCodec) (resolve : Resolve) (path : GoString) (files : Files)
    (s : WorkersState workers) : Prop where
  paths : ∀ i, (s.writers i).path = path
  state : ((∀ q, Settled codec resolve path files s q) ∧ ∀ i, Resting codec resolve path files s (s.phases i)) ∨
    ∃ i q msg b, Rewriting codec resolve path files s i q msg b

theorem singleInv_init : SingleInv codec resolve path files (workersSystem codec resolve path files workers).init :=
  ⟨fun _ => rfl, Or.inl ⟨fun _ => ⟨fun _ => rfl, fun some => absurd rfl some⟩, fun _ => trivial⟩⟩

theorem path_update {writers : Fin workers → JsonFileOutput} {writer : JsonFileOutput} {i : Fin workers}
    (paths : ∀ j, (writers j).path = path) (own : writer.path = path) (j : Fin workers) :
    (update writers i writer j).path = path := by
  by_cases same : j = i
  · rw [same, update_self]
    exact own
  · rw [update_of_ne same]
    exact paths j

/-- While the only worker has not come to its file, nothing is being rewritten. -/
theorem SingleInv.before_create [Subsingleton (Fin workers)] {s : WorkersState workers}
    (inv : SingleInv codec resolve path files s) (i : Fin workers)
    (notCreated : ∀ msg b file, s.phases i ≠ .created msg b file) (notClosed : ∀ msg, s.phases i ≠ .closed msg) :
    (∀ q, Settled codec resolve path files s q) ∧ Resting codec resolve path files s (s.phases i) := by
  rcases inv.state with ⟨settled, resting⟩ | ⟨j, q, m, b, rewriting⟩
  · exact ⟨settled, resting i⟩
  · rcases rewriting.phase with ⟨phase, _⟩ | ⟨phase, _⟩
    · rw [Subsingleton.elim j i] at phase
      exact absurd phase (notCreated m b (some q))
    · rw [Subsingleton.elim j i] at phase
      exact absurd phase (notClosed m)

theorem SingleInv.step [Subsingleton (Fin workers)] {s t : WorkersState workers} {label : WorkersLabel workers}
    (inv : SingleInv codec resolve path files s) (taken : WorkersStep codec resolve s label t) :
    SingleInv codec resolve path files t := by
  have alone (j i : Fin workers) : j = i := Subsingleton.elim j i
  cases taken with
  | @lock i msg idle free =>
    have ⟨settled, _⟩ := inv.before_create i (fun _ _ _ => by simp [idle]) (fun _ => by simp [idle])
    refine ⟨path_update inv.paths (inv.paths i), Or.inl ⟨settled, fun j => ?_⟩⟩
    dsimp only
    rw [alone j i, update_self]
    trivial
  | @read i msg b held text =>
    have ⟨settled, _⟩ := inv.before_create i (fun _ _ _ => by simp [held]) (fun _ => by simp [held])
    refine ⟨inv.paths, Or.inl ⟨settled, fun j => ?_⟩⟩
    dsimp only
    rw [alone j i, update_self]
    intro q target
    rw [inv.paths, readFile, if_neg Bool.false_ne_true, target, Option.bind_some] at text
    exact (settled q).readJob text
  | @create i msg b file files' marshalled created =>
    have ⟨settled, appends⟩ := inv.before_create i (fun _ _ _ => by simp [marshalled]) (fun _ => by simp [marshalled])
    rw [marshalled] at appends
    refine ⟨inv.paths, ?_⟩
    cases target : resolve (jobPath path msg) with
    | none =>
      rw [inv.paths, createFile, if_neg Bool.false_ne_true, target] at created
      cases created
      refine Or.inl ⟨settled, fun j => ?_⟩
      dsimp only
      rw [alone j i, update_self]
      rfl
    | some q =>
      rw [inv.paths, createFile_resolved target] at created
      cases created
      refine Or.inr ⟨i, q, msg, b, target, appends q target, fun p apart => ?_, Or.inl ⟨update_self .., update_self ..⟩⟩
      unfold Settled
      dsimp only
      rw [update_of_ne apart]
      exact settled p
  | @write i msg b file files' created written =>
    refine ⟨inv.paths, ?_⟩
    rcases inv.state with ⟨settled, resting⟩ | ⟨j, q, m, b', rewriting⟩
    · have nowhere := resting i
      rw [created] at nowhere
      cases nowhere
      cases written
    · rcases rewriting.phase with ⟨phase, empty⟩ | ⟨phase, _⟩
      · rw [alone j i, created] at phase
        cases phase
        have rewritten : files' = update s.files q (some b) := by
          have emptied : update s.files q (some []) = s.files := by
            rw [← empty, update_eq_self]
          have result : writeFile (update s.files q (some [])) (some q) b none = _ := writeFile_created q b
          rw [emptied, written] at result
          exact (Prod.mk.inj result).2
        subst rewritten
        refine Or.inr ⟨i, q, msg, b, rewriting.target, rewriting.appends, fun p apart => ?_,
          Or.inr ⟨update_self .., update_self ..⟩⟩
        unfold Settled
        dsimp only
        rw [update_of_ne apart]
        exact rewriting.others p apart
      · rw [alone j i, created] at phase
        cases phase
  | @unlock i msg closed =>
    refine ⟨path_update inv.paths (inv.paths i), ?_⟩
    rcases inv.state with ⟨settled, resting⟩ | ⟨j, q, m, b, rewriting⟩
    · have never := resting i
      rw [closed] at never
      exact never.elim
    · rcases rewriting.phase with ⟨phase, _⟩ | ⟨phase, content⟩
      · rw [alone j i, closed] at phase
        cases phase
      · rw [alone j i, closed] at phase
        cases phase
        refine Or.inl ⟨fun p => ?_, fun j => ?_⟩
        · unfold Settled
          dsimp only
          by_cases same : p = q
          · subst same
            rw [content, messagesAt_concat rewriting.target]
            exact AppendsAt.settled rewriting.appends
          · rw [messagesAt_concat_other fun equal => same (Option.some.inj (equal.symm.trans rewriting.target))]
            exact rewriting.others p same
        · dsimp only
          rw [alone j i, update_self]
          trivial
  | panic =>
    refine ⟨inv.paths, ?_⟩
    rcases inv.state with unwritten | ⟨i, q, m, b, rewriting⟩
    · exact Or.inl unwritten
    · exact Or.inr ⟨i, q, m, b, { rewriting with }⟩

theorem allKept_of_single [Subsingleton (Fin workers)] {s : WorkersState workers}
    (reach : (workersSystem codec resolve path files workers).Reachable s) (idle : ∀ i, s.phases i = .idle) :
    AllKept codec resolve path files s := by
  have inv : SingleInv codec resolve path files s :=
    reach.invariant singleInv_init fun inv taken => inv.step (workersStep_sound taken)
  rcases inv.state with ⟨settled, _⟩ | ⟨i, q, msg, b, rewriting⟩
  · intro q some
    obtain ⟨json_bytes, job, content, read, processes⟩ := (settled q).stored some
    exact ⟨json_bytes, job, content, read, processes ▸ List.Perm.refl _⟩
  · rcases rewriting.phase with ⟨phase, _⟩ | ⟨phase, _⟩
    · rw [idle] at phase
      cases phase
    · rw [idle] at phase
      cases phase

/-- Two workers that both read before either writes leave the text that each of them has made. -/
theorem both_read_first {s : WorkersState workers} {i j : Fin workers} {msg : ProcessInfo} {b : List UInt8} {q : Location}
    (apart : i ≠ j) (live : s.crashed = false) (idle : ∀ k, s.phases k = .idle)
    (writers : ∀ k, s.writers k = ⟨path, false⟩) (target : resolve (jobPath path msg) = some q)
    (text : readJob codec (readFile resolve s.files (jobPath path msg) false) msg = some b) :
    ∃ t : WorkersState workers, (workersSystem codec resolve path files workers).run s
        (([WorkersLabel.lock i msg, WorkersLabel.read i] ++ [WorkersLabel.lock j msg, WorkersLabel.read j]) ++
          ([WorkersLabel.create i, WorkersLabel.write i, WorkersLabel.unlock i] ++
            [WorkersLabel.create j, WorkersLabel.write j, WorkersLabel.unlock j])) = some t ∧
      t.crashed = false ∧ (∀ k, t.phases k = .idle) ∧ t.persisted = s.persisted ++ [msg] ++ [msg] ∧ t.files q = some b := by
  obtain ⟨s1, read1, live1, phases1, writers1, files1, persisted1⟩ : ∃ t,
      (workersSystem codec resolve path files workers).run s [.lock i msg, .read i] = some t ∧ t.crashed = false ∧
      t.phases = update s.phases i (.marshalled msg b) ∧ t.writers = update s.writers i ⟨path, true⟩ ∧
      t.files = s.files ∧ t.persisted = s.persisted :=
    ⟨_, first_half live (idle i) (writers i) text, live, rfl, rfl, rfl, rfl⟩
  have idle1 : s1.phases j = .idle := by rw [phases1, update_of_ne apart.symm, idle]
  have writer1 : s1.writers j = ⟨path, false⟩ := by rw [writers1, update_of_ne apart.symm, writers]
  rw [← files1] at text
  obtain ⟨s2, read2, live2, phases2, writers2, persisted2⟩ : ∃ t,
      (workersSystem codec resolve path files workers).run s1 [.lock j msg, .read j] = some t ∧ t.crashed = false ∧
      t.phases = update s1.phases j (.marshalled msg b) ∧ t.writers = update s1.writers j ⟨path, true⟩ ∧
      t.persisted = s1.persisted :=
    ⟨_, first_half live1 idle1 writer1 text, live1, rfl, rfl, rfl⟩
  have phase2 : s2.phases i = .marshalled msg b := by rw [phases2, update_of_ne apart, phases1, update_self]
  have writer2 : s2.writers i = ⟨path, true⟩ := by rw [writers2, update_of_ne apart, writers1, update_self]
  obtain ⟨s3, write1, live3, phases3, writers3, persisted3⟩ : ∃ t,
      (workersSystem codec resolve path files workers).run s2 [.create i, .write i, .unlock i] = some t ∧
      t.crashed = false ∧ t.phases = update s2.phases i .idle ∧ t.writers = update s2.writers i ⟨path, false⟩ ∧
      t.persisted = s2.persisted ++ [msg] :=
    ⟨_, second_half live2 phase2 writer2 target, live2, rfl, rfl, rfl⟩
  have phase3 : s3.phases j = .marshalled msg b := by rw [phases3, update_of_ne apart.symm, phases2, update_self]
  have writer3 : s3.writers j = ⟨path, true⟩ := by rw [writers3, update_of_ne apart.symm, writers2, update_self]
  refine ⟨_, StepSystem.run_append_eq_some.mpr ⟨s2, StepSystem.run_append_eq_some.mpr ⟨s1, read1, read2⟩,
    StepSystem.run_append_eq_some.mpr ⟨s3, write1, second_half live3 phase3 writer3 target⟩⟩, live3, fun k => ?_, ?_,
    update_self ..⟩
  · dsimp only
    by_cases second : k = j
    · rw [second, update_self]
    · rw [update_of_ne second, phases3]
      by_cases first : k = i
      · rw [first, update_self]
      · rw [update_of_ne first, phases2, update_of_ne second, phases1, update_of_ne first, idle]
  · dsimp only
    rw [persisted3, persisted2, persisted1]

/-- Two workers read before either writes: the second rewrites the file from what it has read. -/
theorem lost_update (codec : JsonCodec) {i j : Fin workers} (apart : i ≠ j) :
    ∃ s, (workersSystem codec some [0x2F] (fun _ => none) workers).Reachable s ∧ s.crashed = false ∧
      (∀ k, s.phases k = .idle) ∧ ¬ AllKept codec some [0x2F] (fun _ => none) s := by
  let msg : ProcessInfo :=
    ⟨some [0x61], some 7, some 1, some 5, none, some [0x31], none, none, none, [], [], [], []⟩
  let q := jobPath [0x2F] msg
  let b := codec.marshal ⟨some msg.getJobId, [msg]⟩
  have text : readJob codec (readFile some (fun _ => none) q false) msg = some b := rfl
  let M := workersSystem codec some [0x2F] (fun _ => none) workers
  obtain ⟨s, final, live, idle, persisted, content⟩ :=
    @both_read_first workers codec some [0x2F] (fun _ => none) M.init i j msg b q apart rfl (fun _ => rfl) (fun _ => rfl) rfl
      text
  refine ⟨s, StepSystem.reachable_iff_run.mpr ⟨_, final⟩, live, idle, fun kept => ?_⟩
  have both : messagesAt some [0x2F] s.persisted q = [msg, msg] := by
    rw [persisted]
    simp [messagesAt, q, M, workersSystem]
  obtain ⟨json_bytes, job, same, read, processes⟩ := kept q (by rw [both]; exact List.cons_ne_nil _ _)
  cases Option.some.inj (content.symm.trans same)
  rw [codec.unmarshal_marshal] at read
  cases read
  have count := processes.length_eq
  rw [both] at count
  simp [JobInfo.toValidUtf8, initialProcesses] at count

/-- With one mutex for each worker, no record is lost in any run exactly when the output has
at most one worker. -/
theorem workers_keep_iff (codec : JsonCodec) (workers : Nat) :
    (∀ resolve path files (s : WorkersState workers),
      (workersSystem codec resolve path files workers).Reachable s → s.crashed = false →
      (∀ i, s.phases i = .idle) → AllKept codec resolve path files s) ↔ workers ≤ 1 := by
  constructor
  · intro kept
    by_contra several
    have apart : (⟨0, by omega⟩ : Fin workers) ≠ ⟨1, by omega⟩ := by simp
    obtain ⟨s, reach, live, idle, lost⟩ := lost_update codec apart
    exact lost (kept _ _ _ s reach live idle)
  · intro single resolve path files s reach _ idle
    have : Subsingleton (Fin workers) := Fin.subsingleton_iff_le_one.mpr single
    exact allKept_of_single reach idle

theorem two_workers_lose_a_record :
    ¬ ∀ (codec : JsonCodec) (workers : Nat) (resolve : Resolve) (path : GoString) (files : Files)
      (s : WorkersState workers), (workersSystem codec resolve path files workers).Reachable s →
      s.crashed = false → (∀ i, s.phases i = .idle) → AllKept codec resolve path files s := by
  intro kept
  have apart : (0 : Fin 2) ≠ 1 := by decide
  obtain ⟨s, reach, live, idle, lost⟩ := lost_update goJson apart
  exact lost (kept _ _ _ _ _ s reach live idle)

end Ogrt
