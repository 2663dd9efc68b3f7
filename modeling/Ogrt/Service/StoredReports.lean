import Ogrt.Output.JobFiles
import Ogrt.Service.Delivered

namespace Ogrt
open Function

variable {protobuf : Protobuf} {maxReceiveBuffer : UInt32} {config : Configuration}

/-- The calls of PersistProcessInfo for one output, in the order in which they begin. -/
def DispatchState.handedTo (s : DispatchState) (output : String) : List Handover :=
  s.handed.filter (·.delivery.output = output)

/-- The call that the first worker of an output is in. -/
def callOf (output : String) : Option WorkerPhase → List Handover
  | some (.persisting writer message) => [⟨⟨message, output, 0⟩, writer⟩]
  | _ => []

/-- Each call of the output but the one under way has left its record before the next began. -/
def OneAtATime (s : DispatchState) (output : String) : Prop :=
  s.handedTo output = (s.recordsOf output).map (·.handover) ++ callOf output (s.workers (output, 0))

theorem filter_concat {α : Type} (p : α → Prop) [DecidablePred p] (xs : List α) (x : α) :
    (xs ++ [x]).filter p = xs.filter p ++ if p x then [x] else [] := by
  rw [List.filter_append, List.filter_singleton]
  by_cases holds : p x <;> simp [holds]

/-- A worker that neither enters nor leaves PersistProcessInfo. -/
theorem OneAtATime.movePhase {s : DispatchState} {output : String} (inv : OneAtATime s output) {key : String × Nat}
    {next : WorkerPhase} (before : ∀ writer message, s.workers key ≠ some (.persisting writer message))
    (outside : ∀ writer message, next ≠ .persisting writer message) :
    s.handedTo output = (s.recordsOf output).map (·.handover) ++
      callOf output (update s.workers key (some next) (output, 0)) := by
  by_cases own : key = (output, 0)
  · subst own
    have none_before : callOf output (s.workers (output, 0)) = [] := by
      unfold callOf
      split
      · rename_i writer message found
        exact absurd found (before writer message)
      · rfl
    have none_after : callOf output (some next) = [] := by
      unfold callOf
      split
      · rename_i writer message found
        exact absurd (Option.some.inj found) (outside writer message)
      · rfl
    rw [update_self, none_after, ← none_before]
    exact inv
  · rw [update_of_ne (Ne.symm own)]
    exact inv

/-- A worker at a message has a number below the configured one. -/
theorem accepted_worker_lt {s : DispatchState} (inv : DispatchInv config s) {name : String} {out : OutputConfig}
    (configured : (name, out) ∈ config.outputs) {d : Delivery} (accepted : d ∈ s.accepted) {id : Nat}
    {phase : WorkerPhase} (found : s.workers (name, id) = some phase) : id < out.workers.toNat := by
  obtain ⟨between, began⟩ := inv.delivery.serving_of_accepted accepted
  exact (worker_exists inv.startup between began configured id).mp (by rw [found]; rfl)

theorem OneAtATime.step {s t : DispatchState} {label : DispatchLabel} {name : String} {out : OutputConfig}
    (inv : OneAtATime s name) (dispatch : DispatchInv config s) (configured : (name, out) ∈ config.outputs)
    (single : out.workers ≤ 1) (taken : DispatchStep s label t) : OneAtATime t name := by
  cases taken with
  | @startWorker loop out' i atLoop =>
    have nothing := (dispatch.delivery.during_startup (Or.inl (by rw [atLoop]; nofun))).2.2
    refine inv.movePhase (fun writer message inside => ?_) nofun
    have handed := dispatch.delivery.handedAccepted _ (dispatch.delivery.persistingHanded _ _ _ _ inside)
    rw [nothing] at handed
    exact absurd handed List.not_mem_nil
  | lookup starting => exact inv.movePhase (by rw [starting]; nofun) nofun
  | accept forwarding waiting => exact inv.movePhase (by rw [waiting]; nofun) nofun
  | @persist output id writer message heap holding touched =>
    have accepted := (dispatch.delivery.takenAccepted output id writer message holding).1
    show (s.handed ++ [_]).filter _ = _
    rw [filter_concat]
    by_cases own : output = name
    · subst own
      have first := accepted_worker_lt dispatch configured accepted holding
      obtain rfl : id = 0 := by omega
      have before : callOf output (s.workers (output, 0)) = [] := by rw [holding]; rfl
      have unfolded : s.handedTo output = _ := inv
      rw [before, List.append_nil] at unfolded
      rw [if_pos rfl]
      dsimp only
      rw [update_self]
      exact congrArg (· ++ _) unfolded
    · rw [if_neg own, List.append_nil]
      dsimp only
      rw [update_of_ne fun same => own (Prod.mk.inj same).1.symm]
      exact inv
  | @finish output id writer message content inside found =>
    have handed := dispatch.delivery.persistingHanded output id writer message inside
    have accepted := dispatch.delivery.handedAccepted _ handed
    show s.handedTo name = ((s.persisted ++ [_]).filter _).map _ ++ _
    rw [filter_concat]
    dsimp only
    by_cases own : output = name
    · subst own
      have first := accepted_worker_lt dispatch configured accepted inside
      obtain rfl : id = 0 := by omega
      have unfolded : s.handedTo output = _ := inv
      rw [inside] at unfolded
      rw [if_pos rfl, List.map_append, update_self]
      exact unfolded.trans (List.append_nil _).symm
    · rw [if_neg own, List.append_nil, update_of_ne fun same => own (Prod.mk.inj same).1.symm]
      exact inv
  | beginOutput => exact inv
  | openWriter => exact inv
  | appendWriter => exact inv
  | endOutput => exact inv
  | decode => exact inv
  | abort => exact inv

theorem reachable_oneAtATime {s : DispatchState} (reach : (dispatchSystem config).Reachable s) {name : String}
    {out : OutputConfig} (configured : (name, out) ∈ config.outputs) (single : out.workers ≤ 1) :
    OneAtATime s name := by
  induction reach with
  | init => rfl
  | step before taken ih =>
    exact ih.step (reachable_dispatchInv before) configured single (dispatchStep_sound taken)

/-- In the directory of the output the reports of each job have a file of their own, which is not there yet. -/
structure Placed (resolve : Resolve) (path : GoString) (files : Files) (sent : List (ClientCall protobuf)) : Prop where
  absent : ∀ call ∈ sent, ∃ q, files q = none ∧ resolve (jobPath path call.message.received) = some q
  distinct : ∀ call ∈ sent, ∀ other ∈ sent,
    resolve (jobPath path call.message.received) = resolve (jobPath path other.message.received) →
      call.message.received.getJobId = other.message.received.getJobId

/-- Calls for the messages of sent reports leave each job's reports in its file and no other file changed. -/
theorem Placed.calls {codec : JsonCodec} {resolve : Resolve} {path : GoString} {files : Files}
    {sent : List (ClientCall protobuf)} (placed : Placed resolve path files sent)
    (utf8 : ∀ call ∈ sent, call.message.received.HasUtf8) {msgs : List ProcessInfo}
    (known : ∀ msg ∈ msgs, ∃ call ∈ sent, msg = call.message.received) :
    ∃ t, (callsSystem codec resolve path files).run (callsSystem codec resolve path files).init (callsFor msgs) =
      some t ∧ JobFiles codec resolve path files msgs t := by
  have start : JobFiles codec resolve path files [] (callsSystem codec resolve path files).init :=
    ⟨rfl, rfl, fun _ member => absurd member List.not_mem_nil, fun _ _ => rfl⟩
  refine start.calls (fun msg member => ?_) (fun msg member other later => ?_) fun msg member => ?_
  · obtain ⟨call, inside, rfl⟩ := known msg member
    exact placed.absent call inside
  · obtain ⟨call, inside, rfl⟩ := known msg member
    obtain ⟨call', inside', rfl⟩ := known other later
    exact placed.distinct call inside call' inside'
  · obtain ⟨call, inside, rfl⟩ := known msg member
    exact ProcessInfo.toValidUtf8_eq_self (utf8 call inside)

/-- What has come of the reports that arrived, in an output with one worker that writes job files. -/
structure Stored (codec : JsonCodec) (resolve : Resolve) (path : GoString) (files : Files)
    (s : ServiceState protobuf maxReceiveBuffer) (name : String) (arrived : List (ClientCall protobuf)) (t : OutputState) :
    Prop where
  sent : ∀ call ∈ arrived, call ∈ s.sent
  received : s.receive.received = arrived.map (·.datagram)
  oneAtATime : s.dispatch.handedTo name = (s.dispatch.recordsOf name).map (·.handover)
  calls : (callsSystem codec resolve path files).run (callsSystem codec resolve path files).init
    (callsFor ((s.dispatch.recordsOf name).map (·.content))) = some t
  stored : ∀ call ∈ arrived, ∃ q json_bytes processes, resolve (jobPath path call.message.received) = some q ∧
    t.files q = some json_bytes ∧
    codec.unmarshal json_bytes = some ⟨some call.message.received.getJobId, processes⟩ ∧
    processes.Perm ((arrived.map (·.message.received)).filter (·.getJobId = call.message.received.getJobId))
  others : ∀ q, (∀ call ∈ arrived, resolve (jobPath path call.message.received) ≠ some q) → t.files q = files q

/-- After start-up there are no workers but the configured ones. -/
theorem idle_of_configured {s : DispatchState} (inv : StartupInv config s) (between : s.current = none)
    (began : s.remaining = []) (idle : ∀ entry ∈ config.outputs, ∀ id, id < entry.2.workers.toNat →
      ∃ writer, s.workers (entry.1, id) = some (.idle writer)) :
    ∀ key phase, s.workers key = some phase → ∃ writer, phase = .idle writer := by
  intro (name, id) phase found
  have position := ((inv.workersStarted.started name id).mp (by rw [found]; rfl)).1
  have channel : name ∈ s.channels := by
    by_contra unserved
    rw [inv.untouched name unserved] at position
    exact absurd position (Nat.not_lt_zero _)
  obtain ⟨entry, configured, rfl⟩ := List.mem_map.mp ((inv.mem_channels began).mp channel)
  have below := (worker_exists inv between began configured id).mp (by rw [found]; rfl)
  obtain ⟨writer, waiting⟩ := idle entry configured id below
  exact ⟨writer, Option.some.inj (found.symm.trans waiting)⟩

end Ogrt
