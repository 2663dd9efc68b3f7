import Ogrt.Server.StartupRun

namespace Ogrt
open Function

variable {config : Configuration}

/-- The steps of forwarding goroutines and workers. -/
def DispatchLabel.internal : DispatchLabel → Bool
  | .lookup _ _ => true
  | .accept _ _ => true
  | .persist _ _ => true
  | .finish _ _ => true
  | .beginOutput _ => false
  | .openWriter _ => false
  | .appendWriter => false
  | .startWorker => false
  | .endOutput => false
  | .decode _ _ => false

/-- No forwarding goroutine and no worker can take a step. -/
def Stuck (config : Configuration) (s : DispatchState) : Prop :=
  ∀ label, label.internal → (dispatchSystem config).step s label = none

/-- Each decoded message has been handed over by each output that has a worker. -/
def AllHanded (config : Configuration) (s : DispatchState) : Prop :=
  ∀ message < s.decoded.length, ∀ entry ∈ config.outputs, 0 < entry.2.workers →
    ∃ h ∈ s.handed, h.delivery.message = message ∧ h.delivery.output = entry.1

/-- With one output served, all are. -/
def Configuration.AllOrNone (config : Configuration) : Prop :=
  (∀ entry ∈ config.outputs, 0 < entry.2.workers) ∨ (∀ entry ∈ config.outputs, entry.2.workers ≤ 0)

theorem touch_succeeds {s : DispatchState} (inv : DeliveryInv s) {message : Nat}
    (inside : message < s.heap.length) (kind : WriterKind) : ∃ heap, kind.touch s.heap message = some heap :=
  ⟨_, touch_eq kind (List.getElem?_eq_getElem inside) (inv.timed _ (List.getElem_mem inside))⟩

theorem DeliveryInv.accepted_inHeap {s : DispatchState} (inv : DeliveryInv s) {d : Delivery}
    (member : d ∈ s.accepted) : d.message < s.heap.length := by
  rw [inv.heapLength, ← inv.forwarderCount]
  exact inv.acceptedKnown d member

/-- The process can only end before the first message: afterwards every lookup is in range
and every message has a time. -/
theorem aborted_before_messages {s : DispatchState} (reach : (dispatchSystem config).Reachable s)
    (aborted : s.aborted) : s.decoded = [] := by
  induction reach with
  | init => cases aborted
  | @step s t label before taken ih =>
    have inv := reachable_dispatchInv before
    have live := dispatchStep_live taken
    cases dispatchStep_sound taken with
    | abort reason =>
      rcases reason with startup | ⟨output, id, starting, missing⟩ | ⟨output, id, writer, message, holding, failed⟩
      · exact (inv.delivery.during_startup (Or.inl startup)).1
      · have range := ((inv.startup.workersStarted.started output id).mp (by rw [starting]; rfl)).1
        rw [List.getElem?_eq_getElem range] at missing
        cases missing
      · have accepted := (inv.delivery.takenAccepted output id writer message holding).1
        obtain ⟨heap, touched⟩ := touch_succeeds inv.delivery (inv.delivery.accepted_inHeap accepted) writer.kind
        rw [touched] at failed
        cases failed
    | beginOutput => exact absurd (live.symm.trans aborted) Bool.false_ne_true
    | openWriter => exact absurd (live.symm.trans aborted) Bool.false_ne_true
    | appendWriter => exact absurd (live.symm.trans aborted) Bool.false_ne_true
    | startWorker => exact absurd (live.symm.trans aborted) Bool.false_ne_true
    | endOutput => exact absurd (live.symm.trans aborted) Bool.false_ne_true
    | lookup => exact absurd (live.symm.trans aborted) Bool.false_ne_true
    | decode => exact absurd (live.symm.trans aborted) Bool.false_ne_true
    | accept => exact absurd (live.symm.trans aborted) Bool.false_ne_true
    | persist => exact absurd (live.symm.trans aborted) Bool.false_ne_true
    | finish => exact absurd (live.symm.trans aborted) Bool.false_ne_true

/-- In a stuck state every worker waits on its channel. -/
theorem stuck_workers_idle {s : DispatchState} (inv : DispatchInv config s) (live : s.aborted = false)
    (stuck : Stuck config s) {output : String} {id : Nat} {phase : WorkerPhase}
    (found : s.workers (output, id) = some phase) : ∃ writer, phase = .idle writer := by
  cases phase with
  | starting =>
    have range := ((inv.startup.workersStarted.started output id).mp (by rw [found]; rfl)).1
    have step : (dispatchSystem config).step s _ = _ :=
      dispatchStep_complete (.lookup found (List.getElem?_eq_getElem range)) live live
    rw [stuck (.lookup output id) rfl] at step
    cases step
  | idle writer => exact ⟨writer, rfl⟩
  | taken writer message =>
    have accepted := (inv.delivery.takenAccepted output id writer message found).1
    obtain ⟨heap, touched⟩ := touch_succeeds inv.delivery (inv.delivery.accepted_inHeap accepted) writer.kind
    have step : (dispatchSystem config).step s _ = _ := dispatchStep_complete (.persist found touched) live live
    rw [stuck (.persist output id) rfl] at step
    cases step
  | persisting writer message =>
    have handed := inv.delivery.persistingHanded output id writer message found
    have inside := inv.delivery.accepted_inHeap (inv.delivery.handedAccepted _ handed)
    have step : (dispatchSystem config).step s _ = _ :=
      dispatchStep_complete (.finish found (List.getElem?_eq_getElem inside)) live live
    rw [stuck (.finish output id) rfl] at step
    cases step

/-- A forwarding goroutine waits forever only on an output without a worker. -/
theorem stuck_forwarder {s : DispatchState} (inv : DispatchInv config s) (live : s.aborted = false)
    (stuck : Stuck config s) {message : Nat} {name : String} {rest : List String}
    (waiting : s.forwarders[message]? = some (name :: rest)) (id : Nat) : s.workers (name, id) = none := by
  by_contra some
  obtain ⟨phase, found⟩ := Option.ne_none_iff_exists'.mp some
  obtain ⟨writer, rfl⟩ := stuck_workers_idle inv live stuck found
  have step : (dispatchSystem config).step s _ = _ := dispatchStep_complete (.accept waiting found) live live
  rw [stuck (.accept message id) rfl] at step
  cases step

theorem allHanded_of_allOrNone {s : DispatchState} (condition : config.AllOrNone)
    (reach : (dispatchSystem config).Reachable s) (stuck : Stuck config s) : AllHanded config s := by
  intro message decoded entry member positive
  have inv := reachable_dispatchInv reach
  have some : s.decoded ≠ [] := List.ne_nil_of_length_pos (by omega)
  obtain ⟨between, began⟩ := inv.delivery.serving some
  have live : s.aborted = false := by
    rw [Bool.eq_false_iff]
    exact fun aborted => some (aborted_before_messages reach aborted)
  have all : ∀ e ∈ config.outputs, 0 < e.2.workers := by
    rcases condition with all | none
    · exact all
    · have := none entry member
      omega
  have inside : message < s.forwarders.length := by rwa [inv.delivery.forwarderCount]
  have ended : s.forwarders[message]? = Option.some [] := by
    rw [List.getElem?_eq_getElem inside]
    cases todo : s.forwarders[message] with
    | nil => rfl
    | cons name rest =>
      have waiting : s.forwarders[message]? = Option.some (name :: rest) := by
        rw [List.getElem?_eq_getElem inside, todo]
      have channel := inv.delivery.remainingKnown message _ waiting name (List.mem_cons_self ..)
      obtain ⟨e, configured, rfl⟩ := List.mem_map.mp ((inv.startup.mem_channels began).mp channel)
      have workers := (worker_exists inv.startup between began configured 0).mpr
        (by have := all e configured; omega)
      rw [stuck_forwarder inv live stuck waiting 0] at workers
      cases workers
  have channel : entry.1 ∈ s.channels := (inv.startup.mem_channels began).mpr (List.mem_map_of_mem member)
  obtain ⟨id, accepted⟩ := (inv.delivery.acceptedIff message [] ended entry.1 channel).mp List.not_mem_nil
  rcases inv.delivery.progress _ accepted with ⟨h, handed, same⟩ | ⟨writer, taken⟩
  · exact ⟨h, handed, by rw [same], by rw [same]⟩
  · obtain ⟨_, phase⟩ := stuck_workers_idle inv live stuck taken
    cases phase

/-- A message offered first to an output without a worker reaches no other output. -/
theorem starved_run (startable : config.Startable) {bad good : String × OutputConfig} (badMember : bad ∈ config.outputs)
    (goodMember : good ∈ config.outputs) (unserved : bad.2.workers ≤ 0) (served : 0 < good.2.workers) :
    ∃ s, (dispatchSystem config).Reachable s ∧ Stuck config s ∧ ¬ AllHanded config s := by
  obtain ⟨s, reach, quiet, between, began⟩ := startup_completes startable
  have inv := (reachable_dispatchInv reach).startup
  have channel : bad.1 ∈ s.channels := (inv.mem_channels began).mpr (List.mem_map_of_mem badMember)
  let msg : ProcessInfo := ⟨some [], some 0, some 0, some 0, none, none, none, none, none, [], [], [], []⟩
  have required : msg.hasRequired := rfl
  have decoded := reach.step (dispatchStep_complete
    (.decode between began required (List.perm_cons_erase channel).symm) quiet.live quiet.live)
  refine ⟨_, decoded, fun label internal => ?_, fun all => ?_⟩
  · by_contra some
    obtain ⟨t, taken⟩ := Option.ne_none_iff_exists'.mp some
    cases dispatchStep_sound taken with
    | lookup starting =>
      obtain ⟨_, phase⟩ := quiet.idle _ _ starting
      cases phase
    | @accept message output rest id writer forwarding waiting =>
      simp only [quiet.forwarders, List.nil_append] at forwarding
      rw [List.getElem?_singleton] at forwarding
      split at forwarding
      · cases Option.some.inj forwarding
        have worker := (worker_exists inv between began badMember id).mp (by rw [waiting]; rfl)
        omega
      · cases forwarding
    | persist holding =>
      obtain ⟨_, phase⟩ := quiet.idle _ _ holding
      cases phase
    | finish inside =>
      obtain ⟨_, phase⟩ := quiet.idle _ _ inside
      cases phase
    | abort reason =>
      rcases reason with startup | ⟨output, id, starting, _⟩ | ⟨output, id, writer, message, holding, _⟩
      · exact startup between
      · obtain ⟨_, phase⟩ := quiet.idle _ _ starting
        cases phase
      · obtain ⟨_, phase⟩ := quiet.idle _ _ holding
        cases phase
    | beginOutput => cases internal
    | openWriter => cases internal
    | appendWriter => cases internal
    | startWorker => cases internal
    | endOutput => cases internal
    | decode => cases internal
  · obtain ⟨h, handed, _⟩ := all 0 (by simp) good goodMember served
    rw [quiet.handed] at handed
    exact absurd handed List.not_mem_nil

/-- A stuck state leaves no output behind, in every run, exactly when the configuration
gives a worker to each output or to none, or when start-up never comes to a message. -/
theorem no_starvation_iff (config : Configuration) :
    (∀ s, (dispatchSystem config).Reachable s → Stuck config s → AllHanded config s) ↔
      config.AllOrNone ∨ ¬ config.Startable := by
  constructor
  · intro fair
    by_contra other
    obtain ⟨mixed, startable⟩ := not_or.mp other
    simp only [Configuration.AllOrNone, not_or, not_forall] at mixed
    obtain ⟨⟨bad, badMember, unserved⟩, good, goodMember, served⟩ := mixed
    obtain ⟨s, reach, stuck, starved⟩ :=
      starved_run (not_not.mp startable) badMember goodMember (by omega) (by omega)
    exact starved (fair s reach stuck)
  · rintro (condition | unstartable) s reach stuck
    · exact allHanded_of_allOrNone condition reach stuck
    · intro message decoded
      have some : s.decoded ≠ [] := List.ne_nil_of_length_pos (by omega)
      exact absurd (startable_of_decoded reach some) unstartable

/-- A section without Workers next to a served one. -/
theorem output_without_worker_starves :
    ¬ ∀ config : Configuration, config.Startable → ∀ s, (dispatchSystem config).Reachable s →
      Stuck config s → AllHanded config s := by
  intro fair
  let silent : String × OutputConfig := ("Splunk", ⟨"JsonOverTcp", ascii "tcp:splunk:18255", 0⟩)
  let file : String × OutputConfig := ("file", ⟨"JsonFile", ascii "/tmp/ogrt_jobs/", 1⟩)
  have startable : Configuration.Startable ⟨[silent, file], by decide⟩ := by
    unfold Configuration.Startable
    decide
  obtain ⟨s, reach, stuck, starved⟩ := starved_run startable (List.mem_cons_self ..)
    (List.mem_cons_of_mem _ (List.mem_singleton.mpr rfl)) (show silent.2.workers ≤ 0 by decide)
    (show 0 < file.2.workers by decide)
  exact starved (fair _ startable s reach stuck)

end Ogrt
