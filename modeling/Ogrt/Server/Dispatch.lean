import Ogrt.Lib.StepSystem
import Ogrt.Output.JobPath
import Ogrt.Output.JsonOverTcp
import Ogrt.Protocol
import Mathlib.Logic.Function.Basic
import Mathlib.Data.List.Perm.Basic
import Mathlib.Data.List.Nodup

namespace Ogrt
open Function

inductive WriterKind
  | jsonOverTcp
  | jsonElasticSearch
  | jsonFile
  deriving DecidableEq, Repr

/-- The writer that start-up creates for the type of an output; none is log.Fatal. -/
def newWriter : String → Option WriterKind
  | "JsonOverTcp" => some .jsonOverTcp
  | "JsonElasticSearch" => some .jsonElasticSearch
  | "JsonFile" => some .jsonFile
  | _ => none

/-- What Open of a writer asks of its parameter. If not, it panics whatever the file system and
the network do. -/
def WriterKind.opens : WriterKind → GoString → Bool
  | .jsonOverTcp, params => (jsonOverTcpOpen params).isSome
  | .jsonElasticSearch, params => (jsonElasticSearchOpen params).isSome
  | .jsonFile, params => (JsonFileOutput.openPath .found params).isSome

structure OutputConfig where
  type : String
  params : GoString
  workers : Int
  deriving DecidableEq, Repr

def OutputConfig.opens (out : OutputConfig) : Bool := (newWriter out.type).any fun kind => kind.opens out.params

theorem OutputConfig.opens_iff {out : OutputConfig} :
    out.opens = true ↔ ∃ kind, newWriter out.type = some kind ∧ kind.opens out.params = true :=
  Option.any_eq_true _ _

/-- The Outputs map of the configuration file, in any order. -/
structure Configuration where
  outputs : List (String × OutputConfig)
  distinct : (outputs.map Prod.fst).Nodup

/-- An opened writer. The serial number tells apart the objects created by start-up. -/
structure Writer where
  serial : Nat
  kind : WriterKind
  params : GoString
  deriving DecidableEq, Repr

/-- Where the body of the start-up loop over the workers of one output stands. -/
inductive LoopStage
  | check
  | opened (writer : Writer)
  | appended
  deriving DecidableEq, Repr

structure OutputLoop where
  name : String
  out : OutputConfig
  i : Nat
  stage : LoopStage
  deriving DecidableEq, Repr

/-- The local state of writeToOutput: before its lookup, waiting on its channel, with a
message in hand, inside PersistProcessInfo. -/
inductive WorkerPhase
  | starting
  | idle (out : Writer)
  | taken (out : Writer) (message : Nat)
  | persisting (out : Writer) (message : Nat)
  deriving DecidableEq, Repr

/-- One rendezvous: a worker of an output has received a message pointer. -/
structure Delivery where
  message : Nat
  output : String
  id : Nat
  deriving DecidableEq, Repr

/-- One call of PersistProcessInfo. -/
structure Handover where
  delivery : Delivery
  writer : Writer
  deriving DecidableEq, Repr

/-- What a writer has encoded. -/
structure Record where
  handover : Handover
  content : ProcessInfo
  deriving DecidableEq, Repr

/-- Message pointers are positions in `heap`; `decoded` keeps what proto.Unmarshal stored
there first. A forwarding goroutine is the list of the channels it has still to serve. -/
structure DispatchState where
  aborted : Bool
  remaining : List (String × OutputConfig)
  current : Option OutputLoop
  channels : List String
  outputs : String → List Writer
  opened : List (String × Writer)
  workers : String × Nat → Option WorkerPhase
  decoded : List ProcessInfo
  heap : List ProcessInfo
  forwarders : List (List String)
  accepted : List Delivery
  handed : List Handover
  persisted : List Record

/-- With a file system and a network in which Open succeeds, or not. -/
inductive DispatchLabel
  | beginOutput (entry : String × OutputConfig)
  | openWriter (succeeds : Bool)
  | appendWriter
  | startWorker
  | endOutput
  | lookup (output : String) (id : Nat)
  | decode (msg : ProcessInfo) (order : List String)
  | accept (message id : Nat)
  | persist (output : String) (id : Nat)
  | finish (output : String) (id : Nat)

/-- The ElasticSearch writer sets the time to milliseconds in the message it was given. No
result is the nil dereference of a missing time. -/
def ProcessInfo.setTimeToMilliseconds (msg : ProcessInfo) : Option ProcessInfo :=
  msg.time.map fun time => { msg with time := some (time * 1000) }

/-- What PersistProcessInfo does to the shared message before it encodes it. -/
def WriterKind.touch (kind : WriterKind) (heap : List ProcessInfo) (message : Nat) :
    Option (List ProcessInfo) :=
  match kind with
  | .jsonElasticSearch =>
    (heap[message]?).bind fun msg => msg.setTimeToMilliseconds.map fun changed => heap.set message changed
  | .jsonOverTcp => some heap
  | .jsonFile => some heap

def ProcessInfo.inMilliseconds (msg : ProcessInfo) : ProcessInfo :=
  { msg with time := msg.time.map (· * 1000) }

/-- What an output of this kind has to record of a decoded message. -/
def WriterKind.expected : WriterKind → ProcessInfo → ProcessInfo
  | .jsonElasticSearch, msg => msg.inMilliseconds
  | .jsonOverTcp, msg => msg
  | .jsonFile, msg => msg

theorem touch_cases {kind : WriterKind} {before heap : List ProcessInfo} {message : Nat}
    (touched : kind.touch before message = some heap) :
    (kind ≠ .jsonElasticSearch ∧ heap = before) ∨ (kind = .jsonElasticSearch ∧
      ∃ msg, before[message]? = some msg ∧ heap = before.set message msg.inMilliseconds) := by
  cases kind with
  | jsonOverTcp => exact Or.inl ⟨nofun, (Option.some.inj touched).symm⟩
  | jsonFile => exact Or.inl ⟨nofun, (Option.some.inj touched).symm⟩
  | jsonElasticSearch =>
    obtain ⟨msg, found, rest⟩ := Option.bind_eq_some_iff.mp touched
    obtain ⟨changed, timed, rfl⟩ := Option.map_eq_some_iff.mp rest
    obtain ⟨time, present, rfl⟩ := Option.map_eq_some_iff.mp timed
    refine Or.inr ⟨rfl, msg, found, ?_⟩
    simp only [ProcessInfo.inMilliseconds, present, Option.map_some]

/-- With a time in it, a message can be handed to a writer of any kind. -/
theorem touch_eq (kind : WriterKind) {heap : List ProcessInfo} {message : Nat} {msg : ProcessInfo}
    (found : heap[message]? = some msg) (timed : msg.time.isSome) :
    kind.touch heap message = some (heap.set message (kind.expected msg)) := by
  have same : heap.set message msg = heap := by
    obtain ⟨inside, rfl⟩ := List.getElem?_eq_some_iff.mp found
    exact List.set_getElem_self inside
  cases kind with
  | jsonOverTcp => exact congrArg some same.symm
  | jsonFile => exact congrArg some same.symm
  | jsonElasticSearch =>
    obtain ⟨time, present⟩ := Option.isSome_iff_exists.mp timed
    simp only [WriterKind.touch, WriterKind.expected, found, ProcessInfo.setTimeToMilliseconds,
      ProcessInfo.inMilliseconds, present, Option.bind_some, Option.map_some]

def dispatchStep (s : DispatchState) (label : DispatchLabel) : Option DispatchState :=
  if s.aborted then none else
  match label with
  | .beginOutput entry =>
    if s.current = none ∧ entry ∈ s.remaining then
      some { s with
        remaining := s.remaining.erase entry
        current := some ⟨entry.1, entry.2, 0, .check⟩
        channels := s.channels ++ [entry.1] }
    else none
  | .openWriter succeeds =>
    match s.current with
    | some ⟨name, out, i, .check⟩ =>
      if i < out.workers then
        match newWriter out.type, succeeds with
        | some kind, true =>
          if kind.opens out.params then
            some { s with
              opened := s.opened ++ [(name, ⟨s.opened.length, kind, out.params⟩)]
              current := some ⟨name, out, i, .opened ⟨s.opened.length, kind, out.params⟩⟩ }
          else some { s with aborted := true }
        | _, _ => some { s with aborted := true }
      else none
    | _ => none
  | .appendWriter =>
    match s.current with
    | some ⟨name, out, i, .opened writer⟩ =>
      some { s with
        outputs := update s.outputs name (s.outputs name ++ [writer])
        current := some ⟨name, out, i, .appended⟩ }
    | _ => none
  | .startWorker =>
    match s.current with
    | some ⟨name, out, i, .appended⟩ =>
      some { s with
        workers := update s.workers (name, i) (some .starting)
        current := some ⟨name, out, i + 1, .check⟩ }
    | _ => none
  | .endOutput =>
    match s.current with
    | some ⟨_, out, i, .check⟩ => if i < out.workers then none else some { s with current := none }
    | _ => none
  | .lookup output id =>
    match s.workers (output, id) with
    | some .starting =>
      match (s.outputs output)[id]? with
      | some writer => some { s with workers := update s.workers (output, id) (some (.idle writer)) }
      | none => some { s with aborted := true }
    | _ => none
  | .decode msg order =>
    if s.current = none ∧ s.remaining = [] ∧ msg.hasRequired ∧ order.Perm s.channels then
      some { s with
        decoded := s.decoded ++ [msg]
        heap := s.heap ++ [msg]
        forwarders := s.forwarders ++ [order] }
    else none
  | .accept message id =>
    match s.forwarders[message]? with
    | some (output :: rest) =>
      match s.workers (output, id) with
      | some (.idle writer) =>
        some { s with
          forwarders := s.forwarders.set message rest
          workers := update s.workers (output, id) (some (.taken writer message))
          accepted := s.accepted ++ [⟨message, output, id⟩] }
      | _ => none
    | _ => none
  | .persist output id =>
    match s.workers (output, id) with
    | some (.taken writer message) =>
      match writer.kind.touch s.heap message with
      | some heap =>
        some { s with
          heap := heap
          workers := update s.workers (output, id) (some (.persisting writer message))
          handed := s.handed ++ [⟨⟨message, output, id⟩, writer⟩] }
      | none => some { s with aborted := true }
    | _ => none
  | .finish output id =>
    match s.workers (output, id) with
    | some (.persisting writer message) =>
      (s.heap[message]?).map fun content =>
        { s with
          workers := update s.workers (output, id) (some (.idle writer))
          persisted := s.persisted ++ [⟨⟨⟨message, output, id⟩, writer⟩, content⟩] }
    | _ => none

def dispatchSystem (config : Configuration) : StepSystem DispatchState DispatchLabel where
  init := ⟨false, config.outputs, none, [], fun _ => [], [], fun _ => none, [], [], [], [], [], []⟩
  step := dispatchStep

/-- The steps by what they do, guards included. The last constructor collects the ways in
which the process ends: log.Fatal, a failing Open, an index out of range, a nil time. -/
inductive DispatchStep (s : DispatchState) : DispatchLabel → DispatchState → Prop
  | beginOutput {entry} : s.current = none → entry ∈ s.remaining →
      DispatchStep s (.beginOutput entry) { s with
        remaining := s.remaining.erase entry
        current := some ⟨entry.1, entry.2, 0, .check⟩
        channels := s.channels ++ [entry.1] }
  | openWriter {name out i kind} : s.current = some ⟨name, out, i, .check⟩ → (i : Int) < out.workers →
      newWriter out.type = some kind → kind.opens out.params = true →
      DispatchStep s (.openWriter true) { s with
        opened := s.opened ++ [(name, ⟨s.opened.length, kind, out.params⟩)]
        current := some ⟨name, out, i, .opened ⟨s.opened.length, kind, out.params⟩⟩ }
  | appendWriter {name out i writer} : s.current = some ⟨name, out, i, .opened writer⟩ →
      DispatchStep s .appendWriter { s with
        outputs := update s.outputs name (s.outputs name ++ [writer])
        current := some ⟨name, out, i, .appended⟩ }
  | startWorker {name out i} : s.current = some ⟨name, out, i, .appended⟩ →
      DispatchStep s .startWorker { s with
        workers := update s.workers (name, i) (some .starting)
        current := some ⟨name, out, i + 1, .check⟩ }
  | endOutput {name out i} : s.current = some ⟨name, out, i, .check⟩ → out.workers ≤ i →
      DispatchStep s .endOutput { s with current := none }
  | lookup {output id writer} : s.workers (output, id) = some .starting →
      (s.outputs output)[id]? = some writer →
      DispatchStep s (.lookup output id) { s with
        workers := update s.workers (output, id) (some (.idle writer)) }
  | decode {msg order} : s.current = none → s.remaining = [] → msg.hasRequired → order.Perm s.channels →
      DispatchStep s (.decode msg order) { s with
        decoded := s.decoded ++ [msg]
        heap := s.heap ++ [msg]
        forwarders := s.forwarders ++ [order] }
  | accept {message output rest id writer} : s.forwarders[message]? = some (output :: rest) →
      s.workers (output, id) = some (.idle writer) →
      DispatchStep s (.accept message id) { s with
        forwarders := s.forwarders.set message rest
        workers := update s.workers (output, id) (some (.taken writer message))
        accepted := s.accepted ++ [⟨message, output, id⟩] }
  | persist {output id writer message heap} : s.workers (output, id) = some (.taken writer message) →
      writer.kind.touch s.heap message = some heap →
      DispatchStep s (.persist output id) { s with
        heap := heap
        workers := update s.workers (output, id) (some (.persisting writer message))
        handed := s.handed ++ [⟨⟨message, output, id⟩, writer⟩] }
  | finish {output id writer message content} : s.workers (output, id) = some (.persisting writer message) →
      s.heap[message]? = some content →
      DispatchStep s (.finish output id) { s with
        workers := update s.workers (output, id) (some (.idle writer))
        persisted := s.persisted ++ [⟨⟨⟨message, output, id⟩, writer⟩, content⟩] }
  | abort {label} : s.current ≠ none ∨
        (∃ output id, s.workers (output, id) = some .starting ∧ (s.outputs output)[id]? = none) ∨
        (∃ output id writer message, s.workers (output, id) = some (.taken writer message) ∧
          writer.kind.touch s.heap message = none) →
      DispatchStep s label { s with aborted := true }

theorem dispatchStep_sound {config : Configuration} {s t : DispatchState} {label : DispatchLabel}
    (taken : (dispatchSystem config).step s label = some t) : DispatchStep s label t := by
  change dispatchStep s label = some t at taken
  unfold dispatchStep at taken
  split at taken
  · cases taken
  cases label with
  | beginOutput entry =>
    simp only [Option.ite_none_right_eq_some, Option.some.injEq] at taken
    obtain ⟨⟨between, member⟩, rfl⟩ := taken
    exact .beginOutput between member
  | openWriter succeeds =>
    simp only at taken
    split at taken
    · rename_i name out i at_loop
      split at taken
      · rename_i more
        split at taken
        · rename_i kind known
          split at taken
          · rename_i opens
            cases taken
            exact .openWriter at_loop more known opens
          · cases taken
            exact .abort (Or.inl (by rw [at_loop]; exact Option.some_ne_none _))
        · cases taken
          exact .abort (Or.inl (by rw [at_loop]; exact Option.some_ne_none _))
      · cases taken
    · cases taken
  | appendWriter =>
    simp only at taken
    split at taken
    · rename_i at_loop
      cases taken
      exact .appendWriter at_loop
    · cases taken
  | startWorker =>
    simp only at taken
    split at taken
    · rename_i at_loop
      cases taken
      exact .startWorker at_loop
    · cases taken
  | endOutput =>
    simp only at taken
    split at taken
    · rename_i at_loop
      split at taken
      · cases taken
      · rename_i finished
        cases taken
        exact .endOutput at_loop (Int.not_lt.mp finished)
    · cases taken
  | lookup output id =>
    simp only at taken
    split at taken
    · rename_i starting
      split at taken
      · rename_i writer found
        cases taken
        exact .lookup starting found
      · rename_i missing
        cases taken
        exact .abort (Or.inr (Or.inl ⟨output, id, starting, missing⟩))
    · cases taken
  | decode msg order =>
    simp only [Option.ite_none_right_eq_some, Option.some.injEq] at taken
    obtain ⟨⟨between, started, required, order⟩, rfl⟩ := taken
    exact .decode between started required order
  | accept message id =>
    simp only at taken
    split at taken
    · rename_i output rest forwarding
      split at taken
      · rename_i writer waiting
        cases taken
        exact .accept forwarding waiting
      · cases taken
    · cases taken
  | persist output id =>
    simp only at taken
    split at taken
    · rename_i writer message holding
      split at taken
      · rename_i heap touched
        cases taken
        exact .persist holding touched
      · rename_i failed
        cases taken
        exact .abort (Or.inr (Or.inr ⟨output, id, writer, message, holding, failed⟩))
    · cases taken
  | finish output id =>
    simp only at taken
    split at taken
    · rename_i writer message inside
      obtain ⟨content, found, rfl⟩ := Option.map_eq_some_iff.mp taken
      exact .finish inside found
    · cases taken

theorem dispatchStep_live {config : Configuration} {s t : DispatchState} {label : DispatchLabel}
    (taken : (dispatchSystem config).step s label = some t) : s.aborted = false := by
  change dispatchStep s label = some t at taken
  unfold dispatchStep at taken
  split at taken
  · cases taken
  · rename_i live
    exact Bool.eq_false_iff.mpr live

/-- Every effect that does not end the process is a step of the system. -/
theorem dispatchStep_complete {config : Configuration} {s t : DispatchState} {label : DispatchLabel}
    (effect : DispatchStep s label t) (live : s.aborted = false) (stays : t.aborted = false) :
    (dispatchSystem config).step s label = some t := by
  change dispatchStep s label = some t
  have running : ¬ s.aborted = true := by
    rw [live]
    exact Bool.false_ne_true
  unfold dispatchStep
  rw [if_neg running]
  cases effect with
  | beginOutput between member =>
    dsimp only
    rw [if_pos ⟨between, member⟩]
  | openWriter atLoop more known opens => simp only [atLoop, more, known, opens, if_true]
  | appendWriter atLoop => simp only [atLoop]
  | startWorker atLoop => simp only [atLoop]
  | endOutput atLoop finished => simp only [atLoop, Int.not_lt.mpr finished, if_false]
  | lookup starting found => simp only [starting, found]
  | decode between began required covers =>
    dsimp only
    rw [if_pos ⟨between, began, required, covers⟩]
  | accept forwarding waiting => simp only [forwarding, waiting]
  | persist holding touched => simp only [holding, touched]
  | finish inside found => simp only [inside, found, Option.map_some]
  | abort => cases stays

end Ogrt
