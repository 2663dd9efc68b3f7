import Ogrt.Output.JsonOverTcp
import Ogrt.Service.Delivered

namespace Ogrt

variable {protobuf : Protobuf} {maxReceiveBuffer : UInt32} {config : Configuration}

/-- What the worker of an output has encoded, in its order. -/
def DispatchState.encodedBy (s : DispatchState) (output : String) (id : Nat) : List ProcessInfo :=
  ((s.recordsOf output).filter (·.handover.delivery.id = id)).map (·.content)

/-- The calls on the connection of a worker, each with what its write does. -/
def DispatchState.callsOn (s : DispatchState) (output : String) (outcome : Nat → Nat → WriteOutcome) (id : Nat) :
    List (ProcessInfo × WriteOutcome) :=
  (s.encodedBy output id).zipIdx.map fun place => (place.1, outcome id place.2)

theorem callsOn_messages (s : DispatchState) (output : String) (outcome : Nat → Nat → WriteOutcome) (id : Nat) :
    (s.callsOn output outcome id).map Prod.fst = s.encodedBy output id := by
  rw [DispatchState.callsOn, List.map_map]
  exact List.zipIdx_map_fst 0 _

/-- Elements by a number that each of them has. -/
theorem flatMap_range_filter_perm {ρ : Type} {key : ρ → Nat} {n : Nat} {xs : List ρ} (below : ∀ x ∈ xs, key x < n) :
    ((List.range n).flatMap fun i => xs.filter (key · = i)).Perm xs := by
  induction n generalizing xs with
  | zero =>
    cases xs with
    | nil => rfl
    | cons x rest => exact absurd (below x (List.mem_cons_self ..)) (Nat.not_lt_zero _)
  | succ n ih =>
    have lower := @ih (xs.filter (key · < n)) fun x member => of_decide_eq_true (List.mem_filter.mp member).2
    have same (i : Nat) (inside : i ∈ List.range n) :
        (xs.filter (key · < n)).filter (key · = i) = xs.filter (key · = i) := by
      rw [List.filter_filter]
      refine List.filter_congr fun x _ => ?_
      have bound := List.mem_range.mp inside
      by_cases equal : key x = i
      · simp [equal, bound]
      · simp [equal]
    have last : xs.filter (key · = n) = xs.filter fun x => !decide (key x < n) := by
      refine List.filter_congr fun x member => ?_
      have bound := below x member
      rw [← decide_not]
      exact decide_eq_decide.mpr (by omega)
    rw [List.range_succ, List.flatMap_append, List.flatMap_singleton, last]
    refine List.Perm.trans (List.Perm.append_right _ ?_) (List.filter_append_perm (fun x => decide (key x < n)) xs)
    refine List.Perm.trans (List.Perm.of_eq ?_) lower
    exact (List.flatMap_congr fun i inside => (same i inside)).symm

/-- What receivers have got over the connections of an output, one for each of its workers. -/
structure Streamed (codec : LineCodec) (s : ServiceState protobuf maxReceiveBuffer) (name : String) (workers : Nat)
    (outcome : Nat → Nat → WriteOutcome) (got : Nat → List UInt8) : Prop where
  ownConnection : ∀ r ∈ s.dispatch.recordsOf name, r.handover.delivery.id < workers ∧
    (s.dispatch.openedFor name)[r.handover.delivery.id]? = some r.handover.writer
  inOrder : ∀ id, ∃ k, readLines codec (got id) = ((s.dispatch.encodedBy name id).take k).map some
  genuine : ∀ id, ∀ line ∈ readLines codec (got id), ∃ call ∈ s.sent, line = some call.message.received
  complete : s.Settled → (∀ id i, outcome id i = .writes) →
    (∀ id, got id = (connectionAfter codec (s.dispatch.callsOn name outcome id)).written) →
    ∃ arrived : List (ClientCall protobuf), (∀ call ∈ arrived, call ∈ s.sent) ∧
      s.receive.received = arrived.map (·.datagram) ∧
      ((List.range workers).flatMap fun id => readLines codec (got id)).Perm
        (arrived.map fun call => some call.message.received)

theorem readLines_callsOn {codec : LineCodec} {s : DispatchState} {name : String} {outcome : Nat → Nat → WriteOutcome}
    {id : Nat} {got : List UInt8} (part : got <+: (connectionAfter codec (s.callsOn name outcome id)).written) :
    ∃ k, readLines codec got = ((s.encodedBy name id).take k).map fun msg => some msg.toValidUtf8 := by
  obtain ⟨k, lines⟩ := readLines_prefix part
  refine ⟨k, lines.trans ?_⟩
  rw [← callsOn_messages s name outcome id, ← List.map_take, List.map_map]
  rfl

/-- The messages of all workers together are those of the records. -/
theorem encodedBy_perm {s : DispatchState} {name : String} {workers : Nat}
    (below : ∀ r ∈ s.recordsOf name, r.handover.delivery.id < workers) :
    ((List.range workers).flatMap fun id => s.encodedBy name id).Perm ((s.recordsOf name).map (·.content)) := by
  have places := (flatMap_range_filter_perm below).map (·.content)
  rw [List.map_flatMap] at places
  exact places

/-- A record was made by a worker of its output, with the writer that was opened for it. -/
theorem record_ownWriter {s : DispatchState} (reach : (dispatchSystem config).Reachable s) {name : String} {out : OutputConfig}
    (configured : (name, out) ∈ config.outputs) {r : Record} (member : r ∈ s.recordsOf name) :
    r.handover.delivery.id < out.workers.toNat ∧
      (s.openedFor name)[r.handover.delivery.id]? = some r.handover.writer := by
  have dispatch := reachable_dispatchInv reach
  obtain ⟨persisted, output⟩ := List.mem_filter.mp member
  have handed := (reachable_contentInv reach).1.fromHandover r persisted
  obtain ⟨between, began⟩ := dispatch.delivery.serving_of_accepted (dispatch.delivery.handedAccepted _ handed)
  have channel := (dispatch.startup.mem_channels began).mpr (List.mem_map_of_mem configured)
  have count := dispatch.startup.finished _ configured channel (by rw [between]; nofun)
  have position := dispatch.handedOwn.own _ handed
  rw [of_decide_eq_true output] at position
  have inside := (List.getElem?_eq_some_iff.mp position).1
  refine ⟨count ▸ inside, ?_⟩
  rw [dispatch.startup.openLog, List.getElem?_append_left inside]
  exact position

/-- What an output that sends JSON has encoded is the report of a client. -/
theorem Delivered.encoded {s : ServiceState protobuf maxReceiveBuffer} (delivered : Delivered config s) {name : String}
    {out : OutputConfig} (configured : (name, out) ∈ config.outputs) (writer : newWriter out.type = some .jsonOverTcp)
    {id : Nat} {msg : ProcessInfo} (member : msg ∈ s.dispatch.encodedBy name id) :
    ∃ call ∈ s.sent, msg = call.message.received := by
  obtain ⟨r, listed, rfl⟩ := List.mem_map.mp member
  obtain ⟨persisted, output⟩ := List.mem_filter.mp (List.mem_filter.mp listed).1
  obtain ⟨call, sent, entry, served, kind, ofSection, made, content⟩ := delivered.genuine r persisted
  have same : entry = (name, out) := Prod.ext (ofSection.symm.trans (of_decide_eq_true output))
    (config.unique served (by rw [← ofSection, of_decide_eq_true output]; exact configured))
  rw [same] at made
  cases Option.some.inj (writer.symm.trans made)
  exact ⟨call, sent, content⟩

/-- In a quiet run, over the connections of an output that sends JSON, whatever writes fail and
however much of the bytes has come, each receiver reads the first messages that its worker has
encoded, each of them a report of some client. When the server has settled and all bytes have
come, and no write has failed, they have together read each report that arrived, once for each
time it did. -/
theorem reports_streamed (protobuf : Protobuf) (maxReceiveBuffer : UInt32) (config : Configuration)
    (labels : List (ServiceLabel protobuf)) (s : ServiceState protobuf maxReceiveBuffer) (quiet : QuietRun config labels s)
    (name : String) (out : OutputConfig) (configured : (name, out) ∈ config.outputs) (type : out.type = "JsonOverTcp")
    (codec : LineCodec) (outcome : Nat → Nat → WriteOutcome) (got : Nat → List UInt8)
    (part : ∀ id, got id <+: (connectionAfter codec (s.dispatch.callsOn name outcome id)).written) :
    Streamed codec s name out.workers.toNat outcome got := by
  have inv := quiet.inv
  have delivered := quiet.delivered
  have writer : newWriter out.type = some .jsonOverTcp := by rw [type]; rfl
  have own (r : Record) (member : r ∈ s.dispatch.recordsOf name) := record_ownWriter inv.dispatched configured member
  have known (id : Nat) (msg : ProcessInfo) (member : msg ∈ s.dispatch.encodedBy name id) :=
    delivered.encoded configured writer member
  have valid (id : Nat) (msg : ProcessInfo) (member : msg ∈ s.dispatch.encodedBy name id) :
      some msg.toValidUtf8 = some msg := by
    obtain ⟨call, sent, rfl⟩ := known id msg member
    exact congrArg some (ProcessInfo.toValidUtf8_eq_self (quiet.utf8 call sent))
  have inOrder (id : Nat) : ∃ k, readLines codec (got id) = ((s.dispatch.encodedBy name id).take k).map some := by
    obtain ⟨k, lines⟩ := readLines_callsOn (part id)
    exact ⟨k, lines.trans (List.map_congr_left fun msg member => valid id msg (List.mem_of_mem_take member))⟩
  refine ⟨own, inOrder, fun id line member => ?_, fun settled well all => ?_⟩
  · obtain ⟨k, lines⟩ := inOrder id
    rw [lines] at member
    obtain ⟨msg, taken, rfl⟩ := List.mem_map.mp member
    obtain ⟨call, sent, rfl⟩ := known id msg (List.mem_of_mem_take taken)
    exact ⟨call, sent, rfl⟩
  · obtain ⟨arrived, sent, received, records⟩ := delivered.complete settled
    refine ⟨arrived, sent, received, ?_⟩
    have each (id : Nat) : readLines codec (got id) = (s.dispatch.encodedBy name id).map some := by
      have whole := @readLines_whole codec (s.dispatch.callsOn name outcome id) fun call member => by
        obtain ⟨place, _, rfl⟩ := List.mem_map.mp member
        exact well id place.2
      have coerced := List.map_congr_left (valid id)
      rw [← callsOn_messages s.dispatch name outcome id, List.map_map] at coerced
      rw [all id, whole, ← callsOn_messages s.dispatch name outcome id]
      exact coerced
    have contents := (encodedBy_perm fun r member => (own r member).1).trans (records (name, out) configured _ writer)
    have read := contents.map some
    rw [List.map_flatMap, List.map_map] at read
    rw [List.flatMap_congr fun id _ => each id]
    exact read

/-- One output with two workers, each with a connection of its own. -/
def tcpConfiguration : Configuration where
  outputs := [("tcp", ⟨"JsonOverTcp", ascii "tcp:localhost:7000", 2⟩)]
  distinct := List.nodup_singleton _

/-- The second worker gets the first copy of the report and is the last to finish. -/
def sharedArrival : List (ServiceLabel wireProtobuf) :=
  [.dispatch (.beginOutput ("tcp", ⟨"JsonOverTcp", ascii "tcp:localhost:7000", 2⟩)),
   .dispatch (.openWriter true), .dispatch .appendWriter, .dispatch .startWorker,
   .dispatch (.openWriter true), .dispatch .appendWriter, .dispatch .startWorker, .dispatch .endOutput,
   .dispatch (.lookup "tcp" 0), .dispatch (.lookup "tcp" 1),
   .send smallCall, .receive (.readFromUDP smallCall.datagram), .receive .decodeHeader,
   .receive (.readFromUDP smallCall.datagram), .receive .decodeHeader, .unmarshal 1 ["tcp"], .unmarshal 0 ["tcp"],
   .dispatch (.accept 0 1), .dispatch (.persist "tcp" 1), .dispatch (.accept 1 0), .dispatch (.persist "tcp" 0),
   .dispatch (.finish "tcp" 0), .dispatch (.finish "tcp" 1)]

theorem reports_streamed_shared :
    ∃ (s : ServiceState wireProtobuf 64) (got : Nat → List UInt8),
      (serviceSystem wireProtobuf 64 tcpConfiguration).run (serviceSystem wireProtobuf 64 tcpConfiguration).init
        sharedArrival = some s ∧ (∀ id < 2, (readLines goLine (got id)).length = 1) ∧
        Streamed goLine s "tcp" 2 (fun _ _ => .writes) got := by
  have ran : ((serviceSystem wireProtobuf 64 tcpConfiguration).run (serviceSystem wireProtobuf 64 tcpConfiguration).init
      sharedArrival).map (fun s => ((s.dispatch.encodedBy "tcp" 0).length, (s.dispatch.encodedBy "tcp" 1).length)) =
        some (1, 1) := by
    decide +kernel
  obtain ⟨s, final, counts⟩ := Option.map_eq_some_iff.mp ran
  obtain ⟨first, second⟩ := Prod.mk.inj counts
  have sent : s.sent = [smallCall] := sent_run final
  have utf8 : ∀ call ∈ s.sent, call.message.received.HasUtf8 := by
    rw [sent]
    decide +kernel
  have quiet : QuietRun tcpConfiguration sharedArrival s := ⟨final, by decide +kernel, utf8, fun _ _ => Or.inl (by decide)⟩
  let got (id : Nat) := (connectionAfter goLine (s.dispatch.callsOn "tcp" (fun _ _ => .writes) id)).written
  have one (id : Nat) : (readLines goLine (got id)).length = (s.dispatch.encodedBy "tcp" id).length := by
    have whole := @readLines_whole goLine (s.dispatch.callsOn "tcp" (fun _ _ => .writes) id) fun call member => by
      obtain ⟨place, _, rfl⟩ := List.mem_map.mp member
      rfl
    rw [whole, List.length_map, ← List.length_map Prod.fst, callsOn_messages]
  refine ⟨s, got, final, fun id below => ?_, reports_streamed wireProtobuf 64 tcpConfiguration sharedArrival s quiet "tcp" _
    (List.mem_singleton.mpr rfl) rfl goLine (fun _ _ => .writes) got fun _ => List.prefix_rfl⟩
  rw [one]
  cases id with
  | zero => exact first
  | succ id =>
    obtain rfl : id = 0 := by omega
    exact second

end Ogrt
