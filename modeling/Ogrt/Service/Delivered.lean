import Ogrt.Service.ServiceRun

namespace Ogrt
open Function

variable {protobuf : Protobuf} {maxReceiveBuffer : UInt32} {config : Configuration}

/-- A handover is recorded once, and not while its worker is still inside PersistProcessInfo. -/
structure RecordedOnce (s : DispatchState) : Prop where
  once : (s.persisted.map (·.handover)).Nodup
  inside : ∀ output id writer message, s.workers (output, id) = some (.persisting writer message) →
    ∀ r ∈ s.persisted, r.handover ≠ ⟨⟨message, output, id⟩, writer⟩

/-- A worker that is not sent into PersistProcessInfo leaves the records apart from those inside. -/
theorem RecordedOnce.movePhase {s : DispatchState} (inv : RecordedOnce s) {key : String × Nat} {next : WorkerPhase}
    (outside : ∀ writer message, next ≠ .persisting writer message) (output : String) (id : Nat) (writer : Writer)
    (message : Nat) (found : update s.workers key (some next) (output, id) = some (.persisting writer message)) :
    ∀ r ∈ s.persisted, r.handover ≠ ⟨⟨message, output, id⟩, writer⟩ := by
  rcases update_eq_some found with ⟨_, same⟩ | ⟨_, old⟩
  · exact absurd same.symm (outside writer message)
  · exact inv.inside output id writer message old

theorem RecordedOnce.step {s t : DispatchState} {label : DispatchLabel} (inv : RecordedOnce s)
    (recorded : RecordedInv s) (delivery : DeliveryInv s) (taken : DispatchStep s label t) : RecordedOnce t := by
  cases taken with
  | startWorker => exact ⟨inv.once, inv.movePhase nofun⟩
  | lookup => exact ⟨inv.once, inv.movePhase nofun⟩
  | accept => exact ⟨inv.once, inv.movePhase nofun⟩
  | @persist output id writer message heap holding touched =>
    refine ⟨inv.once, fun output' id' writer' message' found r member same => ?_⟩
    rcases update_eq_some found with ⟨key, phase⟩ | ⟨_, old⟩
    · cases key
      cases phase
      have fresh := (delivery.takenAccepted output id writer message holding).2
      exact fresh _ (recorded.fromHandover r member) (by rw [same])
    · exact inv.inside output' id' writer' message' old r member same
  | @finish output id writer message content inside found =>
    refine ⟨?_, fun output' id' writer' message' found' r member same => ?_⟩
    · rw [List.map_append, List.map_singleton]
      refine List.nodup_append'.mpr ⟨inv.once, List.nodup_singleton _, ?_⟩
      intro h old new
      obtain ⟨r, member, rfl⟩ := List.mem_map.mp old
      exact inv.inside output id writer message inside r member (List.mem_singleton.mp new)
    · rcases update_eq_some found' with ⟨_, phase⟩ | ⟨apart, old⟩
      · cases phase
      · rcases List.mem_append.mp member with earlier | new
        · exact inv.inside output' id' writer' message' old r earlier same
        · rw [List.mem_singleton.mp new] at same
          cases same
          exact apart rfl
  | beginOutput => exact { inv with }
  | openWriter => exact { inv with }
  | appendWriter => exact { inv with }
  | endOutput => exact { inv with }
  | decode => exact { inv with }
  | abort => exact { inv with }

theorem reachable_recordedOnce {s : DispatchState} (reach : (dispatchSystem config).Reachable s) : RecordedOnce s := by
  induction reach with
  | init => exact ⟨List.nodup_nil, nofun⟩
  | step before taken ih =>
    exact ih.step (reachable_contentInv before).1 (reachable_dispatchInv before).delivery (dispatchStep_sound taken)

/-- The records of one output. -/
def DispatchState.recordsOf (s : DispatchState) (output : String) : List Record :=
  s.persisted.filter (·.handover.delivery.output = output)

/-- Nothing is under way in the server: main waits for a datagram and every worker for a message. -/
structure ServiceState.Settled (s : ServiceState protobuf maxReceiveBuffer) : Prop where
  receiving : s.receive.phase = .receiving
  decoded : s.receive.pending = []
  forwarded : ∀ todo ∈ s.dispatch.forwarders, todo = []
  idle : ∀ key phase, s.dispatch.workers key = some phase → ∃ writer, phase = .idle writer

/-- With the server settled, an output has one record of each decoded message. -/
theorem recordsOf_messages {s : DispatchState} (reach : (dispatchSystem config).Reachable s)
    (forwarded : ∀ todo ∈ s.forwarders, todo = [])
    (idle : ∀ key phase, s.workers key = some phase → ∃ writer, phase = .idle writer) {entry : String × OutputConfig}
    (configured : entry ∈ config.outputs) :
    ((s.recordsOf entry.1).map (·.handover.delivery.message)).Perm (List.range s.decoded.length) := by
  have delivery := (reachable_dispatchInv reach).delivery
  have recorded := (reachable_contentInv reach).1
  have once := (reachable_recordedOnce reach).once
  refine (List.perm_ext_iff_of_nodup ?_ List.nodup_range).mpr fun message => ?_
  · refine List.Nodup.map_on ?_ ((List.Nodup.of_map _ once).filter _)
    intro r first q second same
    obtain ⟨firstMember, firstOutput⟩ := List.mem_filter.mp first
    obtain ⟨secondMember, secondOutput⟩ := List.mem_filter.mp second
    have output := (of_decide_eq_true firstOutput).trans (of_decide_eq_true secondOutput).symm
    have handover := List.inj_on_of_nodup_map (handed_once delivery) (recorded.fromHandover r firstMember)
      (recorded.fromHandover q secondMember) (Prod.ext same output)
    exact List.inj_on_of_nodup_map once firstMember secondMember handover
  · rw [List.mem_range, List.mem_map]
    constructor
    · rintro ⟨r, member, rfl⟩
      have handed := recorded.fromHandover r (List.mem_of_mem_filter member)
      have known := delivery.acceptedKnown _ (delivery.handedAccepted _ handed)
      rwa [delivery.forwarderCount] at known
    · intro inside
      have forwarding : message < s.forwarders.length := by rwa [delivery.forwarderCount]
      have ended : s.forwarders[message]? = some [] := by
        rw [List.getElem?_eq_getElem forwarding, forwarded _ (List.getElem_mem forwarding)]
      obtain ⟨r, member, ofMessage, ofOutput⟩ := records_present reach (List.getElem?_eq_getElem inside) ended idle
        configured
      exact ⟨r, List.mem_filter.mpr ⟨member, decide_eq_true ofOutput⟩, ofMessage⟩

theorem filterMap_range {α β : Type} (xs : List α) (f : α → Option β) :
    (List.range xs.length).filterMap (fun i => xs[i]?.bind f) = xs.filterMap f := by
  have places : (List.range xs.length).map (xs[·]?) = xs.map some := by
    apply List.ext_getElem
    · simp
    · intro i _ inside
      rw [List.length_map] at inside
      simp [inside]
  have split : (List.range xs.length).filterMap (fun i => xs[i]?.bind f) =
      ((List.range xs.length).map (xs[·]?)).filterMap (·.bind f) := by
    rw [List.filterMap_map]
    rfl
  rw [split, places, List.filterMap_map]
  rfl

/-- What entries make of the places of a list, each place being taken once. -/
theorem perm_filterMap_places {α β ρ : Type} {entries : List ρ} {place : ρ → Nat} {value : ρ → Option β} {xs : List α}
    {f : α → Option β} (places : (entries.map place).Perm (List.range xs.length))
    (reads : ∀ e ∈ entries, value e = xs[place e]?.bind f) : (entries.filterMap value).Perm (xs.filterMap f) := by
  have through : entries.filterMap value = (entries.map place).filterMap fun i => xs[i]?.bind f := by
    rw [List.filterMap_map]
    exact List.filterMap_congr reads
  rw [through, ← filterMap_range xs f]
  exact places.filterMap _

theorem exists_preimages {α β : Type} {sent : List α} {send : α → β} {received : List β}
    (known : ∀ d ∈ received, ∃ call ∈ sent, send call = d) :
    ∃ arrived : List α, (∀ call ∈ arrived, call ∈ sent) ∧ received = arrived.map send := by
  induction received with
  | nil => exact ⟨[], fun _ member => absurd member List.not_mem_nil, rfl⟩
  | cons d rest ih =>
    obtain ⟨call, member, rfl⟩ := known d (List.mem_cons_self ..)
    obtain ⟨arrived, members, rfl⟩ := ih fun x later => known x (List.mem_cons_of_mem _ later)
    exact ⟨call :: arrived, List.forall_mem_cons.mpr ⟨member, members⟩, rfl⟩

/-- A goroutine that has run decoded what its datagram holds. -/
theorem ServiceInv.report_eq {s : ServiceState protobuf maxReceiveBuffer} (inv : ServiceInv config s) {e : EndedGoroutine}
    (ended : e ∈ s.receive.ended) : e.report protobuf = s.receive.received[e.goroutine.serial]?.bind (datagramReport protobuf) := by
  obtain ⟨datagram, found, _, fields⟩ := inv.accounted.endedStarted e ended
  obtain ⟨call, _, framed, small⟩ := (inv.carried datagram (List.mem_of_getElem? found)).frame_eq
  have decodes := (fields (by rw [framed, frame_length]; omega)).1
  rw [framed, msgTypeField_frame] at decodes
  obtain ⟨bytes, passed⟩ := Option.isSome_iff_exists.mp ((inv.accounted.handed e ended).mpr decodes)
  obtain ⟨datagram', found', payload⟩ := inv.intact.ended e ended bytes passed
  cases Option.some.inj (found.symm.trans found')
  rw [EndedGoroutine.report, passed, found, Option.bind_some, Option.bind_some, datagramReport, payload, framed,
    if_pos (msgTypeField_frame _ _), Option.bind_some]

/-- Every decoded message is the one that some client packed. -/
theorem ServiceInv.decoded_sent {s : ServiceState protobuf maxReceiveBuffer} (inv : ServiceInv config s)
    (utf8 : ∀ call ∈ s.sent, call.message.received.HasUtf8) {msg : ProcessInfo} (member : msg ∈ s.dispatch.decoded) :
    ∃ call ∈ s.sent, msg = call.message.received := by
  rw [inv.decoded] at member
  obtain ⟨e, ended, report⟩ := List.mem_filterMap.mp member
  rw [inv.report_eq ended] at report
  obtain ⟨datagram, found, shown⟩ := Option.bind_eq_some_iff.mp report
  obtain ⟨short, call, sent, rfl⟩ := inv.carried datagram (List.mem_of_getElem? found)
  rw [call.datagramReport_eq short (utf8 call sent)] at shown
  exact ⟨call, sent, (Option.some.inj shown).symm⟩

/-- With the server settled, the decoded messages are those of the datagrams that have come. -/
theorem ServiceInv.decoded_perm {s : ServiceState protobuf maxReceiveBuffer} (inv : ServiceInv config s)
    (settled : s.Settled) {arrived : List (ClientCall protobuf)} (utf8 : ∀ call ∈ arrived, call.message.received.HasUtf8)
    (received : s.receive.received = arrived.map (·.datagram)) :
    s.dispatch.decoded.Perm (arrived.map (·.message.received)) := by
  have serials := inv.accounted.receiving settled.receiving
  simp only [ReceiveState.serials, settled.decoded, List.map_nil, List.nil_append] at serials
  have decoded := perm_filterMap_places serials fun e ended => inv.report_eq ended
  rw [inv.decoded]
  refine decoded.trans (List.Perm.of_eq ?_)
  rw [received, List.filterMap_map, ← List.filterMap_eq_map]
  refine List.filterMap_congr fun call member => ?_
  have carried := inv.carried call.datagram (received ▸ List.mem_map_of_mem member)
  exact call.datagramReport_eq carried.1 (utf8 call member)

/-- What the server has recorded of the reports of its clients. -/
structure Delivered (config : Configuration) (s : ServiceState protobuf maxReceiveBuffer) : Prop where
  genuine : ∀ r ∈ s.dispatch.persisted, ∃ call ∈ s.sent, ∃ entry ∈ config.outputs, ∃ kind,
    r.handover.delivery.output = entry.1 ∧ newWriter entry.2.type = some kind ∧
      r.content = kind.expected call.message.received
  complete : s.Settled → ∃ arrived : List (ClientCall protobuf), (∀ call ∈ arrived, call ∈ s.sent) ∧
    s.receive.received = arrived.map (·.datagram) ∧
    ∀ entry ∈ config.outputs, ∀ kind, newWriter entry.2.type = some kind →
      ((s.dispatch.recordsOf entry.1).map (·.content)).Perm
        (arrived.map fun call => kind.expected call.message.received)

theorem delivered_of_inv {s : ServiceState protobuf maxReceiveBuffer} (inv : ServiceInv config s)
    (utf8 : ∀ call ∈ s.sent, call.message.received.HasUtf8)
    (unmixed : ∀ call ∈ s.sent, config.Undisturbed call.message.received) : Delivered config s := by
  have dispatch := reachable_dispatchInv inv.dispatched
  have recorded := (reachable_contentInv inv.dispatched).1
  have content (r : Record) (member : r ∈ s.dispatch.persisted) :
      ∃ msg, s.dispatch.decoded[r.handover.delivery.message]? = some msg ∧
        ∀ entry ∈ config.outputs, r.handover.delivery.output = entry.1 →
          ∀ kind, newWriter entry.2.type = some kind → r.content = kind.expected msg := by
    have known := dispatch.delivery.acceptedKnown _ (dispatch.delivery.handedAccepted _ (recorded.fromHandover r member))
    rw [dispatch.delivery.forwarderCount] at known
    have found := List.getElem?_eq_getElem known
    obtain ⟨call, sent, same⟩ := inv.decoded_sent utf8 (List.getElem_mem known)
    have sound := recordsSound_of_undisturbed (unmixed call sent) inv.dispatched
    rw [← same] at sound
    exact ⟨_, found, sound.content r member found⟩
  refine ⟨fun r member => ?_, fun settled => ?_⟩
  · obtain ⟨msg, found, expected⟩ := content r member
    obtain ⟨call, sent, rfl⟩ := inv.decoded_sent utf8 (List.mem_of_getElem? found)
    have handed := recorded.fromHandover r member
    obtain ⟨out, served, type⟩ := writer_configured dispatch.startup (dispatch.handedOwn.own _ handed)
    have configured := (Configuration.mem_served.mp served).1
    exact ⟨call, sent, _, configured, _, rfl, type, expected _ configured rfl _ type⟩
  · obtain ⟨arrived, sent, received⟩ := exists_preimages fun d member => (inv.carried d member).2
    refine ⟨arrived, sent, received, fun entry configured kind type => ?_⟩
    have messages := recordsOf_messages inv.dispatched settled.forwarded settled.idle configured
    have records := @perm_filterMap_places _ _ _ _ _ (fun r => some r.content) _ (fun msg => some (kind.expected msg))
      messages fun r listed => by
        obtain ⟨member, output⟩ := List.mem_filter.mp listed
        obtain ⟨msg, found, expected⟩ := content r member
        rw [found, expected entry configured (of_decide_eq_true output) kind type]
        rfl
    simp only [List.filterMap_eq_map'] at records
    have decoded := (inv.decoded_perm settled (fun call member => utf8 call (sent call member)) received).map kind.expected
    rw [List.map_map] at decoded
    exact records.trans decoded

/-- A run to this state in which no datagram is read over bytes that a goroutine has still to
decode, and every message that is sent has valid strings and is changed by no output for
another. -/
structure QuietRun (config : Configuration) (labels : List (ServiceLabel protobuf))
    (s : ServiceState protobuf maxReceiveBuffer) : Prop where
  ran : (serviceSystem protobuf maxReceiveBuffer config).run (serviceSystem protobuf maxReceiveBuffer config).init labels =
    some s
  undisturbed : (serviceSystem protobuf maxReceiveBuffer config).EveryStep ServiceState.Undisturbed
    (serviceSystem protobuf maxReceiveBuffer config).init labels
  utf8 : ∀ call ∈ s.sent, call.message.received.HasUtf8
  unmixed : ∀ call ∈ s.sent, config.Undisturbed call.message.received

theorem QuietRun.inv {labels : List (ServiceLabel protobuf)} {s : ServiceState protobuf maxReceiveBuffer}
    (quiet : QuietRun config labels s) : ServiceInv config s :=
  quiet.undisturbed.invariant serviceInv_init ServiceInv.step quiet.ran

theorem QuietRun.delivered {labels : List (ServiceLabel protobuf)} {s : ServiceState protobuf maxReceiveBuffer}
    (quiet : QuietRun config labels s) : Delivered config s :=
  delivered_of_inv quiet.inv quiet.utf8 quiet.unmixed

/-- The message of a program that the client can say little about. -/
def smallMessage : OgrtProcessInfo where
  binpath := none
  pid := 7
  parentPid := 1
  time := 5
  signature := none
  jobId := some (ascii "UNKNOWN")
  username := none
  hostname := none
  cmdline := none
  environmentVariables := []
  arguments := []
  sharedObjects := []
  loadedModules := []

def smallSending : Sending where
  message :=
    { binpath := none
      pid := 7
      parentPid := 1
      time := 5
      signature := none
      jobId := ascii "UNKNOWN"
      username := none
      hostname := none
      cmdline := none
      environmentVariables := []
      nSharedObjects := 0
      sharedObjects := []
      loadedModules := [] }
  datagram := frame MessageType.processInfoMsg.value (ogrtProcessInfoPack smallMessage)

/-- Nothing but the scalar fields is compiled in. -/
def bareOptions : CompileOptions := ⟨ascii "JOBID", [], 0, false, false, false, false, false, [], 0⟩

def smallOutcomes : SendOutcomes := { procMissing.sending with packed := ogrtProcessInfoPack smallMessage }

theorem smallSending_made : ogrtSendProcessinfo bareOptions watchedProgram 7 1 smallOutcomes = .ok smallSending := rfl

theorem smallSending_spells : smallSending.message.Spells watchedProgram.memory smallMessage :=
  ⟨rfl, rfl, rfl, rfl, rfl, rfl, rfl, rfl, rfl, rfl, rfl, .nil, rfl⟩

def smallCall : ClientCall wireProtobuf where
  options := bareOptions
  process := watchedProgram
  pid := 7
  parentPid := 1
  outcomes := smallOutcomes
  sending := smallSending
  message := smallMessage
  made := smallSending_made
  spelled := smallSending_spells
  packed := rfl

/-- One output with one worker that writes job files. -/
def fileConfiguration : Configuration where
  outputs := [("file", ⟨"JsonFile", ascii "/tmp/ogrt_jobs/", 1⟩)]
  distinct := List.nodup_singleton _

/-- The network brings the datagram twice, the second time before the first has been decoded. -/
def repeatedArrival : List (ServiceLabel wireProtobuf) :=
  [.dispatch (.beginOutput ("file", ⟨"JsonFile", ascii "/tmp/ogrt_jobs/", 1⟩)), .dispatch (.openWriter true),
   .dispatch .appendWriter, .dispatch .startWorker, .dispatch .endOutput, .dispatch (.lookup "file" 0),
   .send smallCall, .receive (.readFromUDP smallCall.datagram), .receive .decodeHeader,
   .receive (.readFromUDP smallCall.datagram), .receive .decodeHeader, .unmarshal 1 ["file"], .unmarshal 0 ["file"],
   .dispatch (.accept 0 0), .dispatch (.persist "file" 0), .dispatch (.finish "file" 0),
   .dispatch (.accept 1 0), .dispatch (.persist "file" 0), .dispatch (.finish "file" 0)]

theorem repeatedArrival_quiet {s : ServiceState wireProtobuf 64}
    (ran : (serviceSystem wireProtobuf 64 fileConfiguration).run (serviceSystem wireProtobuf 64 fileConfiguration).init
      repeatedArrival = some s) : QuietRun fileConfiguration repeatedArrival s := by
  have sent : s.sent = [smallCall] := sent_run ran
  refine ⟨ran, by decide +kernel, ?_, fun _ _ => Or.inl (by decide)⟩
  rw [sent]
  decide +kernel

end Ogrt
