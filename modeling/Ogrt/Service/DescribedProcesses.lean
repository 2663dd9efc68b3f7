import Ogrt.Client.SentMessage
import Ogrt.Service.Delivered

namespace Ogrt
open Checked

variable {protobuf : Protobuf} {maxReceiveBuffer : UInt32} {config : Configuration}

/-- The entry of a loaded object in a report. A name that could not be copied is empty. -/
def ReportsObject (process : HostProcess) (o : NameOutcome) (info : DlPhdrInfo) (so : SharedObject) : Prop :=
  so.path = some ((soName info o).getD []) ∧ ∃ signature,
    handleProgramHeader process.host process.memory (soName info o) info = some ⟨soName info o, signature⟩ ∧
      TextAt process.memory signature so.signature

/-- A report of the server and what the client saw of the process that it is about. The first
loaded object signs the report, and those from the third on are listed in it. -/
structure Describes (msg : ProcessInfo) (call : ClientCall protobuf) : Prop where
  binpath : ∀ path, call.outcomes.binpath.Finds path → msg.binpath = some path
  noBinpath : (∀ path, ¬ call.outcomes.binpath.Finds path) → msg.binpath = some []
  pid : msg.pid = some call.pid
  parentPid : msg.parentPid = some call.parentPid
  time : msg.time = some call.outcomes.time
  jobId : msg.jobId = some ((getenv call.process.environ call.options.envJobid).getD (ascii "UNKNOWN"))
  username : msg.username =
    if call.options.sendUsername then some ((ogrtGetUsername call.outcomes).getD (ascii "UNKNOWN")) else none
  hostname : msg.hostname =
    if call.options.sendHostname then some ((ogrtGetHostname call.outcomes).getD (ascii "UNKNOWN")) else none
  cmdline : sentCmdline call.options call.outcomes = .ok msg.cmdline
  environmentVariables : msg.environmentVariables = sentVariables call.options call.process
  arguments : msg.arguments = []
  signature : ∃ program so, call.process.objects[0]? = some program ∧
    ReportsObject call.process (call.outcomes.names 0) program so ∧ msg.signature = so.signature
  objectCount : msg.sharedObjects.length + 2 = call.process.objects.length
  sharedObjects : ∀ i info, call.process.objects[i + 2]? = some info →
    ∃ so, msg.sharedObjects[i]? = some so ∧ ReportsObject call.process (call.outcomes.names (i + 2)) info so
  loadedModules : ∀ i, msg.loadedModules[i]? =
    (moduleTokens (sentModules call.options call.process))[i]?.map fun token =>
      Module.mk (some ((strdup (call.outcomes.modules.names i) token).getD []))

/-- The signature of an object is the text at the address that its headers lead to. -/
theorem reportsObject_of_loaded {process : HostProcess} {o : NameOutcome} {info : DlPhdrInfo} {object : LoadedObject}
    (loaded : handleProgramHeader process.host process.memory (soName info o) info = some object)
    {text : Option GoString} (spelled : TextAt process.memory object.signature text) :
    ReportsObject process o info ⟨some (object.path.getD []), text⟩ := by
  have named : object = ⟨soName info o, object.signature⟩ := by
    obtain ⟨signature, _, same⟩ := Option.map_eq_some_iff.mp loaded
    rw [← same]
  refine ⟨?_, object.signature, loaded.trans (congrArg some named), spelled⟩
  rw [named]

theorem forall₂_getElem? {α β : Type} {R : α → β → Prop} {xs : List α} {ys : List β} (related : List.Forall₂ R xs ys)
    {i : Nat} {x : α} (found : xs[i]? = some x) : ∃ y, ys[i]? = some y ∧ R x y := by
  induction related generalizing i with
  | nil => cases found
  | @cons x' y' _ _ head _ ih =>
    cases i with
    | zero =>
      cases found
      exact ⟨y', rfl, head⟩
    | succ i => exact ih found

/-- The message lists all objects from the third on. -/
theorem Sending.Gathered.lists {sending : Sending} {options : CompileOptions} {process : HostProcess} {o : SendOutcomes}
    {so_infos : List LoadedObject} (parts : sending.Gathered options process o so_infos) :
    2 ≤ process.objects.length ∧
      sending.message.sharedObjects.take sending.message.nSharedObjects = so_infos.drop 2 := by
  have loaded := ogrtGetLoadedSo_length parts.infos
  obtain ⟨_, count⟩ := ClientProcessInfo.readPointers_succeeds.mp ⟨_, parts.readable⟩
  rw [parts.count, parts.objects, List.length_drop, loaded, nSharedObjects_le process.counted] at count
  have bound := process.counted
  refine ⟨count, ?_⟩
  rw [parts.objects, parts.count, loaded]
  exact List.take_of_length_le (by rw [List.length_drop, loaded]; omega)

/-- The first loaded object signs the message. -/
theorem Sending.Gathered.signs {sending : Sending} {options : CompileOptions} {process : HostProcess} {o : SendOutcomes}
    {so_infos : List LoadedObject} (parts : sending.Gathered options process o so_infos) {text : Option GoString}
    (spelled : TextAt process.memory sending.message.signature text) :
    ∃ program so, process.objects[0]? = some program ∧ ReportsObject process (o.names 0) program so ∧
      text = so.signature := by
  have first : 0 < process.objects.length := Nat.lt_of_lt_of_le Nat.two_pos parts.lists.1
  obtain ⟨object, entry, headers⟩ := ogrtGetLoadedSo_getElem? parts.infos (List.getElem?_eq_getElem first)
  have head : sending.message.signature = object.signature := by
    rw [parts.signature, List.head?_eq_getElem?, entry]
    rfl
  rw [head] at spelled
  exact ⟨_, _, List.getElem?_eq_getElem first, reportsObject_of_loaded headers spelled, rfl⟩

theorem ClientCall.described (call : ClientCall protobuf) : Describes call.message.received call := by
  obtain ⟨so_infos, parts⟩ := ogrtSendProcessinfo_gathered call.made
  have own := ogrtSendProcessinfo_identified call.made
  have spelled := call.spelled
  have loaded := ogrtGetLoadedSo_length parts.infos
  have readable := (ClientProcessInfo.readPointers_succeeds.mp ⟨_, parts.readable⟩).1
  obtain ⟨count, all⟩ := parts.lists
  have objects := spelled.sharedObjects
  rw [all] at objects
  have modules := parts.modules
  rw [loadedModules_eq] at modules
  refine {
    binpath := fun path finds => ?_
    noBinpath := fun unread => ?_
    pid := congrArg some (spelled.pid.trans own.pid)
    parentPid := congrArg some (spelled.parentPid.trans own.parentPid)
    time := congrArg some (spelled.time.trans own.time)
    jobId := spelled.jobId.trans (congrArg some own.jobId)
    username := spelled.username.trans own.username
    hostname := spelled.hostname.trans own.hostname
    cmdline := parts.cmdline.trans (congrArg Except.ok spelled.cmdline.symm)
    environmentVariables := ?_
    arguments := ?_
    signature := parts.signs spelled.signature
    objectCount := ?_
    sharedObjects := fun i info found => ?_
    loadedModules := fun i => ?_ }
  · have read := parts.binpath.symm.trans (ogrtGetBinpath_eq_some.mpr finds)
    show some (call.message.binpath.getD []) = some path
    rw [spelled.binpath, Except.ok.inj read]
    rfl
  · show some (call.message.binpath.getD []) = some []
    rw [spelled.binpath]
    cases read : call.sending.message.binpath with
    | none => rfl
    | some path => exact absurd (ogrtGetBinpath_eq_some.mp (parts.binpath.trans (congrArg Except.ok read))) (unread path)
  · show call.message.environmentVariables.map (·.getD []) = _
    rw [spelled.environmentVariables, sentEnvironment_entries parts.environment readable, List.map_map]
    exact List.map_id _
  · show call.message.arguments.map (·.getD []) = []
    rw [spelled.arguments]
    rfl
  · show (call.message.sharedObjects.map OgrtSharedObject.received).length + 2 = _
    rw [List.length_map, ← objects.length_eq, List.length_drop, loaded]
    omega
  · obtain ⟨object, entry, headers⟩ := ogrtGetLoadedSo_getElem? parts.infos found
    have place : (so_infos.drop 2)[i]? = some object := by rw [List.getElem?_drop, Nat.add_comm 2 i, entry]
    obtain ⟨so, listed, path, text⟩ := forall₂_getElem? objects place
    refine ⟨so.received, ?_, ?_⟩
    · show (call.message.sharedObjects.map OgrtSharedObject.received)[i]? = _
      rw [List.getElem?_map, listed]
      rfl
    · have reported := reportsObject_of_loaded headers text
      rw [← path] at reported
      exact reported
  · show (call.message.loadedModules.map OgrtModule.received)[i]? = _
    rw [spelled.loadedModules, List.map_map, List.getElem?_map, ogrtLoadedModules_getElem? modules i, Option.map_map]
    rfl

/-- The records of the outputs, by the processes that they are about. -/
structure Described (config : Configuration) (s : ServiceState protobuf maxReceiveBuffer) : Prop where
  genuine : ∀ r ∈ s.dispatch.persisted, ∃ call ∈ s.sent, ∃ msg, Describes msg call ∧
    ∃ entry ∈ config.outputs, ∃ kind, r.handover.delivery.output = entry.1 ∧ newWriter entry.2.type = some kind ∧
      r.content = kind.expected msg
  complete : s.Settled → ∃ arrived : List (ClientCall protobuf), (∀ call ∈ arrived, call ∈ s.sent) ∧
    s.receive.received = arrived.map (·.datagram) ∧
    ∃ msgs, List.Forall₂ Describes msgs arrived ∧
      ∀ entry ∈ config.outputs, ∀ kind, newWriter entry.2.type = some kind →
        ((s.dispatch.recordsOf entry.1).map (·.content)).Perm (msgs.map kind.expected)

/-- A program of a job with two modules and a library, of which the path can be read. -/
def jobProgram : HostProcess where
  host := .little
  memory := fun _ => 0
  pid := 9
  parentPid := 4
  environ := [ascii "JOBID=42", ascii "LOADEDMODULES=gcc:openmpi"]
  objects := [⟨[], 0, []⟩, ⟨ascii "/lib/libogrt.so", 0, []⟩, ⟨ascii "/lib/libc.so", 0, []⟩]
  counted := by decide

def jobOptions : CompileOptions := ⟨ascii "JOBID", [], 0, false, false, false, true, true, [ascii "JOBID", ascii "HOME"], 2⟩

def jobMessage : OgrtProcessInfo where
  binpath := some (ascii "/bin/ls")
  pid := 9
  parentPid := 4
  time := 5
  signature := none
  jobId := some (ascii "42")
  username := none
  hostname := none
  cmdline := none
  environmentVariables := [some (ascii "JOBID=42")]
  arguments := []
  sharedObjects := [⟨none, none⟩]
  loadedModules := [⟨some (ascii "gcc")⟩, ⟨some (ascii "openmpi")⟩]

theorem jobLink_length : (ascii "/bin/ls").length ≤ pathMax := by decide

def jobOutcomes : SendOutcomes :=
  { procMissing.sending with
    binpath := { procMissing.sending.binpath with readlink := some ⟨ascii "/bin/ls", jobLink_length⟩ }
    packed := ogrtProcessInfoPack jobMessage }

def jobSending : Sending where
  message :=
    { binpath := some (ascii "/bin/ls")
      pid := 9
      parentPid := 4
      time := 5
      signature := none
      jobId := ascii "42"
      username := none
      hostname := none
      cmdline := none
      environmentVariables := [some (ascii "JOBID=42")]
      nSharedObjects := 1
      sharedObjects := [⟨none, none⟩]
      loadedModules := [some (ascii "gcc"), some (ascii "openmpi")] }
  datagram := frame MessageType.processInfoMsg.value (ogrtProcessInfoPack jobMessage)

theorem jobSending_made : ogrtSendProcessinfo jobOptions jobProgram 9 4 jobOutcomes = .ok jobSending := by
  have read : ogrtGetBinpath jobOutcomes.binpath = .ok (some (ascii "/bin/ls")) :=
    ogrtGetBinpath_eq_some.mpr ⟨_, _, rfl, rfl, by decide, rfl⟩
  unfold ogrtSendProcessinfo
  rw [read]
  rfl

/-- The name of the library cannot be resolved. -/
theorem jobSending_spells : jobSending.message.Spells jobProgram.memory jobMessage :=
  ⟨rfl, rfl, rfl, rfl, rfl, rfl, rfl, rfl, rfl, rfl, rfl, .cons ⟨rfl, rfl⟩ .nil, rfl⟩

def jobCall : ClientCall wireProtobuf where
  options := jobOptions
  process := jobProgram
  pid := 9
  parentPid := 4
  outcomes := jobOutcomes
  sending := jobSending
  message := jobMessage
  made := jobSending_made
  spelled := jobSending_spells
  packed := rfl

/-- Two clients report, and the datagram of the second is read first. -/
def crossedArrival : List (ServiceLabel wireProtobuf) :=
  [.dispatch (.beginOutput ("file", ⟨"JsonFile", ascii "/tmp/ogrt_jobs/", 1⟩)), .dispatch (.openWriter true),
   .dispatch .appendWriter, .dispatch .startWorker, .dispatch .endOutput, .dispatch (.lookup "file" 0),
   .send smallCall, .send jobCall, .receive (.readFromUDP jobCall.datagram), .receive .decodeHeader,
   .unmarshal 0 ["file"], .receive (.readFromUDP smallCall.datagram), .receive .decodeHeader, .unmarshal 1 ["file"],
   .dispatch (.accept 0 0), .dispatch (.persist "file" 0), .dispatch (.finish "file" 0),
   .dispatch (.accept 1 0), .dispatch (.persist "file" 0), .dispatch (.finish "file" 0)]

end Ogrt
