import Ogrt.Client.KeptSignature
import Ogrt.Client.Watermark
import Ogrt.Service.DescribedProcesses

namespace Ogrt
open BigEndian Checked

/-- A segment with the section that was generated for a UUID, behind notes that need no padding.
The walk goes on five bytes before the end of that section: what it takes for a header there is
no OGRT note, and its sizes lead out of the segment. -/
structure SignedSegment (memory : Memory) (notes : Nat) (memsz : UInt64) (earlier : List Note) (uuid : Uuid) : Prop where
  even : ∀ note ∈ earlier, note.Even
  foreign : ∀ note ∈ earlier, note.type ≠ ogrtElfNoteType
  holds : memory.Holds notes (segmentBytes .little earlier ++ ((generateSignature uuid).drop 0x40).take 0x3C)
  room : segmentSize earlier + 0x3C ≤ memsz.toNat
  small : segmentSize earlier + 0x3C < 2 ^ 32
  plain : (elfNote .little memory (notes + (segmentSize earlier + 55))).type ≠ ogrtElfNoteType
  leads : memsz.toNat ≤ (nextOffset .little memory notes (UInt32.ofNat (segmentSize earlier + 55))).toNat

/-- An object, loaded on a machine that the generated file is for, whose last segment with
notes is signed. -/
structure SignedObject (process : HostProcess) (info : DlPhdrInfo) (uuid : Uuid) (before : List ProgramHeader)
    (header : ProgramHeader) (after : List ProgramHeader) (earlier : List Note) : Prop where
  host : process.host = .little
  headers : info.phdr = before ++ header :: after
  note : header.type = ptNote
  mapped : info.addr + header.vaddr ≠ 0
  last : ∀ later ∈ after, later.type ≠ ptNote
  segment : SignedSegment process.memory (info.addr + header.vaddr).toNat header.memsz earlier uuid

def Signed (process : HostProcess) (info : DlPhdrInfo) (uuid : Uuid) : Prop :=
  ∃ before header after earlier, SignedObject process info uuid before header after earlier

variable {memory : Memory} {notes : Nat} {memsz : UInt64} {earlier : List Note} {uuid : Uuid}

/-- The text of the UUID lies 21 bytes behind the start of its note. -/
theorem SignedSegment.spells (signed : SignedSegment memory notes memsz earlier uuid) :
    memory.CString (notes + segmentSize earlier + 21) uuid.text := by
  have note := (Memory.holds_append.mp signed.holds).2
  rw [generateSignature_section, segmentBytes_length] at note
  exact Note.uuid_cString (watermark_stamped uuid).ogrtLayout note

/-- The walk takes the notes before, then the signature, then the bytes behind its 55th, and is
over. Only the signature leaves a pointer. -/
theorem SignedSegment.runs (signed : SignedSegment memory notes memsz earlier uuid) :
    ∃ trace last, (noteLoop .little memory notes memsz).Runs (startWalk none) trace last ∧
      last.found.signature = some (notes + segmentSize earlier + 21) := by
  obtain ⟨before, note⟩ := Memory.holds_append.mp signed.holds
  rw [generateSignature_section, segmentBytes_length] at note
  have room := signed.room
  have small := signed.small
  have start : (startWalk none).offset.toNat = 0 := rfl
  obtain ⟨trace, atNote, takes, _, offset, _⟩ := @even_notes_taken .little memory notes memsz earlier (startWalk none)
    signed.even (fun other member isOgrt => absurd isOgrt (signed.foreign other member)) before (by omega) (by omega)
  rw [start, Nat.zero_add] at offset
  rw [← offset] at note
  obtain ⟨stepped, stored⟩ := @noteLoop_body_at .little memory notes memsz _ atNote
    (fun _ => ⟨1, uuid.text, (watermark_stamped uuid).ogrtLayout⟩) note
  rw [watermark_step, offset, Nat.mod_eq_of_lt (by omega)] at stepped
  rw [if_pos (watermark_marked uuid), offset, Option.some_or] at stored
  have goNote : (noteLoop .little memory notes memsz).guard atNote = true := (guard_iff atNote).mpr (by omega)
  obtain ⟨behind, body⟩ : ∃ behind, (noteLoop .little memory notes memsz).body atNote = behind := ⟨_, rfl⟩
  rw [body] at stepped stored
  have reached : behind.offset = UInt32.ofNat (segmentSize earlier + 55) :=
    UInt32.toNat_inj.mp (by rw [stepped, UInt32.toNat_ofNat', Nat.mod_eq_of_lt (by omega)])
  have goBehind : (noteLoop .little memory notes memsz).guard behind = true := (guard_iff behind).mpr (by omega)
  have unsupported : supportedSignature .little memory (notes + behind.offset.toNat) = none := by
    rw [stepped]
    exact if_neg signed.plain
  have last := @noteLoop_body .little memory notes memsz behind
  rw [unsupported, reached] at last
  have stop : (noteLoop .little memory notes memsz).guard ((noteLoop .little memory notes memsz).body behind) = false := by
    rw [last, Bool.eq_false_iff]
    intro go
    have inside := (guard_iff _).mp go
    have out := signed.leads
    exact absurd inside (by dsimp only; omega)
  have tail : (noteLoop .little memory notes memsz).Runs behind [behind] _ := .next goBehind (.done stop)
  rw [← body] at tail
  refine ⟨_, _, takes.runs (.next goNote tail), ?_⟩
  rw [body, last]
  exact stored

theorem checkHeaders_without_notes {host : ByteOrder} {addr : UInt64} {signature : Option Nat} {headers : List ProgramHeader}
    (without : ∀ header ∈ headers, header.type ≠ ptNote) :
    headers.foldlM (checkHeader host memory addr) signature = some signature := by
  induction headers with
  | nil => rfl
  | cons header rest ih =>
    obtain ⟨here, later⟩ := List.forall_mem_cons.mp without
    have kept : checkHeader host memory addr signature header = some signature := if_neg fun both => here both.2
    rw [List.foldlM_cons, kept]
    exact ih later

/-- Whatever the segments before have left, the signature is that of the signed one. -/
theorem Signed.signature {process : HostProcess} {info : DlPhdrInfo} (signed : Signed process info uuid)
    {name : Option GoString} {object : LoadedObject}
    (loaded : handleProgramHeader process.host process.memory name info = some object) :
    ∃ pointer, object.signature = some pointer ∧ process.memory.CString pointer uuid.text := by
  obtain ⟨before, header, after, earlier, signed⟩ := signed
  obtain ⟨signature, checked, rfl⟩ := Option.map_eq_some_iff.mp loaded
  rw [signed.headers, List.foldlM_append] at checked
  obtain ⟨stored, _, checked⟩ := Option.bind_eq_some_iff.mp checked
  rw [List.foldlM_cons] at checked
  obtain ⟨result, here, checked⟩ := Option.bind_eq_some_iff.mp checked
  rw [checkHeaders_without_notes signed.last] at checked
  obtain ⟨trace, last, runs, pointer⟩ := signed.segment.runs
  rw [← signed.host] at runs
  have left : Leaves process.host process.memory info.addr header _ :=
    ⟨signed.note, signed.mapped, trace, last, runs, pointer⟩
  refine ⟨_, ?_, signed.segment.spells⟩
  rcases checkHeader_sound here with ⟨_, _, unmarked⟩ | ⟨_, leaves⟩
  · exact absurd left (unmarked _)
  · exact (Option.some.inj checked).symm.trans (leaves.unique left)

/-- The entry of a signed object spells the UUID. -/
theorem Signed.reported {process : HostProcess} {info : DlPhdrInfo} (signed : Signed process info uuid) {o : NameOutcome}
    {so : SharedObject} (reports : ReportsObject process o info so) : so.signature = some uuid.text := by
  obtain ⟨_, signature, loaded, spelled⟩ := reports
  obtain ⟨pointer, found, text⟩ := signed.signature loaded
  obtain rfl : signature = some pointer := found
  obtain ⟨read, shown, there⟩ := spelled
  rw [shown, there.unique text]

/-- What a report says of the signed objects of a process. -/
structure ReportsSignatures (msg : ProcessInfo) (process : HostProcess) : Prop where
  program : ∀ info uuid, process.objects[0]? = some info → Signed process info uuid → msg.signature = some uuid.text
  sharedObjects : ∀ i info uuid, process.objects[i + 2]? = some info → Signed process info uuid →
    ∃ so, msg.sharedObjects[i]? = some so ∧ so.signature = some uuid.text

theorem Describes.reportsSignatures {msg : ProcessInfo} {call : ClientCall protobuf} (describes : Describes msg call) :
    ReportsSignatures msg call.process := by
  refine ⟨fun info uuid found signed => ?_, fun i info uuid found signed => ?_⟩
  · obtain ⟨program, so, first, reports, same⟩ := describes.signature
    obtain rfl := Option.some.inj (first.symm.trans found)
    exact same.trans (signed.reported reports)
  · obtain ⟨so, entry, reports⟩ := describes.sharedObjects i info found
    exact ⟨so, entry, signed.reported reports⟩

variable {protobuf : Protobuf} {maxReceiveBuffer : UInt32} {config : Configuration}

theorem WriterKind.expected_signature (kind : WriterKind) (msg : ProcessInfo) : (kind.expected msg).signature = msg.signature := by
  cases kind with
  | jsonElasticSearch => rfl
  | jsonOverTcp => rfl
  | jsonFile => rfl

/-- The program of each call that was sent is signed. -/
def ProgramsSigned (drawn : ClientCall protobuf → Uuid) (calls : List (ClientCall protobuf)) : Prop :=
  ∀ call ∈ calls, ∃ program, call.process.objects[0]? = some program ∧ Signed call.process program (drawn call)

/-- The records of the outputs, by the signatures of the programs. -/
structure Attributed (config : Configuration) (s : ServiceState protobuf maxReceiveBuffer) (drawn : ClientCall protobuf → Uuid) : Prop where
  genuine : ∀ r ∈ s.dispatch.persisted, ∃ call ∈ s.sent, ∃ msg, ∃ kind : WriterKind, Describes msg call ∧
    r.content = kind.expected msg ∧ ∀ uuid, r.content.signature = some uuid.text ↔ uuid = drawn call
  counted : s.Settled → ∃ arrived : List (ClientCall protobuf), (∀ call ∈ arrived, call ∈ s.sent) ∧
    s.receive.received = arrived.map (·.datagram) ∧
    ∀ entry ∈ config.outputs, (newWriter entry.2.type).isSome → ∀ uuid,
      (s.dispatch.recordsOf entry.1).countP (·.content.signature = some uuid.text) = arrived.countP (drawn · = uuid)

/-- A program whose one segment with notes is the generated section, with zeros behind it. -/
def signedProgram (uuid : Uuid) : HostProcess where
  host := .little
  memory address := (((generateSignature uuid).drop 0x40).take 0x3C).getD (address - 4096) 0
  pid := 7
  parentPid := 1
  environ := []
  objects := [⟨[], 0, [⟨4, 4096, 60⟩]⟩, ⟨ascii "/lib/libogrt.so", 0, []⟩]
  counted := by decide

def signedMessage (uuid : Uuid) : OgrtProcessInfo := { smallMessage with signature := some uuid.text }

def signedOutcomes (uuid : Uuid) : SendOutcomes :=
  { procMissing.sending with packed := ogrtProcessInfoPack (signedMessage uuid) }

def signedSending (uuid : Uuid) : Sending where
  message := { smallSending.message with signature := some 4117 }
  datagram := frame MessageType.processInfoMsg.value (ogrtProcessInfoPack (signedMessage uuid))

def lowUuid : Uuid := ⟨List.replicate 16 0, rfl⟩

def highUuid : Uuid := ⟨List.replicate 16 0xFF, rfl⟩

theorem signedProgram_segment (uuid : Uuid) (known : uuid = lowUuid ∨ uuid = highUuid) :
    SignedSegment (signedProgram uuid).memory 4096 60 [] uuid where
  even := nofun
  foreign := nofun
  holds := by
    have bytes := Memory.holds_getD 4096 (((generateSignature uuid).drop 0x40).take 0x3C)
    rw [show segmentBytes .little [] = [] from rfl, List.nil_append, signedProgram]
    dsimp only
    exact bytes
  room := by decide
  small := by decide
  plain := by
    rcases known with rfl | rfl
    · decide +kernel
    · decide +kernel
  leads := by
    rcases known with rfl | rfl
    · decide +kernel
    · decide +kernel

theorem signedProgram_signed (uuid : Uuid) (known : uuid = lowUuid ∨ uuid = highUuid) :
    Signed (signedProgram uuid) ⟨[], 0, [⟨4, 4096, 60⟩]⟩ uuid :=
  ⟨[], ⟨4, 4096, 60⟩, [], [], rfl, rfl, rfl, by decide, nofun, signedProgram_segment uuid known⟩

theorem signedProgram_loaded (uuid : Uuid) (known : uuid = lowUuid ∨ uuid = highUuid) :
    ogrtGetLoadedSo (signedProgram uuid) true procMissing.sending.names = .ok [⟨some [], some 4117⟩, ⟨none, none⟩] := by
  rcases known with rfl | rfl
  · decide +kernel
  · decide +kernel

theorem signedSending_made (uuid : Uuid) (known : uuid = lowUuid ∨ uuid = highUuid) :
    ogrtSendProcessinfo bareOptions (signedProgram uuid) 7 1 (signedOutcomes uuid) = .ok (signedSending uuid) := by
  have loaded := signedProgram_loaded uuid known
  unfold ogrtSendProcessinfo
  have infos : (signedOutcomes uuid).infos = true := rfl
  have names : (signedOutcomes uuid).names = procMissing.sending.names := rfl
  rw [infos, names, loaded]
  rcases known with rfl | rfl
  · rfl
  · rfl

theorem signedSending_spells (uuid : Uuid) (known : uuid = lowUuid ∨ uuid = highUuid) :
    (signedSending uuid).message.Spells (signedProgram uuid).memory (signedMessage uuid) :=
  ⟨rfl, rfl, rfl, rfl, ⟨uuid.text, rfl, (signedProgram_segment uuid known).spells⟩, rfl, rfl, rfl, rfl, rfl, rfl, .nil, rfl⟩

def signedCall (uuid : Uuid) (known : uuid = lowUuid ∨ uuid = highUuid) : ClientCall wireProtobuf where
  options := bareOptions
  process := signedProgram uuid
  pid := 7
  parentPid := 1
  outcomes := signedOutcomes uuid
  sending := signedSending uuid
  message := signedMessage uuid
  made := signedSending_made uuid known
  spelled := signedSending_spells uuid known
  packed := by
    rw [signedOutcomes]
    rfl

def lowCall : ClientCall wireProtobuf := signedCall lowUuid (Or.inl rfl)

def highCall : ClientCall wireProtobuf := signedCall highUuid (Or.inr rfl)

/-- The datagram of the first program comes twice, that of the second in between. -/
def signedArrival : List (ServiceLabel wireProtobuf) :=
  [.dispatch (.beginOutput ("file", ⟨"JsonFile", ascii "/tmp/ogrt_jobs/", 1⟩)), .dispatch (.openWriter true),
   .dispatch .appendWriter, .dispatch .startWorker, .dispatch .endOutput, .dispatch (.lookup "file" 0),
   .send lowCall, .send highCall,
   .receive (.readFromUDP lowCall.datagram), .receive .decodeHeader, .unmarshal 0 ["file"],
   .receive (.readFromUDP highCall.datagram), .receive .decodeHeader, .unmarshal 1 ["file"],
   .receive (.readFromUDP lowCall.datagram), .receive .decodeHeader, .unmarshal 2 ["file"],
   .dispatch (.accept 0 0), .dispatch (.persist "file" 0), .dispatch (.finish "file" 0),
   .dispatch (.accept 2 0), .dispatch (.persist "file" 0), .dispatch (.finish "file" 0),
   .dispatch (.accept 1 0), .dispatch (.persist "file" 0), .dispatch (.finish "file" 0)]

/-- The UUID by which the run tells its programs apart. -/
def drawnFor (call : ClientCall wireProtobuf) : Uuid := if call.message.signature = some lowUuid.text then lowUuid else highUuid

theorem drawnFor_signed (call : ClientCall wireProtobuf) (known : call ∈ [lowCall, highCall]) :
    ∃ program, call.process.objects[0]? = some program ∧ Signed call.process program (drawnFor call) := by
  have low : drawnFor lowCall = lowUuid := if_pos rfl
  have high : drawnFor highCall = highUuid := if_neg (by decide +kernel)
  rcases List.mem_pair.mp known with rfl | rfl
  · rw [low]
    exact ⟨_, rfl, signedProgram_signed lowUuid (Or.inl rfl)⟩
  · rw [high]
    exact ⟨_, rfl, signedProgram_signed highUuid (Or.inr rfl)⟩

end Ogrt
