import Ogrt.Client.InitHookSafety
import Ogrt.Framing
import Ogrt.Wire.RoundTrip

namespace Ogrt
open BigEndian ByteBuffer Checked

/-- The text behind a pointer that may be NULL. -/
def TextAt (memory : Memory) : Option Nat → Option GoString → Prop
  | none, text => text = none
  | some pointer, text => ∃ read, text = some read ∧ memory.CString pointer read

/-- The message the client has put together, with the texts its pointers lead to. -/
structure ClientProcessInfo.Spells (msg : ClientProcessInfo) (memory : Memory) (m : OgrtProcessInfo) : Prop where
  binpath : m.binpath = msg.binpath
  pid : m.pid = msg.pid
  parentPid : m.parentPid = msg.parentPid
  time : m.time = msg.time
  signature : TextAt memory msg.signature m.signature
  jobId : m.jobId = some msg.jobId
  username : m.username = msg.username
  hostname : m.hostname = msg.hostname
  cmdline : m.cmdline = msg.cmdline
  environmentVariables : m.environmentVariables = msg.environmentVariables
  arguments : m.arguments = []
  sharedObjects : List.Forall₂ (fun object so => so.path = object.path ∧ TextAt memory object.signature so.signature)
    (msg.sharedObjects.take msg.nSharedObjects) m.sharedObjects
  loadedModules : m.loadedModules = msg.loadedModules.map OgrtModule.mk

/-- A call of ogrt_send_processinfo that comes to send, with the message it packs. -/
structure ClientCall (protobuf : Protobuf) where
  options : CompileOptions
  process : HostProcess
  pid : Int32
  parentPid : Int32
  outcomes : SendOutcomes
  sending : Sending
  message : OgrtProcessInfo
  made : ogrtSendProcessinfo options process pid parentPid outcomes = .ok sending
  spelled : sending.message.Spells process.memory message
  packed : outcomes.packed = protobuf.pack message

variable {protobuf : Protobuf}

def ClientCall.datagram (call : ClientCall protobuf) : Datagram := call.sending.datagram

/-- The most that UDP carries in one datagram. -/
def udpLimit : Nat := 65507

/-- The whole buffer is sent. -/
theorem sendSerialized_length (host : ByteOrder) (malloc : Malloc) (messageType : Int32) (packed : List UInt8) :
    (sendSerialized host malloc messageType packed).1.buffer.length = sizeT (Int32.ofNat packed.length + 4 + 4) ∧
      (sendSerialized host malloc messageType packed).2.length = sizeT (Int32.ofNat packed.length + 4 + 4) := by
  have size : (sendSerialized host malloc messageType packed).1.buffer.length =
      sizeT (Int32.ofNat packed.length + 4 + 4) := by
    simp only [sendSerialized, ogrtPrepareSendbuffer, store_length]
    exact (malloc _).property
  refine ⟨size, ?_⟩
  show ((sendSerialized host malloc messageType packed).1.buffer.take (sizeT (Int32.ofNat packed.length + 4 + 4))).length = _
  rw [List.length_take, size, Nat.min_self]

/-- A call whose datagram UDP can carry sends the frame of the message, whatever malloc left
in the buffer. -/
theorem ClientCall.datagram_eq (call : ClientCall protobuf) (carried : call.datagram.length ≤ udpLimit) :
    call.datagram = frame MessageType.processInfoMsg.value (protobuf.pack call.message) ∧
      (protobuf.pack call.message).length + 8 ≤ udpLimit := by
  obtain ⟨so_infos, parts⟩ := ogrtSendProcessinfo_gathered call.made
  have sent := parts.datagram
  unfold packAndSend at sent
  split at sent
  · cases sent
  · rename_i malloc allocated
    obtain ⟨buffer, length⟩ := sendSerialized_length call.process.host malloc MessageType.processInfoMsg.value
      call.outcomes.packed
    dsimp only at sent
    split at sent
    · rename_i fits
      have datagram : (sendSerialized call.process.host malloc MessageType.processInfoMsg.value
          call.outcomes.packed).2 = call.datagram := Except.ok.inj sent
      have inside : 8 + call.outcomes.packed.length ≤ sizeT (Int32.ofNat call.outcomes.packed.length + 4 + 4) :=
        buffer ▸ fits
      have small : call.outcomes.packed.length + 8 ≤ udpLimit := by
        rw [← datagram, length] at carried
        omega
      rw [sendSerialized_eq _ _ _ small] at datagram
      rw [← call.packed]
      exact ⟨datagram.symm, small⟩
    · cases sent

/-- A failed asprintf leaves a pointer that packing does not survive. -/
theorem ClientCall.textsSet (call : ClientCall protobuf) : call.message.TextsSet := by
  obtain ⟨so_infos, parts⟩ := ogrtSendProcessinfo_gathered call.made
  have readable := (ClientProcessInfo.readPointers_succeeds.mp ⟨_, parts.readable⟩).1
  unfold OgrtProcessInfo.TextsSet
  rw [call.spelled.environmentVariables, call.spelled.arguments, List.append_nil]
  exact List.all_eq_true.mp readable

/-- What the server makes of a datagram on its own. -/
def datagramReport (protobuf : Protobuf) (datagram : Datagram) : Option ProcessInfo :=
  if msgTypeField datagram = MessageType.processInfoMsg.value then
    (payload? datagram).bind protobuf.unmarshal
  else none

theorem ClientCall.datagramReport_eq (call : ClientCall protobuf) (carried : call.datagram.length ≤ udpLimit)
    (utf8 : call.message.received.HasUtf8) :
    datagramReport protobuf call.datagram = some call.message.received := by
  obtain ⟨datagram, small⟩ := call.datagram_eq carried
  have limit : udpLimit = 65507 := rfl
  have short : (protobuf.pack call.message).length < 2 ^ 31 := by omega
  rw [datagramReport, datagram, if_pos (msgTypeField_frame _ _), payload?_frame _ (by omega), Option.bind_some]
  exact protobuf.unmarshal_pack call.textsSet short utf8

end Ogrt
