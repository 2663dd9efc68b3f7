import Ogrt.Client.SendBuffer
import Ogrt.Server.ReceiveLoop

namespace Ogrt
open BigEndian ByteBuffer

variable {maxReceiveBuffer : UInt32}

/-- The bytes a datagram carries behind its header, when it carries as many as it claims. -/
def payload? (datagram : Datagram) : Option (List UInt8) :=
  if (msgLengthField datagram).toNat + 8 ≤ datagram.length then
    some ((⟨8, (msgLengthField datagram).toNat + 8⟩ : Window).read datagram)
  else none

theorem payload?_eq_some {datagram : Datagram} {payload : List UInt8} :
    payload? datagram = some payload ↔ (msgLengthField datagram).toNat + 8 ≤ datagram.length ∧
      payload = (⟨8, (msgLengthField datagram).toNat + 8⟩ : Window).read datagram := by
  unfold payload?
  split
  · rename_i covered
    simp only [Option.some.injEq, covered, true_and, eq_comm]
  · rename_i short
    simp only [reduceCtorEq, short, false_and]

@[simp] theorem msgTypeField_frame (messageType : Int32) (payload : List UInt8) :
    msgTypeField (frame messageType payload) = messageType := by
  rw [msgTypeField, frame, word_wordBytes, Int32.toInt32_toUInt32]

theorem msgLengthField_frame (messageType : Int32) {payload : List UInt8} (small : payload.length < 2 ^ 32) :
    (msgLengthField (frame messageType payload)).toNat = payload.length := by
  rw [msgLengthField, frame, List.drop_left' (wordBytes_length _), word_wordBytes, UInt32.toNat_ofNat',
    Nat.mod_eq_of_lt small]

theorem payload?_frame (messageType : Int32) {payload : List UInt8} (small : payload.length < 2 ^ 32) :
    payload? (frame messageType payload) = some payload := by
  have claimed := msgLengthField_frame messageType small
  rw [payload?_eq_some, claimed, frame_length]
  refine ⟨le_rfl, ?_⟩
  rw [Window.read, List.take_of_length_le (frame_length _ _).le, frame, ← List.append_assoc,
    List.drop_left' (by simp)]

/-- A datagram that covers what it claims is deframed from its own bytes alone. -/
theorem receiveIteration_covered (packetBuffer : PacketBuffer maxReceiveBuffer) {datagram : Datagram}
    {payload : List UInt8} (covered : payload? datagram = some payload)
    (room : (msgLengthField datagram).toNat + 8 ≤ maxReceiveBuffer.toNat) :
    receiveIteration packetBuffer datagram =
        some ⟨msgTypeField datagram, ⟨8, (msgLengthField datagram).toNat + 8⟩⟩ ∧
      (⟨8, (msgLengthField datagram).toNat + 8⟩ : Window).read (readFromUDP packetBuffer datagram).bytes =
        payload := by
  obtain ⟨reaches, rfl⟩ := payload?_eq_some.mp covered
  obtain ⟨sameType, sameLength⟩ := header_fields_overwrite packetBuffer.bytes datagram (by rw [packetBuffer.size]; omega) (by omega)
  refine ⟨?_, Window.read_overwrite (by rw [packetBuffer.size]; exact room) reaches⟩
  rw [receiveIteration, decodeHeader_eq_some, readFromUDP, sameType, sameLength]
  exact ⟨by omega, room, rfl⟩

/-- What the client frames the server deframes: same type, same payload, for either byte
order of the client and whatever malloc and earlier traffic left in the two buffers. -/
theorem client_frame_server_deframe (host : ByteOrder) (malloc : Malloc) (messageType : Int32)
    (packed : List UInt8) (packetBuffer : PacketBuffer maxReceiveBuffer)
    (datagramLimit : packed.length + 8 ≤ 65507) (room : packed.length + 8 ≤ maxReceiveBuffer.toNat) :
    ∃ filled datagram deframed,
      sendSerialized host malloc messageType packed = (filled, datagram) ∧
      filled.buffer.length = sizeT filled.totalLength ∧ sizeT filled.totalLength = packed.length + 8 ∧
      datagram = filled.buffer ∧
      receiveIteration packetBuffer datagram = some deframed ∧ deframed.msgType = messageType ∧
      deframed.data.read (readFromUDP packetBuffer datagram).bytes = packed := by
  have small : packed.length < 2 ^ 32 := by omega
  have claimed := msgLengthField_frame messageType small
  have total := @totalLength_eq packed.length (by omega)
  obtain ⟨deframed, shown⟩ := receiveIteration_covered packetBuffer
    (payload?_frame messageType small) (by rw [claimed]; exact room)
  refine ⟨_, _, _, sendSerialized_eq host malloc messageType datagramLimit, ?_, total, rfl, deframed,
    msgTypeField_frame _ _, shown⟩
  rw [frame_length, total]

theorem client_frame_server_deframe_shipped :
    ∃ filled datagram deframed,
      sendSerialized .little (fun size => ⟨List.replicate size 170, List.length_replicate⟩) 12 [1, 2, 3] =
        (filled, datagram) ∧
      filled.buffer.length = sizeT filled.totalLength ∧ sizeT filled.totalLength = [1, 2, 3].length + 8 ∧
      datagram = filled.buffer ∧
      receiveIteration (makePacketBuffer 262144) datagram = some deframed ∧ deframed.msgType = 12 ∧
      deframed.data.read (readFromUDP (makePacketBuffer 262144) datagram).bytes = [1, 2, 3] :=
  client_frame_server_deframe .little _ 12 [1, 2, 3] (makePacketBuffer 262144) (by decide) (by decide)

end Ogrt
