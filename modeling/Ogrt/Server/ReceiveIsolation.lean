import Ogrt.Server.ReceiveRun

namespace Ogrt
open BigEndian ByteBuffer

variable {maxReceiveBuffer : UInt32}

/-- The bytes that reach proto.Unmarshal for one datagram when its goroutine ends before
the next datagram is read: none after a panic or for another message type. -/
def handedToDecoder (packetBuffer : PacketBuffer maxReceiveBuffer) (datagram : Datagram) :
    Option (List UInt8) :=
  (receiveIteration packetBuffer datagram).bind fun deframed =>
    (DecodeGoroutine.execute ⟨0, deframed.msgType, deframed.data⟩
      (readFromUDP packetBuffer datagram)).unmarshalled

/-- The message sent to the output channels for that datagram. -/
def forwarded (unmarshal : List UInt8 → Option ProcessInfo) (packetBuffer : PacketBuffer maxReceiveBuffer)
    (datagram : Datagram) : Option ProcessInfo :=
  (handedToDecoder packetBuffer datagram).bind unmarshal

/-- The run in which nothing else is scheduled between reading a datagram and decoding it. -/
theorem run_alone {s : ReceiveState maxReceiveBuffer} {datagram : Datagram} {deframed : Deframed}
    (receiving : s.phase = .receiving) (idle : s.pending = [])
    (found : receiveIteration s.packetBuffer datagram = some deframed) :
    ∃ t, (receiveSystem maxReceiveBuffer).run s
        [.readFromUDP datagram, .decodeHeader, .unmarshal s.received.length] = some t ∧
      t.pending = [] ∧ t.packetBuffer = readFromUDP s.packetBuffer datagram ∧
      t.ended = s.ended ++ [⟨⟨s.received.length, deframed.msgType, deframed.data⟩,
        handedToDecoder s.packetBuffer datagram⟩] := by
  rw [receiveIteration] at found
  have handed : handedToDecoder s.packetBuffer datagram =
      (DecodeGoroutine.execute ⟨s.received.length, deframed.msgType, deframed.data⟩
        (readFromUDP s.packetBuffer datagram)).unmarshalled := by
    rw [handedToDecoder, receiveIteration, found]
    rfl
  refine ⟨{ s with
    packetBuffer := readFromUDP s.packetBuffer datagram
    received := s.received ++ [datagram]
    pending := []
    ended := s.ended ++ [DecodeGoroutine.execute ⟨s.received.length, deframed.msgType, deframed.data⟩
      (readFromUDP s.packetBuffer datagram)] }, ?_, rfl, rfl, ?_⟩
  · simp [StepSystem.run, receiveSystem, receiveStep, receiving, idle, found]
  · rw [handed]
    rfl

theorem handedToDecoder_eq_some {packetBuffer : PacketBuffer maxReceiveBuffer} {datagram : Datagram}
    {bytes : List UInt8} :
    handedToDecoder packetBuffer datagram = some bytes ↔
      8 ≤ maxReceiveBuffer.toNat ∧
      (msgLengthField (readFromUDP packetBuffer datagram).bytes).toNat + 8 ≤ maxReceiveBuffer.toNat ∧
      msgTypeField (readFromUDP packetBuffer datagram).bytes = MessageType.processInfoMsg.value ∧
      bytes = (⟨8, (msgLengthField (readFromUDP packetBuffer datagram).bytes).toNat + 8⟩ : Window).read
        (readFromUDP packetBuffer datagram).bytes := by
  simp only [handedToDecoder, receiveIteration, Option.bind_eq_some_iff, decodeHeader_eq_some,
    DecodeGoroutine.execute, Option.ite_none_right_eq_some, Option.some.injEq]
  constructor
  · rintro ⟨deframed, ⟨header, room, rfl⟩, decodes, rfl⟩
    exact ⟨header, room, decodes, rfl⟩
  · rintro ⟨header, room, decodes, rfl⟩
    exact ⟨_, ⟨header, room, rfl⟩, decodes, rfl⟩

/-- What the server decodes and forwards for the datagram is a function of its own bytes,
and it is nothing when they do not cover a header and the payload it claims. -/
structure Isolated (unmarshal : List UInt8 → Option ProcessInfo) (maxReceiveBuffer : UInt32)
    (datagram : Datagram) : Prop where
  decodes : ∀ packetBuffer other : PacketBuffer maxReceiveBuffer,
    handedToDecoder packetBuffer datagram = handedToDecoder other datagram
  forwards : ∀ packetBuffer other : PacketBuffer maxReceiveBuffer,
    forwarded unmarshal packetBuffer datagram = forwarded unmarshal other datagram
  shortSilent : datagram.length < 8 ∨ datagram.length < (msgLengthField datagram).toNat + 8 →
    ∀ packetBuffer : PacketBuffer maxReceiveBuffer, forwarded unmarshal packetBuffer datagram = none

/-- However the bytes missing from its header are filled in, if the header then announces a
ProcessInfo that fits the receive buffer, the datagram covers all of it. -/
def SelfContained (maxReceiveBuffer : UInt32) (datagram : Datagram) : Prop :=
  ∀ missing : List UInt8, missing.length = 8 - datagram.length →
    msgTypeField (datagram ++ missing) = MessageType.processInfoMsg.value →
    (msgLengthField (datagram ++ missing)).toNat + 8 ≤ maxReceiveBuffer.toNat →
    (msgLengthField (datagram ++ missing)).toNat + 8 ≤ datagram.length

/-- The header the server decodes is the datagram's, completed from what the buffer held. -/
theorem header_completed (packetBuffer : PacketBuffer maxReceiveBuffer) (datagram : Datagram)
    (header : 8 ≤ maxReceiveBuffer.toNat) :
    ∃ missing, missing.length = 8 - datagram.length ∧
      msgTypeField (readFromUDP packetBuffer datagram).bytes = msgTypeField (datagram ++ missing) ∧
      msgLengthField (readFromUDP packetBuffer datagram).bytes = msgLengthField (datagram ++ missing) := by
  have size := packetBuffer.size
  by_cases reaches : 8 ≤ datagram.length
  · have own := header_fields_overwrite packetBuffer.bytes datagram (by omega) reaches
    exact ⟨[], by simp; omega, by simpa using own.1, by simpa using own.2⟩
  · refine ⟨(packetBuffer.bytes.drop datagram.length).take (8 - datagram.length), ?_, ?_⟩
    · rw [List.length_take, List.length_drop]
      omega
    · apply header_fields_congr
      rw [readFromUDP_bytes, overwrite_of_le (by omega), List.take_append, List.take_append, List.take_take]
      simp

theorem handedToDecoder_selfContained {datagram : Datagram} (contained : SelfContained maxReceiveBuffer datagram)
    {packetBuffer : PacketBuffer maxReceiveBuffer} {bytes : List UInt8} :
    handedToDecoder packetBuffer datagram = some bytes ↔
      payload? datagram = some bytes ∧ msgTypeField datagram = MessageType.processInfoMsg.value ∧
        (msgLengthField datagram).toNat + 8 ≤ maxReceiveBuffer.toNat := by
  constructor
  · intro handed
    obtain ⟨header, room, decodes, rfl⟩ := handedToDecoder_eq_some.mp handed
    obtain ⟨missing, length, sameType, sameLength⟩ := header_completed packetBuffer datagram header
    have covers := contained missing length (sameType ▸ decodes) (sameLength ▸ room)
    have complete : missing = [] := List.eq_nil_of_length_eq_zero (by omega)
    rw [complete, List.append_nil] at sameType sameLength covers
    rw [sameType] at decodes
    rw [sameLength] at room
    have shown := (receiveIteration_covered packetBuffer (payload?_eq_some.mpr ⟨covers, rfl⟩) room).2
    rw [sameLength, shown]
    exact ⟨payload?_eq_some.mpr ⟨covers, rfl⟩, decodes, room⟩
  · rintro ⟨payload, decodes, room⟩
    have shown := receiveIteration_covered packetBuffer payload room
    rw [handedToDecoder, shown.1]
    simp only [Option.bind_some, DecodeGoroutine.execute, if_pos decodes, shown.2]

/-- The buffer of a server that has received a single datagram. -/
def leftBy (maxReceiveBuffer : UInt32) (earlier : Datagram) : PacketBuffer maxReceiveBuffer :=
  readFromUDP (makePacketBuffer maxReceiveBuffer) earlier

/-- After an earlier datagram that it is the beginning of, a datagram is decoded as if
the earlier one had come again. -/
theorem handedToDecoder_leftBy {datagram earlier : Datagram} {bytes : List UInt8}
    (starts : datagram <+: earlier) (header : 8 ≤ maxReceiveBuffer.toNat) (reaches : 8 ≤ earlier.length) :
    handedToDecoder (leftBy maxReceiveBuffer earlier) datagram = some bytes ↔
      (msgLengthField earlier).toNat + 8 ≤ maxReceiveBuffer.toNat ∧
      msgTypeField earlier = MessageType.processInfoMsg.value ∧
      bytes = (⟨8, (msgLengthField earlier).toNat + 8⟩ : Window).read
        (overwrite (makePacketBuffer maxReceiveBuffer).bytes earlier) := by
  have size := (makePacketBuffer maxReceiveBuffer).size
  have own := header_fields_overwrite (makePacketBuffer maxReceiveBuffer).bytes earlier (by omega) reaches
  have again : (readFromUDP (leftBy maxReceiveBuffer earlier) datagram).bytes =
      overwrite (makePacketBuffer maxReceiveBuffer).bytes earlier := by
    rw [readFromUDP_bytes, leftBy, readFromUDP_bytes, overwrite_overwrite_prefix starts]
  rw [handedToDecoder_eq_some, again, own.1, own.2]
  exact ⟨fun parts => parts.2, fun parts => ⟨header, parts⟩⟩

/-- A datagram that ends inside the payload it claims shows the decoder what follows it. -/
theorem stale_payload {datagram : Datagram} (reaches : 8 ≤ datagram.length)
    (decodes : msgTypeField datagram = MessageType.processInfoMsg.value)
    (room : (msgLengthField datagram).toNat + 8 ≤ maxReceiveBuffer.toNat)
    (short : datagram.length < (msgLengthField datagram).toNat + 8) :
    ∃ packetBuffer other : PacketBuffer maxReceiveBuffer,
      handedToDecoder packetBuffer datagram ≠ handedToDecoder other datagram := by
  have size := (makePacketBuffer maxReceiveBuffer).size
  have fields (b : UInt8) : msgTypeField (datagram ++ [b]) = msgTypeField datagram ∧
      msgLengthField (datagram ++ [b]) = msgLengthField datagram :=
    header_fields_congr (List.take_append_of_le_length reaches)
  have handed (b : UInt8) := (handedToDecoder_leftBy (List.prefix_append datagram [b]) (by omega)
    (by rw [List.length_append]; omega)).mpr
      ⟨(fields b).2 ▸ room, (fields b).1 ▸ decodes, rfl⟩
  refine ⟨leftBy maxReceiveBuffer (datagram ++ [0]), leftBy maxReceiveBuffer (datagram ++ [1]), ?_⟩
  rw [handed 0, handed 1, (fields 0).2, (fields 1).2]
  intro same
  have next := (Window.read_eq_iff _ _ _).mp (Option.some.inj same) datagram.length reaches short
  rw [overwrite_getElem?_data (by omega) (by simp), overwrite_getElem?_data (by omega) (by simp)] at next
  simp at next

/-- A datagram that ends inside its header lets the bytes after it choose the length. -/
theorem stale_header {datagram : Datagram} {missing : List UInt8}
    (length : missing.length = 8 - datagram.length) (short : datagram.length < 8)
    (decodes : msgTypeField (datagram ++ missing) = MessageType.processInfoMsg.value)
    (room : (msgLengthField (datagram ++ missing)).toNat + 8 ≤ maxReceiveBuffer.toNat) :
    ∃ packetBuffer other : PacketBuffer maxReceiveBuffer,
      handedToDecoder packetBuffer datagram ≠ handedToDecoder other datagram := by
  have size := (makePacketBuffer maxReceiveBuffer).size
  have nonempty : missing ≠ [] := List.ne_nil_of_length_pos (by omega)
  obtain ⟨front, last, rfl⟩ : ∃ front last, missing = front ++ [last] :=
    ⟨_, _, (List.dropLast_append_getLast nonempty).symm⟩
  have count : (datagram ++ front).length = 7 := by
    simp only [List.length_append, List.length_singleton] at length ⊢
    omega
  have reaches (b : UInt8) : 8 ≤ (datagram ++ (front ++ [b])).length := by
    rw [← List.append_assoc, List.length_append, count]
    rfl
  have handed := (handedToDecoder_leftBy (List.prefix_append datagram (front ++ [last])) (by omega)
    (reaches last)).mpr ⟨room, decodes, rfl⟩
  refine ⟨leftBy maxReceiveBuffer (datagram ++ (front ++ [last])),
    leftBy maxReceiveBuffer (datagram ++ (front ++ [last + 1])), ?_⟩
  rw [handed]
  intro same
  obtain ⟨room', _, shown⟩ := (handedToDecoder_leftBy (List.prefix_append datagram (front ++ [last + 1]))
    (by omega) (reaches (last + 1))).mp same.symm
  have sizes := congrArg List.length shown
  simp only [Window.read_length, overwrite_length, size] at sizes
  have sameLength : msgLengthField (datagram ++ (front ++ [last])) =
      msgLengthField (datagram ++ (front ++ [last + 1])) := UInt32.toNat_inj.mp (by omega)
  have bytes (b : UInt8) : wordBytes (msgLengthField (datagram ++ (front ++ [b]))) =
      (datagram ++ front).drop 4 ++ [b] := by
    rw [msgLengthField, ← List.append_assoc, List.drop_append_of_le_length (by omega), wordBytes_word]
    simp only [List.length_append, List.length_drop, List.length_singleton] at count ⊢
    omega
  have lasts := (bytes last).symm.trans ((congrArg wordBytes sameLength).trans (bytes (last + 1)))
  simp at lasts

/-- Earlier traffic has no part in what a datagram yields exactly when every completion of
its header that announces a fitting ProcessInfo is covered by the datagram itself. -/
theorem isolated_iff (unmarshal : List UInt8 → Option ProcessInfo) (maxReceiveBuffer : UInt32)
    (datagram : Datagram) :
    Isolated unmarshal maxReceiveBuffer datagram ↔ SelfContained maxReceiveBuffer datagram := by
  constructor
  · intro isolated missing length decodes room
    by_contra uncovered
    obtain ⟨packetBuffer, other, differ⟩ : ∃ packetBuffer other : PacketBuffer maxReceiveBuffer,
        handedToDecoder packetBuffer datagram ≠ handedToDecoder other datagram := by
      by_cases reaches : 8 ≤ datagram.length
      · have complete : missing = [] := List.eq_nil_of_length_eq_zero (by omega)
        rw [complete, List.append_nil] at decodes room uncovered
        exact stale_payload reaches decodes room (by omega)
      · exact stale_header length (by omega) decodes room
    exact differ (isolated.decodes packetBuffer other)
  · intro contained
    have decodes (packetBuffer other : PacketBuffer maxReceiveBuffer) :
        handedToDecoder packetBuffer datagram = handedToDecoder other datagram := by
      apply Option.ext
      intro bytes
      rw [handedToDecoder_selfContained contained, handedToDecoder_selfContained contained]
    refine ⟨decodes, fun packetBuffer other => ?_, fun short packetBuffer => ?_⟩
    · rw [forwarded, forwarded, decodes packetBuffer other]
    · have nothing : handedToDecoder packetBuffer datagram = none := by
        by_contra some
        obtain ⟨bytes, handed⟩ := Option.ne_none_iff_exists'.mp some
        obtain ⟨covers, _⟩ := payload?_eq_some.mp ((handedToDecoder_selfContained contained).mp handed).1
        omega
      rw [forwarded, nothing, Option.bind_none]

/-- A bare header claiming thirteen bytes makes the server decode the report before it. -/
theorem bare_header_not_isolated :
    ¬ ∀ (unmarshal : List UInt8 → Option ProcessInfo) (maxReceiveBuffer : UInt32) (datagram : Datagram),
      Isolated unmarshal maxReceiveBuffer datagram := by
  intro isolated
  have same := (isolated (fun _ => none) 64 [0, 0, 0, 12, 0, 0, 0, 13]).decodes
    (leftBy 64 (frame 12 [0xE2, 0x12, 1, 0x61, 0xE8, 0x12, 7, 0xF0, 0x12, 1, 0xF8, 0x12, 5]))
    (makePacketBuffer 64)
  exact absurd same (by decide)

end Ogrt
