import Ogrt.Lib.BigEndian
import Ogrt.Lib.ByteBuffer
import Ogrt.Protocol

namespace Ogrt
open BigEndian ByteBuffer

/-- The one receive buffer of the server. Its length is the configured MaxReceiveBuffer. -/
structure PacketBuffer (maxReceiveBuffer : UInt32) where
  bytes : List UInt8
  size : bytes.length = maxReceiveBuffer.toNat

/-- `make([]byte, config.MaxReceiveBuffer)` -/
def makePacketBuffer (maxReceiveBuffer : UInt32) : PacketBuffer maxReceiveBuffer where
  bytes := List.replicate maxReceiveBuffer.toNat 0
  size := List.length_replicate

variable {maxReceiveBuffer : UInt32}

/-- A datagram is copied over the beginning of the buffer. What does not fit is dropped
without an error, and what the datagram does not reach keeps its old content. -/
def readFromUDP (packetBuffer : PacketBuffer maxReceiveBuffer) (datagram : Datagram) :
    PacketBuffer maxReceiveBuffer where
  bytes := overwrite packetBuffer.bytes datagram
  size := (overwrite_length _ _).trans packetBuffer.size

@[simp] theorem readFromUDP_bytes (packetBuffer : PacketBuffer maxReceiveBuffer) (datagram : Datagram) :
    (readFromUDP packetBuffer datagram).bytes = overwrite packetBuffer.bytes datagram := rfl

structure Deframed where
  msgType : Int32
  data : Window
  deriving DecidableEq, Repr

/-- The header decoding of the receive loop, up to the start of the goroutine. No result
is the run-time panic of a slice expression out of bounds. -/
def decodeHeader (packetBuffer : PacketBuffer maxReceiveBuffer) : Option Deframed := do
  let typeBytes ← slice packetBuffer.bytes.length 0 4
  let msgType := (word (typeBytes.read packetBuffer.bytes)).toInt32
  let lengthBytes ← slice packetBuffer.bytes.length 4 8
  let msgLength := word (lengthBytes.read packetBuffer.bytes)
  let data ← slice packetBuffer.bytes.length 8 (msgLength + 8).toNat
  return ⟨msgType, data⟩

def receiveIteration (packetBuffer : PacketBuffer maxReceiveBuffer) (datagram : Datagram) :
    Option Deframed :=
  decodeHeader (readFromUDP packetBuffer datagram)

/-- The type field of the header at the beginning of a byte string. -/
def msgTypeField (bytes : List UInt8) : Int32 := (word bytes).toInt32

/-- The length field of the header at the beginning of a byte string. -/
def msgLengthField (bytes : List UInt8) : UInt32 := word (bytes.drop 4)

theorem word_take {n : Nat} (bytes : List UInt8) (enough : 4 ≤ n) : word (bytes.take n) = word bytes := by
  rw [word, word, List.take_take, Nat.min_eq_left enough]

/-- A wrapped sum lies below the header, so the slice rule rejects it as it rejects a sum
past the end: what passes is an unwrapped sum within the buffer. -/
theorem payload_slice {capacity : Nat} {msgLength : UInt32} (bound : capacity < 2 ^ 32) :
    slice capacity 8 (msgLength + 8).toNat =
      if msgLength.toNat + 8 ≤ capacity then some ⟨8, msgLength.toNat + 8⟩ else none := by
  have below := msgLength.toNat_lt
  have sum : (msgLength + 8).toNat = (msgLength.toNat + 8) % 2 ^ 32 := by simp
  rw [slice, sum]
  by_cases fits : msgLength.toNat + 8 ≤ capacity
  · rw [Nat.mod_eq_of_lt (by omega), if_pos fits, if_pos ⟨by omega, fits⟩]
  · rw [if_neg fits, if_neg (by omega)]

theorem decodeHeader_eq (packetBuffer : PacketBuffer maxReceiveBuffer) :
    decodeHeader packetBuffer =
      if 8 ≤ maxReceiveBuffer.toNat ∧
          (msgLengthField packetBuffer.bytes).toNat + 8 ≤ maxReceiveBuffer.toNat then
        some ⟨msgTypeField packetBuffer.bytes, ⟨8, (msgLengthField packetBuffer.bytes).toNat + 8⟩⟩
      else none := by
  obtain ⟨bytes, size⟩ := packetBuffer
  have bound : bytes.length < 2 ^ 32 := size ▸ maxReceiveBuffer.toNat_lt
  have lengthWord : word ((bytes.take 8).drop 4) = msgLengthField bytes := by
    rw [List.drop_take, word_take _ (by decide), msgLengthField]
  simp only [decodeHeader, ← size]
  by_cases header : 8 ≤ bytes.length
  · have typeSlice : slice bytes.length 0 4 = some ⟨0, 4⟩ := slice_eq_some.mpr ⟨rfl, by omega, by omega⟩
    have lengthSlice : slice bytes.length 4 8 = some ⟨4, 8⟩ := slice_eq_some.mpr ⟨rfl, by omega, header⟩
    simp only [typeSlice, lengthSlice, Option.bind_eq_bind, Option.bind_some, Window.read,
      List.drop_zero, word_take _ le_rfl, lengthWord, payload_slice bound, header, true_and, msgTypeField]
    split <;> rfl
  · have lengthSlice : slice bytes.length 4 8 = none := if_neg (by omega)
    rw [if_neg (by omega), lengthSlice]
    cases slice bytes.length 0 4 <;> rfl

theorem decodeHeader_eq_some {packetBuffer : PacketBuffer maxReceiveBuffer} {deframed : Deframed} :
    decodeHeader packetBuffer = some deframed ↔
      8 ≤ maxReceiveBuffer.toNat ∧
        (msgLengthField packetBuffer.bytes).toNat + 8 ≤ maxReceiveBuffer.toNat ∧
        deframed = ⟨msgTypeField packetBuffer.bytes,
          ⟨8, (msgLengthField packetBuffer.bytes).toNat + 8⟩⟩ := by
  rw [decodeHeader_eq]
  split
  · rename_i fits
    simp only [Option.some.injEq, fits, true_and, eq_comm]
  · rename_i refused
    simp only [reduceCtorEq, false_iff]
    exact fun parts => refused ⟨parts.1, parts.2.1⟩

theorem header_fields_congr {bytes other : List UInt8} (same : bytes.take 8 = other.take 8) :
    msgTypeField bytes = msgTypeField other ∧ msgLengthField bytes = msgLengthField other := by
  have later := congrArg (List.drop 4) same
  rw [List.drop_take, List.drop_take] at later
  refine ⟨?_, ?_⟩
  · rw [msgTypeField, msgTypeField, ← word_take bytes (by decide : 4 ≤ 8), same, word_take _ (by decide)]
  · rw [msgLengthField, msgLengthField, ← word_take (bytes.drop 4) (by decide : 4 ≤ 8 - 4), later,
      word_take _ (by decide)]

/-- A datagram that reaches past the header decides both fields by itself. -/
theorem header_fields_overwrite (array : List UInt8) (datagram : Datagram)
    (room : 8 ≤ array.length) (reaches : 8 ≤ datagram.length) :
    msgTypeField (overwrite array datagram) = msgTypeField datagram ∧
      msgLengthField (overwrite array datagram) = msgLengthField datagram :=
  header_fields_congr (@Window.read_overwrite _ ⟨0, 8⟩ _ _ room reaches)

/-- The iteration reaches the goroutine exactly when the buffer holds a header and the
length field it shows after the read, whoever sent those bytes, leaves the payload room. -/
theorem receiveIteration_completes_iff (packetBuffer : PacketBuffer maxReceiveBuffer) (datagram : Datagram) :
    (receiveIteration packetBuffer datagram).isSome ↔
      8 ≤ maxReceiveBuffer.toNat ∧
        (msgLengthField (overwrite packetBuffer.bytes datagram)).toNat + 8 ≤ maxReceiveBuffer.toNat := by
  rw [receiveIteration, decodeHeader_eq]
  split
  · rename_i fits
    exact iff_of_true rfl fits
  · rename_i refused
    exact iff_of_false Bool.false_ne_true refused

theorem receiveIteration_longest_claim (packetBuffer : PacketBuffer 262144) :
    receiveIteration packetBuffer [0, 0, 0, 12, 255, 255, 255, 255] = none := by
  by_contra completes
  obtain ⟨deframed, found⟩ := Option.ne_none_iff_exists'.mp completes
  obtain ⟨header, room, _⟩ := decodeHeader_eq_some.mp found
  have own := (header_fields_overwrite packetBuffer.bytes [0, 0, 0, 12, 255, 255, 255, 255]
    (packetBuffer.size ▸ header) le_rfl).2
  have claimed : (msgLengthField [0, 0, 0, 12, 255, 255, 255, 255]).toNat = 4294967295 := by decide
  rw [readFromUDP, own, claimed] at room
  exact absurd room (by decide)

/-- Eight bytes that claim the longest payload stop a server with the shipped buffer size. -/
theorem receiveIteration_can_panic :
    ¬ ∀ (maxReceiveBuffer : UInt32) (packetBuffer : PacketBuffer maxReceiveBuffer) (datagram : Datagram),
      (receiveIteration packetBuffer datagram).isSome := by
  intro completes
  have shipped := completes 262144 (makePacketBuffer 262144) [0, 0, 0, 12, 255, 255, 255, 255]
  rw [receiveIteration_longest_claim] at shipped
  exact Bool.false_ne_true shipped

end Ogrt
