import Ogrt.Lib.BigEndian
import Ogrt.Lib.ByteBuffer
import Ogrt.Protocol

namespace Ogrt
open BigEndian ByteBuffer

/-- What malloc hands out when it succeeds: a block of the size asked for, with any content. -/
abbrev Malloc := (size : Nat) → {block : List UInt8 // block.length = size}

/-- The results of ogrt_prepare_sendbuffer. The payload pointer is its offset into the block. -/
structure SendBuffer where
  buffer : List UInt8
  payload : Nat
  totalLength : Int32

/-- The byte count a C int becomes when it is passed as a size_t. -/
def sizeT (n : Int32) : Nat := n.toInt64.toUInt64.toNat

def ogrtPrepareSendbuffer (host : ByteOrder) (malloc : Malloc) (messageType payloadLength : Int32) :
    SendBuffer :=
  let type := host.image (htonl host messageType.toUInt32)
  let length := host.image (htonl host payloadLength.toUInt32)
  let totalLength := payloadLength + 4 + 4
  let block := (malloc (sizeT totalLength)).val
  ⟨store (store block 0 type) 4 length, 8, totalLength⟩

/-- The end of ogrt_send_processinfo: prepare the buffer, pack the message at the payload
pointer, and pass the buffer with the returned length to send. -/
def sendSerialized (host : ByteOrder) (malloc : Malloc) (messageType : Int32) (packed : List UInt8) :
    SendBuffer × Datagram :=
  let prepared := ogrtPrepareSendbuffer host malloc messageType (Int32.ofNat packed.length)
  let filled := { prepared with buffer := store prepared.buffer prepared.payload packed }
  (filled, filled.buffer.take (sizeT filled.totalLength))

/-- The message format of the protocol: type, payload length, payload. -/
def frame (messageType : Int32) (payload : List UInt8) : Datagram :=
  wordBytes messageType.toUInt32 ++ (wordBytes (UInt32.ofNat payload.length) ++ payload)

@[simp] theorem frame_length (messageType : Int32) (payload : List UInt8) :
    (frame messageType payload).length = payload.length + 8 := by
  simp only [frame, List.length_append, wordBytes_length]
  omega

theorem totalLength_eq {n : Nat} (small : n + 8 < 2 ^ 31) : sizeT (Int32.ofNat n + 4 + 4) = n + 8 := by
  have sum : Int32.ofNat n + 4 + 4 = Int32.ofNat (n + 8) := by
    rw [show n + 8 = n + 4 + 4 from rfl, Int32.ofNat_add, Int32.ofNat_add]
    rfl
  have inRange : ((n + 8 : Nat) : Int) ≤ Int32.maxValue.toInt := by
    have limit : Int32.maxValue.toInt = 2147483647 := by decide
    omega
  rw [sum, sizeT, Int32.toInt64_ofNat' inRange, Int64.toUInt64_ofNat', UInt64.toNat_ofNat',
    Nat.mod_eq_of_lt (by omega)]

theorem header_and_payload_stores {block type length payload : List UInt8} (typeSize : type.length = 4)
    (lengthSize : length.length = 4) (size : block.length = payload.length + 8) :
    store (store (store block 0 type) 4 length) 8 payload = type ++ (length ++ payload) := by
  obtain ⟨x, y, z, rfl, xSize, ySize⟩ : ∃ x y z, block = x ++ (y ++ z) ∧ x.length = 4 ∧ y.length = 4 := by
    refine ⟨block.take 4, (block.drop 4).take 4, (block.drop 4).drop 4, ?_, ?_, ?_⟩
    · rw [List.take_append_drop, List.take_append_drop]
    · rw [List.length_take]; omega
    · rw [List.length_take, List.length_drop]; omega
  have zSize : payload.length = z.length := by
    simp only [List.length_append] at size
    omega
  have first : store (x ++ (y ++ z)) 0 type = type ++ (y ++ z) :=
    @store_append _ [] x (y ++ z) type (typeSize.trans xSize.symm)
  have second : store (type ++ (y ++ z)) 4 length = type ++ (length ++ z) :=
    typeSize ▸ @store_append _ type y z length (lengthSize.trans ySize.symm)
  have third := @store_append _ (type ++ length) z [] payload zSize
  simp only [List.length_append, typeSize, lengthSize, List.append_nil, List.append_assoc] at third
  rw [first, second, third]

/-- The client sends the frame of the message format, whatever malloc left in the block. The
payload is one that fits a UDP datagram of 65507 bytes. -/
theorem sendSerialized_eq (host : ByteOrder) (malloc : Malloc) (messageType : Int32) {packed : List UInt8}
    (small : packed.length + 8 ≤ 65507) :
    sendSerialized host malloc messageType packed =
      (⟨frame messageType packed, 8, Int32.ofNat packed.length + 4 + 4⟩, frame messageType packed) := by
  have total := @totalLength_eq packed.length (by omega)
  have size := (malloc (sizeT (Int32.ofNat packed.length + 4 + 4))).property
  have filled : store (ogrtPrepareSendbuffer host malloc messageType (Int32.ofNat packed.length)).buffer 8 packed =
      frame messageType packed := by
    simp only [ogrtPrepareSendbuffer, image_htonl, Int32.toUInt32_ofNat']
    exact header_and_payload_stores (wordBytes_length _) (wordBytes_length _) (size.trans total)
  have whole : (frame messageType packed).take (packed.length + 8) = frame messageType packed :=
    List.take_of_length_le (frame_length messageType packed).le
  have payloadPointer : (ogrtPrepareSendbuffer host malloc messageType (Int32.ofNat packed.length)).payload = 8 := rfl
  have returned : (ogrtPrepareSendbuffer host malloc messageType (Int32.ofNat packed.length)).totalLength =
      Int32.ofNat packed.length + 4 + 4 := rfl
  simp only [sendSerialized, payloadPointer, filled, returned, total, whole]

end Ogrt
