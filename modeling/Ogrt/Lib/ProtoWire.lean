import Mathlib.Data.List.Basic
import Mathlib.Tactic.Ring

namespace ProtoWire

/-- Base 128, the lowest digit first. A byte from 128 on says that another one follows. -/
def writeVarint : Nat → Nat → List UInt8
  | 0, _ => []
  | limit + 1, n =>
    if n < 128 then [UInt8.ofNat n] else UInt8.ofNat (128 + n % 128) :: writeVarint limit (n / 128)

/-- No result for a number that is cut off or has more bytes than the limit. -/
def readVarint : Nat → List UInt8 → Option (Nat × List UInt8)
  | 0, _ => none
  | _ + 1, [] => none
  | limit + 1, b :: rest =>
    if b.toNat < 128 then some (b.toNat, rest)
    else (readVarint limit rest).map fun read => (b.toNat - 128 + 128 * read.1, read.2)

theorem readVarint_write {limit n : Nat} (fits : n < 128 ^ limit) (positive : 0 < limit) (rest : List UInt8) :
    readVarint limit (writeVarint limit n ++ rest) = some (n, rest) := by
  induction limit generalizing n with
  | zero => omega
  | succ limit ih =>
    by_cases last : n < 128
    · have digit : (UInt8.ofNat n).toNat = n := by
        rw [UInt8.toNat_ofNat']
        omega
      simp only [writeVarint, if_pos last, List.cons_append, List.nil_append, readVarint, digit]
    · have digit : (UInt8.ofNat (128 + n % 128)).toNat = 128 + n % 128 := by
        rw [UInt8.toNat_ofNat']
        omega
      have higher : n / 128 < 128 ^ limit := by
        rw [Nat.div_lt_iff_lt_mul (by omega), ← pow_succ]
        exact fits
      have more : 0 < limit := by
        rcases Nat.eq_zero_or_pos limit with rfl | more
        · exact absurd fits (by omega)
        · exact more
      have continues : ¬ 128 + n % 128 < 128 := by omega
      simp only [writeVarint, if_neg last, List.cons_append, readVarint, digit, if_neg continues, ih higher more,
        Option.map_some]
      congr 2
      omega

/-- A 64 bit number takes at most ten bytes. -/
def varint (n : UInt64) : List UInt8 := writeVarint 10 n.toNat

/-- Bits above the 64th are lost. -/
def takeVarint (bytes : List UInt8) : Option (UInt64 × List UInt8) :=
  (readVarint 10 bytes).map fun read => (UInt64.ofNat read.1, read.2)

@[simp] theorem takeVarint_varint (n : UInt64) (rest : List UInt8) : takeVarint (varint n ++ rest) = some (n, rest) := by
  have fits : n.toNat < 128 ^ 10 := Nat.lt_trans n.toNat_lt (by decide)
  rw [takeVarint, varint, readVarint_write fits (by omega)]
  simp

theorem varint_ne_nil (n : UInt64) : varint n ≠ [] := by
  rw [varint, writeVarint]
  split
  · exact List.cons_ne_nil _ _
  · exact List.cons_ne_nil _ _

inductive WireType
  | varint
  | fixed64
  | bytes
  | fixed32
  deriving DecidableEq, Repr

def WireType.code : WireType → Nat
  | .varint => 0
  | .fixed64 => 1
  | .bytes => 2
  | .fixed32 => 5

inductive WireValue
  | varint (n : UInt64)
  | fixed64 (block : {block : List UInt8 // block.length = 8})
  | bytes (payload : List UInt8)
  | fixed32 (block : {block : List UInt8 // block.length = 4})
  deriving DecidableEq, Repr

def WireValue.wireType : WireValue → WireType
  | .varint _ => .varint
  | .fixed64 _ => .fixed64
  | .bytes _ => .bytes
  | .fixed32 _ => .fixed32

/-- The bytes whose number is written before them. -/
def WireValue.payload : WireValue → List UInt8
  | .bytes payload => payload
  | .varint _ => []
  | .fixed64 _ => []
  | .fixed32 _ => []

/-- One field: its number and its value. -/
structure WireRecord where
  number : Nat
  value : WireValue
  deriving DecidableEq, Repr

/-- The length of a payload is written as a 32 bit number. -/
def WireValue.write : WireValue → List UInt8
  | .varint n => ProtoWire.varint n
  | .fixed64 block => block.val
  | .bytes payload => ProtoWire.varint (UInt32.ofNat payload.length).toUInt64 ++ payload
  | .fixed32 block => block.val

def WireRecord.write (r : WireRecord) : List UInt8 :=
  varint (UInt64.ofNat (r.number * 8 + r.value.wireType.code)) ++ r.value.write

def write (records : List WireRecord) : List UInt8 := records.flatMap WireRecord.write

def takeBlock (size : Nat) (bytes : List UInt8) : Option ({block : List UInt8 // block.length = size} × List UInt8) :=
  if enough : size ≤ bytes.length then some (⟨bytes.take size, List.length_take_of_le enough⟩, bytes.drop size)
  else none

/-- The value after a key with this type code. Groups have no reading here. -/
def readValue (code : Nat) (bytes : List UInt8) : Option (WireValue × List UInt8) :=
  if code = 0 then (takeVarint bytes).map fun read => (.varint read.1, read.2)
  else if code = 1 then (takeBlock 8 bytes).map fun read => (.fixed64 read.1, read.2)
  else if code = 2 then (takeVarint bytes).bind fun length =>
    (takeBlock length.1.toNat length.2).map fun read => (.bytes read.1.val, read.2)
  else if code = 5 then (takeBlock 4 bytes).map fun read => (.fixed32 read.1, read.2)
  else none

/-- No field has the number 0. -/
def readRecord (bytes : List UInt8) : Option (WireRecord × List UInt8) :=
  (takeVarint bytes).bind fun key =>
    if key.1.toNat / 8 = 0 then none
    else (readValue (key.1.toNat % 8) key.2).map fun read => (⟨key.1.toNat / 8, read.1⟩, read.2)

/-- A record takes at least one byte, so the length of the input is enough of a limit. -/
def readRecords : Nat → List UInt8 → Option (List WireRecord)
  | _, [] => some []
  | 0, _ :: _ => none
  | limit + 1, b :: bytes =>
    (readRecord (b :: bytes)).bind fun read => (readRecords limit read.2).map (read.1 :: ·)

def read (bytes : List UInt8) : Option (List WireRecord) := readRecords bytes.length bytes

/-- A record that a key and a length can describe. -/
structure WireRecord.Writable (r : WireRecord) : Prop where
  positive : 0 < r.number
  number : r.number < 2 ^ 29
  length : r.value.payload.length < 2 ^ 32

theorem WireRecord.writable_iff {r : WireRecord} :
    r.Writable ↔ 0 < r.number ∧ r.number < 2 ^ 29 ∧ r.value.payload.length < 2 ^ 32 :=
  ⟨fun w => ⟨w.positive, w.number, w.length⟩, fun all => ⟨all.1, all.2.1, all.2.2⟩⟩

instance (r : WireRecord) : Decidable r.Writable := decidable_of_iff' _ WireRecord.writable_iff

@[simp] theorem takeBlock_append {size : Nat} (block : {block : List UInt8 // block.length = size})
    (rest : List UInt8) : takeBlock size (block.val ++ rest) = some (block, rest) := by
  obtain ⟨block, rfl⟩ := block
  have enough : block.length ≤ (block ++ rest).length := by
    rw [List.length_append]
    omega
  rw [takeBlock, dif_pos enough]
  simp

theorem readValue_write (v : WireValue) (short : v.payload.length < 2 ^ 32) (rest : List UInt8) :
    readValue v.wireType.code (v.write ++ rest) = some (v, rest) := by
  cases v with
  | varint n =>
    show (takeVarint (varint n ++ rest)).map _ = _
    rw [takeVarint_varint]
    rfl
  | fixed64 block =>
    show (takeBlock 8 (block.val ++ rest)).map _ = _
    rw [takeBlock_append]
    rfl
  | fixed32 block =>
    show (takeBlock 4 (block.val ++ rest)).map _ = _
    rw [takeBlock_append]
    rfl
  | bytes payload =>
    have size : (UInt32.ofNat payload.length).toUInt64.toNat = payload.length := by
      have bound : payload.length < 2 ^ 32 := short
      simp only [UInt32.toNat_toUInt64, UInt32.toNat_ofNat']
      omega
    have taken := @takeBlock_append payload.length ⟨payload, rfl⟩ rest
    show (takeVarint ((varint _ ++ payload) ++ rest)).bind _ = _
    rw [List.append_assoc, takeVarint_varint, Option.bind_some, size, taken]
    rfl

theorem wireType_code_lt (t : WireType) : t.code < 8 := by
  cases t <;> decide

theorem readRecord_write {r : WireRecord} (writable : r.Writable) (rest : List UInt8) :
    readRecord (r.write ++ rest) = some (r, rest) := by
  have code := wireType_code_lt r.value.wireType
  have positive := writable.positive
  have bound := writable.number
  have key : (UInt64.ofNat (r.number * 8 + r.value.wireType.code)).toNat = r.number * 8 + r.value.wireType.code := by
    rw [UInt64.toNat_ofNat']
    omega
  have number : (r.number * 8 + r.value.wireType.code) / 8 = r.number := by omega
  have type : (r.number * 8 + r.value.wireType.code) % 8 = r.value.wireType.code := by omega
  rw [readRecord, WireRecord.write, List.append_assoc, takeVarint_varint, Option.bind_some, key, number, type,
    if_neg (by omega), readValue_write r.value writable.length]
  rfl

theorem WireRecord.write_ne_nil (r : WireRecord) : r.write ≠ [] := by
  intro nothing
  exact varint_ne_nil _ (List.append_eq_nil_iff.mp nothing).1

theorem readRecords_write {records : List WireRecord} (writable : ∀ r ∈ records, r.Writable) {limit : Nat}
    (enough : records.length ≤ limit) : readRecords limit (write records) = some records := by
  induction records generalizing limit with
  | nil => cases limit <;> rfl
  | cons r records ih =>
    obtain ⟨limit, rfl⟩ : ∃ before, limit = before + 1 := ⟨limit - 1, by
      simp only [List.length_cons] at enough
      omega⟩
    have first := readRecord_write (writable r (List.mem_cons_self ..)) (write records)
    have rest := ih (fun q member => writable q (List.mem_cons_of_mem _ member)) (Nat.le_of_succ_le_succ enough)
    rw [show write (r :: records) = r.write ++ write records from rfl]
    cases bytes : r.write ++ write records with
    | nil => exact absurd (List.append_eq_nil_iff.mp bytes).1 r.write_ne_nil
    | cons b bytes' =>
      rw [bytes] at first
      rw [readRecords, first, Option.bind_some, rest]
      rfl

theorem length_le_write (records : List WireRecord) : records.length ≤ (write records).length := by
  induction records with
  | nil => exact Nat.le_refl 0
  | cons r records ih =>
    have some_byte : 0 < r.write.length := List.length_pos_iff.mpr r.write_ne_nil
    show records.length + 1 ≤ (r.write ++ write records).length
    rw [List.length_append]
    omega

/-- Records that are written are read back, whatever their numbers and types. -/
theorem read_write {records : List WireRecord} (writable : ∀ r ∈ records, r.Writable) :
    read (write records) = some records :=
  readRecords_write writable (length_le_write records)

theorem WireValue.payload_length_le (v : WireValue) : v.payload.length ≤ v.write.length := by
  cases v with
  | bytes payload =>
    rw [WireValue.write, List.length_append, WireValue.payload]
    omega
  | varint _ => exact Nat.zero_le _
  | fixed64 _ => exact Nat.zero_le _
  | fixed32 _ => exact Nat.zero_le _

/-- A payload is part of what is written. -/
theorem payload_length_le {records : List WireRecord} {r : WireRecord} (member : r ∈ records) :
    r.value.payload.length ≤ (write records).length := by
  induction records with
  | nil => exact absurd member List.not_mem_nil
  | cons q records ih =>
    show _ ≤ (q.write ++ write records).length
    rw [List.length_append]
    rcases List.mem_cons.mp member with rfl | later
    · have inside := r.value.payload_length_le
      rw [WireRecord.write, List.length_append]
      omega
    · have inside := ih later
      omega

/-- The values of the records with this number, in their order. -/
def valuesOf (number : Nat) (records : List WireRecord) : List WireValue :=
  (records.filter (·.number = number)).map (·.value)

@[simp] theorem valuesOf_append (number : Nat) (records more : List WireRecord) :
    valuesOf number (records ++ more) = valuesOf number records ++ valuesOf number more := by
  simp only [valuesOf, List.filter_append, List.map_append]

@[simp] theorem valuesOf_same (number : Nat) (values : List WireValue) :
    valuesOf number (values.map (WireRecord.mk number)) = values := by
  induction values with
  | nil => rfl
  | cons v values ih =>
    simp only [valuesOf, List.map_cons, decide_true, List.filter_cons_of_pos, List.cons.injEq, true_and]
    exact ih

theorem valuesOf_other {number other : Nat} (apart : other ≠ number) (values : List WireValue) :
    valuesOf number (values.map (WireRecord.mk other)) = [] := by
  rw [valuesOf, List.map_eq_nil_iff, List.filter_eq_nil_iff]
  intro r member
  obtain ⟨v, _, rfl⟩ := List.mem_map.mp member
  simpa using apart

/-- Fields of distinct numbers, one after the other: each number has the values of its own field. -/
theorem valuesOf_flatMap {φ : Type*} {number : φ → Nat} {values : φ → List WireValue} {fields : List φ}
    (distinct : (fields.map number).Nodup) {f : φ} (member : f ∈ fields) :
    valuesOf (number f) (fields.flatMap fun g => (values g).map (WireRecord.mk (number g))) = values f := by
  induction fields with
  | nil => exact absurd member List.not_mem_nil
  | cons g fields ih =>
    obtain ⟨fresh, distinct⟩ := List.nodup_cons.mp distinct
    rw [List.flatMap_cons, valuesOf_append]
    rcases List.mem_cons.mp member with rfl | later
    · have none_later : valuesOf (number f) (fields.flatMap fun g => (values g).map (WireRecord.mk (number g))) = [] := by
        rw [valuesOf, List.map_eq_nil_iff, List.filter_eq_nil_iff]
        intro r inside same
        obtain ⟨g, listed, written⟩ := List.mem_flatMap.mp inside
        obtain ⟨v, _, rfl⟩ := List.mem_map.mp written
        exact fresh (of_decide_eq_true same ▸ List.mem_map_of_mem listed)
      rw [valuesOf_same, none_later, List.append_nil]
    · have other : number g ≠ number f := fun same => fresh (same ▸ List.mem_map_of_mem later)
      rw [valuesOf_other other, List.nil_append]
      exact ih distinct later

end ProtoWire
