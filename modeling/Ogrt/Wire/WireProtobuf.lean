import Mathlib.Data.List.Forall2
import Ogrt.Wire.Messages

namespace Ogrt
open ProtoWire

/-! Both sides of the encoding that the protobuf documentation describes, as an instance of what
the repository takes from the two libraries. -/

def FieldType.pack (embedded : (descriptor : MessageDescriptor) → descriptor.Struct → List UInt8) :
    (type : FieldType) → type.Element → WireValue
  | .string, text => .bytes (text.getD [])
  | .int32, number => .varint number.toInt64.toUInt64
  | .int64, number => .varint number.toUInt64
  | .message descriptor, m => .bytes (embedded descriptor m)

def packedFields {Message : Type} (embedded : (descriptor : MessageDescriptor) → descriptor.Struct → List UInt8)
    (descriptors : List (FieldDescriptor Message)) (m : Message) : List WireRecord :=
  descriptors.flatMap fun field => ((field.elements m).map (field.type.pack embedded)).map (WireRecord.mk field.id)

def packEmbedded : (descriptor : MessageDescriptor) → descriptor.Struct → List UInt8
  | .sharedObject, so => write (packedFields (fun _ _ => []) ogrtSharedObjectFieldDescriptors so)
  | .module, module => write (packedFields (fun _ _ => []) ogrtModuleFieldDescriptors module)

def packedProcessInfo (m : OgrtProcessInfo) : List WireRecord :=
  packedFields packEmbedded ogrtProcessInfoFieldDescriptors m

def ogrtProcessInfoPack (m : OgrtProcessInfo) : List UInt8 := write (packedProcessInfo m)

/-- A wire type that is not the one of the tag fails the whole message. -/
def StructTag.values {α : Type} (tag : StructTag) (decode : WireValue → Option α) (records : List WireRecord) :
    Option (List α) :=
  (valuesOf tag.number records).mapM fun value => if value.wireType = tag.wire then decode value else none

def StructTag.pointer {α : Type} (tag : StructTag) (decode : WireValue → Option α) (records : List WireRecord) :
    Option (Option α) :=
  (tag.values decode records).map List.getLast?

def stringValue : WireValue → Option GoString
  | .bytes payload => some payload
  | _ => none

def int32Value : WireValue → Option Int32
  | .varint n => some n.toUInt32.toInt32
  | _ => none

def int64Value : WireValue → Option Int64
  | .varint n => some n.toInt64
  | _ => none

def messageValue {α : Type} (unmarshal : List UInt8 → Option α) : WireValue → Option α
  | .bytes payload => unmarshal payload
  | _ => none

/-- Whether the required fields are there is checked once, for the message with all it holds. -/
def unmarshalSharedObject (data : List UInt8) : Option SharedObject := do
  let records ← read data
  let path ← StructTag.pointer ⟨.bytes, 400, .required, "path"⟩ stringValue records
  let signature ← StructTag.pointer ⟨.bytes, 401, .optional, "signature"⟩ stringValue records
  some ⟨path, signature⟩

def unmarshalModule (data : List UInt8) : Option Module := do
  let records ← read data
  let name ← StructTag.pointer ⟨.bytes, 700, .required, "name"⟩ stringValue records
  some ⟨name⟩

/-- Fields with other numbers are kept apart in XXX_unrecognized. -/
def unmarshalFields (data : List UInt8) : Option ProcessInfo := do
  let records ← read data
  let binpath ← StructTag.pointer ⟨.bytes, 300, .required, "binpath"⟩ stringValue records
  let pid ← StructTag.pointer ⟨.varint, 301, .required, "pid"⟩ int32Value records
  let parentPid ← StructTag.pointer ⟨.varint, 302, .required, "parent_pid"⟩ int32Value records
  let time ← StructTag.pointer ⟨.varint, 303, .required, "time"⟩ int64Value records
  let signature ← StructTag.pointer ⟨.bytes, 304, .optional, "signature"⟩ stringValue records
  let jobId ← StructTag.pointer ⟨.bytes, 305, .optional, "job_id"⟩ stringValue records
  let username ← StructTag.pointer ⟨.bytes, 306, .optional, "username"⟩ stringValue records
  let hostname ← StructTag.pointer ⟨.bytes, 307, .optional, "hostname"⟩ stringValue records
  let cmdline ← StructTag.pointer ⟨.bytes, 308, .optional, "cmdline"⟩ stringValue records
  let environmentVariables ← StructTag.values ⟨.bytes, 309, .repeated, "environment_variables"⟩ stringValue records
  let arguments ← StructTag.values ⟨.bytes, 310, .repeated, "arguments"⟩ stringValue records
  let sharedObjects ← StructTag.values ⟨.bytes, 311, .repeated, "shared_objects"⟩
    (messageValue unmarshalSharedObject) records
  let loadedModules ← StructTag.values ⟨.bytes, 312, .repeated, "loaded_modules"⟩ (messageValue unmarshalModule) records
  some ⟨binpath, pid, parentPid, time, signature, jobId, username, hostname, cmdline, environmentVariables, arguments,
    sharedObjects, loadedModules⟩

def unmarshalProcessInfo (data : List UInt8) : Option ProcessInfo :=
  (unmarshalFields data).filter (·.hasRequired)

section Packed
variable {Message : Type} {packs : (descriptor : MessageDescriptor) → descriptor.Struct → List UInt8}
  {descriptors : List (FieldDescriptor Message)} {m : Message}

/-- The records of a table with numbers of fields, none of them twice, can be written where the
packed message is not too long. -/
theorem writable_packedFields (numbers : ∀ field ∈ descriptors, 0 < field.id ∧ field.id < 2 ^ 29)
    (short : (write (packedFields packs descriptors m)).length < 2 ^ 32) :
    ∀ r ∈ packedFields packs descriptors m, r.Writable := by
  intro r member
  obtain ⟨field, listed, written⟩ := List.mem_flatMap.mp member
  obtain ⟨value, _, rfl⟩ := List.mem_map.mp written
  exact ⟨(numbers field listed).1, (numbers field listed).2, Nat.lt_of_le_of_lt (payload_length_le member) short⟩

/-- A packed struct is the payload of a record, so it is not too long. -/
theorem embedded_short (writable : ∀ r ∈ packedFields packs descriptors m, r.Writable) {field : FieldDescriptor Message}
    (listed : field ∈ descriptors) {e : field.type.Element} (member : e ∈ field.elements m) :
    (field.type.pack packs e).payload.length < 2 ^ 32 := by
  refine (writable ⟨field.id, field.type.pack packs e⟩ ?_).length
  exact List.mem_flatMap.mpr ⟨field, listed, List.mem_map_of_mem (List.mem_map_of_mem member)⟩

theorem carries_packedFields {embedded : EmbeddedIn} (distinct : (descriptors.map (·.id)).Nodup)
    (encodes : ∀ field ∈ descriptors, ∀ e ∈ field.elements m, field.type.Encodes embedded e (field.type.pack packs e)) :
    Carries embedded descriptors m (packedFields packs descriptors m) := by
  intro field member
  have values : valuesOf field.id (packedFields packs descriptors m) = (field.elements m).map (field.type.pack packs) :=
    @valuesOf_flatMap _ (·.id) (fun g => (g.elements m).map (g.type.pack packs)) _ distinct _ member
  rw [values, List.forall₂_map_right_iff]
  exact List.forall₂_same.mpr (encodes field member)

end Packed

/-- A table of texts. -/
theorem carries_texts {Message : Type} {descriptors : List (FieldDescriptor Message)} {m : Message}
    (texts : ∀ field ∈ descriptors, field.type = .string) (distinct : (descriptors.map (·.id)).Nodup) :
    Carries (fun _ _ _ => False) descriptors m (packedFields (fun _ _ => []) descriptors m) := by
  refine carries_packedFields distinct fun field member => ?_
  have text := texts field member
  obtain ⟨name, id, label, type, offset⟩ := field
  cases text
  exact fun _ _ => rfl

theorem embedded_packed (descriptor : MessageDescriptor) (m : descriptor.Struct)
    (short : (packEmbedded descriptor m).length < 2 ^ 32) : embeddedIn read descriptor m (packEmbedded descriptor m) := by
  cases descriptor with
  | sharedObject =>
    refine ⟨_, read_write (writable_packedFields ?_ short), carries_texts ?_ ?_⟩
    · decide
    · decide
    · decide
  | module =>
    refine ⟨_, read_write (writable_packedFields ?_ short), carries_texts ?_ ?_⟩
    · decide
    · decide
    · decide

theorem packed_encodes (m : OgrtProcessInfo) (short : (ogrtProcessInfoPack m).length < 2 ^ 32) :
    m.EncodedBy read (ogrtProcessInfoPack m) := by
  have writable := @writable_packedFields _ packEmbedded ogrtProcessInfoFieldDescriptors m (by decide) short
  refine ⟨_, read_write writable, carries_packedFields (by decide) fun field listed e member => ?_⟩
  have payload := embedded_short writable listed member
  obtain ⟨name, id, label, type, offset⟩ := field
  cases type with
  | string => exact rfl
  | int32 => exact rfl
  | int64 => exact rfl
  | message descriptor => exact ⟨_, rfl, embedded_packed descriptor e payload⟩

section Unmarshalled
variable {α : Type} {tag : StructTag} {Reads : WireValue → α → Prop} {decode : WireValue → Option α}
  {records : List WireRecord} (decodes : ∀ value e, Reads value e → decode value = some e)

include decodes

theorem StructTag.values_eq {elements : List α} (found : tag.Slice Reads records elements) :
    tag.values decode records = some elements := by
  rw [StructTag.values]
  rw [StructTag.Slice] at found
  generalize valuesOf tag.number records = values at found
  induction found with
  | nil => rfl
  | @cons value e values elements first _ rest =>
    rw [List.mapM_cons, if_pos first.1, decodes value e first.2, rest]
    rfl

theorem StructTag.pointer_eq {element : Option α} (found : tag.Pointer Reads records element) :
    tag.pointer decode records = some element := by
  obtain ⟨elements, slice, last⟩ := found
  rw [StructTag.pointer, StructTag.values_eq decodes slice, Option.map_some, last]

end Unmarshalled

theorem stringValue_eq (value : WireValue) (text : GoString) (found : ReadsString value text) : stringValue value = some text := by
  cases found
  rfl

theorem int32Value_eq (value : WireValue) (number : Int32) (found : ReadsInt32 value number) :
    int32Value value = some number := by
  obtain ⟨n, rfl, rfl⟩ := found
  rfl

theorem int64Value_eq (value : WireValue) (number : Int64) (found : ReadsInt64 value number) :
    int64Value value = some number := by
  obtain ⟨n, rfl, rfl⟩ := found
  rfl

theorem messageValue_eq {α : Type} {ReadFrom : α → List WireRecord → Prop} {unmarshal : List UInt8 → Option α}
    (unmarshals : ∀ data records m, read data = some records → ReadFrom m records → unmarshal data = some m)
    (value : WireValue) (m : α) (found : ReadsMessage read ReadFrom value m) : messageValue unmarshal value = some m := by
  obtain ⟨payload, records, rfl, split, reads⟩ := found
  exact unmarshals payload records m split reads

theorem unmarshalSharedObject_eq (data : List UInt8) (records : List WireRecord) (so : SharedObject)
    (split : read data = some records) (reads : so.ReadFrom records) : unmarshalSharedObject data = some so := by
  rw [unmarshalSharedObject, split]
  simp only [Option.bind_eq_bind, Option.bind_some, StructTag.pointer_eq stringValue_eq reads.path,
    StructTag.pointer_eq stringValue_eq reads.signature]

theorem unmarshalModule_eq (data : List UInt8) (records : List WireRecord) (module : Module)
    (split : read data = some records) (reads : module.ReadFrom records) : unmarshalModule data = some module := by
  rw [unmarshalModule, split]
  simp only [Option.bind_eq_bind, Option.bind_some, StructTag.pointer_eq stringValue_eq reads.name]

theorem unmarshalProcessInfo_eq (data : List UInt8) (records : List WireRecord) (msg : ProcessInfo)
    (split : read data = some records) (reads : msg.ReadFrom read records) (required : msg.hasRequired = true) :
    unmarshalProcessInfo data = some msg := by
  have string {id : Nat} {label : FieldLabel} {name : String} {text : Option GoString}
      (found : StructTag.Pointer ⟨.bytes, id, label, name⟩ ReadsString records text) :
      StructTag.pointer ⟨.bytes, id, label, name⟩ stringValue records = some text :=
    StructTag.pointer_eq stringValue_eq found
  have fields : unmarshalFields data = some msg := by
    refine Option.bind_eq_some_iff.mpr ⟨_, split, ?_⟩
    refine Option.bind_eq_some_iff.mpr ⟨_, string reads.binpath, ?_⟩
    refine Option.bind_eq_some_iff.mpr ⟨_, StructTag.pointer_eq int32Value_eq reads.pid, ?_⟩
    refine Option.bind_eq_some_iff.mpr ⟨_, StructTag.pointer_eq int32Value_eq reads.parentPid, ?_⟩
    refine Option.bind_eq_some_iff.mpr ⟨_, StructTag.pointer_eq int64Value_eq reads.time, ?_⟩
    refine Option.bind_eq_some_iff.mpr ⟨_, string reads.signature, Option.bind_eq_some_iff.mpr ⟨_, string reads.jobId, ?_⟩⟩
    refine Option.bind_eq_some_iff.mpr ⟨_, string reads.username, Option.bind_eq_some_iff.mpr ⟨_, string reads.hostname, ?_⟩⟩
    refine Option.bind_eq_some_iff.mpr ⟨_, string reads.cmdline, ?_⟩
    refine Option.bind_eq_some_iff.mpr ⟨_, StructTag.values_eq stringValue_eq reads.environmentVariables, ?_⟩
    refine Option.bind_eq_some_iff.mpr ⟨_, StructTag.values_eq stringValue_eq reads.arguments, ?_⟩
    refine Option.bind_eq_some_iff.mpr
      ⟨_, StructTag.values_eq (messageValue_eq unmarshalSharedObject_eq) reads.sharedObjects, ?_⟩
    exact Option.bind_eq_some_iff.mpr
      ⟨_, StructTag.values_eq (messageValue_eq unmarshalModule_eq) reads.loadedModules, rfl⟩
  rw [unmarshalProcessInfo, fields, Option.filter_some_eq_some]
  exact required

def wireProtobuf : Protobuf where
  format := read
  pack := ogrtProcessInfoPack
  unmarshal := unmarshalProcessInfo
  pack_encodes m _ short := packed_encodes m (short.trans (by decide))
  unmarshal_reads data records msg split reads required _ := unmarshalProcessInfo_eq data records msg split reads required

end Ogrt
