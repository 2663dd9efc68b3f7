import Ogrt.Lib.ProtoWire
import Ogrt.Protocol

namespace Ogrt
open ProtoWire

structure OgrtSharedObject where
  path : Option GoString
  signature : Option GoString
  deriving DecidableEq, Repr

structure OgrtModule where
  name : Option GoString
  deriving DecidableEq, Repr

/-- The struct of the client with its strings by their texts. -/
structure OgrtProcessInfo where
  binpath : Option GoString
  pid : Int32
  parentPid : Int32
  time : Int64
  signature : Option GoString
  jobId : Option GoString
  username : Option GoString
  hostname : Option GoString
  cmdline : Option GoString
  environmentVariables : List (Option GoString)
  arguments : List (Option GoString)
  sharedObjects : List OgrtSharedObject
  loadedModules : List OgrtModule
  deriving DecidableEq, Repr

inductive FieldLabel
  | required
  | optional
  | repeated
  deriving DecidableEq, Repr

/-- The descriptors that fields of a message type point to. -/
inductive MessageDescriptor
  | sharedObject
  | module
  deriving DecidableEq, Repr

abbrev MessageDescriptor.Struct : MessageDescriptor → Type
  | .sharedObject => OgrtSharedObject
  | .module => OgrtModule

inductive FieldType
  | string
  | int32
  | int64
  | message (descriptor : MessageDescriptor)
  deriving DecidableEq, Repr

/-- What a field of this type holds in a struct of the client: a pointer to a text that may be
NULL, a number, or a struct. -/
abbrev FieldType.Element : FieldType → Type
  | .string => Option GoString
  | .int32 => Int32
  | .int64 => Int64
  | .message descriptor => descriptor.Struct

def FieldType.isSet : (type : FieldType) → type.Element → Bool
  | .string, text => text.isSome
  | .int32, _ => true
  | .int64, _ => true
  | .message _, _ => true

/-- An entry of a descriptor table. `offset` reads the struct: a repeated field its array, any
other field its one member. -/
structure FieldDescriptor (Message : Type) where
  name : String
  id : Nat
  label : FieldLabel
  type : FieldType
  offset : Message → List type.Element

/-- An optional field is left out where its pointer is NULL. -/
def FieldDescriptor.elements {Message : Type} (field : FieldDescriptor Message) (m : Message) :
    List field.type.Element :=
  (field.offset m).filter fun e => field.label ≠ .optional ∨ field.type.isSet e

def ogrtSharedObjectFieldDescriptors : List (FieldDescriptor OgrtSharedObject) :=
  [⟨"path", 400, .required, .string, fun m => [m.path]⟩,
   ⟨"signature", 401, .optional, .string, fun m => [m.signature]⟩]

def ogrtModuleFieldDescriptors : List (FieldDescriptor OgrtModule) :=
  [⟨"name", 700, .required, .string, fun m => [m.name]⟩]

def ogrtProcessInfoFieldDescriptors : List (FieldDescriptor OgrtProcessInfo) :=
  [⟨"binpath", 300, .required, .string, fun m => [m.binpath]⟩,
   ⟨"pid", 301, .required, .int32, fun m => [m.pid]⟩,
   ⟨"parent_pid", 302, .required, .int32, fun m => [m.parentPid]⟩,
   ⟨"time", 303, .required, .int64, fun m => [m.time]⟩,
   ⟨"signature", 304, .optional, .string, fun m => [m.signature]⟩,
   ⟨"job_id", 305, .optional, .string, fun m => [m.jobId]⟩,
   ⟨"username", 306, .optional, .string, fun m => [m.username]⟩,
   ⟨"hostname", 307, .optional, .string, fun m => [m.hostname]⟩,
   ⟨"cmdline", 308, .optional, .string, fun m => [m.cmdline]⟩,
   ⟨"environment_variables", 309, .repeated, .string, fun m => m.environmentVariables⟩,
   ⟨"arguments", 310, .repeated, .string, fun m => m.arguments⟩,
   ⟨"shared_objects", 311, .repeated, .message .sharedObject, fun m => m.sharedObjects⟩,
   ⟨"loaded_modules", 312, .repeated, .message .module, fun m => m.loadedModules⟩]

/-- No text of a repeated field is NULL. -/
def OgrtProcessInfo.TextsSet (m : OgrtProcessInfo) : Prop :=
  ∀ text ∈ m.environmentVariables ++ m.arguments, text.isSome = true

instance (m : OgrtProcessInfo) : Decidable m.TextsSet :=
  inferInstanceAs (Decidable (∀ text ∈ m.environmentVariables ++ m.arguments, _))

/-- The protobuf tag of a struct field of the server. -/
structure StructTag where
  wire : WireType
  number : Nat
  label : FieldLabel
  name : String
  deriving DecidableEq, Repr

/-- The records that bytes are an encoding of. -/
abbrev WireFormat := List UInt8 → Option (List WireRecord)

/-- Bytes that are an encoding of a struct of the client. -/
abbrev EmbeddedIn := (descriptor : MessageDescriptor) → descriptor.Struct → List UInt8 → Prop

/-- The value that stands for an element on the wire. A NULL text stands there as an empty one,
and an int32 is extended to 64 bits by its sign. -/
def FieldType.Encodes (embedded : EmbeddedIn) : (type : FieldType) → type.Element → WireValue → Prop
  | .string, text, value => value = .bytes (text.getD [])
  | .int32, number, value => value = .varint number.toInt64.toUInt64
  | .int64, number, value => value = .varint number.toUInt64
  | .message descriptor, m, value => ∃ payload, value = .bytes payload ∧ embedded descriptor m payload

/-- Records that hold each field of a struct. Other fields may stand anywhere between them, and
fields may trade places. -/
def Carries {Message : Type} (embedded : EmbeddedIn) (descriptors : List (FieldDescriptor Message)) (m : Message)
    (records : List WireRecord) : Prop :=
  ∀ field ∈ descriptors, List.Forall₂ (field.type.Encodes embedded) (field.elements m) (valuesOf field.id records)

/-- No field of these structs is a message. -/
def embeddedIn (format : WireFormat) : EmbeddedIn
  | .sharedObject, so, payload => ∃ records, format payload = some records ∧
      Carries (fun _ _ _ => False) ogrtSharedObjectFieldDescriptors so records
  | .module, module, payload => ∃ records, format payload = some records ∧
      Carries (fun _ _ _ => False) ogrtModuleFieldDescriptors module records

def OgrtProcessInfo.EncodedBy (m : OgrtProcessInfo) (format : WireFormat) (data : List UInt8) : Prop :=
  ∃ records, format data = some records ∧ Carries (embeddedIn format) ogrtProcessInfoFieldDescriptors m records

/-- The elements of a field are the values under its number, each of the type of the tag. -/
def StructTag.Slice {α : Type} (tag : StructTag) (Reads : WireValue → α → Prop) (records : List WireRecord)
    (elements : List α) : Prop :=
  List.Forall₂ (fun value e => value.wireType = tag.wire ∧ Reads value e) (valuesOf tag.number records) elements

/-- A field that is not repeated keeps the last value and is nil without one. -/
def StructTag.Pointer {α : Type} (tag : StructTag) (Reads : WireValue → α → Prop) (records : List WireRecord)
    (element : Option α) : Prop :=
  ∃ elements, tag.Slice Reads records elements ∧ elements.getLast? = element

def ReadsString (value : WireValue) (text : GoString) : Prop := value = .bytes text

def ReadsInt32 (value : WireValue) (number : Int32) : Prop := ∃ n, value = .varint n ∧ n.toUInt32.toInt32 = number

def ReadsInt64 (value : WireValue) (number : Int64) : Prop := ∃ n, value = .varint n ∧ n.toInt64 = number

def ReadsMessage {α : Type} (format : WireFormat) (ReadFrom : α → List WireRecord → Prop) (value : WireValue) (m : α) :
    Prop := ∃ payload records, value = .bytes payload ∧ format payload = some records ∧ ReadFrom m records

structure SharedObject.ReadFrom (so : SharedObject) (records : List WireRecord) : Prop where
  path : StructTag.Pointer ⟨.bytes, 400, .required, "path"⟩ ReadsString records so.path
  signature : StructTag.Pointer ⟨.bytes, 401, .optional, "signature"⟩ ReadsString records so.signature

structure Module.ReadFrom (module : Module) (records : List WireRecord) : Prop where
  name : StructTag.Pointer ⟨.bytes, 700, .required, "name"⟩ ReadsString records module.name

/-- The message that the struct tags find in records. -/
structure ProcessInfo.ReadFrom (msg : ProcessInfo) (format : WireFormat) (records : List WireRecord) : Prop where
  binpath : StructTag.Pointer ⟨.bytes, 300, .required, "binpath"⟩ ReadsString records msg.binpath
  pid : StructTag.Pointer ⟨.varint, 301, .required, "pid"⟩ ReadsInt32 records msg.pid
  parentPid : StructTag.Pointer ⟨.varint, 302, .required, "parent_pid"⟩ ReadsInt32 records msg.parentPid
  time : StructTag.Pointer ⟨.varint, 303, .required, "time"⟩ ReadsInt64 records msg.time
  signature : StructTag.Pointer ⟨.bytes, 304, .optional, "signature"⟩ ReadsString records msg.signature
  jobId : StructTag.Pointer ⟨.bytes, 305, .optional, "job_id"⟩ ReadsString records msg.jobId
  username : StructTag.Pointer ⟨.bytes, 306, .optional, "username"⟩ ReadsString records msg.username
  hostname : StructTag.Pointer ⟨.bytes, 307, .optional, "hostname"⟩ ReadsString records msg.hostname
  cmdline : StructTag.Pointer ⟨.bytes, 308, .optional, "cmdline"⟩ ReadsString records msg.cmdline
  environmentVariables :
    StructTag.Slice ⟨.bytes, 309, .repeated, "environment_variables"⟩ ReadsString records msg.environmentVariables
  arguments : StructTag.Slice ⟨.bytes, 310, .repeated, "arguments"⟩ ReadsString records msg.arguments
  sharedObjects : StructTag.Slice ⟨.bytes, 311, .repeated, "shared_objects"⟩
    (ReadsMessage format SharedObject.ReadFrom) records msg.sharedObjects
  loadedModules : StructTag.Slice ⟨.bytes, 312, .repeated, "loaded_modules"⟩ (ReadsMessage format Module.ReadFrom) records
    msg.loadedModules

/-- What is not part of the repository: the wire format, protobuf_c_message_pack on the tables
of the client, which encodes what they describe but reads every text of a repeated field, and
proto.Unmarshal of the server. It accepts an encoding of valid strings in which no required field
is missing. -/
structure Protobuf where
  format : WireFormat
  pack : OgrtProcessInfo → List UInt8
  unmarshal : List UInt8 → Option ProcessInfo
  pack_encodes : ∀ m, m.TextsSet → (pack m).length < 2 ^ 31 → m.EncodedBy format (pack m)
  unmarshal_reads : ∀ data records msg, format data = some records → msg.ReadFrom format records →
    msg.hasRequired = true → msg.HasUtf8 → unmarshal data = some msg

end Ogrt
