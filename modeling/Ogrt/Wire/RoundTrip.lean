import Ogrt.Wire.WireProtobuf

namespace Ogrt
open ProtoWire

def OgrtSharedObject.received (so : OgrtSharedObject) : SharedObject := ⟨some (so.path.getD []), so.signature⟩

def OgrtModule.received (module : OgrtModule) : Module := ⟨some (module.name.getD [])⟩

/-- The message as the server is to see it: its texts as they are, those that must not be
missing empty where the client has none. -/
def OgrtProcessInfo.received (m : OgrtProcessInfo) : ProcessInfo where
  binpath := some (m.binpath.getD [])
  pid := some m.pid
  parentPid := some m.parentPid
  time := some m.time
  signature := m.signature
  jobId := m.jobId
  username := m.username
  hostname := m.hostname
  cmdline := m.cmdline
  environmentVariables := m.environmentVariables.map (·.getD [])
  arguments := m.arguments.map (·.getD [])
  sharedObjects := m.sharedObjects.map OgrtSharedObject.received
  loadedModules := m.loadedModules.map OgrtModule.received

theorem OgrtProcessInfo.received_hasRequired (m : OgrtProcessInfo) : m.received.hasRequired = true := by
  simp [ProcessInfo.hasRequired, received, OgrtSharedObject.received, OgrtModule.received]

section Carried
variable {Message : Type} {descriptors : List (FieldDescriptor Message)} {m : Message} {records : List WireRecord}
  {embedded : EmbeddedIn} {name : String} {id : Nat} (carries : Carries embedded descriptors m records) (i : Nat)

include carries

theorem Carries.required {type : FieldType} {member : Message → type.Element}
    (entry : descriptors[i]? = some ⟨name, id, .required, type, fun m => [member m]⟩) :
    List.Forall₂ (type.Encodes embedded) [member m] (valuesOf id records) :=
  carries _ (List.mem_of_getElem? entry)

theorem Carries.optional {member : Message → Option GoString}
    (entry : descriptors[i]? = some ⟨name, id, .optional, .string, fun m => [member m]⟩) :
    List.Forall₂ (FieldType.Encodes embedded .string) ([member m].filter Option.isSome) (valuesOf id records) := by
  have held := carries _ (List.mem_of_getElem? entry)
  rw [FieldDescriptor.elements] at held
  cases set : member m <;> simpa [set, FieldType.isSet] using held

theorem Carries.repeated {type : FieldType} {members : Message → List type.Element}
    (entry : descriptors[i]? = some ⟨name, id, .repeated, type, members⟩) :
    List.Forall₂ (type.Encodes embedded) (members m) (valuesOf id records) := by
  have held := carries _ (List.mem_of_getElem? entry)
  rw [FieldDescriptor.elements] at held
  simpa using held

end Carried

/-- What a tag finds of the elements that the client has under the same number. -/
theorem StructTag.slice_of_encoded {α β : Type} {tag : StructTag} {Reads : WireValue → α → Prop}
    {records : List WireRecord} {Encodes : β → WireValue → Prop} {elements : List β} {received : β → α}
    (held : List.Forall₂ Encodes elements (valuesOf tag.number records))
    (reads : ∀ e value, Encodes e value → value.wireType = tag.wire ∧ Reads value (received e)) :
    tag.Slice Reads records (elements.map received) := by
  rw [StructTag.Slice, List.forall₂_map_right_iff]
  exact (held.imp reads).flip

section Fields
variable {id : Nat} {records : List WireRecord} {embedded : EmbeddedIn} (label : FieldLabel) (name : String)

theorem slice_strings {texts : List (Option GoString)}
    (held : List.Forall₂ (FieldType.Encodes embedded .string) texts (valuesOf id records)) :
    StructTag.Slice ⟨.bytes, id, label, name⟩ ReadsString records (texts.map (·.getD [])) :=
  StructTag.slice_of_encoded held fun text value encoded => by
    cases encoded
    exact ⟨rfl, rfl⟩

theorem pointer_string {text : Option GoString}
    (held : List.Forall₂ (FieldType.Encodes embedded .string) [text] (valuesOf id records)) :
    StructTag.Pointer ⟨.bytes, id, label, name⟩ ReadsString records (some (text.getD [])) :=
  ⟨_, slice_strings label name held, rfl⟩

theorem pointer_optional {text : Option GoString}
    (held : List.Forall₂ (FieldType.Encodes embedded .string) ([text].filter Option.isSome) (valuesOf id records)) :
    StructTag.Pointer ⟨.bytes, id, label, name⟩ ReadsString records text := by
  refine ⟨_, slice_strings label name held, ?_⟩
  cases text <;> rfl

/-- The bits that extend the sign are dropped again. -/
theorem toInt32_signExtend (value : Int32) : value.toInt64.toUInt64.toUInt32.toInt32 = value := by
  apply Int32.toBitVec_inj.mp
  show BitVec.setWidth 32 (BitVec.signExtend 64 value.toBitVec) = value.toBitVec
  ext i inside
  have wide : i < 64 := by omega
  rw [BitVec.getElem_setWidth, BitVec.getLsbD_signExtend, if_pos inside, decide_eq_true wide, Bool.true_and,
    BitVec.getLsbD_eq_getElem inside]

theorem pointer_int32 {number : Int32}
    (held : List.Forall₂ (FieldType.Encodes embedded .int32) [number] (valuesOf id records)) :
    StructTag.Pointer ⟨.varint, id, label, name⟩ ReadsInt32 records (some number) := by
  refine ⟨_, @StructTag.slice_of_encoded _ _ _ _ _ _ _ (fun n => n) held fun n value encoded => ?_, rfl⟩
  cases encoded
  exact ⟨rfl, _, rfl, toInt32_signExtend n⟩

theorem pointer_int64 {number : Int64}
    (held : List.Forall₂ (FieldType.Encodes embedded .int64) [number] (valuesOf id records)) :
    StructTag.Pointer ⟨.varint, id, label, name⟩ ReadsInt64 records (some number) := by
  refine ⟨_, @StructTag.slice_of_encoded _ _ _ _ _ _ _ (fun n => n) held fun n value encoded => ?_, rfl⟩
  cases encoded
  exact ⟨rfl, _, rfl, rfl⟩

end Fields

theorem OgrtSharedObject.received_readFrom {so : OgrtSharedObject} {records : List WireRecord} {embedded : EmbeddedIn}
    (carries : Carries embedded ogrtSharedObjectFieldDescriptors so records) : so.received.ReadFrom records :=
  ⟨pointer_string _ _ (carries.required 0 rfl), pointer_optional _ _ (carries.optional 1 rfl)⟩

theorem OgrtModule.received_readFrom {module : OgrtModule} {records : List WireRecord} {embedded : EmbeddedIn}
    (carries : Carries embedded ogrtModuleFieldDescriptors module records) : module.received.ReadFrom records :=
  ⟨pointer_string _ _ (carries.required 0 rfl)⟩

/-- The struct tags of the server find every field that the descriptor tables of the client
describe. -/
theorem OgrtProcessInfo.received_readFrom {m : OgrtProcessInfo} {format : WireFormat} {records : List WireRecord}
    (carries : Carries (embeddedIn format) ogrtProcessInfoFieldDescriptors m records) :
    m.received.ReadFrom format records where
  binpath := pointer_string _ _ (carries.required 0 rfl)
  pid := pointer_int32 _ _ (carries.required 1 rfl)
  parentPid := pointer_int32 _ _ (carries.required 2 rfl)
  time := pointer_int64 _ _ (carries.required 3 rfl)
  signature := pointer_optional _ _ (carries.optional 4 rfl)
  jobId := pointer_optional _ _ (carries.optional 5 rfl)
  username := pointer_optional _ _ (carries.optional 6 rfl)
  hostname := pointer_optional _ _ (carries.optional 7 rfl)
  cmdline := pointer_optional _ _ (carries.optional 8 rfl)
  environmentVariables := slice_strings _ _ (carries.repeated 9 rfl)
  arguments := slice_strings _ _ (carries.repeated 10 rfl)
  sharedObjects := StructTag.slice_of_encoded (carries.repeated 11 rfl) fun so value encoded => by
    obtain ⟨payload, rfl, records, split, own⟩ := encoded
    exact ⟨rfl, payload, records, rfl, split, OgrtSharedObject.received_readFrom own⟩
  loadedModules := StructTag.slice_of_encoded (carries.repeated 12 rfl) fun module value encoded => by
    obtain ⟨payload, rfl, records, split, own⟩ := encoded
    exact ⟨rfl, payload, records, rfl, split, OgrtModule.received_readFrom own⟩

theorem Protobuf.unmarshal_encoded (protobuf : Protobuf) {m : OgrtProcessInfo} {data : List UInt8}
    (encoded : m.EncodedBy protobuf.format data) (utf8 : m.received.HasUtf8) :
    protobuf.unmarshal data = some m.received := by
  obtain ⟨records, split, carries⟩ := encoded
  exact protobuf.unmarshal_reads data records _ split (OgrtProcessInfo.received_readFrom carries) m.received_hasRequired utf8

theorem Protobuf.unmarshal_pack (protobuf : Protobuf) {m : OgrtProcessInfo} (set : m.TextsSet)
    (short : (protobuf.pack m).length < 2 ^ 31) (utf8 : m.received.HasUtf8) :
    protobuf.unmarshal (protobuf.pack m) = some m.received :=
  protobuf.unmarshal_encoded (protobuf.pack_encodes m set short) utf8

/-- What the client packs by its descriptors the server reads by its struct tags, and so it
does where the fields come in another order and fields that it does not know come between. -/
theorem server_reads_client_message (protobuf : Protobuf) (m : OgrtProcessInfo) (set : m.TextsSet) (utf8 : m.received.HasUtf8)
    (short : (protobuf.pack m).length < 2 ^ 31) (data : List UInt8) (encoded : m.EncodedBy protobuf.format data) :
    protobuf.unmarshal (protobuf.pack m) = some m.received ∧ protobuf.unmarshal data = some m.received :=
  ⟨protobuf.unmarshal_pack set short utf8, protobuf.unmarshal_encoded encoded utf8⟩

/-- A process with a negative parent, one object and one module. -/
def reportOfOne : OgrtProcessInfo where
  binpath := some (ascii "/bin/sh")
  pid := 300
  parentPid := -1
  time := 1447881900
  signature := none
  jobId := some (ascii "42")
  username := none
  hostname := some []
  cmdline := none
  environmentVariables := [some (ascii "A=1")]
  arguments := []
  sharedObjects := [⟨some (ascii "/lib/libc.so"), none⟩]
  loadedModules := [⟨some (ascii "gcc")⟩]

/-- The fields of the report the other way round, with a field of a later protocol at the front. -/
def reversedReport : List WireRecord := ⟨999, .fixed32 ⟨[1, 2, 3, 4], rfl⟩⟩ :: (packedProcessInfo reportOfOne).reverse

theorem reversedReport_encodes : reportOfOne.EncodedBy read (write reversedReport) := by
  refine ⟨reversedReport, read_write (by decide +kernel), fun field listed => ?_⟩
  obtain ⟨records, split, carries⟩ := packed_encodes reportOfOne (by decide +kernel)
  have own : read (ogrtProcessInfoPack reportOfOne) = some (packedProcessInfo reportOfOne) :=
    read_write (by decide +kernel)
  cases Option.some.inj (split.symm.trans own)
  have same : ∀ f ∈ ogrtProcessInfoFieldDescriptors,
      valuesOf f.id reversedReport = valuesOf f.id (packedProcessInfo reportOfOne) := by decide +kernel
  rw [same field listed]
  exact carries field listed

theorem server_reads_client_message_reversed :
    unmarshalProcessInfo (ogrtProcessInfoPack reportOfOne) = some reportOfOne.received ∧
      unmarshalProcessInfo (write reversedReport) = some reportOfOne.received :=
  server_reads_client_message wireProtobuf reportOfOne (by decide) (by decide +kernel) (by decide +kernel) _ reversedReport_encodes

end Ogrt
