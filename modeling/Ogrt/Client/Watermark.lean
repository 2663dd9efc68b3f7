import Ogrt.Lib.ByteBuffer
import Ogrt.Lib.ElfFile
import Ogrt.Lib.Uuid
import Ogrt.Client.NoteLayout
import Ogrt.Client.NoteWalk
import Ogrt.Client.ReadInfo

namespace Ogrt
open BigEndian ByteBuffer

/-- The object file in ogrt-signature.c, an assembled stamp.s. -/
def templateSignature : List UInt8 := [
  0x7F, 0x45, 0x4C, 0x46, 0x02, 0x01, 0x01, 0x00, 0x00, 0x00, 0x00, 0x00,
  0x00, 0x00, 0x00, 0x00, 0x01, 0x00, 0x3E, 0x00, 0x01, 0x00, 0x00, 0x00,
  0x00, 0x00, 0x00, 0x00, 0x00, 0x00, 0x00, 0x00, 0x00, 0x00, 0x00, 0x00,
  0x00, 0x00, 0x00, 0x00, 0xB8, 0x00, 0x00, 0x00, 0x00, 0x00, 0x00, 0x00,
  0x00, 0x00, 0x00, 0x00, 0x40, 0x00, 0x00, 0x00, 0x00, 0x00, 0x40, 0x00,
  0x08, 0x00, 0x05, 0x00, 0x05, 0x00, 0x00, 0x00, 0x26, 0x00, 0x00, 0x00,
  0x54, 0x52, 0x47, 0x4F, 0x4F, 0x47, 0x52, 0x54, 0x00, 0x00, 0x00, 0x00,
  0x01, 0x41, 0x41, 0x41, 0x41, 0x41, 0x41, 0x41, 0x41, 0x2D, 0x41, 0x41,
  0x41, 0x41, 0x2D, 0x41, 0x41, 0x41, 0x41, 0x2D, 0x41, 0x41, 0x41, 0x41,
  0x2D, 0x41, 0x41, 0x41, 0x41, 0x41, 0x41, 0x41, 0x41, 0x41, 0x41, 0x41,
  0x41, 0x00, 0x00, 0x00, 0x00, 0x2E, 0x73, 0x79, 0x6D, 0x74, 0x61, 0x62,
  0x00, 0x2E, 0x73, 0x74, 0x72, 0x74, 0x61, 0x62, 0x00, 0x2E, 0x73, 0x68,
  0x73, 0x74, 0x72, 0x74, 0x61, 0x62, 0x00, 0x2E, 0x74, 0x65, 0x78, 0x74,
  0x00, 0x2E, 0x64, 0x61, 0x74, 0x61, 0x00, 0x2E, 0x62, 0x73, 0x73, 0x00,
  0x2E, 0x6E, 0x6F, 0x74, 0x65, 0x2E, 0x6F, 0x67, 0x72, 0x74, 0x2E, 0x69,
  0x6E, 0x66, 0x6F, 0x00, 0x00, 0x00, 0x00, 0x00, 0x00, 0x00, 0x00, 0x00,
  0x00, 0x00, 0x00, 0x00, 0x00, 0x00, 0x00, 0x00, 0x00, 0x00, 0x00, 0x00,
  0x00, 0x00, 0x00, 0x00, 0x00, 0x00, 0x00, 0x00, 0x00, 0x00, 0x00, 0x00,
  0x00, 0x00, 0x00, 0x00, 0x00, 0x00, 0x00, 0x00, 0x00, 0x00, 0x00, 0x00,
  0x00, 0x00, 0x00, 0x00, 0x00, 0x00, 0x00, 0x00, 0x00, 0x00, 0x00, 0x00,
  0x00, 0x00, 0x00, 0x00, 0x00, 0x00, 0x00, 0x00, 0x1B, 0x00, 0x00, 0x00,
  0x01, 0x00, 0x00, 0x00, 0x06, 0x00, 0x00, 0x00, 0x00, 0x00, 0x00, 0x00,
  0x00, 0x00, 0x00, 0x00, 0x00, 0x00, 0x00, 0x00, 0x40, 0x00, 0x00, 0x00,
  0x00, 0x00, 0x00, 0x00, 0x00, 0x00, 0x00, 0x00, 0x00, 0x00, 0x00, 0x00,
  0x00, 0x00, 0x00, 0x00, 0x00, 0x00, 0x00, 0x00, 0x04, 0x00, 0x00, 0x00,
  0x00, 0x00, 0x00, 0x00, 0x00, 0x00, 0x00, 0x00, 0x00, 0x00, 0x00, 0x00,
  0x21, 0x00, 0x00, 0x00, 0x01, 0x00, 0x00, 0x00, 0x03, 0x00, 0x00, 0x00,
  0x00, 0x00, 0x00, 0x00, 0x00, 0x00, 0x00, 0x00, 0x00, 0x00, 0x00, 0x00,
  0x40, 0x00, 0x00, 0x00, 0x00, 0x00, 0x00, 0x00, 0x00, 0x00, 0x00, 0x00,
  0x00, 0x00, 0x00, 0x00, 0x00, 0x00, 0x00, 0x00, 0x00, 0x00, 0x00, 0x00,
  0x04, 0x00, 0x00, 0x00, 0x00, 0x00, 0x00, 0x00, 0x00, 0x00, 0x00, 0x00,
  0x00, 0x00, 0x00, 0x00, 0x27, 0x00, 0x00, 0x00, 0x08, 0x00, 0x00, 0x00,
  0x03, 0x00, 0x00, 0x00, 0x00, 0x00, 0x00, 0x00, 0x00, 0x00, 0x00, 0x00,
  0x00, 0x00, 0x00, 0x00, 0x40, 0x00, 0x00, 0x00, 0x00, 0x00, 0x00, 0x00,
  0x00, 0x00, 0x00, 0x00, 0x00, 0x00, 0x00, 0x00, 0x00, 0x00, 0x00, 0x00,
  0x00, 0x00, 0x00, 0x00, 0x04, 0x00, 0x00, 0x00, 0x00, 0x00, 0x00, 0x00,
  0x00, 0x00, 0x00, 0x00, 0x00, 0x00, 0x00, 0x00, 0x2C, 0x00, 0x00, 0x00,
  0x07, 0x00, 0x00, 0x00, 0x02, 0x00, 0x00, 0x00, 0x00, 0x00, 0x00, 0x00,
  0x00, 0x00, 0x00, 0x00, 0x00, 0x00, 0x00, 0x00, 0x40, 0x00, 0x00, 0x00,
  0x00, 0x00, 0x00, 0x00, 0x3C, 0x00, 0x00, 0x00, 0x00, 0x00, 0x00, 0x00,
  0x00, 0x00, 0x00, 0x00, 0x00, 0x00, 0x00, 0x00, 0x04, 0x00, 0x00, 0x00,
  0x00, 0x00, 0x00, 0x00, 0x00, 0x00, 0x00, 0x00, 0x00, 0x00, 0x00, 0x00,
  0x11, 0x00, 0x00, 0x00, 0x03, 0x00, 0x00, 0x00, 0x00, 0x00, 0x00, 0x00,
  0x00, 0x00, 0x00, 0x00, 0x00, 0x00, 0x00, 0x00, 0x00, 0x00, 0x00, 0x00,
  0x7C, 0x00, 0x00, 0x00, 0x00, 0x00, 0x00, 0x00, 0x3C, 0x00, 0x00, 0x00,
  0x00, 0x00, 0x00, 0x00, 0x00, 0x00, 0x00, 0x00, 0x00, 0x00, 0x00, 0x00,
  0x01, 0x00, 0x00, 0x00, 0x00, 0x00, 0x00, 0x00, 0x00, 0x00, 0x00, 0x00,
  0x00, 0x00, 0x00, 0x00, 0x01, 0x00, 0x00, 0x00, 0x02, 0x00, 0x00, 0x00,
  0x00, 0x00, 0x00, 0x00, 0x00, 0x00, 0x00, 0x00, 0x00, 0x00, 0x00, 0x00,
  0x00, 0x00, 0x00, 0x00, 0xB8, 0x02, 0x00, 0x00, 0x00, 0x00, 0x00, 0x00,
  0x78, 0x00, 0x00, 0x00, 0x00, 0x00, 0x00, 0x00, 0x07, 0x00, 0x00, 0x00,
  0x05, 0x00, 0x00, 0x00, 0x08, 0x00, 0x00, 0x00, 0x00, 0x00, 0x00, 0x00,
  0x18, 0x00, 0x00, 0x00, 0x00, 0x00, 0x00, 0x00, 0x09, 0x00, 0x00, 0x00,
  0x03, 0x00, 0x00, 0x00, 0x00, 0x00, 0x00, 0x00, 0x00, 0x00, 0x00, 0x00,
  0x00, 0x00, 0x00, 0x00, 0x00, 0x00, 0x00, 0x00, 0x30, 0x03, 0x00, 0x00,
  0x00, 0x00, 0x00, 0x00, 0x01, 0x00, 0x00, 0x00, 0x00, 0x00, 0x00, 0x00,
  0x00, 0x00, 0x00, 0x00, 0x00, 0x00, 0x00, 0x00, 0x01, 0x00, 0x00, 0x00,
  0x00, 0x00, 0x00, 0x00, 0x00, 0x00, 0x00, 0x00, 0x00, 0x00, 0x00, 0x00,
  0x00, 0x00, 0x00, 0x00, 0x00, 0x00, 0x00, 0x00, 0x00, 0x00, 0x00, 0x00,
  0x00, 0x00, 0x00, 0x00, 0x00, 0x00, 0x00, 0x00, 0x00, 0x00, 0x00, 0x00,
  0x00, 0x00, 0x00, 0x00, 0x03, 0x00, 0x01, 0x00, 0x00, 0x00, 0x00, 0x00,
  0x00, 0x00, 0x00, 0x00, 0x00, 0x00, 0x00, 0x00, 0x00, 0x00, 0x00, 0x00,
  0x00, 0x00, 0x00, 0x00, 0x03, 0x00, 0x02, 0x00, 0x00, 0x00, 0x00, 0x00,
  0x00, 0x00, 0x00, 0x00, 0x00, 0x00, 0x00, 0x00, 0x00, 0x00, 0x00, 0x00,
  0x00, 0x00, 0x00, 0x00, 0x03, 0x00, 0x03, 0x00, 0x00, 0x00, 0x00, 0x00,
  0x00, 0x00, 0x00, 0x00, 0x00, 0x00, 0x00, 0x00, 0x00, 0x00, 0x00, 0x00,
  0x00, 0x00, 0x00, 0x00, 0x03, 0x00, 0x04, 0x00, 0x00, 0x00, 0x00, 0x00,
  0x00, 0x00, 0x00, 0x00, 0x00, 0x00, 0x00, 0x00, 0x00, 0x00, 0x00, 0x00,
  0x00]

def templateSignatureLen : Nat := 817

/-- What main prints for --generate-signature. -/
def generateSignature (uuid : Uuid) : List UInt8 :=
  (store templateSignature 0x55 uuid.unparseLower).take templateSignatureLen

/-- A section of a file that lies in memory at an address. -/
def fileSection (base : Nat) (file : List UInt8) (header : ElfFile.SectionHeader) : ElfSection :=
  ⟨ElfFile.sectionName file header, UInt32.ofNat header.type, UInt64.ofNat header.flags,
    if header.size = 0 then none else some (base + header.offset)⟩

def fileSections (base : Nat) (file : List UInt8) : List ElfSection :=
  (ElfFile.sectionHeaders file).map (fileSection base file)

/-- The note in the generated object file. -/
def watermark (uuid : Uuid) : Note where
  type := ogrtElfNoteType
  name := [0x4F, 0x47, 0x52, 0x54, 0]
  namePadding := [0, 0, 0]
  desc := 1 :: (uuid.text ++ [0])
  descPadding := [0, 0]
  namePadded := rfl
  descPadded := by simp [padding]
  nameFits := ogrtName_fits
  descFits := by simp

/-- ".note.ogrt.info" -/
def ogrtSectionName : GoString :=
  [0x2E, 0x6E, 0x6F, 0x74, 0x65, 0x2E, 0x6F, 0x67, 0x72, 0x74, 0x2E, 0x69, 0x6E, 0x66, 0x6F]

/-- read_signature at an address finds a note of version 1 whose signature is a text that ends
inside the desc. -/
def ReadsSignature (memory : Memory) (note : Nat) (text : GoString) : Prop :=
  let elf := elfNote .little memory note
  let desc := elf.data + elf.nameSize.toUInt32.toNat + padding elf.nameSize.toUInt32.toNat
  ∃ pointer, (readSignature .little memory note ⟨0, none⟩).2 = ⟨1, some pointer⟩ ∧ memory.CString pointer text ∧
    desc ≤ pointer ∧ pointer + text.length < desc + elf.descSize.toUInt32.toNat

/-- What both readers are to make of the object file generated for a UUID. -/
structure WatermarkSound (uuid : Uuid) : Prop where
  size : (generateSignature uuid).length = templateSignature.length
  patched : ∀ i, i < 0x55 ∨ 0x55 + 37 ≤ i → (generateSignature uuid)[i]? = templateSignature[i]?
  noteSection : ∃ header, (ElfFile.sectionHeaders (generateSignature uuid)).filter (·.type = shtNote.toNat) = [header] ∧
    ElfFile.sectionName (generateSignature uuid) header = ogrtSectionName ∧ header.offset = 0x40 ∧ header.size = 0x3C
  readSignature : ∀ memory address, memory.Holds address (((generateSignature uuid).drop 0x40).take 0x3C) →
    ReadsSignature memory address uuid.text
  readInfo : ∀ memory base, memory.Holds base (generateSignature uuid) →
    ∃ report, ogrtReadInfo .little memory (fileSections base (generateSignature uuid)) = some [report] ∧
      report.sectionName = ogrtSectionName ∧ report.version = 1 ∧ memory.CString report.uuid uuid.text

variable (uuid : Uuid)

theorem watermark_stamped : (watermark uuid).Stamped 1 uuid.text where
  name := rfl
  desc := rfl
  size := uuid.text_length
  noNul := uuid.text_noNul

theorem watermark_marked : (watermark uuid).marked = true := rfl

theorem watermark_size : (watermark uuid).size = 60 := by simp [Note.size, watermark, padding]

theorem watermark_step : (watermark uuid).step = 55 := by simp [Note.step, watermark]

theorem watermark_header : (watermark uuid).header .little = [5, 0, 0, 0, 38, 0, 0, 0, 0x54, 0x52, 0x47, 0x4F] := by
  have name : (watermark uuid).name.length = 5 := rfl
  have desc : (watermark uuid).desc.length = 38 := by simp [watermark]
  have type : (watermark uuid).type = ogrtElfNoteType := rfl
  rw [Note.header, name, desc, type]
  decide

theorem templateSignature_length : templateSignature.length = templateSignatureLen := by decide +kernel

theorem template_take {n : Nat} (inside : n ≤ templateSignatureLen) : (templateSignature.take n).length = n := by
  rw [List.length_take, templateSignature_length, Nat.min_eq_left inside]

/-- The note of the template around its uuid: the header, the name and the version before it,
the padding behind it. -/
theorem template_note : (templateSignature.drop 0x40).take 0x15 =
      [5, 0, 0, 0, 38, 0, 0, 0, 0x54, 0x52, 0x47, 0x4F] ++ [0x4F, 0x47, 0x52, 0x54, 0, 0, 0, 0, 1] ∧
    (templateSignature.drop 0x7A).take 2 = [0, 0] := by
  decide +kernel

/-- The section with the names is behind the note too. -/
theorem template_sectionTable : ElfFile.sectionTable templateSignature = ⟨0xB8, 0x40, 8, 5⟩ ∧
    ElfFile.sectionHeader templateSignature (0xB8 + 5 * 0x40) = ⟨17, 3, 0, 0x7C, 0x3C⟩ := by
  decide +kernel

theorem template_sections : ElfFile.sectionHeaders templateSignature =
    [⟨27, 1, 6, 0x40, 0⟩, ⟨33, 1, 3, 0x40, 0⟩, ⟨39, 8, 3, 0x40, 0⟩, ⟨44, 7, 2, 0x40, 0x3C⟩, ⟨17, 3, 0, 0x7C, 0x3C⟩,
      ⟨1, 2, 0, 0x2B8, 120⟩, ⟨9, 3, 0, 0x330, 1⟩] := by decide +kernel

theorem template_section_name : ElfFile.sectionName templateSignature ⟨44, 7, 2, 0x40, 0x3C⟩ = ogrtSectionName := by
  decide +kernel

/-- The patch replaces the uuid of the template, and nothing else. -/
theorem generateSignature_eq : generateSignature uuid =
    templateSignature.take 0x55 ++ (uuid.unparseLower ++ templateSignature.drop 0x7A) := by
  have before : (templateSignature.take 0x55).length = 0x55 := template_take (by decide)
  have whole := templateSignature_length
  have split : templateSignature =
      templateSignature.take 0x55 ++ ((templateSignature.drop 0x55).take 37 ++ templateSignature.drop 0x7A) := by
    have behind := List.take_append_drop 37 (templateSignature.drop 0x55)
    rw [List.drop_drop] at behind
    rw [behind, List.take_append_drop]
  have replaced : uuid.unparseLower.length = ((templateSignature.drop 0x55).take 37).length := by
    rw [Uuid.unparseLower, List.length_append, Uuid.text_length, List.length_take, List.length_drop, whole]
    rfl
  have stored : store templateSignature 0x55 uuid.unparseLower =
      templateSignature.take 0x55 ++ (uuid.unparseLower ++ templateSignature.drop 0x7A) := by
    conv_lhs => rw [split, ← before]
    exact store_append replaced
  rw [generateSignature, stored, List.take_of_length_le]
  rw [List.length_append, List.length_append, replaced, ← List.length_append, ← List.length_append, ← split, whole]

/-- Its section is the note, from the header to the padding. -/
theorem generateSignature_note : generateSignature uuid =
    templateSignature.take 0x40 ++ ((watermark uuid).bytes .little ++ templateSignature.drop 0x7C) := by
  obtain ⟨noteFront, noteBack⟩ := template_note
  have front : templateSignature.take 0x55 = templateSignature.take 0x40 ++
      ([5, 0, 0, 0, 38, 0, 0, 0, 0x54, 0x52, 0x47, 0x4F] ++ [0x4F, 0x47, 0x52, 0x54, 0, 0, 0, 0, 1]) := by
    rw [← noteFront, ← List.take_add]
  have back : templateSignature.drop 0x7A = [0, 0] ++ templateSignature.drop 0x7C := by
    have behind := List.take_append_drop 2 (templateSignature.drop 0x7A)
    rw [noteBack, List.drop_drop] at behind
    exact behind.symm
  rw [generateSignature_eq, front, back, Note.bytes, watermark_header]
  simp [watermark, Uuid.unparseLower]

theorem generateSignature_section : ((generateSignature uuid).drop 0x40).take 0x3C = (watermark uuid).bytes .little := by
  rw [generateSignature_note, List.drop_left' (template_take (by decide)), List.take_left']
  rw [Note.bytes_length, watermark_size]

theorem generateSignature_drop : (generateSignature uuid).drop 0x7A = templateSignature.drop 0x7A := by
  rw [generateSignature_eq, ← List.append_assoc, List.drop_left']
  rw [List.length_append, template_take (by decide), Uuid.unparseLower, List.length_append, Uuid.text_length]
  rfl

theorem generateSignature_take : (generateSignature uuid).take 0x55 = templateSignature.take 0x55 := by
  rw [generateSignature_eq, List.take_left' (template_take (by decide))]

/-- The section table and the section names lie behind the patch. -/
theorem generateSignature_sections :
    ElfFile.sectionHeaders (generateSignature uuid) = ElfFile.sectionHeaders templateSignature ∧
      ElfFile.sectionName (generateSignature uuid) = ElfFile.sectionName templateSignature := by
  obtain ⟨table, names⟩ := template_sectionTable
  have head : templateSignature.take 64 = (generateSignature uuid).take 64 := by
    have front := congrArg (List.take 64) (generateSignature_take uuid)
    rw [List.take_take, List.take_take] at front
    exact front.symm
  have tail := (generateSignature_drop uuid).symm
  have behind : 0x7A ≤ (ElfFile.sectionTable templateSignature).shoff := by
    rw [table]
    decide
  refine ⟨(ElfFile.sectionHeaders_congr head tail behind).symm, funext fun header => ?_⟩
  refine (ElfFile.sectionName_congr head tail behind ?_ header).symm
  rw [table, names]
  decide

variable {uuid} {memory : Memory} {address : Nat}

theorem watermark_read (holds : memory.Holds address ((watermark uuid).bytes .little)) :
    ReadsSignature memory address uuid.text := by
  have layout := (watermark_stamped uuid).ogrtLayout
  have nameSize : (watermark uuid).name.length = 5 := rfl
  have descSize : (watermark uuid).desc.length = 38 := by simp [watermark]
  refine ⟨address + 21, ?_, Note.uuid_cString layout holds, ?_⟩
  · rw [readSignature_eq, Note.supportedSignature_eq (fun _ => ⟨1, uuid.text, layout⟩) holds,
      if_pos (watermark_marked uuid)]
    rfl
  · rw [Note.elfNote_eq holds, nameSize, descSize, Uuid.text_length]
    simp only [padding, UInt32.toUInt32_toInt32, UInt32.toNat_ofNat']
    omega

/-- The generated object file is as long as the template and differs from it in the uuid only;
its note section is found under its name, and both readers find the UUID there. -/
theorem watermark_sound (uuid : Uuid) : WatermarkSound uuid := by
  obtain ⟨headers, names⟩ := generateSignature_sections uuid
  refine ⟨?_, fun i outside => ?_, ?_, fun memory address holds => ?_, fun memory base holds => ?_⟩
  · have front := congrArg List.length (generateSignature_take uuid)
    have back := congrArg List.length (generateSignature_drop uuid)
    have whole := templateSignature_length
    simp only [List.length_take, List.length_drop, templateSignatureLen] at front back whole
    omega
  · rcases outside with before | behind
    · have same := congrArg (·[i]?) (generateSignature_take uuid)
      simpa only [List.getElem?_take, before, if_true] using same
    · have same := congrArg (·[i - 0x7A]?) (generateSignature_drop uuid)
      simpa only [List.getElem?_drop, Nat.add_sub_cancel' behind] using same
  · refine ⟨⟨44, 7, 2, 0x40, 0x3C⟩, ?_, ?_, rfl, rfl⟩
    · rw [headers, template_sections]
      rfl
    · rw [names, template_section_name]
  · rw [generateSignature_section] at holds
    exact watermark_read holds
  · have note := holds
    rw [generateSignature_note, Memory.holds_append, Memory.holds_append, template_take (by decide)] at note
    have layout := (watermark_stamped uuid).ogrtLayout
    have isOgrt : (elfNote .little memory (base + 0x40)).type = ogrtElfNoteType := by
      rw [Note.elfNote_eq note.2.1]
      rfl
    refine ⟨⟨ogrtSectionName, true, memory (base + 0x40 + 20), base + 0x40 + 12, base + 0x40 + 21⟩, ?_, rfl,
      Note.version_eq layout note.2.1, Note.uuid_cString layout note.2.1⟩
    have nonempty : ∀ scn ∈ fileSections base (generateSignature uuid), scn.type = shtNote → scn.buf ≠ none := by
      have sizes : ∀ header ∈ ElfFile.sectionHeaders templateSignature,
          UInt32.ofNat header.type = shtNote → header.size ≠ 0 := by
        rw [template_sections]
        decide
      intro scn member isNote
      rw [fileSections, headers] at member
      obtain ⟨header, listed, rfl⟩ := List.mem_map.mp member
      rw [fileSection, if_neg (sizes header listed isNote)]
      exact Option.some_ne_none _
    have silent (headers : List ElfFile.SectionHeader) (differ : ∀ header ∈ headers, UInt32.ofNat header.type ≠ shtNote) :
        (headers.map (fileSection base (generateSignature uuid))).filterMap (reportOf .little memory) = [] := by
      refine List.filterMap_eq_nil_iff.mpr fun scn member => ?_
      obtain ⟨header, listed, rfl⟩ := List.mem_map.mp member
      exact if_neg (differ header listed)
    have found : reportOf .little memory (fileSection base (generateSignature uuid) ⟨44, 7, 2, 0x40, 0x3C⟩) =
        some ⟨ogrtSectionName, true, memory (base + 0x40 + 20), base + 0x40 + 12, base + 0x40 + 21⟩ := by
      have allocated : UInt64.ofNat 2 &&& shfAlloc ≠ 0 := by decide
      have isNote : UInt32.ofNat 7 = shtNote := by decide
      have stored : (if (0x3C : Nat) = 0 then none else some (base + 0x40)) = some (base + 0x40) := if_neg (by decide)
      rw [reportOf, fileSection, names, template_section_name, if_pos isNote, stored, Option.bind_some, if_pos isOgrt,
        decide_eq_true allocated]
    have split : ElfFile.sectionHeaders (generateSignature uuid) =
        [⟨27, 1, 6, 0x40, 0⟩, ⟨33, 1, 3, 0x40, 0⟩, ⟨39, 8, 3, 0x40, 0⟩] ++ ⟨44, 7, 2, 0x40, 0x3C⟩ ::
          [⟨17, 3, 0, 0x7C, 0x3C⟩, ⟨1, 2, 0, 0x2B8, 120⟩, ⟨9, 3, 0, 0x330, 1⟩] := headers.trans template_sections
    rw [ogrtReadInfo_eq nonempty, fileSections, split, List.map_append, List.filterMap_append, silent _ (by decide),
      List.map_cons, List.filterMap_cons_some found, silent _ (by decide), List.nil_append]

/-- Different UUIDs are read back as different signatures. -/
theorem watermark_distinct {uuid other : Uuid} {memory otherMemory : Memory} {address otherAddress : Nat}
    (holds : memory.Holds address ((watermark uuid).bytes .little))
    (otherHolds : otherMemory.Holds otherAddress ((watermark other).bytes .little)) {text otherText : GoString}
    (reads : ReadsSignature memory address text) (otherReads : ReadsSignature otherMemory otherAddress otherText)
    (differ : uuid ≠ other) : text ≠ otherText := by
  -- the pointer is the same in every successful read, so the text is that of the UUID
  have own {uuid : Uuid} {memory : Memory} {address : Nat} {text : GoString}
      (holds : memory.Holds address ((watermark uuid).bytes .little)) (reads : ReadsSignature memory address text) :
      text = uuid.text := by
    obtain ⟨pointer, found, spells, _⟩ := reads
    obtain ⟨_, again, uuidThere, _⟩ := watermark_read holds
    cases Option.some.inj (FoundSignature.mk.inj (found.symm.trans again)).2
    exact spells.unique uuidThere
  rw [own holds reads, own otherHolds otherReads]
  exact fun same => differ (Uuid.text_injective same)

/-- A watermark survives the way through the object file, for every UUID. -/
theorem watermark_round_trip (uuid : Uuid) :
    WatermarkSound uuid ∧
      ∀ other memory otherMemory address otherAddress text otherText, uuid ≠ other →
        memory.Holds address (((generateSignature uuid).drop 0x40).take 0x3C) →
        otherMemory.Holds otherAddress (((generateSignature other).drop 0x40).take 0x3C) →
        ReadsSignature memory address text → ReadsSignature otherMemory otherAddress otherText → text ≠ otherText := by
  refine ⟨watermark_sound uuid, ?_⟩
  intro other memory otherMemory address otherAddress text otherText differ holds otherHolds reads otherReads
  rw [generateSignature_section] at holds otherHolds
  exact watermark_distinct holds otherHolds reads otherReads differ

/-- A segment of one generated note: the walk goes on at 55 of its 60 bytes and reads a header
that passes the end. -/
theorem watermark_walk_passes_end {uuid : Uuid} {memory : Memory} {notes : Nat}
    (holds : memory.Holds notes ((watermark uuid).bytes .little)) : ¬ WalkInside .little memory notes 60 := by
  intro inside
  have step : (nextOffset .little memory notes 0).toNat = 55 := by
    have wrapped := @Note.nextOffset_toNat _ _ _ _ 0 holds
    rw [watermark_step] at wrapped
    exact wrapped
  have first : (noteLoop .little memory notes 60).Iterates (startWalk none)
      ((noteLoop .little memory notes 60).body (startWalk none)) := ⟨rfl, rfl⟩
  have offset : ((noteLoop .little memory notes 60).body (startWalk none)).offset.toNat = 55 := by
    rw [noteLoop_body]
    exact step
  have before : ((noteLoop .little memory notes 60).body (startWalk none)).offset.toUInt64 < 60 := by
    rw [UInt64.lt_iff_toNat_lt, UInt32.toNat_toUInt64, offset]
    decide
  have room := (signatureReads_inside_iff.mp (inside.reads _ (.single first) before)).1
  rw [offset] at room
  exact absurd room (by decide)

theorem generated_note_overread :
    ¬ ∀ (host : ByteOrder) (memory : Memory) (notes : Nat) (memsz : UInt64), WalkInside host memory notes memsz := by
  intro inside
  let note := (watermark ⟨List.replicate 16 0, rfl⟩).bytes .little
  have holds : Memory.Holds (fun address => note.getD (address - 4096) 0) 4096 note := by decide
  exact watermark_walk_passes_end holds (inside .little _ 4096 60)

end Ogrt
