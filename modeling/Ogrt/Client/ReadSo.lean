import Ogrt.Lib.BigEndian
import Ogrt.Lib.Memory
import Ogrt.Lib.WhileLoop
import Ogrt.Protocol
import Mathlib.Data.FinEnum

namespace Ogrt
open BigEndian

def ogrtElfNoteType : Int32 := 0x4f475254
def ogrtStampSupportedVersion : UInt8 := 0x01

/-- The packed struct elf_note; `data` is the address of its last field. -/
structure ElfNote where
  nameSize : Int32
  descSize : Int32
  type : Int32
  data : Nat
  deriving DecidableEq, Repr

def elfNote (host : ByteOrder) (memory : Memory) (note : Nat) : ElfNote :=
  let field (offset : Nat) : Int32 := (host.load (memory.read (note + offset) 4)).toInt32
  ⟨field 0, field 4, field 8, note + 12⟩

/-- The packed struct ogrt_note behind its eight name bytes; `uuid` is an address. -/
structure OgrtNote where
  version : UInt8
  uuid : Nat
  deriving DecidableEq, Repr

def ogrtNote (memory : Memory) (data : Nat) : OgrtNote := ⟨memory (data + 8), data + 9⟩

/-- The two variables that read_signature is given pointers to. -/
structure FoundSignature where
  version : UInt8
  signature : Option Nat
  deriving DecidableEq, Repr

/-- The uuid pointer of an OGRT note of the supported version. -/
def supportedSignature (host : ByteOrder) (memory : Memory) (note : Nat) : Option Nat :=
  let elf := elfNote host memory note
  if elf.type = ogrtElfNoteType then
    let ogrt := ogrtNote memory elf.data
    if ogrt.version = ogrtStampSupportedVersion then some ogrt.uuid else none
  else none

def readSignature (host : ByteOrder) (memory : Memory) (note : Nat) (found : FoundSignature) :
    Int32 × FoundSignature :=
  let elf := elfNote host memory note
  let found :=
    if elf.type = ogrtElfNoteType then
      let ogrt := ogrtNote memory elf.data
      if ogrt.version = ogrtStampSupportedVersion then ⟨ogrt.version, some ogrt.uuid⟩ else found
    else found
  (elf.descSize + elf.nameSize + 12, found)

/-- The variables of the note loop and the field of the shared object that it sets. -/
structure NoteWalk where
  offset : UInt32
  found : FoundSignature
  sharedObjectSignature : Option Nat
  deriving DecidableEq, Repr

/-- The while loop of handle_program_header over one segment. -/
def noteLoop (host : ByteOrder) (memory : Memory) (notes : Nat) (memsz : UInt64) : WhileLoop NoteWalk where
  guard walk := walk.offset.toUInt64 < memsz
  body walk :=
    let (size, found) := readSignature host memory (notes + walk.offset.toNat) walk.found
    ⟨walk.offset + size.toUInt32, found, found.signature⟩

def startWalk (sharedObjectSignature : Option Nat) : NoteWalk := ⟨0, ⟨0, none⟩, sharedObjectSignature⟩

structure ProgramHeader where
  type : UInt32
  vaddr : UInt64
  memsz : UInt64
  deriving DecidableEq, Repr

def ptNull : UInt32 := 0
def ptNote : UInt32 := 4

/-- What the dynamic loader tells about a loaded object. -/
structure DlPhdrInfo where
  name : GoString
  addr : UInt64
  phdr : List ProgramHeader
  deriving DecidableEq, Repr

/-- The fields of a shared object of the message, its signature as a pointer. -/
structure LoadedObject where
  path : Option GoString
  signature : Option Nat
  deriving DecidableEq, Repr

/-- What a segment makes of the signature. No result is a walk that never ends. -/
def walkNotes (host : ByteOrder) (memory : Memory) (notes : Nat) (memsz : UInt64) (signature : Option Nat) :
    Option (Option Nat) :=
  ((noteLoop host memory notes memsz).run (2 ^ 32) (startWalk signature)).map (·.sharedObjectSignature)

/-- One turn of the loop over the program headers. -/
def checkHeader (host : ByteOrder) (memory : Memory) (addr : UInt64) (signature : Option Nat)
    (header : ProgramHeader) : Option (Option Nat) :=
  if header.type ≠ ptNull ∧ header.type = ptNote then
    let notes := addr + header.vaddr
    if notes ≠ 0 then walkNotes host memory notes.toNat header.memsz signature else some signature
  else some signature

/-- `soName` is what ogrt_normalize_path or strdup made of the name, or NULL. -/
def handleProgramHeader (host : ByteOrder) (memory : Memory) (soName : Option GoString) (info : DlPhdrInfo) :
    Option LoadedObject :=
  (info.phdr.foldlM (checkHeader host memory info.addr) none).map fun signature => ⟨soName, signature⟩

variable {host : ByteOrder} {memory : Memory} {notes : Nat} {memsz : UInt64}

theorem readSignature_eq (note : Nat) (found : FoundSignature) :
    readSignature host memory note found =
      ((elfNote host memory note).descSize + (elfNote host memory note).nameSize + 12,
        match supportedSignature host memory note with
        | some uuid => ⟨ogrtStampSupportedVersion, some uuid⟩
        | none => found) := by
  simp only [readSignature, supportedSignature]
  split
  · split
    · rename_i version
      rw [version]
    · rfl
  · rfl

/-- The offset that the sizes found at an offset lead to. -/
def nextOffset (host : ByteOrder) (memory : Memory) (notes : Nat) (offset : UInt32) : UInt32 :=
  let elf := elfNote host memory (notes + offset.toNat)
  offset + (elf.descSize.toUInt32 + elf.nameSize.toUInt32 + 12)

/-- The offsets alone; no signature has a say in where the walk goes. -/
def offsetLoop (host : ByteOrder) (memory : Memory) (notes : Nat) (memsz : UInt64) : WhileLoop UInt32 where
  guard offset := offset.toUInt64 < memsz
  body := nextOffset host memory notes

/-- An offset within the segment and the one that the sizes found there lead to. -/
def Leads (host : ByteOrder) (memory : Memory) (notes : Nat) (memsz : UInt64) : UInt32 → UInt32 → Prop :=
  (offsetLoop host memory notes memsz).Iterates

theorem noteLoop_body (walk : NoteWalk) :
    (noteLoop host memory notes memsz).body walk =
      let found := match supportedSignature host memory (notes + walk.offset.toNat) with
        | some uuid => ⟨ogrtStampSupportedVersion, some uuid⟩
        | none => walk.found
      ⟨nextOffset host memory notes walk.offset, found, found.signature⟩ := by
  simp only [noteLoop, readSignature_eq, nextOffset, Int32.toUInt32_add]
  rfl

variable (host memory notes memsz) in
theorem noteLoop_projects :
    WhileLoop.Projects (noteLoop host memory notes memsz) (offsetLoop host memory notes memsz) NoteWalk.offset where
  guard _ := rfl
  body walk _ := by rw [noteLoop_body]; rfl

/-- The bound on the iterations cuts no walk short that ends. -/
theorem walkNotes_eq_some_iff {signature result : Option Nat} :
    walkNotes host memory notes memsz signature = some result ↔
      ∃ trace last, (noteLoop host memory notes memsz).Runs (startWalk signature) trace last ∧
        last.sharedObjectSignature = result := by
  have offsets : Fintype.card UInt32 ≤ 2 ^ 32 := by
    rw [← FinEnum.card_eq_fintypeCard, FinEnum.card_UInt32]
  simp only [walkNotes, Option.map_eq_some_iff, (noteLoop_projects host memory notes memsz).run_eq_some_iff offsets]
  constructor
  · rintro ⟨last, ⟨trace, runs⟩, same⟩
    exact ⟨trace, last, runs, same⟩
  · rintro ⟨trace, last, runs, same⟩
    exact ⟨last, ⟨trace, runs⟩, same⟩

end Ogrt
