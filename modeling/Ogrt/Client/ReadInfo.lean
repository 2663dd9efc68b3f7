import Ogrt.Client.ReadSo

namespace Ogrt
open BigEndian

def shtNote : UInt32 := 7
def shfAlloc : UInt64 := 2

/-- A section as libelf hands it out, with the address of its data. The buffer of an empty
section is NULL. -/
structure ElfSection where
  name : GoString
  type : UInt32
  flags : UInt64
  buf : Option Nat
  deriving DecidableEq, Repr

/-- What ogrt_read_info prints about an OGRT note; name and uuid are the pointers that it
passes to printf. -/
structure SignatureReport where
  sectionName : GoString
  allocatable : Bool
  version : UInt8
  name : Nat
  uuid : Nat
  deriving DecidableEq, Repr

/-- The loop over the sections. Their number is what it returns as notes_found. No result is
the dereference of a NULL buffer. -/
def ogrtReadInfo (host : ByteOrder) (memory : Memory) : List ElfSection → Option (List SignatureReport)
  | [] => some []
  | scn :: rest =>
    if scn.type = shtNote then
      match scn.buf with
      | none => none
      | some buf =>
        let note := elfNote host memory buf
        if note.type = ogrtElfNoteType then
          let ogNote := ogrtNote memory note.data
          let report := ⟨scn.name, scn.flags &&& shfAlloc ≠ 0, ogNote.version, note.data, ogNote.uuid⟩
          (ogrtReadInfo host memory rest).map (report :: ·)
        else ogrtReadInfo host memory rest
    else ogrtReadInfo host memory rest

/-- The report on a section, if its first note is an OGRT note. -/
def reportOf (host : ByteOrder) (memory : Memory) (scn : ElfSection) : Option SignatureReport :=
  if scn.type = shtNote then
    scn.buf.bind fun buf =>
      if (elfNote host memory buf).type = ogrtElfNoteType then
        some ⟨scn.name, scn.flags &&& shfAlloc ≠ 0, memory (buf + 20), buf + 12, buf + 21⟩
      else none
  else none

/-- Without an empty note section the reports are those on the sections, one by one. -/
theorem ogrtReadInfo_eq {host : ByteOrder} {memory : Memory} {sections : List ElfSection}
    (nonempty : ∀ scn ∈ sections, scn.type = shtNote → scn.buf ≠ none) :
    ogrtReadInfo host memory sections = some (sections.filterMap (reportOf host memory)) := by
  induction sections with
  | nil => rfl
  | cons scn rest ih =>
    have later := ih fun other member => nonempty other (List.mem_cons_of_mem _ member)
    rw [ogrtReadInfo, List.filterMap_cons, reportOf]
    split
    · rename_i isNote
      obtain ⟨buf, present⟩ := Option.ne_none_iff_exists'.mp (nonempty scn List.mem_cons_self isNote)
      simp only [present, Option.bind_some]
      split
      · rw [later]
        rfl
      · exact later
    · exact later

end Ogrt
