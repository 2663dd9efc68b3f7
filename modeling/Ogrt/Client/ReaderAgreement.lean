import Ogrt.Client.KeptSignature
import Ogrt.Client.NoteLayout
import Ogrt.Client.ReadInfo

namespace Ogrt
open BigEndian

/-- A note section of an ELF file with the notes in it. -/
structure NoteSection where
  scn : ElfSection
  first : Note
  rest : List Note

def NoteSection.notes (noteSection : NoteSection) : List Note := noteSection.first :: noteSection.rest

def NoteSection.allocatable (noteSection : NoteSection) : Prop := noteSection.scn.flags &&& shfAlloc ≠ 0

instance (noteSection : NoteSection) : Decidable noteSection.allocatable := inferInstanceAs (Decidable (_ ≠ _))

/-- A PT_NOTE segment with the sections that it consists of. -/
structure NoteSegment where
  header : ProgramHeader
  sections : List NoteSection

def NoteSegment.notes (segment : NoteSegment) : List Note := segment.sections.flatMap (·.notes)

/-- An object as the loader shows it and its file as libelf shows it: the PT_NOTE segments
are made of the allocatable note sections. Padded notes keep the sections aligned. -/
structure Image (host : ByteOrder) (memory : Memory) (info : DlPhdrInfo) (fileMemory : Memory)
    (scns : List ElfSection) (sections : List NoteSection) (segments : List NoteSegment) : Prop where
  headers : info.phdr.filter (·.type = ptNote) = segments.map (·.header)
  loaded : ∀ segment ∈ segments, info.addr + segment.header.vaddr ≠ 0 ∧
    segment.header.memsz.toNat = segmentSize segment.notes ∧
    memory.Holds (info.addr + segment.header.vaddr).toNat (segmentBytes host segment.notes)
  noteSections : scns.filter (·.type = shtNote) = sections.map (·.scn)
  data : ∀ noteSection ∈ sections, ∃ buf, noteSection.scn.buf = some buf ∧
    fileMemory.Holds buf (segmentBytes host noteSection.notes)
  allocatable : ∀ noteSection, (∃ segment ∈ segments, noteSection ∈ segment.sections) ↔
    noteSection ∈ sections ∧ noteSection.allocatable
  layout : ∀ noteSection ∈ sections, ∀ note ∈ noteSection.notes, note.type = ogrtElfNoteType →
    ∃ version uuid, note.OgrtLayout version uuid

/-- From an offset on the walk ends without a supported OGRT note on its way. -/
def QuietFrom (host : ByteOrder) (memory : Memory) (notes : Nat) (memsz : UInt64) (offset : Nat) : Prop :=
  (offsetLoop host memory notes memsz).Ends (UInt32.ofNat offset) ∧
    ∀ later, (offsetLoop host memory notes memsz).Visits (UInt32.ofNat offset) later → later.toUInt64 < memsz →
      supportedSignature host memory (notes + later.toNat) = none

/-- Up to the last supported OGRT note the notes need no padding; where the walk loses track
of the notes it finds nothing more. -/
inductive Tracked (host : ByteOrder) (memory : Memory) (notes : Nat) (memsz : UInt64) : Nat → List Note → Prop
  | done {offset} : Tracked host memory notes memsz offset []
  | even {offset note rest} : note.Even → Tracked host memory notes memsz (offset + note.size) rest →
      Tracked host memory notes memsz offset (note :: rest)
  | astray {offset note rest} : (∀ later ∈ rest, later.marked = false) →
      QuietFrom host memory notes memsz (offset + note.step) → Tracked host memory notes memsz offset (note :: rest)

/-- No walk of the image goes wrong, and the file reader does not have to look past the first note
of a section that is loaded. -/
structure Undistorted (host : ByteOrder) (memory : Memory) (info : DlPhdrInfo) (segments : List NoteSegment) :
    Prop where
  tracked : ∀ segment ∈ segments, segment.header.memsz.toNat < 2 ^ 32 ∧
    Tracked host memory (info.addr + segment.header.vaddr).toNat segment.header.memsz 0 segment.notes
  firstOnly : ∀ segment ∈ segments, ∀ noteSection ∈ segment.sections, ∀ note ∈ noteSection.rest, note.marked = false
  kept : segments.Pairwise fun earlier later =>
    (∃ note ∈ earlier.notes, note.marked = true) → later.notes ≠ [] → ∃ note ∈ later.notes, note.marked = true

variable {host : ByteOrder} {memory fileMemory : Memory} {notes : Nat} {memsz : UInt64}

/-- Over a quiet rest of the segment the walk keeps what it has found. -/
theorem quiet_runs {walk : NoteWalk} (quiet : QuietFrom host memory notes memsz walk.offset.toNat) :
    ∃ trace last, (noteLoop host memory notes memsz).Runs walk trace last ∧ last.found = walk.found := by
  have projects := noteLoop_projects host memory notes memsz
  rw [QuietFrom, UInt32.ofNat_toNat] at quiet
  obtain ⟨trace, last, runs⟩ := projects.ends_iff.mpr quiet.1
  refine ⟨trace, last, runs, ?_⟩
  let P (other : NoteWalk) := (noteLoop host memory notes memsz).Visits walk other ∧ other.found = walk.found
  refine (runs.invariant (P := P) ⟨.refl, rfl⟩ fun other ⟨visits, same⟩ go => ⟨visits.tail ⟨go, rfl⟩, ?_⟩).2
  rw [noteLoop_body, quiet.2 _ (projects.visits visits) (decide_eq_true_iff.mp go)]
  exact same

theorem lastMarked_eq_none {ns : List Note} (unmarked : ∀ note ∈ ns, note.marked = false) (offset : Nat) :
    lastMarked notes offset ns = none := by
  induction ns generalizing offset with
  | nil => rfl
  | cons note rest ih =>
    rw [lastMarked, ih fun later member => unmarked later (List.mem_cons_of_mem _ member), Option.none_or,
      if_neg (Bool.eq_false_iff.mp (unmarked note List.mem_cons_self))]

/-- A tracked walk ends with the last supported OGRT note. -/
theorem tracked_runs {ns : List Note} (walk : NoteWalk)
    (tracked : Tracked host memory notes memsz walk.offset.toNat ns)
    (layout : ∀ note ∈ ns, note.type = ogrtElfNoteType → ∃ version uuid, note.OgrtLayout version uuid)
    (holds : memory.Holds (notes + walk.offset.toNat) (segmentBytes host ns))
    (whole : memsz.toNat = walk.offset.toNat + segmentSize ns) (small : memsz.toNat < 2 ^ 32) :
    ∃ trace last, (noteLoop host memory notes memsz).Runs walk trace last ∧
      last.found.signature = (lastMarked notes walk.offset.toNat ns).or walk.found.signature := by
  induction ns generalizing walk with
  | nil =>
    have stop : (noteLoop host memory notes memsz).guard walk = false := by
      refine Bool.eq_false_iff.mpr fun go => ?_
      have inside := (guard_iff walk).mp go
      have nothing := segmentSize_nil
      omega
    exact ⟨[], walk, .done stop, rfl⟩
  | cons note rest ih =>
    have sum := segmentSize_cons note rest
    have short := note.step_le_size
    have atLeast := note.twelve_le_size
    obtain ⟨here, behind⟩ := holds_segment_cons.mp holds
    obtain ⟨offset, signature⟩ := noteLoop_body_at memsz (layout note List.mem_cons_self) here
    have go : (noteLoop host memory notes memsz).guard walk = true := (guard_iff walk).mpr (by omega)
    rw [Nat.mod_eq_of_lt (by omega)] at offset
    cases tracked with
    | even even tracked =>
      rw [Note.even_iff.mp even] at offset
      rw [← offset] at tracked
      obtain ⟨trace, last, runs, found⟩ := ih _ tracked (fun later member => layout later (List.mem_cons_of_mem _ member))
        (by rw [offset, ← Nat.add_assoc]; exact behind) (by omega)
      refine ⟨walk :: trace, last, .next go runs, ?_⟩
      rw [found, offset, signature, lastMarked, Option.or_assoc]
    | astray unmarked quiet =>
      rw [← offset] at quiet
      obtain ⟨trace, last, runs, found⟩ := quiet_runs quiet
      refine ⟨walk :: trace, last, .next go runs, ?_⟩
      rw [found, signature, lastMarked, lastMarked_eq_none unmarked, Option.none_or]

/-- The signature of a segment is the uuid of a marked note that lies there. -/
theorem lastMarked_eq_some {ns : List Note} {offset uuid : Nat} (found : lastMarked notes offset ns = some uuid)
    (holds : memory.Holds (notes + offset) (segmentBytes host ns)) :
    ∃ note ∈ ns, note.marked = true ∧ ∃ address, uuid = address + 21 ∧ memory.Holds address (note.bytes host) := by
  induction ns generalizing offset with
  | nil => cases found
  | cons note rest ih =>
    obtain ⟨here, behind⟩ := holds_segment_cons.mp holds
    rw [lastMarked, Option.or_eq_some_iff] at found
    rcases found with later | ⟨_, own⟩
    · obtain ⟨other, member, rest⟩ := ih later (by rw [← Nat.add_assoc]; exact behind)
      exact ⟨other, List.mem_cons_of_mem _ member, rest⟩
    · split at own
      · rename_i marked
        cases own
        exact ⟨note, List.mem_cons_self, marked, notes + offset, rfl, here⟩
      · cases own

theorem lastMarked_isSome {ns : List Note} {note : Note} (member : note ∈ ns) (marked : note.marked = true)
    (offset : Nat) : ∃ uuid, lastMarked notes offset ns = some uuid := by
  induction ns generalizing offset with
  | nil => cases member
  | cons first rest ih =>
    rcases List.mem_cons.mp member with rfl | later
    · rw [lastMarked, if_pos marked]
      cases lastMarked notes (offset + note.size) rest with
      | none => exact ⟨_, rfl⟩
      | some uuid => exact ⟨uuid, rfl⟩
    · obtain ⟨uuid, found⟩ := ih later (offset + first.size)
      exact ⟨uuid, by rw [lastMarked, found]; rfl⟩

/-- The in-memory reader ends with a signature just when ogrt_read_info reports one that
counts, of the supported version, and its signature is among the uuids that are printed. -/
structure Agreement (memory fileMemory : Memory) (object : LoadedObject) (reports : List SignatureReport)
    (counts : SignatureReport → Prop) : Prop where
  found : object.signature ≠ none ↔ ∃ report ∈ reports, counts report ∧ report.version = ogrtStampSupportedVersion
  printed : ∀ pointer, object.signature = some pointer →
    ∃ report ∈ reports, ∃ text, memory.CString pointer text ∧ fileMemory.CString report.uuid text

section Image
variable {info : DlPhdrInfo} {scns : List ElfSection} {sections : List NoteSection} {segments : List NoteSegment}

/-- The PT_NOTE headers are those of the segments, and the note sections those of the list. -/
theorem Image.mem_headers (image : Image host memory info fileMemory scns sections segments) {header : ProgramHeader} :
    header ∈ info.phdr ∧ header.type = ptNote ↔ ∃ segment ∈ segments, segment.header = header := by
  rw [← List.mem_map, ← image.headers, List.mem_filter, decide_eq_true_iff]

theorem Image.mem_sections (image : Image host memory info fileMemory scns sections segments) {scn : ElfSection} :
    scn ∈ scns ∧ scn.type = shtNote ↔ ∃ noteSection ∈ sections, noteSection.scn = scn := by
  rw [← List.mem_map, ← image.noteSections, List.mem_filter, decide_eq_true_iff]

theorem Image.segment_layout (image : Image host memory info fileMemory scns sections segments) {segment : NoteSegment}
    (member : segment ∈ segments) : ∀ note ∈ segment.notes, note.type = ogrtElfNoteType →
      ∃ version uuid, note.OgrtLayout version uuid := by
  intro note inside
  obtain ⟨noteSection, part, own⟩ := List.mem_flatMap.mp inside
  exact image.layout noteSection ((image.allocatable noteSection).mp ⟨segment, member, part⟩).1 note own

/-- The walk over a segment of an undistorted image leaves its last supported OGRT note. -/
theorem Image.leaves (image : Image host memory info fileMemory scns sections segments)
    (undistorted : Undistorted host memory info segments) {segment : NoteSegment} (member : segment ∈ segments) :
    Leaves host memory info.addr segment.header
      (lastMarked (info.addr + segment.header.vaddr).toNat 0 segment.notes) := by
  obtain ⟨mapped, size, holds⟩ := image.loaded segment member
  obtain ⟨small, tracked⟩ := undistorted.tracked segment member
  obtain ⟨_, isNote⟩ := image.mem_headers.mpr ⟨segment, member, rfl⟩
  have atStart : (startWalk none).offset.toNat = 0 := rfl
  obtain ⟨trace, last, runs, found⟩ := tracked_runs (startWalk none) tracked (image.segment_layout member) holds (by omega)
    small
  exact ⟨isNote, mapped, trace, last, runs, found.trans (Option.or_none ..)⟩

/-- A section that begins with an OGRT note is reported. -/
theorem Image.reportOf_eq (image : Image host memory info fileMemory scns sections segments) {noteSection : NoteSection}
    (member : noteSection ∈ sections) :
    ∃ buf, fileMemory.Holds buf (noteSection.first.bytes host) ∧
      reportOf host fileMemory noteSection.scn = if noteSection.first.type = ogrtElfNoteType then
        some ⟨noteSection.scn.name, noteSection.scn.flags &&& shfAlloc ≠ 0, fileMemory (buf + 20), buf + 12, buf + 21⟩
      else none := by
  obtain ⟨buf, present, holds⟩ := image.data noteSection member
  obtain ⟨_, isNote⟩ := image.mem_sections.mpr ⟨noteSection, member, rfl⟩
  have first := (holds_segment_cons.mp holds).1
  refine ⟨buf, first, ?_⟩
  rw [reportOf, if_pos isNote, present, Option.bind_some, Note.elfNote_eq first]

theorem Image.reports (image : Image host memory info fileMemory scns sections segments) :
    ogrtReadInfo host fileMemory scns = some (scns.filterMap (reportOf host fileMemory)) := by
  refine ogrtReadInfo_eq fun scn member isNote => ?_
  obtain ⟨noteSection, inside, rfl⟩ := image.mem_sections.mp ⟨member, isNote⟩
  obtain ⟨buf, present, _⟩ := image.data noteSection inside
  rw [present]
  exact Option.some_ne_none buf

theorem Image.mem_reports (image : Image host memory info fileMemory scns sections segments) {report : SignatureReport} :
    report ∈ scns.filterMap (reportOf host fileMemory) ↔
      ∃ noteSection ∈ sections, reportOf host fileMemory noteSection.scn = some report := by
  rw [List.mem_filterMap]
  constructor
  · rintro ⟨scn, member, reported⟩
    have isNote : scn.type = shtNote := by
      by_contra other
      rw [reportOf, if_neg other] at reported
      cases reported
    obtain ⟨noteSection, inside, rfl⟩ := image.mem_sections.mp ⟨member, isNote⟩
    exact ⟨noteSection, inside, reported⟩
  · rintro ⟨noteSection, inside, reported⟩
    obtain ⟨listed, _⟩ := image.mem_sections.mpr ⟨noteSection, inside, rfl⟩
    exact ⟨noteSection.scn, listed, reported⟩

/-- The note in which the walk over a segment finds its signature begins a section, and the
report on that section shows the same uuid. -/
theorem Image.signature_reported (image : Image host memory info fileMemory scns sections segments)
    (undistorted : Undistorted host memory info segments) {segment : NoteSegment} (member : segment ∈ segments)
    {pointer : Nat} (found : lastMarked (info.addr + segment.header.vaddr).toNat 0 segment.notes = some pointer) :
    ∃ report ∈ scns.filterMap (reportOf host fileMemory), report.allocatable = true ∧
      report.version = ogrtStampSupportedVersion ∧
      ∃ text, memory.CString pointer text ∧ fileMemory.CString report.uuid text := by
  obtain ⟨note, inside, marked, address, rfl, holds⟩ := lastMarked_eq_some found (image.loaded segment member).2.2
  obtain ⟨noteSection, part, own⟩ := List.mem_flatMap.mp inside
  obtain ⟨listed, allocated⟩ := (image.allocatable noteSection).mp ⟨segment, member, part⟩
  rcases List.mem_cons.mp own with rfl | later
  · obtain ⟨isOgrt, version⟩ := of_decide_eq_true marked
    obtain ⟨number, uuid, layout⟩ := image.layout noteSection listed _ List.mem_cons_self isOgrt
    obtain ⟨rest, desc⟩ := layout.desc
    rw [desc, List.head?_cons, Option.some.injEq] at version
    obtain ⟨buf, stored, reported⟩ := image.reportOf_eq listed
    rw [if_pos isOgrt] at reported
    exact ⟨_, image.mem_reports.mpr ⟨noteSection, listed, reported⟩, decide_eq_true allocated,
      (Note.version_eq layout stored).trans version, uuid, Note.uuid_cString layout holds, Note.uuid_cString layout stored⟩
  · exact absurd marked (Bool.eq_false_iff.mp (undistorted.firstOnly segment member noteSection part note later))

/-- A reported OGRT note of the supported version in an allocatable section is in a segment. -/
theorem Image.report_loaded (image : Image host memory info fileMemory scns sections segments) {report : SignatureReport}
    (member : report ∈ scns.filterMap (reportOf host fileMemory)) (allocated : report.allocatable = true)
    (version : report.version = ogrtStampSupportedVersion) :
    ∃ segment ∈ segments, ∃ note ∈ segment.notes, note.marked = true := by
  obtain ⟨noteSection, listed, reported⟩ := image.mem_reports.mp member
  obtain ⟨buf, stored, reportIs⟩ := image.reportOf_eq listed
  rw [reportIs] at reported
  split at reported
  · rename_i isOgrt
    cases reported
    obtain ⟨number, uuid, layout⟩ := image.layout noteSection listed _ List.mem_cons_self isOgrt
    obtain ⟨rest, desc⟩ := layout.desc
    have same : number = ogrtStampSupportedVersion := (Note.version_eq layout stored).symm.trans version
    obtain ⟨segment, part, inside⟩ := (image.allocatable noteSection).mpr ⟨listed, of_decide_eq_true allocated⟩
    refine ⟨segment, part, noteSection.first, List.mem_flatMap.mpr ⟨noteSection, inside, List.mem_cons_self⟩, ?_⟩
    exact decide_eq_true ⟨isOgrt, by rw [desc, same]; rfl⟩
  · cases reported

/-- In an undistorted image no silent segment comes after one that leaves a signature. -/
theorem Image.headers_kept (image : Image host memory info fileMemory scns sections segments)
    (undistorted : Undistorted host memory info segments) :
    info.phdr.Pairwise fun earlier later =>
      (∃ uuid, Leaves host memory info.addr earlier (some uuid)) → ¬ Silent host memory info.addr later := by
  have pairs : (segments.map (·.header)).Pairwise fun earlier later =>
      (∃ uuid, Leaves host memory info.addr earlier (some uuid)) → ¬ Silent host memory info.addr later := by
    refine List.pairwise_map.mpr (undistorted.kept.imp_of_mem fun {earlier later} earlierIn laterIn kept => ?_)
    rintro ⟨uuid, left⟩ ⟨nonempty, silent⟩
    have first := (image.leaves undistorted earlierIn).unique left
    have second := (image.leaves undistorted laterIn).unique silent
    obtain ⟨note, inside, marked, _⟩ := lastMarked_eq_some first (image.loaded earlier earlierIn).2.2
    have someNotes : later.notes ≠ [] := by
      intro empty
      have size := (image.loaded later laterIn).2.1
      rw [empty] at size
      exact nonempty (UInt64.toNat_inj.mp size)
    obtain ⟨other, otherIn, otherMarked⟩ := kept ⟨note, inside, marked⟩ someNotes
    obtain ⟨pointer, found⟩ := lastMarked_isSome otherIn otherMarked 0
    cases second.symm.trans found
  rw [← image.headers, List.pairwise_filter] at pairs
  refine pairs.imp fun {earlier later} kept left silent => ?_
  obtain ⟨uuid, marked⟩ := left
  exact kept (decide_eq_true marked.note) (decide_eq_true silent.2.note) ⟨uuid, marked⟩ silent

end Image

/-- On an image whose walks go right the loaded object has a signature exactly when
ogrt_read_info reports an allocatable OGRT note of the supported version. -/
theorem readers_agree (host : ByteOrder) (memory fileMemory : Memory) (soName : Option GoString) (info : DlPhdrInfo)
    (scns : List ElfSection) (sections : List NoteSection) (segments : List NoteSegment)
    (image : Image host memory info fileMemory scns sections segments)
    (undistorted : Undistorted host memory info segments) :
    ∃ object reports, handleProgramHeader host memory soName info = some object ∧
      ogrtReadInfo host fileMemory scns = some reports ∧
      Agreement memory fileMemory object reports fun report => report.allocatable = true := by
  have ends : ∀ header ∈ info.phdr, header.type = ptNote → info.addr + header.vaddr ≠ 0 →
      ∃ result, Leaves host memory info.addr header result := by
    intro header member isNote _
    obtain ⟨segment, listed, rfl⟩ := image.mem_headers.mp ⟨member, isNote⟩
    exact ⟨_, image.leaves undistorted listed⟩
  obtain ⟨signature, checked⟩ := checked_headers_complete ends none
  obtain ⟨origin, kept⟩ := checked_headers checked
  have reported (pointer : Nat) (same : signature = some pointer) : ∃ report ∈ scns.filterMap (reportOf host fileMemory),
      report.allocatable = true ∧ report.version = ogrtStampSupportedVersion ∧
        ∃ text, memory.CString pointer text ∧ fileMemory.CString report.uuid text := by
    obtain ⟨header, member, left⟩ := origin pointer same
    obtain ⟨segment, listed, rfl⟩ := image.mem_headers.mp ⟨member, left.note⟩
    exact image.signature_reported undistorted listed ((image.leaves undistorted listed).unique left)
  refine ⟨⟨soName, signature⟩, _, ?_, image.reports, ⟨⟨fun present => ?_, fun ⟨report, member, allocated, version⟩ => ?_⟩,
    fun pointer same => ?_⟩⟩
  · rw [handleProgramHeader, checked]
    rfl
  · obtain ⟨pointer, same⟩ := Option.ne_none_iff_exists'.mp present
    obtain ⟨report, member, allocated, version, _⟩ := reported pointer same
    exact ⟨report, member, allocated, version⟩
  · obtain ⟨segment, listed, note, inside, marked⟩ := image.report_loaded member allocated version
    obtain ⟨pointer, found⟩ := lastMarked_isSome inside marked 0
    obtain ⟨headerIn, _⟩ := image.mem_headers.mpr ⟨segment, listed, rfl⟩
    have left := image.leaves undistorted listed
    rw [found] at left
    exact Option.isSome_iff_ne_none.mp
      (kept.mpr (notOverwritten_of_pairwise headerIn left (image.headers_kept undistorted)))
  · obtain ⟨report, member, _, _, text, spells, printed⟩ := reported pointer same
    exact ⟨report, member, text, spells, printed⟩

/-- An OGRT note that needs no padding. -/
def evenStamp : Note where
  type := ogrtElfNoteType
  name := [0x4F, 0x47, 0x52, 0x54, 0, 0, 0, 0]
  namePadding := []
  desc := [1, 0x61, 0, 0]
  descPadding := []
  namePadded := by decide
  descPadded := by decide
  nameFits := by decide
  descFits := by decide

theorem evenStamp_layout : evenStamp.OgrtLayout 1 [0x61] := ⟨by decide, ⟨[0], by decide⟩, by decide⟩

theorem five_padded : ([0, 0, 0] : List UInt8).length = padding ([1, 2, 3, 4, 5] : List UInt8).length := by decide

theorem five_fits : ([1, 2, 3, 4, 5] : List UInt8).length < 2 ^ 32 := by decide

/-- A note of another tool with three bytes of padding. -/
def oddNote : Note :=
  { gnuNote with
    desc := [1, 2, 3, 4, 5]
    descPadding := [0, 0, 0]
    descPadded := five_padded
    descFits := five_fits }

/-- An OGRT note between two notes of another tool, in two sections of one segment. -/
def propertySection : NoteSection := ⟨⟨ascii ".note.gnu.property", shtNote, shfAlloc, some 4096⟩, gnuNote, []⟩
def infoSection : NoteSection := ⟨⟨ascii ".note.ogrt.info", shtNote, shfAlloc, some 4116⟩, evenStamp, [gnuNote]⟩

/-- Behind this OGRT note the walk goes astray. -/
def paddedSection : NoteSection := ⟨⟨ascii ".note.ogrt.info", shtNote, shfAlloc, some 8192⟩, evenStamp, [oddNote]⟩

/-- A section that is not loaded, with an OGRT note that is not the first. -/
def unloadedSection : NoteSection := ⟨⟨ascii ".note.stapsdt", shtNote, 0, some 12288⟩, gnuNote, [evenStamp]⟩

def mixedSections : List NoteSection := [propertySection, infoSection, paddedSection, unloadedSection]

def mixedSegments : List NoteSegment :=
  [⟨⟨ptNote, 4096, 64⟩, [propertySection, infoSection]⟩, ⟨⟨ptNote, 8192, 48⟩, [paddedSection]⟩]

/-- Memory and file hold the notes at the same addresses. -/
def mixedMemory : Memory := fun address =>
  if address < 8192 then (segmentBytes .little [gnuNote, evenStamp, gnuNote]).getD (address - 4096) 0
  else if address < 12288 then (segmentBytes .little [evenStamp, oddNote]).getD (address - 8192) 0
  else (segmentBytes .little [gnuNote, evenStamp]).getD (address - 12288) 0

def mixedInfo : DlPhdrInfo := ⟨[], 0, [⟨1, 0, 16384⟩, ⟨ptNote, 4096, 64⟩, ⟨ptNote, 8192, 48⟩]⟩

/-- All sections of the file. -/
def mixedScns : List ElfSection := ⟨ascii ".text", 1, 6, some 64⟩ :: mixedSections.map (·.scn)

theorem mixed_note {noteSection : NoteSection} (listed : noteSection ∈ mixedSections) {note : Note}
    (member : note ∈ noteSection.notes) (isOgrt : note.type = ogrtElfNoteType) : note = evenStamp := by
  have notes : note ∈ [gnuNote, evenStamp, gnuNote, evenStamp, oddNote, gnuNote, evenStamp] :=
    List.mem_flatMap.mpr ⟨noteSection, listed, member⟩
  have others : ∀ other ∈ [gnuNote, oddNote], other.type ≠ ogrtElfNoteType := by decide
  simp only [List.mem_cons, List.not_mem_nil, or_false] at notes
  rcases notes with rfl | rfl | rfl | rfl | rfl | rfl | rfl
  all_goals first | rfl | exact absurd isOgrt (others _ (by simp))

theorem mixedImage : Image .little mixedMemory mixedInfo mixedMemory mixedScns mixedSections mixedSegments where
  headers := by decide
  loaded := by decide +kernel
  noteSections := by decide
  data := by
    refine List.forall_mem_cons.mpr ⟨⟨4096, rfl, by decide +kernel⟩, List.forall_mem_cons.mpr
      ⟨⟨4116, rfl, by decide +kernel⟩, List.forall_mem_cons.mpr ⟨⟨8192, rfl, by decide +kernel⟩, ?_⟩⟩⟩
    exact List.forall_mem_singleton.mpr ⟨12288, rfl, by decide +kernel⟩
  allocatable noteSection := by
    constructor
    · rintro ⟨segment, inside, part⟩
      rcases List.mem_pair.mp inside with rfl | rfl
      · rcases List.mem_pair.mp part with rfl | rfl
        · exact ⟨List.mem_cons_self, by decide⟩
        · exact ⟨List.mem_cons_of_mem _ List.mem_cons_self, by decide⟩
      · rw [List.mem_singleton.mp part]
        exact ⟨List.mem_cons_of_mem _ (List.mem_cons_of_mem _ List.mem_cons_self), by decide⟩
    · rintro ⟨listed, allocated⟩
      rcases List.mem_cons.mp listed with rfl | listed
      · exact ⟨_, List.mem_cons_self, List.mem_cons_self⟩
      rcases List.mem_cons.mp listed with rfl | listed
      · exact ⟨_, List.mem_cons_self, List.mem_cons_of_mem _ List.mem_cons_self⟩
      rcases List.mem_pair.mp listed with rfl | rfl
      · exact ⟨_, List.mem_cons_of_mem _ List.mem_cons_self, List.mem_cons_self⟩
      · exact absurd allocated (by decide)
  layout noteSection listed note member isOgrt := by
    rw [mixed_note listed member isOgrt]
    exact ⟨1, [0x61], evenStamp_layout⟩

/-- At 45 of 48 the walk reads null bytes, and it is over. -/
theorem mixed_quiet : QuietFrom .little mixedMemory 8192 48 45 := by
  have runs : (offsetLoop .little mixedMemory 8192 48).Runs (UInt32.ofNat 45) [45] 57 :=
    .next (by decide +kernel) (.done (by decide +kernel))
  refine ⟨⟨_, _, runs⟩, fun later visits inside => ?_⟩
  obtain rfl := List.mem_singleton.mp (runs.mem_iff.mpr ⟨visits, decide_eq_true inside⟩)
  decide +kernel

theorem mixed_undistorted : Undistorted .little mixedMemory mixedInfo mixedSegments where
  tracked := by
    refine List.forall_mem_cons.mpr ⟨⟨by decide, ?_⟩, List.forall_mem_singleton.mpr ⟨by decide, ?_⟩⟩
    · exact .even (by decide) (.even (by decide) (.even (by decide) .done))
    · exact .even (by decide) (.astray (fun _ later => absurd later List.not_mem_nil) mixed_quiet)
  firstOnly := by decide
  kept := by
    refine List.pairwise_pair.mpr fun _ _ => ?_
    exact ⟨evenStamp, List.mem_cons_self, by decide⟩

theorem readers_agree_mixed :
    ∃ object reports, handleProgramHeader .little mixedMemory none mixedInfo = some object ∧
      ogrtReadInfo .little mixedMemory mixedScns = some reports ∧
      Agreement mixedMemory mixedMemory object reports fun report => report.allocatable = true :=
  readers_agree .little mixedMemory mixedMemory none mixedInfo mixedScns mixedSections mixedSegments mixedImage
    mixed_undistorted

def evenStampMemory : Memory := fun address => (segmentBytes .little [evenStamp]).getD (address - 4096) 0

/-- The section with the note alone, not loaded. -/
def evenStampSection : NoteSection := ⟨⟨[], shtNote, 0, some 4096⟩, evenStamp, []⟩

/-- A section that is not loaded is reported all the same. -/
theorem unloaded_section_reported :
    ¬ ∀ (host : ByteOrder) (memory fileMemory : Memory) (soName : Option GoString) (info : DlPhdrInfo)
      (scns : List ElfSection) (sections : List NoteSection) (segments : List NoteSegment),
      Image host memory info fileMemory scns sections segments →
      ∃ object reports, handleProgramHeader host memory soName info = some object ∧
        ogrtReadInfo host fileMemory scns = some reports ∧ Agreement memory fileMemory object reports fun _ => True := by
  intro agree
  have sectionIs (noteSection : NoteSection) (member : noteSection ∈ [evenStampSection]) :
      noteSection = evenStampSection := List.mem_singleton.mp member
  have image : Image .little evenStampMemory ⟨[], 0, []⟩ evenStampMemory [⟨[], shtNote, 0, some 4096⟩]
      [evenStampSection] [] := by
    refine ⟨rfl, nofun, by decide, ?_, ?_, ?_⟩
    · intro noteSection member
      rw [sectionIs noteSection member]
      exact ⟨4096, rfl, by decide⟩
    · intro noteSection
      refine iff_of_false nofun ?_
      rintro ⟨member, allocatable⟩
      rw [sectionIs noteSection member] at allocatable
      exact absurd allocatable (by decide)
    · intro noteSection member
      rw [sectionIs noteSection member]
      intro note inside _
      rw [List.mem_singleton.mp inside]
      exact ⟨1, [0x61], evenStamp_layout⟩
  obtain ⟨object, reports, loaded, reported, agreement⟩ := agree _ _ _ none _ _ _ _ image
  have noSignature : some (⟨none, none⟩ : LoadedObject) = some object := loaded
  have report : ogrtReadInfo .little evenStampMemory [⟨[], shtNote, 0, some 4096⟩] = some [⟨[], false, 1, 4108, 4117⟩] := by
    decide
  cases noSignature
  cases report.symm.trans reported
  exact agreement.found.mpr ⟨_, List.mem_cons_self, trivial, rfl⟩ rfl

end Ogrt
