import Ogrt.Client.NoteLayout
import Ogrt.Client.ReadInfo

namespace Ogrt
open BigEndian

/-- A section as libelf hands it out, with the notes that its data is made of. -/
structure FileSection where
  scn : ElfSection
  notes : List Note

/-- A file that elf_kind does not take for ELF, or the sections of one that it does. -/
inductive NoteFile
  | other
  | elf (sections : List FileSection)

/-- The data of a section without notes is NULL. -/
structure FileSection.Presented (host : ByteOrder) (memory : Memory) (noteSection : FileSection) : Prop where
  empty : noteSection.notes = [] → noteSection.scn.buf = none
  stored : noteSection.notes ≠ [] →
    ∃ buf, noteSection.scn.buf = some buf ∧ memory.Holds buf (segmentBytes host noteSection.notes)

/-- Every note section of the file holds well-formed notes. -/
def NoteFile.Presented (host : ByteOrder) (memory : Memory) : NoteFile → Prop
  | .other => True
  | .elf sections => ∀ noteSection ∈ sections, noteSection.scn.type = shtNote → noteSection.Presented host memory

/-- The return value of ogrt_read_info. -/
def ogrtReadInfoReturn (host : ByteOrder) (memory : Memory) : NoteFile → Option Int32
  | .other => some 1
  | .elf sections =>
    (ogrtReadInfo host memory (sections.map (·.scn))).map fun reports => Int32.ofNat reports.length

/-- The number of OGRT notes in all note sections together. -/
def ogrtNotes (sections : List FileSection) : Nat :=
  ((sections.filter (·.scn.type = shtNote)).flatMap (·.notes)).countP (·.type = ogrtElfNoteType)

/-- What ogrt_read_info reads of a section is in its data: the type of the first note and, if
that is an OGRT note, its version and the strings that are printed. -/
structure ReadsInside (host : ByteOrder) (memory : Memory) (buf size : Nat) : Prop where
  type : ∀ address ∈ List.range' (buf + 8) 4, address < buf + size
  version : (elfNote host memory buf).type = ogrtElfNoteType → buf + 20 < buf + size
  name : (elfNote host memory buf).type = ogrtElfNoteType →
    ∃ text, memory.CString (buf + 12) text ∧ buf + 12 + text.length < buf + size
  uuid : (elfNote host memory buf).type = ogrtElfNoteType →
    ∃ text, memory.CString (buf + 21) text ∧ buf + 21 + text.length < buf + size

/-- What is expected of ogrt_read_info on a file: its return value counts the OGRT notes, it
reads section data only, and it tells files that are ELF from those that are not. -/
structure NotesCounted (host : ByteOrder) (memory : Memory) (file : NoteFile) : Prop where
  counted : ∀ sections, file = .elf sections →
    ∃ n, ogrtReadInfoReturn host memory file = some n ∧ n.toInt = ogrtNotes sections
  inside : ∀ sections, file = .elf sections → ∀ noteSection ∈ sections, noteSection.scn.type = shtNote →
    ∃ buf, noteSection.scn.buf = some buf ∧ ReadsInside host memory buf (segmentBytes host noteSection.notes).length
  apart : ∀ otherMemory otherFile, otherFile.Presented host otherMemory → (file = .other ↔ otherFile ≠ .other) →
    ogrtReadInfoReturn host memory file ≠ ogrtReadInfoReturn host otherMemory otherFile

/-- No note section is empty, an OGRT note comes first in its section, its uuid field is
followed by a NUL there, and there is not just one of them, nor more than an int counts. -/
structure CountsRight (host : ByteOrder) (sections : List FileSection) : Prop where
  nonempty : ∀ noteSection ∈ sections, noteSection.scn.type = shtNote → noteSection.notes ≠ []
  firstOnly : ∀ noteSection ∈ sections, noteSection.scn.type = shtNote →
    ∀ note ∈ noteSection.notes.tail, note.type ≠ ogrtElfNoteType
  terminated : ∀ noteSection ∈ sections, noteSection.scn.type = shtNote →
    ∀ note, noteSection.notes.head? = some note → note.type = ogrtElfNoteType →
      0 ∈ (segmentBytes host noteSection.notes).drop 21
  notOne : ogrtNotes sections ≠ 1
  countable : ogrtNotes sections < 2 ^ 31

/-- A note section that begins with an OGRT note. -/
def FileSection.begins (noteSection : FileSection) : Bool :=
  noteSection.scn.type = shtNote ∧ noteSection.notes.head?.any (·.type = ogrtElfNoteType)

variable {host : ByteOrder} {memory : Memory}

theorem reportOf_isSome {noteSection : FileSection}
    (presented : noteSection.scn.type = shtNote → noteSection.Presented host memory) :
    (reportOf host memory noteSection.scn).isSome = noteSection.begins := by
  by_cases isNote : noteSection.scn.type = shtNote
  · obtain ⟨empty, stored⟩ := presented isNote
    rw [reportOf, if_pos isNote]
    cases held : noteSection.notes with
    | nil =>
      rw [empty held]
      simp [FileSection.begins, held]
    | cons first rest =>
      obtain ⟨buf, present, holds⟩ := stored (by rw [held]; exact List.cons_ne_nil first rest)
      rw [held] at holds
      rw [present, Option.bind_some, Note.elfNote_eq (holds_segment_cons.mp holds).1]
      by_cases isOgrt : first.type = ogrtElfNoteType
      · simp [FileSection.begins, isNote, held, isOgrt]
      · simp [FileSection.begins, held, isOgrt]
  · rw [reportOf, if_neg isNote]
    simp [FileSection.begins, isNote]

theorem reports_length {sections : List FileSection} (presented : (NoteFile.elf sections).Presented host memory) :
    ((sections.map (·.scn)).filterMap (reportOf host memory)).length = sections.countP (·.begins) := by
  induction sections with
  | nil => rfl
  | cons noteSection rest ih =>
    have later := ih fun other member => presented other (List.mem_cons_of_mem _ member)
    have here := reportOf_isSome (presented noteSection List.mem_cons_self)
    rw [List.map_cons, List.filterMap_cons, List.countP_cons, ← later, ← here]
    cases reportOf host memory noteSection.scn with
    | none => rfl
    | some report => rfl

/-- The sections that begin with an OGRT note are at most as many as the OGRT notes, and as
many only if no other note of a section is one. -/
theorem begins_le_ogrtNotes (sections : List FileSection) :
    sections.countP (·.begins) ≤ ogrtNotes sections ∧ (sections.countP (·.begins) = ogrtNotes sections ↔
      ∀ noteSection ∈ sections, noteSection.scn.type = shtNote →
        ∀ note ∈ noteSection.notes.tail, note.type ≠ ogrtElfNoteType) := by
  induction sections with
  | nil => exact ⟨Nat.le_refl 0, iff_of_true rfl nofun⟩
  | cons noteSection rest ih =>
    obtain ⟨bound, exactly⟩ := ih
    rw [List.forall_mem_cons, List.countP_cons, ← exactly]
    by_cases isNote : noteSection.scn.type = shtNote
    · have sum : ogrtNotes (noteSection :: rest) =
          noteSection.notes.countP (·.type = ogrtElfNoteType) + ogrtNotes rest := by
        simp [ogrtNotes, isNote]
      cases held : noteSection.notes with
      | nil =>
        have plain : noteSection.begins = false := by simp [FileSection.begins, held]
        rw [sum, held, plain]
        simp [bound]
      | cons first behind =>
        have none_behind : behind.countP (·.type = ogrtElfNoteType) = 0 ↔
            ∀ note ∈ behind, note.type ≠ ogrtElfNoteType := by
          simp [List.countP_eq_zero]
        have begins : noteSection.begins = decide (first.type = ogrtElfNoteType) := by
          simp [FileSection.begins, isNote, held]
        rw [sum, held, List.countP_cons, List.tail_cons, ← none_behind, begins]
        constructor
        · omega
        · constructor
          · intro same
            exact ⟨fun _ => by omega, by omega⟩
          · rintro ⟨quiet, same⟩
            rw [same, quiet isNote]
            omega
    · have sum : ogrtNotes (noteSection :: rest) = ogrtNotes rest := by simp [ogrtNotes, isNote]
      have plain : noteSection.begins = false := by simp [FileSection.begins, isNote]
      rw [sum, plain]
      simp [bound, isNote]

/-- Without an empty note section the return value counts the sections that begin with an OGRT
note; with one there is no return. -/
theorem ogrtReadInfoReturn_elf {sections : List FileSection} (presented : (NoteFile.elf sections).Presented host memory)
    (nonempty : ∀ noteSection ∈ sections, noteSection.scn.type = shtNote → noteSection.notes ≠ []) :
    ogrtReadInfoReturn host memory (.elf sections) = some (Int32.ofNat (sections.countP (·.begins))) := by
  rw [ogrtReadInfoReturn, ogrtReadInfo_eq, Option.map_some, reports_length presented]
  intro scn member isNote
  obtain ⟨noteSection, listed, rfl⟩ := List.mem_map.mp member
  obtain ⟨buf, present, _⟩ := (presented noteSection listed isNote).stored (nonempty noteSection listed isNote)
  rw [present]
  exact Option.some_ne_none buf

/-- An int that counts some of the things counted has the right value only if it counts all of
them, and has not wrapped. -/
theorem toInt_ofNat_eq_iff {counted all : Nat} (bound : counted ≤ all) :
    (Int32.ofNat counted).toInt = all ↔ counted = all ∧ all < 2 ^ 31 := by
  rw [Int32.toInt_ofNat']
  have size : Int32.size = 2 ^ 32 := rfl
  rw [size, Int.bmod_def]
  split <;> omega

/-- In the data of a section with notes, the reads stay inside exactly if an OGRT note that
comes first has a NUL from its uuid field on. -/
theorem readsInside_iff {buf : Nat} {first : Note} {rest : List Note}
    (holds : memory.Holds buf (segmentBytes host (first :: rest))) :
    ReadsInside host memory buf (segmentBytes host (first :: rest)).length ↔
      (first.type = ogrtElfNoteType → 0 ∈ (segmentBytes host (first :: rest)).drop 21) := by
  have type : (elfNote host memory buf).type = first.type := by
    rw [Note.elfNote_eq (holds_segment_cons.mp holds).1]
  have atLeast := first.twelve_le_size
  have whole : (segmentBytes host (first :: rest)).length = first.size + segmentSize rest := by
    rw [segmentBytes_length, segmentSize_cons]
  rw [← Memory.exists_byte_iff holds]
  constructor
  · intro inside isOgrt
    exact Memory.exists_cString_iff.mp (inside.uuid (type.trans isOgrt))
  · intro terminated
    refine ⟨fun address member => ?_, fun isOgrt => ?_, fun isOgrt => ?_, fun isOgrt => ?_⟩
    · have last := (List.mem_range'_1.mp member).2
      omega
    · obtain ⟨address, after, before, _⟩ := terminated (type.symm.trans isOgrt)
      omega
    · obtain ⟨address, after, before, nul⟩ := terminated (type.symm.trans isOgrt)
      exact Memory.exists_cString_iff.mpr ⟨address, by omega, before, nul⟩
    · exact Memory.exists_cString_iff.mpr (terminated (type.symm.trans isOgrt))

/-- The same of a section: only its first note counts. -/
theorem FileSection.inside_iff {noteSection : FileSection} (presented : noteSection.Presented host memory)
    (nonempty : noteSection.notes ≠ []) :
    (∃ buf, noteSection.scn.buf = some buf ∧
      ReadsInside host memory buf (segmentBytes host noteSection.notes).length) ↔
    ∀ note, noteSection.notes.head? = some note → note.type = ogrtElfNoteType →
      0 ∈ (segmentBytes host noteSection.notes).drop 21 := by
  obtain ⟨buf, present, holds⟩ := presented.stored nonempty
  obtain ⟨first, rest, held⟩ := List.exists_cons_of_ne_nil nonempty
  rw [held] at holds ⊢
  have inside := readsInside_iff holds
  constructor
  · intro reads note head
    obtain ⟨buf', present', reads⟩ := reads
    cases Option.some.inj (present.symm.trans present')
    cases Option.some.inj head
    exact inside.mp reads
  · intro terminated
    exact ⟨buf, present, inside.mpr (terminated first rfl)⟩

/-- A file with one note section of that many stamps. -/
def stampFile (n : Nat) : List FileSection :=
  [⟨⟨ascii ".note.ogrt.info", shtNote, shfAlloc, some 4096⟩, List.replicate n stamp⟩]

def stampMemory (host : ByteOrder) (n : Nat) : Memory := fun address =>
  (segmentBytes host (List.replicate n stamp)).getD (address - 4096) 0

theorem stampFile_presented (host : ByteOrder) (n : Nat) (some : n ≠ 0) :
    (NoteFile.elf (stampFile n)).Presented host (stampMemory host n) := by
  intro noteSection member _
  cases List.mem_singleton.mp member
  refine ⟨fun empty => absurd ((List.replicate_eq_nil_iff stamp).mp empty) some, fun _ => ⟨4096, rfl, ?_⟩⟩
  exact Memory.holds_getD 4096 _

theorem stampFile_return (host : ByteOrder) (n : Nat) (some : n ≠ 0) :
    ogrtReadInfoReturn host (stampMemory host n) (.elf (stampFile n)) = Option.some 1 := by
  rw [ogrtReadInfoReturn_elf (stampFile_presented host n some)]
  · obtain ⟨m, rfl⟩ := Nat.exists_eq_succ_of_ne_zero some
    rfl
  · intro noteSection member _
    cases List.mem_singleton.mp member
    exact fun empty => some ((List.replicate_eq_nil_iff stamp).mp empty)

/-- ogrt_read_info counts what is there exactly on the ELF files whose note sections all have
an OGRT note in the first place only, with its uuid terminated, and not one OGRT note. -/
theorem notes_counted_iff (host : ByteOrder) (memory : Memory) (file : NoteFile)
    (presented : file.Presented host memory) :
    NotesCounted host memory file ↔ ∃ sections, file = .elf sections ∧ CountsRight host sections := by
  cases file with
  | other =>
    refine iff_of_false (fun sound => ?_) fun ⟨_, same, _⟩ => by cases same
    refine sound.apart (stampMemory host 1) (.elf (stampFile 1)) (stampFile_presented host 1 Nat.one_ne_zero)
      (iff_of_true rfl NoteFile.noConfusion) ?_
    rw [stampFile_return host 1 Nat.one_ne_zero]
    rfl
  | elf sections =>
    obtain ⟨bound, exactly⟩ := begins_le_ogrtNotes sections
    constructor
    · intro sound
      have nonempty : ∀ noteSection ∈ sections, noteSection.scn.type = shtNote → noteSection.notes ≠ [] := by
        intro noteSection member isNote empty
        obtain ⟨buf, present, _⟩ := sound.inside sections rfl noteSection member isNote
        rw [(presented noteSection member isNote).empty empty] at present
        cases present
      have returned := ogrtReadInfoReturn_elf presented nonempty
      obtain ⟨n, same, value⟩ := sound.counted sections rfl
      cases Option.some.inj (returned.symm.trans same)
      obtain ⟨all, countable⟩ := (toInt_ofNat_eq_iff bound).mp value
      refine ⟨sections, rfl, nonempty, exactly.mp all, fun noteSection member isNote => ?_, fun one => ?_, countable⟩
      · have inside := sound.inside sections rfl noteSection member isNote
        exact (FileSection.inside_iff (presented noteSection member isNote) (nonempty noteSection member isNote)).mp inside
      · refine sound.apart memory .other trivial (iff_of_false NoteFile.noConfusion (fun differ => differ rfl)) ?_
        rw [returned, all, one]
        rfl
    · rintro ⟨_, ⟨⟩, right⟩
      have returned := ogrtReadInfoReturn_elf presented right.nonempty
      have all := exactly.mpr right.firstOnly
      refine ⟨fun _ same => ?_, fun _ same noteSection member isNote => ?_, fun otherMemory otherFile _ differ => ?_⟩
      · cases same
        exact ⟨_, returned, (toInt_ofNat_eq_iff bound).mpr ⟨all, right.countable⟩⟩
      · cases same
        have nonempty := right.nonempty noteSection member isNote
        have terminated := right.terminated noteSection member isNote
        exact (FileSection.inside_iff (presented noteSection member isNote) nonempty).mpr terminated
      · have otherIs : otherFile = .other := by
          by_contra elf
          cases differ.mpr elf
        rw [otherIs, returned]
        intro same
        have value := (toInt_ofNat_eq_iff bound).mpr ⟨all, right.countable⟩
        rw [Option.some.inj same] at value
        have one : ((1 : Int32).toInt) = 1 := rfl
        rw [one] at value
        exact right.notOne (by omega)

/-- A file with two sections of one stamp each, the one behind the other. -/
def twoStampSections : List FileSection :=
  [⟨⟨ascii ".note.ogrt.info", shtNote, shfAlloc, some 4096⟩, [stamp]⟩,
   ⟨⟨ascii ".note.ogrt.info", shtNote, shfAlloc, some 4156⟩, [stamp]⟩]

theorem notes_counted_iff_stamp :
    (NotesCounted .little (stampMemory .little 2) (.elf twoStampSections) ↔
      ∃ sections, NoteFile.elf twoStampSections = .elf sections ∧ CountsRight .little sections) ∧
    CountsRight .little twoStampSections := by
  have sectionIs (noteSection : FileSection) (member : noteSection ∈ twoStampSections) : noteSection.notes = [stamp] := by
    rcases List.mem_pair.mp member with rfl | rfl <;> rfl
  refine ⟨notes_counted_iff .little (stampMemory .little 2) (.elf twoStampSections) fun noteSection member _ => ?_,
    ?_, ?_, ?_, by decide, by decide⟩
  · obtain ⟨here, behind⟩ := Memory.holds_append.mp
      (Memory.holds_getD 4096 (segmentBytes .little [stamp] ++ segmentBytes .little [stamp]))
    have stamped := sectionIs noteSection member
    refine ⟨fun empty => absurd (stamped.symm.trans empty) (List.cons_ne_nil _ _), fun _ => ?_⟩
    rw [stamped]
    rcases List.mem_pair.mp member with rfl | rfl
    · exact ⟨4096, rfl, here⟩
    · exact ⟨4156, rfl, behind⟩
  · intro noteSection member _
    rw [sectionIs noteSection member]
    exact List.cons_ne_nil _ _
  · intro noteSection member _
    rw [sectionIs noteSection member]
    exact nofun
  · intro noteSection member _ note _ _
    rw [sectionIs noteSection member]
    decide

/-- Two stamped objects that are linked have two notes in one section; one is counted. -/
theorem merged_notes_miscounted :
    ¬ ∀ (host : ByteOrder) (memory : Memory) (file : NoteFile), file.Presented host memory →
      NotesCounted host memory file := by
  intro counts
  have sound := counts .little _ _ (stampFile_presented .little 2 (by decide))
  obtain ⟨n, returned, value⟩ := sound.counted (stampFile 2) rfl
  cases (stampFile_return .little 2 (by decide)).symm.trans returned
  exact absurd value (by decide)

end Ogrt
