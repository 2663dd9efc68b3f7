import Ogrt.Client.ReadSo

namespace Ogrt
open BigEndian

/-- The bytes from a size up to the next multiple of four. -/
def padding (size : Nat) : Nat := (4 - size % 4) % 4

/-- A note as the format comment of ogrt-readso.c lays it out. The paddings may hold any bytes. -/
structure Note where
  type : Int32
  name : List UInt8
  namePadding : List UInt8
  desc : List UInt8
  descPadding : List UInt8
  namePadded : namePadding.length = padding name.length
  descPadded : descPadding.length = padding desc.length
  nameFits : name.length < 2 ^ 32
  descFits : desc.length < 2 ^ 32

namespace Note
variable (note : Note)

def header (host : ByteOrder) : List UInt8 :=
  host.image (UInt32.ofNat note.name.length) ++
    (host.image (UInt32.ofNat note.desc.length) ++ host.image note.type.toUInt32)

def bytes (host : ByteOrder) : List UInt8 :=
  note.header host ++ (note.name ++ (note.namePadding ++ (note.desc ++ note.descPadding)))

/-- The bytes that the note takes up. -/
def size : Nat := 12 + (note.name.length + padding note.name.length) + (note.desc.length + padding note.desc.length)

/-- The step that read_signature returns for it. -/
def step : Nat := 12 + note.name.length + note.desc.length

/-- The note needs no padding. -/
def Even : Prop := 4 ∣ note.name.length ∧ 4 ∣ note.desc.length

instance : Decidable note.Even := inferInstanceAs (Decidable (_ ∧ _))

/-- The name field of ogrt_note holds the padded name, and the desc is the version and a
terminated uuid. -/
structure OgrtLayout (version : UInt8) (uuid : List UInt8) : Prop where
  name : note.name.length + note.namePadding.length = 8
  desc : ∃ rest, note.desc = version :: (uuid ++ 0 :: rest)
  noNul : 0 ∉ uuid

/-- A note as stamp.s assembles it, with any version and any 36 characters for the uuid. -/
structure Stamped (version : UInt8) (uuid : List UInt8) : Prop where
  name : note.name = [0x4F, 0x47, 0x52, 0x54, 0]
  desc : note.desc = version :: (uuid ++ [0])
  size : uuid.length = 36
  noNul : 0 ∉ uuid

/-- An OGRT note of the supported version. -/
def marked : Bool := note.type = ogrtElfNoteType ∧ note.desc.head? = some ogrtStampSupportedVersion

end Note

def segmentBytes (host : ByteOrder) (segment : List Note) : List UInt8 := segment.flatMap (·.bytes host)

def segmentSize (segment : List Note) : Nat := (segment.map (·.size)).sum

/-- The offsets at which the notes of a segment start. -/
def starts : Nat → List Note → List Nat
  | _, [] => []
  | offset, note :: rest => offset :: starts (offset + note.size) rest

/-- The uuid in the last OGRT note of the supported version. -/
def lastMarked (notes : Nat) : Nat → List Note → Option Nat
  | _, [] => none
  | offset, note :: rest =>
    (lastMarked notes (offset + note.size) rest).or (if note.marked then some (notes + offset + 21) else none)

theorem padding_eq_zero {size : Nat} : padding size = 0 ↔ 4 ∣ size := by
  unfold padding
  omega

namespace Note
variable {note : Note} {host : ByteOrder} {memory : Memory} {address : Nat}

@[simp] theorem header_length : (note.header host).length = 12 := by
  simp only [header, List.length_append, image_length]

@[simp] theorem bytes_length : (note.bytes host).length = note.size := by
  simp only [bytes, size, List.length_append, header_length, note.namePadded, note.descPadded]
  omega

theorem step_le_size (note : Note) : note.step ≤ note.size := by
  unfold step size
  omega

theorem twelve_le_size (note : Note) : 12 ≤ note.size := by
  unfold size
  omega

theorem even_iff : note.Even ↔ note.step = note.size := by
  unfold Even step size
  rw [← padding_eq_zero, ← padding_eq_zero]
  omega

theorem Stamped.ogrtLayout {version : UInt8} {uuid : List UInt8} (stamped : note.Stamped version uuid) :
    note.OgrtLayout version uuid where
  name := by
    rw [note.namePadded, stamped.name]
    rfl
  desc := ⟨[], stamped.desc⟩
  noNul := stamped.noNul

/-- The five bytes of its name already make a stamped note uneven. -/
theorem Stamped.not_even {version : UInt8} {uuid : List UInt8} (stamped : note.Stamped version uuid) :
    ¬ note.Even := by
  intro even
  have name := even.1
  rw [stamped.name] at name
  exact absurd name (by decide)

/-- The packed struct shows the fields of the note that lies there. -/
theorem elfNote_eq (holds : memory.Holds address (note.bytes host)) :
    elfNote host memory address =
      ⟨(UInt32.ofNat note.name.length).toInt32, (UInt32.ofNat note.desc.length).toInt32, note.type, address + 12⟩ := by
  obtain ⟨nameSize, rest⟩ := Memory.holds_append.mp (Memory.holds_append.mp holds).1
  obtain ⟨descSize, type⟩ := Memory.holds_append.mp rest
  rw [image_length] at descSize type
  rw [image_length] at type
  have word (w : UInt32) (at_w : Nat) (there : memory.Holds at_w (host.image w)) :
      host.load (memory.read at_w 4) = w := by
    rw [Memory.Holds, image_length] at there
    rw [there, ← List.append_nil (host.image w), load_image]
  simp only [elfNote, Nat.add_zero, word _ _ nameSize, word _ _ descSize, word _ _ type, Int32.toInt32_toUInt32]

/-- The step to the next offset ignores the padding and wraps at 32 bits. -/
theorem nextOffset_toNat {notes : Nat} {offset : UInt32} (holds : memory.Holds (notes + offset.toNat) (note.bytes host)) :
    (nextOffset host memory notes offset).toNat = (offset.toNat + note.step) % 2 ^ 32 := by
  simp only [nextOffset, elfNote_eq holds, UInt32.toUInt32_toInt32, UInt32.toNat_add, UInt32.toNat_ofNat', step]
  have twelve : (12 : UInt32).toNat = 12 := rfl
  rw [twelve]
  omega

/-- The fields of the struct behind the name are the desc of an OGRT note. -/
theorem desc_held {version : UInt8} {uuid : List UInt8} (layout : note.OgrtLayout version uuid)
    (holds : memory.Holds address (note.bytes host)) :
    ∃ rest, memory.Holds (address + 20) (version :: ((uuid ++ [0]) ++ rest)) := by
  obtain ⟨rest, desc⟩ := layout.desc
  have behindHeader := (Memory.holds_append.mp holds).2
  have behindName := (Memory.holds_append.mp behindHeader).2
  have descHeld := (Memory.holds_append.mp (Memory.holds_append.mp behindName).2).1
  have place := layout.name
  rw [desc, header_length] at descHeld
  rw [show address + 12 + note.name.length + note.namePadding.length = address + 20 by omega] at descHeld
  refine ⟨rest, ?_⟩
  rw [List.append_assoc, List.singleton_append]
  exact descHeld

theorem version_eq {version : UInt8} {uuid : List UInt8} (layout : note.OgrtLayout version uuid)
    (holds : memory.Holds address (note.bytes host)) : memory (address + 20) = version := by
  obtain ⟨rest, desc⟩ := desc_held layout holds
  exact (Memory.holds_cons.mp desc).1

/-- The uuid pointer of the struct starts the uuid of the note. -/
theorem uuid_cString {version : UInt8} {uuid : List UInt8} (layout : note.OgrtLayout version uuid)
    (holds : memory.Holds address (note.bytes host)) : memory.CString (address + 21) uuid := by
  obtain ⟨rest, desc⟩ := desc_held layout holds
  have behindVersion := (Memory.holds_cons.mp desc).2
  exact ⟨(Memory.holds_append.mp behindVersion).1, layout.noNul⟩

/-- At a note whose OGRT form is that of the struct, read_signature finds it if it is marked. -/
theorem supportedSignature_eq (layout : note.type = ogrtElfNoteType → ∃ version uuid, note.OgrtLayout version uuid)
    (holds : memory.Holds address (note.bytes host)) :
    supportedSignature host memory address = if note.marked then some (address + 21) else none := by
  simp only [supportedSignature, elfNote_eq holds, marked]
  by_cases isOgrt : note.type = ogrtElfNoteType
  · obtain ⟨version, uuid, ogrt⟩ := layout isOgrt
    obtain ⟨rest, desc⟩ := ogrt.desc
    simp only [isOgrt, ogrtNote, Nat.add_assoc, Nat.reduceAdd, version_eq ogrt holds, desc, List.head?_cons,
      Option.some.injEq, true_and, if_true, decide_eq_true_eq]
  · simp only [isOgrt, false_and, decide_false, if_false, Bool.false_eq_true]

end Note

variable {host : ByteOrder} {memory : Memory} {notes : Nat} {memsz : UInt64}

theorem segmentSize_nil : segmentSize [] = 0 := rfl

theorem segmentSize_cons (note : Note) (rest : List Note) :
    segmentSize (note :: rest) = note.size + segmentSize rest := rfl

theorem segmentBytes_cons (note : Note) (rest : List Note) :
    segmentBytes host (note :: rest) = note.bytes host ++ segmentBytes host rest := rfl

@[simp] theorem segmentBytes_length (segment : List Note) : (segmentBytes host segment).length = segmentSize segment := by
  induction segment with
  | nil => rfl
  | cons note rest ih => rw [segmentBytes_cons, List.length_append, ih, Note.bytes_length, segmentSize_cons]

theorem holds_segment_cons {address : Nat} {note : Note} {rest : List Note} :
    memory.Holds address (segmentBytes host (note :: rest)) ↔
      memory.Holds address (note.bytes host) ∧ memory.Holds (address + note.size) (segmentBytes host rest) := by
  rw [segmentBytes_cons, Memory.holds_append, Note.bytes_length]

theorem guard_iff (walk : NoteWalk) :
    (noteLoop host memory notes memsz).guard walk = true ↔ walk.offset.toNat < memsz.toNat := by
  rw [noteLoop, decide_eq_true_iff, UInt64.lt_iff_toNat_lt, UInt32.toNat_toUInt64]

variable (memsz) in
/-- What one iteration at the start of a note does. -/
theorem noteLoop_body_at {note : Note} {walk : NoteWalk}
    (layout : note.type = ogrtElfNoteType → ∃ version uuid, note.OgrtLayout version uuid)
    (holds : memory.Holds (notes + walk.offset.toNat) (note.bytes host)) :
    ((noteLoop host memory notes memsz).body walk).offset.toNat = (walk.offset.toNat + note.step) % 2 ^ 32 ∧
      ((noteLoop host memory notes memsz).body walk).found.signature =
        (if note.marked then some (notes + walk.offset.toNat + 21) else none).or walk.found.signature := by
  rw [noteLoop_body, Note.supportedSignature_eq layout holds]
  refine ⟨Note.nextOffset_toNat holds, ?_⟩
  split <;> rename_i found
  · split at found
    · cases found
      rename_i marked
      rw [if_pos marked]
      rfl
    · cases found
  · split at found
    · cases found
    · rename_i unmarked
      rw [if_neg unmarked]
      rfl

/-- Over notes that need no padding the walk goes from start to start. -/
theorem even_notes_taken {segment : List Note} (walk : NoteWalk) (even : ∀ note ∈ segment, note.Even)
    (layout : ∀ note ∈ segment, note.type = ogrtElfNoteType → ∃ version uuid, note.OgrtLayout version uuid)
    (holds : memory.Holds (notes + walk.offset.toNat) (segmentBytes host segment))
    (room : walk.offset.toNat + segmentSize segment ≤ memsz.toNat)
    (small : walk.offset.toNat + segmentSize segment < 2 ^ 32) :
    ∃ trace next, (noteLoop host memory notes memsz).Takes walk trace next ∧
      trace.map (·.offset.toNat) = starts walk.offset.toNat segment ∧
      next.offset.toNat = walk.offset.toNat + segmentSize segment ∧
      next.found.signature = (lastMarked notes walk.offset.toNat segment).or walk.found.signature := by
  induction segment generalizing walk with
  | nil => exact ⟨[], walk, .here, rfl, rfl, rfl⟩
  | cons note rest ih =>
    have sum := segmentSize_cons note rest
    obtain ⟨here, behind⟩ := holds_segment_cons.mp holds
    have whole := Note.even_iff.mp (even note List.mem_cons_self)
    have atLeast := note.twelve_le_size
    obtain ⟨offset, signature⟩ := noteLoop_body_at memsz (layout note List.mem_cons_self) here
    rw [whole, Nat.mod_eq_of_lt (by omega)] at offset
    have go : (noteLoop host memory notes memsz).guard walk = true := (guard_iff walk).mpr (by omega)
    obtain ⟨trace, next, takes, same, last, found⟩ := ih ((noteLoop host memory notes memsz).body walk)
      (fun other member => even other (List.mem_cons_of_mem _ member))
      (fun other member => layout other (List.mem_cons_of_mem _ member))
      (by rw [offset, ← Nat.add_assoc]; exact behind) (by omega) (by omega)
    refine ⟨walk :: trace, next, .next go takes, ?_, by omega, ?_⟩
    · rw [List.map_cons, same, offset, starts]
    · rw [found, offset, signature, lastMarked, Option.or_assoc]

/-- The loop calls read_signature at the start of each note and nowhere else, and ends with
the uuid of the last OGRT note of the supported version. -/
def FollowsNotes (host : ByteOrder) (memory : Memory) (notes : Nat) (memsz : UInt64) (segment : List Note) : Prop :=
  ∃ trace last, (noteLoop host memory notes memsz).Runs (startWalk none) trace last ∧
    trace.map (·.offset.toNat) = starts 0 segment ∧ last.found.signature = lastMarked notes 0 segment

/-- A walk that keeps to the starts has met no padding, and its counter has not wrapped. -/
theorem even_of_starts {segment : List Note} {walk last : NoteWalk} {trace : List NoteWalk}
    (runs : (noteLoop host memory notes memsz).Runs walk trace last)
    (follows : trace.map (·.offset.toNat) = starts walk.offset.toNat segment)
    (layout : ∀ note ∈ segment, note.type = ogrtElfNoteType → ∃ version uuid, note.OgrtLayout version uuid)
    (holds : memory.Holds (notes + walk.offset.toNat) (segmentBytes host segment))
    (whole : memsz.toNat = walk.offset.toNat + segmentSize segment) :
    (∀ note ∈ segment, note.Even) ∧ memsz.toNat < 2 ^ 32 := by
  induction segment generalizing walk trace with
  | nil =>
    have below := walk.offset.toNat_lt
    refine ⟨nofun, ?_⟩
    rw [whole]
    exact below
  | cons note rest ih =>
    have sum := segmentSize_cons note rest
    obtain ⟨here, behind⟩ := holds_segment_cons.mp holds
    cases runs with
    | done => cases follows
    | @next _ trace _ _ runs =>
      obtain ⟨offset, _⟩ := noteLoop_body_at memsz (layout note List.mem_cons_self) here
      have later := (List.cons.inj follows).2
      have short := Note.step_le_size note
      -- the next start, or the end of the segment, leaves room for one step only
      have arrives : ((noteLoop host memory notes memsz).body walk).offset.toNat = walk.offset.toNat + note.size := by
        cases rest with
        | nil =>
          have empty : trace = [] := List.map_eq_nil_iff.mp later
          subst empty
          cases runs with
          | done stop =>
            have past := mt (guard_iff _).mpr (Bool.eq_false_iff.mp stop)
            have nothing := segmentSize_nil
            omega
        | cons second rest =>
          cases trace with
          | nil => cases later
          | cons first trace =>
            have second_start := (List.cons.inj later).1
            cases runs with
            | next => exact second_start
      have even : note.Even := by
        rw [Note.even_iff]
        omega
      obtain ⟨evens, fits⟩ := ih runs (by rw [arrives]; exact later)
        (fun other member => layout other (List.mem_cons_of_mem _ member))
        (by rw [arrives, ← Nat.add_assoc]; exact behind) (by omega)
      exact ⟨List.forall_mem_cons.mpr ⟨even, evens⟩, fits⟩

/-- On a segment of notes the walk goes from note to note exactly when none of them needs
padding and the segment is smaller than 4 GiB. -/
theorem follows_notes_iff (host : ByteOrder) (memory : Memory) (notes : Nat) (memsz : UInt64) (segment : List Note)
    (stamped : ∀ note ∈ segment, note.type = ogrtElfNoteType → ∃ version uuid, note.Stamped version uuid)
    (holds : memory.Holds notes (segmentBytes host segment))
    (whole : memsz.toNat = (segmentBytes host segment).length) :
    FollowsNotes host memory notes memsz segment ↔ (∀ note ∈ segment, note.Even) ∧ memsz.toNat < 2 ^ 32 := by
  have layout (note : Note) (member : note ∈ segment) (isOgrt : note.type = ogrtElfNoteType) :
      ∃ version uuid, note.OgrtLayout version uuid := by
    obtain ⟨version, uuid, stamp⟩ := stamped note member isOgrt
    exact ⟨version, uuid, stamp.ogrtLayout⟩
  have atStart : (startWalk none).offset.toNat = 0 := rfl
  rw [segmentBytes_length] at whole
  constructor
  · rintro ⟨trace, last, runs, follows, _⟩
    exact even_of_starts runs follows layout holds (by omega)
  · rintro ⟨even, small⟩
    have room : (startWalk none).offset.toNat + segmentSize segment ≤ memsz.toNat := by omega
    obtain ⟨trace, last, takes, follows, offset, found⟩ := even_notes_taken (startWalk none) even layout holds room
      (by omega)
    have stop : (noteLoop host memory notes memsz).guard last = false :=
      Bool.eq_false_iff.mpr fun go => by have inside := (guard_iff last).mp go; omega
    have runs := takes.runs (.done stop)
    rw [List.append_nil] at runs
    exact ⟨trace, last, runs, follows, found.trans (Option.or_none ..)⟩

/-- A note of another tool, with 4 bytes of name and of desc. -/
def gnuNote : Note where
  type := 5
  name := [0x47, 0x4E, 0x55, 0]
  namePadding := []
  desc := [1, 0, 0, 0]
  descPadding := []
  namePadded := by decide
  descPadded := by decide
  nameFits := by decide
  descFits := by decide

/-- "OGRT" and its null byte. -/
theorem ogrtName_fits : [(0x4F : UInt8), 0x47, 0x52, 0x54, 0].length < 2 ^ 32 := by decide

/-- The note that stamp.s assembles. -/
def stamp : Note where
  type := ogrtElfNoteType
  name := [0x4F, 0x47, 0x52, 0x54, 0]
  namePadding := [0, 0, 0]
  desc := 1 :: (List.replicate 8 0x41 ++ 0x2D :: List.replicate 4 0x41 ++ 0x2D :: List.replicate 4 0x41 ++
    0x2D :: List.replicate 4 0x41 ++ 0x2D :: List.replicate 12 0x41 ++ [0])
  descPadding := [0, 0]
  namePadded := by decide
  descPadded := by decide
  nameFits := ogrtName_fits
  descFits := by decide

theorem stamp_stamped : ∃ uuid, stamp.Stamped 1 uuid :=
  ⟨(stamp.desc.drop 1).take 36, by decide, by decide, by decide, by decide⟩

/-- Two notes of another tool are followed; with a stamp between them they are not. -/
theorem follows_notes_iff_gnuNote :
    (FollowsNotes .little (fun address => (segmentBytes .little [gnuNote, gnuNote]).getD (address - 4096) 0) 4096 40
        [gnuNote, gnuNote] ↔
      (∀ note ∈ [gnuNote, gnuNote], note.Even) ∧ (40 : UInt64).toNat < 2 ^ 32) ∧
    (FollowsNotes .little (fun address => (segmentBytes .little [gnuNote, stamp, gnuNote]).getD (address - 4096) 0) 4096 100
        [gnuNote, stamp, gnuNote] ↔
      (∀ note ∈ [gnuNote, stamp, gnuNote], note.Even) ∧ (100 : UInt64).toNat < 2 ^ 32) := by
  obtain ⟨uuid, stamped⟩ := stamp_stamped
  have other (isOgrt : gnuNote.type = ogrtElfNoteType) : ∃ version uuid, gnuNote.Stamped version uuid :=
    absurd isOgrt (by decide)
  constructor
  · refine follows_notes_iff .little _ 4096 40 [gnuNote, gnuNote] (fun note member isOgrt => ?_)
      (Memory.holds_getD 4096 _) (by decide)
    rcases List.mem_pair.mp member with rfl | rfl
    · exact other isOgrt
    · exact other isOgrt
  · refine follows_notes_iff .little _ 4096 100 [gnuNote, stamp, gnuNote] (fun note member isOgrt => ?_)
      (Memory.holds_getD 4096 _) (by decide)
    rcases List.mem_cons.mp member with rfl | behind
    · exact other isOgrt
    · rcases List.mem_pair.mp behind with rfl | rfl
      · exact ⟨1, uuid, stamped⟩
      · exact other isOgrt

/-- Behind the stamp alone the walk reads on at offset 55 of 60. -/
theorem stamp_not_followed :
    ¬ ∀ (host : ByteOrder) (memory : Memory) (notes : Nat) (memsz : UInt64) (segment : List Note),
      (∀ note ∈ segment, note.type = ogrtElfNoteType → ∃ version uuid, note.Stamped version uuid) →
      memory.Holds notes (segmentBytes host segment) → memsz.toNat = (segmentBytes host segment).length →
      FollowsNotes host memory notes memsz segment := by
  intro follows
  obtain ⟨uuid, stamped⟩ := stamp_stamped
  have each (note : Note) (member : note ∈ [stamp]) : ∃ version uuid, note.Stamped version uuid := by
    cases List.mem_singleton.mp member
    exact ⟨1, uuid, stamped⟩
  have holds : Memory.Holds (fun address => (segmentBytes .little [stamp]).getD (address - 4096) 0) 4096
      (segmentBytes .little [stamp]) := by decide
  obtain ⟨trace, last, runs, same, _⟩ := follows .little _ 4096 60 [stamp] (fun note member _ => each note member) holds
    (by decide)
  have layout (note : Note) (member : note ∈ [stamp]) (_ : note.type = ogrtElfNoteType) :
      ∃ version uuid, note.OgrtLayout version uuid := by
    obtain ⟨version, uuid, stamped⟩ := each note member
    exact ⟨version, uuid, stamped.ogrtLayout⟩
  have even := (even_of_starts runs same layout holds (by decide)).1
  exact stamped.not_even (even stamp List.mem_cons_self)

end Ogrt
