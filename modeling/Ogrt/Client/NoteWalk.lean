import Ogrt.Client.ReadSo

namespace Ogrt
open BigEndian Relation

variable {host : ByteOrder} {memory : Memory} {notes : Nat} {memsz : UInt64}

/-- The bytes that a header asks for, its own 12 among them, in 32 bits. -/
def recordSize (host : ByteOrder) (memory : Memory) (address : Nat) : Nat :=
  let elf := elfNote host memory address
  (elf.descSize.toUInt32 + elf.nameSize.toUInt32 + 12).toNat

/-- Where the record with an index starts, and behind the last one where the next would. -/
def recordStart (sizes : List Nat) (i : Nat) : Nat := (sizes.take i).sum

/-- Records that lie one behind the other from the first byte of a segment on. Each starts below
the end of the segment and has as many bytes as its header asks for. -/
structure Records (host : ByteOrder) (memory : Memory) (notes : Nat) (memsz : UInt64) (sizes : List Nat) : Prop where
  sized : ∀ i size, sizes[i]? = some size → recordSize host memory (notes + recordStart sizes i) = size
  positive : ∀ size ∈ sizes, 0 < size
  below : ∀ i < sizes.length, recordStart sizes i < memsz.toNat
  short : sizes.sum < 2 ^ 32

/-- The records take up the whole segment. -/
structure LaidOut (host : ByteOrder) (memory : Memory) (notes : Nat) (memsz : UInt64) (sizes : List Nat) : Prop extends
    Records host memory notes memsz sizes where
  covered : memsz.toNat ≤ sizes.sum

/-- Behind the records, and still in the segment, lies a header that does not ask for any bytes
or asks for more than a 32 bit offset can count. -/
structure LeadsBack (host : ByteOrder) (memory : Memory) (notes : Nat) (memsz : UInt64) (sizes : List Nat) : Prop extends
    Records host memory notes memsz sizes where
  inside : sizes.sum < memsz.toNat
  back : recordSize host memory (notes + sizes.sum) = 0 ∨ 2 ^ 32 ≤ sizes.sum + recordSize host memory (notes + sizes.sum)

/-- That header leads to the start of one of the records, or to itself. -/
def ToStart (host : ByteOrder) (memory : Memory) (notes : Nat) (sizes : List Nat) : Prop :=
  ∃ i ≤ sizes.length, (sizes.sum + recordSize host memory (notes + sizes.sum)) % 2 ^ 32 = recordStart sizes i

theorem recordStart_succ {sizes : List Nat} {i size : Nat} (found : sizes[i]? = some size) :
    recordStart sizes (i + 1) = recordStart sizes i + size := by
  rw [recordStart, recordStart, List.take_add_one, found, List.sum_append]
  simp

@[simp] theorem recordStart_length (sizes : List Nat) : recordStart sizes sizes.length = sizes.sum := by
  rw [recordStart, List.take_length]

theorem recordStart_le_sum (sizes : List Nat) (i : Nat) : recordStart sizes i ≤ sizes.sum := by
  have whole := congrArg List.sum (List.take_append_drop i sizes)
  rw [List.sum_append] at whole
  rw [recordStart]
  omega

theorem recordStart_append {sizes more : List Nat} {i : Nat} (inside : i ≤ sizes.length) :
    recordStart (sizes ++ more) i = recordStart sizes i := by
  rw [recordStart, recordStart, List.take_append_of_le_length inside]

theorem offsetLoop_guard {offset : UInt32} :
    (offsetLoop host memory notes memsz).guard offset = true ↔ offset.toNat < memsz.toNat := by
  show decide _ = true ↔ _
  rw [decide_eq_true_iff, UInt64.lt_iff_toNat_lt, UInt32.toNat_toUInt64]

theorem nextOffset_toNat (offset : UInt32) :
    (nextOffset host memory notes offset).toNat = (offset.toNat + recordSize host memory (notes + offset.toNat)) % 2 ^ 32 := by
  rw [nextOffset, UInt32.toNat_add]
  rfl

/-- From a start the sizes there lead to the next one. -/
theorem leads_of_size {start next : Nat} (inside : start < memsz.toNat) (small : start < 2 ^ 32)
    (leads : (start + recordSize host memory (notes + start)) % 2 ^ 32 = next) :
    Leads host memory notes memsz (UInt32.ofNat start) (UInt32.ofNat next) := by
  have here : (UInt32.ofNat start).toNat = start := UInt32.toNat_ofNat_of_lt' small
  refine ⟨offsetLoop_guard.mpr (by rwa [here]), UInt32.toNat_inj.mp ?_⟩
  show _ = (nextOffset host memory notes (UInt32.ofNat start)).toNat
  rw [nextOffset_toNat, here, leads]
  exact UInt32.toNat_ofNat_of_lt' (by rw [← leads]; exact Nat.mod_lt _ (by decide))

variable {sizes : List Nat}

theorem Records.leads (records : Records host memory notes memsz sizes) {i : Nat} (inside : i < sizes.length) :
    Leads host memory notes memsz (UInt32.ofNat (recordStart sizes i)) (UInt32.ofNat (recordStart sizes (i + 1))) := by
  have found := List.getElem?_eq_getElem inside
  have next := recordStart_succ found
  have bound := recordStart_le_sum sizes (i + 1)
  have short := records.short
  refine leads_of_size (records.below i inside) (by omega) ?_
  rw [records.sized i _ found, ← next]
  exact Nat.mod_eq_of_lt (by omega)

theorem Records.reaches (records : Records host memory notes memsz sizes) {i j : Nat} (before : i ≤ j)
    (inside : j ≤ sizes.length) : ReflTransGen (Leads host memory notes memsz) (UInt32.ofNat (recordStart sizes i))
      (UInt32.ofNat (recordStart sizes j)) := by
  induction j with
  | zero =>
    obtain rfl : i = 0 := by omega
    exact .refl
  | succ j ih =>
    by_cases last : i = j + 1
    · rw [last]
    · exact (ih (by omega) (by omega)).tail (records.leads (by omega))

theorem Records.visits (records : Records host memory notes memsz sizes) {i : Nat} (inside : i ≤ sizes.length) :
    ReflTransGen (Leads host memory notes memsz) 0 (UInt32.ofNat (recordStart sizes i)) :=
  records.reaches (Nat.zero_le i) inside

/-- One record more. -/
theorem Records.append (records : Records host memory notes memsz sizes) (inside : sizes.sum < memsz.toNat)
    (positive : 0 < recordSize host memory (notes + sizes.sum))
    (short : sizes.sum + recordSize host memory (notes + sizes.sum) < 2 ^ 32) :
    Records host memory notes memsz (sizes ++ [recordSize host memory (notes + sizes.sum)]) := by
  have count : (sizes ++ [recordSize host memory (notes + sizes.sum)]).length = sizes.length + 1 := List.length_append
  have last : recordStart (sizes ++ [recordSize host memory (notes + sizes.sum)]) sizes.length = sizes.sum := by
    rw [recordStart_append (Nat.le_refl _), recordStart_length]
  refine ⟨fun i size found => ?_, fun size member => ?_, fun i before => ?_, ?_⟩
  · have before := (List.getElem?_eq_some_iff.mp found).1
    by_cases old : i < sizes.length
    · rw [recordStart_append old.le]
      rw [List.getElem?_append_left old] at found
      exact records.sized i size found
    · obtain rfl : i = sizes.length := by omega
      rw [List.getElem?_concat_length] at found
      rw [last]
      exact Option.some.inj found
  · rcases List.mem_append.mp member with old | new
    · exact records.positive size old
    · rw [List.mem_singleton.mp new]
      exact positive
  · by_cases old : i < sizes.length
    · rw [recordStart_append old.le]
      exact records.below i old
    · obtain rfl : i = sizes.length := by omega
      rw [last]
      exact inside
  · rw [List.sum_append, List.sum_singleton]
    exact short

/-- Every segment is laid out, or its records come to a header that leads back. -/
theorem Records.complete {sizes : List Nat} (records : Records host memory notes memsz sizes) :
    (∃ sizes, LaidOut host memory notes memsz sizes) ∨ ∃ sizes, LeadsBack host memory notes memsz sizes := by
  by_cases covered : memsz.toNat ≤ sizes.sum
  · exact Or.inl ⟨sizes, records, covered⟩
  · by_cases back : recordSize host memory (notes + sizes.sum) = 0 ∨
        2 ^ 32 ≤ sizes.sum + recordSize host memory (notes + sizes.sum)
    · exact Or.inr ⟨sizes, records, by omega, back⟩
    · exact (records.append (by omega) (by omega) (by omega)).complete
termination_by 2 ^ 32 - sizes.sum
decreasing_by
  have short := records.short
  rw [List.sum_append, List.sum_singleton]
  omega

variable (host memory notes memsz) in
theorem laidOut_or_leadsBack :
    (∃ sizes, LaidOut host memory notes memsz sizes) ∨ ∃ sizes, LeadsBack host memory notes memsz sizes :=
  @Records.complete _ _ _ _ [] ⟨nofun, nofun, nofun, by decide⟩

theorem LaidOut.ends (laid : LaidOut host memory notes memsz sizes) : (offsetLoop host memory notes memsz).Ends 0 := by
  rw [WhileLoop.ends_iff_of_visits (laid.visits (Nat.le_refl sizes.length))]
  refine ⟨[], _, .done (Bool.eq_false_iff.mpr fun go => ?_)⟩
  have inside := offsetLoop_guard.mp go
  rw [recordStart_length, UInt32.toNat_ofNat_of_lt' laid.short] at inside
  exact absurd laid.covered (Nat.not_le.mpr inside)

theorem LeadsBack.leads (leadsBack : LeadsBack host memory notes memsz sizes) {i : Nat}
    (start : (sizes.sum + recordSize host memory (notes + sizes.sum)) % 2 ^ 32 = recordStart sizes i) :
    Leads host memory notes memsz (UInt32.ofNat (recordStart sizes sizes.length)) (UInt32.ofNat (recordStart sizes i)) := by
  rw [recordStart_length]
  exact leads_of_size leadsBack.inside leadsBack.short start

/-- From the start of a record that a later header leads back to, the walk comes there again. -/
theorem LeadsBack.not_ends (leadsBack : LeadsBack host memory notes memsz sizes) (toStart : ToStart host memory notes sizes) :
    ¬ (offsetLoop host memory notes memsz).Ends 0 := by
  obtain ⟨i, inside, start⟩ := toStart
  rw [WhileLoop.ends_iff_of_visits (leadsBack.visits inside)]
  exact WhileLoop.not_ends_of_cycle (TransGen.tail' (leadsBack.reaches inside (Nat.le_refl _)) (leadsBack.leads start))

/-- Over a segment that is laid out in records the walk ends. In any other one it comes to a
header that leads it back, and it never ends if that is to the start of a record. -/
theorem note_walk_ends_of_laidOut (host : ByteOrder) (memory : Memory) (notes : Nat) (memsz : UInt64)
    (signature : Option Nat) :
    ((∃ sizes, LaidOut host memory notes memsz sizes) → (noteLoop host memory notes memsz).Ends (startWalk signature)) ∧
      ((¬ ∃ sizes, LaidOut host memory notes memsz sizes) → ∃ sizes, LeadsBack host memory notes memsz sizes ∧
        (ToStart host memory notes sizes → ¬ (noteLoop host memory notes memsz).Ends (startWalk signature))) := by
  rw [(noteLoop_projects host memory notes memsz).ends_iff]
  refine ⟨fun ⟨_, laid⟩ => laid.ends, fun notLaid => ?_⟩
  obtain ⟨sizes, leadsBack⟩ := (laidOut_or_leadsBack host memory notes memsz).resolve_left notLaid
  exact ⟨sizes, leadsBack, leadsBack.not_ends⟩

/-- A header that leads back into the midst of a record decides nothing: here the one at 20 leads
to 16, where the sizes ask for 112 bytes, and the walk ends. -/
example : let segment : List UInt8 := [8, 0, 0, 0, 0, 0, 0, 0, 1, 0, 0, 0, 0, 0, 0, 0, 116, 0, 0, 0, 0xF0, 0xFF, 0xFF, 0xFF]
    (offsetLoop .little (fun address => segment.getD (address - 4096) 0) 4096 32).run 4 0 = some 128 := by decide

/-- A segment of 12 bytes: a note whose name size is minus 12. -/
theorem note_walk_can_hang :
    ¬ ∀ (host : ByteOrder) (memory : Memory) (notes : Nat) (memsz : UInt64) (signature : Option Nat),
      (noteLoop host memory notes memsz).Ends (startWalk signature) := by
  intro ends
  let segment : List UInt8 := [0xF4, 0xFF, 0xFF, 0xFF, 0, 0, 0, 0, 1, 0, 0, 0]
  let memory : Memory := fun address => segment.getD (address - 4096) 0
  have stays : (offsetLoop .little memory 4096 12).Iterates 0 0 := ⟨by decide, by decide⟩
  have halts := (noteLoop_projects .little memory 4096 12).ends_iff.mp (ends .little memory 4096 12 none)
  exact WhileLoop.not_ends_of_cycle (.single stays) halts

/-- The addresses that read_signature reads: the header and, in an OGRT note, the version
and the uuid field. -/
def signatureReads (host : ByteOrder) (memory : Memory) (note : Nat) : List Nat :=
  let elf := elfNote host memory note
  List.range' note 12 ++ if elf.type = ogrtElfNoteType then List.range' (elf.data + 8) (1 + 37) else []

/-- No read of the walk and no signature that it finds passes the end of the segment. -/
structure WalkInside (host : ByteOrder) (memory : Memory) (notes : Nat) (memsz : UInt64) : Prop where
  reads : ∀ walk, (noteLoop host memory notes memsz).Visits (startWalk none) walk → walk.offset.toUInt64 < memsz →
    ∀ address ∈ signatureReads host memory (notes + walk.offset.toNat), address < notes + memsz.toNat
  signatures : ∀ walk, (noteLoop host memory notes memsz).Visits (startWalk none) walk →
    ∀ uuid, walk.found.signature = some uuid →
      ∃ text, memory.CString uuid text ∧ uuid + text.length < notes + memsz.toNat

/-- At an offset the segment has room for a header, and for the rest of the structs and the
NUL of the uuid where the header asks for them. -/
structure WholeNote (host : ByteOrder) (memory : Memory) (notes : Nat) (memsz : UInt64) (offset : Nat) : Prop where
  header : offset + 12 ≤ memsz.toNat
  ogrt : (elfNote host memory (notes + offset)).type = ogrtElfNoteType → offset + 58 ≤ memsz.toNat
  terminated : (elfNote host memory (notes + offset)).type = ogrtElfNoteType →
    memory (notes + offset + 20) = ogrtStampSupportedVersion →
      ∃ i, offset + 21 ≤ i ∧ i < memsz.toNat ∧ memory (notes + i) = 0

theorem supportedSignature_eq_some {note uuid : Nat} :
    supportedSignature host memory note = some uuid ↔
      (elfNote host memory note).type = ogrtElfNoteType ∧ memory (note + 20) = ogrtStampSupportedVersion ∧
        uuid = note + 21 := by
  simp only [supportedSignature, ogrtNote, elfNote, Option.ite_none_right_eq_some, Option.some.injEq, Nat.add_assoc,
    Nat.reduceAdd, @eq_comm _ uuid]

theorem signatureReads_inside_iff {offset : Nat} :
    (∀ address ∈ signatureReads host memory (notes + offset), address < notes + memsz.toNat) ↔
      offset + 12 ≤ memsz.toNat ∧
        ((elfNote host memory (notes + offset)).type = ogrtElfNoteType → offset + 58 ≤ memsz.toNat) := by
  simp only [signatureReads, List.forall_mem_append]
  refine and_congr ⟨fun inside => ?_, fun room address member => ?_⟩ ?_
  · have last := inside (notes + offset + 11) (List.mem_range'_1.mpr ⟨by omega, by omega⟩)
    omega
  · have bound := (List.mem_range'_1.mp member).2
    omega
  · split
    · rename_i isOgrt
      have data : (elfNote host memory (notes + offset)).data = notes + offset + 12 := rfl
      rw [data]
      refine ⟨fun inside _ => ?_, fun room address member => ?_⟩
      · have last := inside (notes + offset + 57) (List.mem_range'_1.mpr ⟨by omega, by omega⟩)
        omega
      · have bound := (List.mem_range'_1.mp member).2
        have room := room isOgrt
        omega
    · rename_i other
      exact iff_of_true (fun _ => nofun) fun isOgrt => absurd isOgrt other

/-- The NUL that the walk needs behind a uuid is the one that the condition asks for. -/
theorem signature_inside_iff {offset : Nat} :
    (∀ uuid, supportedSignature host memory (notes + offset) = some uuid →
      ∃ text, memory.CString uuid text ∧ uuid + text.length < notes + memsz.toNat) ↔
      ((elfNote host memory (notes + offset)).type = ogrtElfNoteType →
        memory (notes + offset + 20) = ogrtStampSupportedVersion →
          ∃ i, offset + 21 ≤ i ∧ i < memsz.toNat ∧ memory (notes + i) = 0) := by
  simp only [supportedSignature_eq_some, Memory.exists_cString_iff]
  constructor
  · intro inside isOgrt version
    obtain ⟨address, after, before, nul⟩ := inside _ ⟨isOgrt, version, rfl⟩
    refine ⟨address - notes, by omega, by omega, ?_⟩
    rw [Nat.add_sub_cancel' (by omega)]
    exact nul
  · rintro terminated uuid ⟨isOgrt, version, rfl⟩
    obtain ⟨i, after, before, nul⟩ := terminated isOgrt version
    exact ⟨notes + i, by omega, by omega, nul⟩

/-- What holds of each uuid that the offsets come to holds of every signature found. -/
theorem found_signature_invariant {P : Nat → Prop}
    (each : ∀ walk, (noteLoop host memory notes memsz).Visits (startWalk none) walk → walk.offset.toUInt64 < memsz →
      ∀ uuid, supportedSignature host memory (notes + walk.offset.toNat) = some uuid → P uuid)
    {walk : NoteWalk} (visits : (noteLoop host memory notes memsz).Visits (startWalk none) walk) {uuid : Nat}
    (found : walk.found.signature = some uuid) : P uuid := by
  induction visits generalizing uuid with
  | refl => cases found
  | @tail walk next before iterates ih =>
    obtain ⟨go, rfl⟩ := iterates
    rw [noteLoop_body] at found
    cases here : supportedSignature host memory (notes + walk.offset.toNat) with
    | none =>
      rw [here] at found
      exact ih found
    | some new =>
      rw [here] at found
      cases found
      exact each walk before (decide_eq_true_iff.mp go) _ here

theorem walkInside_iff : WalkInside host memory notes memsz ↔
    ∀ offset : UInt32, ReflTransGen (Leads host memory notes memsz) 0 offset → offset.toUInt64 < memsz →
      WholeNote host memory notes memsz offset.toNat := by
  have projects := noteLoop_projects host memory notes memsz
  constructor
  · intro inside offset leads before
    obtain ⟨walk, visits, rfl⟩ := projects.visits_lift (s := startWalk none) leads
    obtain ⟨header, ogrt⟩ := signatureReads_inside_iff.mp (inside.reads walk visits before)
    have go : (noteLoop host memory notes memsz).guard walk = true := decide_eq_true before
    refine ⟨header, ogrt, signature_inside_iff.mp fun uuid found => ?_⟩
    refine inside.signatures _ (visits.tail ⟨go, rfl⟩) uuid ?_
    rw [noteLoop_body, found]
  · intro whole
    have each (walk : NoteWalk) (visits : (noteLoop host memory notes memsz).Visits (startWalk none) walk)
        (before : walk.offset.toUInt64 < memsz) : WholeNote host memory notes memsz walk.offset.toNat :=
      whole walk.offset (projects.visits visits) before
    refine ⟨fun walk visits before => ?_, fun walk visits uuid found => ?_⟩
    · have here := each walk visits before
      exact signatureReads_inside_iff.mpr ⟨here.header, here.ogrt⟩
    · let ends_inside (uuid : Nat) := ∃ text, memory.CString uuid text ∧ uuid + text.length < notes + memsz.toNat
      refine @found_signature_invariant _ _ _ _ ends_inside (fun walk visits before => ?_) _ visits _ found
      exact signature_inside_iff.mpr (each walk visits before).terminated

theorem Records.whole (records : Records host memory notes memsz sizes) (inside : WalkInside host memory notes memsz) {i : Nat}
    (place : i ≤ sizes.length) (below : recordStart sizes i < memsz.toNat) :
    WholeNote host memory notes memsz (recordStart sizes i) := by
  have bound := recordStart_le_sum sizes i
  have here : (UInt32.ofNat (recordStart sizes i)).toNat = recordStart sizes i :=
    UInt32.toNat_ofNat_of_lt' (Nat.lt_of_le_of_lt bound records.short)
  have whole := walkInside_iff.mp inside _ (records.visits place) (by
    rw [UInt64.lt_iff_toNat_lt, UInt32.toNat_toUInt64, here]
    exact below)
  rwa [here] at whole

/-- A walk that goes on from the last record to no other place than a start, or not at all,
reads at starts only. -/
theorem Records.walkInside (records : Records host memory notes memsz sizes)
    (last : sizes.sum < memsz.toNat → ToStart host memory notes sizes)
    (whole : ∀ i ≤ sizes.length, recordStart sizes i < memsz.toNat →
      WholeNote host memory notes memsz (recordStart sizes i)) : WalkInside host memory notes memsz := by
  have small (i : Nat) : (UInt32.ofNat (recordStart sizes i)).toNat = recordStart sizes i :=
    UInt32.toNat_ofNat_of_lt' (Nat.lt_of_le_of_lt (recordStart_le_sum sizes i) records.short)
  refine walkInside_iff.mpr fun offset visits => ?_
  suffices place : ∃ i ≤ sizes.length, offset = UInt32.ofNat (recordStart sizes i) by
    obtain ⟨i, inside, rfl⟩ := place
    intro before
    rw [UInt64.lt_iff_toNat_lt, UInt32.toNat_toUInt64] at before
    rw [small] at before ⊢
    exact whole i inside before
  induction visits with
  | refl => exact ⟨0, Nat.zero_le _, rfl⟩
  | tail _ leads ih =>
    obtain ⟨i, inside, rfl⟩ := ih
    obtain ⟨go, rfl⟩ := leads
    have before := offsetLoop_guard.mp go
    rw [small] at before
    by_cases more : i < sizes.length
    · exact ⟨i + 1, more, (records.leads more).2.symm⟩
    · obtain rfl : i = sizes.length := by omega
      rw [recordStart_length] at before
      obtain ⟨j, known, start⟩ := last before
      refine ⟨j, known, ?_⟩
      rw [recordStart_length]
      exact (leads_of_size before records.short start).2.symm

/-- The walk over a segment that is laid out in records stays inside exactly when each record is
whole. In any other segment it comes to a header that leads it back; the records up to that one
have to be whole, and that is enough if it leads to the start of a record. -/
theorem note_walk_inside_of_laidOut (host : ByteOrder) (memory : Memory) (notes : Nat) (memsz : UInt64) :
    (∀ sizes, LaidOut host memory notes memsz sizes → (WalkInside host memory notes memsz ↔
      ∀ i < sizes.length, WholeNote host memory notes memsz (recordStart sizes i))) ∧
    ((¬ ∃ sizes, LaidOut host memory notes memsz sizes) → ∃ sizes, LeadsBack host memory notes memsz sizes ∧
      (WalkInside host memory notes memsz →
        ∀ i ≤ sizes.length, WholeNote host memory notes memsz (recordStart sizes i)) ∧
      (ToStart host memory notes sizes →
        (∀ i ≤ sizes.length, WholeNote host memory notes memsz (recordStart sizes i)) →
          WalkInside host memory notes memsz)) := by
  refine ⟨fun sizes laid => ⟨fun inside i place => ?_, fun whole => ?_⟩, fun notLaid => ?_⟩
  · exact laid.whole inside place.le (laid.below i place)
  · refine laid.walkInside (fun inside => absurd laid.covered (Nat.not_le.mpr inside)) fun i place before => ?_
    by_cases last : i = sizes.length
    · rw [last, recordStart_length] at before
      exact absurd laid.covered (Nat.not_le.mpr before)
    · exact whole i (by omega)
  · obtain ⟨sizes, leadsBack⟩ := (laidOut_or_leadsBack host memory notes memsz).resolve_left notLaid
    refine ⟨sizes, leadsBack, fun inside i place => ?_, fun toStart whole => ?_⟩
    · have bound := recordStart_le_sum sizes i
      exact leadsBack.whole inside place (Nat.lt_of_le_of_lt bound leadsBack.inside)
    · exact leadsBack.walkInside (fun _ => toStart) fun i place _ => whole i place

end Ogrt
