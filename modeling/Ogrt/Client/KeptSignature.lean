import Ogrt.Client.ReadSo

namespace Ogrt
open BigEndian

/-- The walk over the segment of a PT_NOTE header leaves a signature, or NULL. -/
structure Leaves (host : ByteOrder) (memory : Memory) (addr : UInt64) (header : ProgramHeader)
    (result : Option Nat) : Prop where
  note : header.type = ptNote
  mapped : addr + header.vaddr ≠ 0
  walk : ∃ trace last, (noteLoop host memory (addr + header.vaddr).toNat header.memsz).Runs (startWalk none) trace last ∧
    last.found.signature = result

/-- A segment with notes in it whose walk leaves no signature. -/
def Silent (host : ByteOrder) (memory : Memory) (addr : UInt64) (header : ProgramHeader) : Prop :=
  header.memsz ≠ 0 ∧ Leaves host memory addr header none

/-- A segment leaves a signature, and no silent one comes after it. -/
def NotOverwritten (host : ByteOrder) (memory : Memory) (addr : UInt64) (headers : List ProgramHeader) : Prop :=
  ∃ before header after uuid, headers = before ++ header :: after ∧ Leaves host memory addr header (some uuid) ∧
    ∀ later ∈ after, ¬ Silent host memory addr later

/-- What is to become of the signatures that the segments of an object leave. -/
structure SignatureKept (host : ByteOrder) (memory : Memory) (info : DlPhdrInfo) (object : LoadedObject) : Prop where
  kept : (∃ header ∈ info.phdr, ∃ uuid, Leaves host memory info.addr header (some uuid)) →
    ∃ header ∈ info.phdr, ∃ uuid, Leaves host memory info.addr header (some uuid) ∧ object.signature = some uuid
  null : (∀ header ∈ info.phdr, ∀ uuid, ¬ Leaves host memory info.addr header (some uuid)) → object.signature = none

variable {host : ByteOrder} {memory : Memory} {notes : Nat} {memsz : UInt64} {addr : UInt64}

/-- The part of the walk that does not depend on what is stored in the shared object. -/
def foundLoop (host : ByteOrder) (memory : Memory) (notes : Nat) (memsz : UInt64) :
    WhileLoop (UInt32 × FoundSignature) where
  guard walk := walk.1.toUInt64 < memsz
  body walk :=
    let next := (noteLoop host memory notes memsz).body ⟨walk.1, walk.2, none⟩
    (next.offset, next.found)

theorem noteLoop_found : WhileLoop.Projects (noteLoop host memory notes memsz) (foundLoop host memory notes memsz)
    fun walk => (walk.offset, walk.found) where
  guard _ := rfl
  body _ _ := rfl

/-- The walk finds the same whatever the shared object held before. -/
theorem runs_restart (other : Option Nat) {signature : Option Nat} {trace : List NoteWalk} {last : NoteWalk}
    (runs : (noteLoop host memory notes memsz).Runs (startWalk signature) trace last) :
    ∃ trace' last', (noteLoop host memory notes memsz).Runs (startWalk other) trace' last' ∧ last'.found = last.found := by
  obtain ⟨trace', last', again, _, same⟩ := (runs.map noteLoop_found).lift noteLoop_found (s := startWalk other) rfl
  exact ⟨trace', last', again, (Prod.mk.inj same).2⟩

/-- An iteration stores what has been found; a segment of size zero stores nothing. -/
theorem runs_stored {signature : Option Nat} {trace : List NoteWalk} {last : NoteWalk}
    (runs : (noteLoop host memory notes memsz).Runs (startWalk signature) trace last) :
    last.sharedObjectSignature = if memsz = 0 then signature else last.found.signature := by
  cases runs with
  | done stop =>
    have empty : memsz = 0 := by
      have past : ¬ (0 : UInt32).toUInt64 < memsz := decide_eq_false_iff_not.mp stop
      exact UInt64.le_zero_iff.mp (UInt64.not_lt.mp past)
    rw [if_pos empty]
    rfl
  | next go rest =>
    have nonempty : memsz ≠ 0 := by
      rintro rfl
      have inside : (0 : UInt32).toUInt64 < 0 := decide_eq_true_iff.mp go
      exact UInt64.not_lt_zero inside
    rw [if_neg nonempty]
    refine rest.invariant (P := fun walk => walk.sharedObjectSignature = walk.found.signature) ?_ fun walk _ _ => ?_
    · rw [noteLoop_body]
    · rw [noteLoop_body]

theorem Leaves.unique {header : ProgramHeader} {result other : Option Nat}
    (one : Leaves host memory addr header result) (two : Leaves host memory addr header other) : result = other := by
  obtain ⟨_, last, runs, rfl⟩ := one.walk
  obtain ⟨_, last', runs', rfl⟩ := two.walk
  rw [(runs.unique runs').2]

/-- A header leaves the signature alone, or replaces it by what its segment leaves. -/
theorem checkHeader_sound {header : ProgramHeader} {signature result : Option Nat}
    (checked : checkHeader host memory addr signature header = some result) :
    (result = signature ∧ ¬ Silent host memory addr header ∧ ∀ uuid, ¬ Leaves host memory addr header (some uuid)) ∨
      (header.memsz ≠ 0 ∧ Leaves host memory addr header result) := by
  have skipped (unwalked : ∀ left, ¬ Leaves host memory addr header left) (same : some signature = some result) :
      result = signature ∧ ¬ Silent host memory addr header ∧ ∀ uuid, ¬ Leaves host memory addr header (some uuid) :=
    ⟨(Option.some.inj same).symm, fun silent => unwalked _ silent.2, fun uuid => unwalked _⟩
  unfold checkHeader at checked
  split at checked
  · rename_i isNote
    dsimp only at checked
    split at checked
    · rename_i mapped
      obtain ⟨trace, last, runs, rfl⟩ := walkNotes_eq_some_iff.mp checked
      obtain ⟨trace', last', again, sameFound⟩ := runs_restart none runs
      have left : Leaves host memory addr header last.found.signature :=
        ⟨isNote.2, mapped, trace', last', again, congrArg _ sameFound⟩
      have stored := runs_stored runs
      by_cases empty : header.memsz = 0
      · rw [if_pos empty] at stored
        refine Or.inl ⟨stored, fun silent => silent.1 empty, fun uuid marked => ?_⟩
        -- the loop over an empty segment is over before it starts
        have over_at_once : (noteLoop host memory (addr + header.vaddr).toNat header.memsz).guard (startWalk none) = false := by
          rw [empty]
          rfl
        obtain ⟨_, last'', runs'', found⟩ := marked.walk
        rw [← (WhileLoop.Runs.unique (.done over_at_once) runs'').2] at found
        cases found
      · rw [if_neg empty] at stored
        exact Or.inr ⟨empty, stored ▸ left⟩
    · rename_i unmapped
      exact Or.inl (skipped (fun _ left => unmapped left.mapped) checked)
  · rename_i other
    exact Or.inl (skipped (fun _ left => other ⟨by rw [left.note]; decide, left.note⟩) checked)

/-- Walks that end make handle_program_header return. -/
theorem checked_headers_complete {headers : List ProgramHeader}
    (ends : ∀ header ∈ headers, header.type = ptNote → addr + header.vaddr ≠ 0 → ∃ result, Leaves host memory addr header result)
    (signature : Option Nat) : ∃ result, headers.foldlM (checkHeader host memory addr) signature = some result := by
  induction headers generalizing signature with
  | nil => exact ⟨signature, rfl⟩
  | cons header rest ih =>
    obtain ⟨stored, here⟩ : ∃ stored, checkHeader host memory addr signature header = some stored := by
      unfold checkHeader
      split
      · rename_i isNote
        dsimp only
        split
        · rename_i mapped
          obtain ⟨_, left⟩ := ends header List.mem_cons_self isNote.2 mapped
          obtain ⟨trace, last, runs, _⟩ := left.walk
          obtain ⟨trace, last, again, _⟩ := runs_restart signature runs
          exact ⟨_, walkNotes_eq_some_iff.mpr ⟨trace, last, again, rfl⟩⟩
        · exact ⟨signature, rfl⟩
      · exact ⟨signature, rfl⟩
    obtain ⟨result, later⟩ := ih (fun other member => ends other (List.mem_cons_of_mem _ member)) stored
    exact ⟨result, by rw [List.foldlM_cons, here]; exact later⟩

theorem notOverwritten_of_pairwise {headers : List ProgramHeader} {header : ProgramHeader} {uuid : Nat}
    (member : header ∈ headers) (left : Leaves host memory addr header (some uuid))
    (kept : headers.Pairwise fun earlier later =>
      (∃ uuid, Leaves host memory addr earlier (some uuid)) → ¬ Silent host memory addr later) :
    NotOverwritten host memory addr headers := by
  obtain ⟨before, after, rfl⟩ := List.append_of_mem member
  have behind := (List.pairwise_cons.mp (List.pairwise_append.mp kept).2.1).1
  exact ⟨before, header, after, uuid, rfl, left, fun later laterMember => behind later laterMember ⟨uuid, left⟩⟩

theorem notOverwritten_concat {headers : List ProgramHeader} {header : ProgramHeader} :
    NotOverwritten host memory addr (headers ++ [header]) ↔
      (∃ uuid, Leaves host memory addr header (some uuid)) ∨
        (NotOverwritten host memory addr headers ∧ ¬ Silent host memory addr header) := by
  constructor
  · rintro ⟨before, marked, after, uuid, split, left, quiet⟩
    rcases List.eq_nil_or_concat after with rfl | ⟨after, last, rfl⟩
    · obtain ⟨_, same⟩ := List.append_inj' split rfl
      cases same
      exact Or.inl ⟨uuid, left⟩
    · have regroup : headers ++ [header] = (before ++ marked :: after) ++ [last] := by
        rw [split, List.concat_eq_append, List.append_assoc, List.cons_append]
      obtain ⟨rfl, same⟩ := List.append_inj' regroup rfl
      cases same
      rw [List.concat_eq_append] at quiet
      obtain ⟨earlier, here⟩ := List.forall_mem_append.mp quiet
      exact Or.inr ⟨⟨before, marked, after, uuid, rfl, left, earlier⟩, here _ (List.mem_singleton_self _)⟩
  · rintro (⟨uuid, left⟩ | ⟨⟨before, marked, after, uuid, rfl, left, quiet⟩, here⟩)
    · exact ⟨headers, header, [], uuid, rfl, left, nofun⟩
    · refine ⟨before, marked, after ++ [header], uuid, by simp, left, List.forall_mem_append.mpr ⟨quiet, ?_⟩⟩
      rintro later (_ | ⟨_, ⟨⟩⟩)
      exact here

/-- Over all headers, the signature that stays is one that a segment leaves, and one stays
exactly if it is not overwritten. -/
theorem checked_headers {headers : List ProgramHeader} {result : Option Nat}
    (checked : headers.foldlM (checkHeader host memory addr) none = some result) :
    (∀ uuid, result = some uuid → ∃ header ∈ headers, Leaves host memory addr header (some uuid)) ∧
      (result.isSome ↔ NotOverwritten host memory addr headers) := by
  induction headers using List.reverseRecOn generalizing result with
  | nil =>
    cases checked
    refine ⟨nofun, iff_of_false Bool.false_ne_true ?_⟩
    rintro ⟨before, header, after, uuid, split, _⟩
    exact List.append_ne_nil_of_right_ne_nil before (List.cons_ne_nil header after) split.symm
  | append_singleton headers header ih =>
    rw [List.foldlM_append] at checked
    obtain ⟨signature, earlier, last⟩ := Option.bind_eq_some_iff.mp checked
    rw [List.foldlM_cons] at last
    obtain ⟨_, here, rest⟩ := Option.bind_eq_some_iff.mp last
    cases Option.some.inj rest
    obtain ⟨origin, kept⟩ := ih earlier
    rw [notOverwritten_concat]
    rcases checkHeader_sound here with ⟨rfl, notSilent, unmarked⟩ | ⟨nonempty, left⟩
    · refine ⟨fun uuid same => ?_, kept.trans ⟨fun before => Or.inr ⟨before, notSilent⟩, ?_⟩⟩
      · obtain ⟨source, member, marked⟩ := origin uuid same
        exact ⟨source, List.mem_append_left _ member, marked⟩
      · rintro (⟨uuid, marked⟩ | ⟨before, _⟩)
        · exact absurd marked (unmarked uuid)
        · exact before
    · refine ⟨fun uuid same => ⟨header, List.mem_append_right _ (List.mem_singleton_self _), same ▸ left⟩, ?_⟩
      cases result with
      | none =>
        refine iff_of_false Bool.false_ne_true ?_
        rintro (⟨uuid, marked⟩ | ⟨_, notSilent⟩)
        · cases left.unique marked
        · exact notSilent ⟨nonempty, left⟩
      | some uuid => exact iff_of_true rfl (Or.inl ⟨uuid, left⟩)

/-- The signature of an object is kept exactly when no segment leaves one, or when some
segment leaves one and no silent segment comes after it. -/
theorem signature_kept_iff (host : ByteOrder) (memory : Memory) (soName : Option GoString) (info : DlPhdrInfo)
    (object : LoadedObject) (returns : handleProgramHeader host memory soName info = some object) :
    SignatureKept host memory info object ↔
      (∀ header ∈ info.phdr, ∀ uuid, ¬ Leaves host memory info.addr header (some uuid)) ∨
        NotOverwritten host memory info.addr info.phdr := by
  obtain ⟨signature, checked, rfl⟩ := Option.map_eq_some_iff.mp returns
  obtain ⟨origin, kept⟩ := checked_headers checked
  constructor
  · intro property
    by_cases marked : ∃ header ∈ info.phdr, ∃ uuid, Leaves host memory info.addr header (some uuid)
    · obtain ⟨_, _, uuid, _, same⟩ := property.kept marked
      exact Or.inr (kept.mp (Option.isSome_iff_exists.mpr ⟨uuid, same⟩))
    · simp only [not_exists, not_and] at marked
      exact Or.inl marked
  · rintro (unmarked | survives)
    · refine ⟨fun ⟨header, member, uuid, left⟩ => absurd left (unmarked header member uuid), fun _ => ?_⟩
      by_contra stored
      obtain ⟨uuid, same⟩ := Option.ne_none_iff_exists'.mp stored
      obtain ⟨header, member, left⟩ := origin uuid same
      exact unmarked header member uuid left
    · obtain ⟨uuid, same⟩ := Option.isSome_iff_exists.mp (kept.mpr survives)
      obtain ⟨header, member, left⟩ := origin uuid same
      exact ⟨fun _ => ⟨header, member, uuid, left, same⟩, fun unmarked => absurd left (unmarked header member uuid)⟩

/-- An OGRT note in a segment at 4096 and a note of another tool in one at 8192. -/
def twoSegments : Memory := fun address =>
  if address < 8192 then
    [8, 0, 0, 0, 40, 0, 0, 0, 0x54, 0x52, 0x47, 0x4F, 0x4F, 0x47, 0x52, 0x54, 0, 0, 0, 0, 1, 0x61].getD (address - 4096) 0
  else [4, 0, 0, 0, 4, 0, 0, 0, 5, 0, 0, 0, 0x47, 0x4E, 0x55, 0, 1, 0, 0, 0].getD (address - 8192) 0

theorem signature_kept_iff_marked_last :
    SignatureKept .little twoSegments ⟨[], 0, [⟨4, 8192, 20⟩, ⟨4, 4096, 60⟩]⟩ ⟨none, some 4117⟩ ↔
      (∀ header ∈ ([⟨4, 8192, 20⟩, ⟨4, 4096, 60⟩] : List ProgramHeader),
        ∀ uuid, ¬ Leaves .little twoSegments 0 header (some uuid)) ∨
        NotOverwritten .little twoSegments 0 [⟨4, 8192, 20⟩, ⟨4, 4096, 60⟩] :=
  signature_kept_iff .little twoSegments none ⟨[], 0, [⟨4, 8192, 20⟩, ⟨4, 4096, 60⟩]⟩ ⟨none, some 4117⟩ (by decide)

/-- The segment of the other tool comes second: the signature is lost. -/
theorem later_segment_loses_signature :
    ¬ ∀ (host : ByteOrder) (memory : Memory) (soName : Option GoString) (info : DlPhdrInfo) (object : LoadedObject),
      handleProgramHeader host memory soName info = some object → SignatureKept host memory info object := by
  intro keeps
  have lost : handleProgramHeader .little twoSegments none ⟨[], 0, [⟨4, 4096, 60⟩, ⟨4, 8192, 20⟩]⟩ = some ⟨none, none⟩ := by
    decide
  have ran : (noteLoop .little twoSegments 4096 60).run 1 (startWalk none) =
      some ⟨60, ⟨1, some 4117⟩, some 4117⟩ := by decide
  obtain ⟨trace, runs, _⟩ := WhileLoop.run_eq_some_iff.mp ran
  have marked : Leaves .little twoSegments 0 ⟨4, 4096, 60⟩ (some 4117) := ⟨rfl, by decide, trace, _, runs, rfl⟩
  obtain ⟨_, _, uuid, _, stays⟩ := (keeps _ _ _ _ _ lost).kept ⟨_, List.mem_cons_self, _, marked⟩
  cases stays

end Ogrt
