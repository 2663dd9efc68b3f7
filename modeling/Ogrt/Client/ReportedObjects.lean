import Ogrt.Client.InitHookSafety

namespace Ogrt
open Checked

/-- The block of so_infos while the second enumeration fills it. An entry that was not filled is none. -/
structure SoInfos where
  size : Nat
  index : Nat
  sharedObjects : List (Option LoadedObject)

def countProgramHeader (count : Nat) (_info : DlPhdrInfo) : Nat := count + 1

/-- handle_program_header with the index that the callback data carry. -/
def fillNext (process : HostProcess) (names : Nat → NameOutcome) (infos : SoInfos) (info : DlPhdrInfo) :
    Except Failure SoInfos :=
  if infos.index < infos.sharedObjects.length then do
    let shared_object ← orFail .endlessWalk
      (handleProgramHeader process.host process.memory (soName info (names infos.index)) info)
    .ok ⟨infos.size, infos.index + 1, infos.sharedObjects.set infos.index (some shared_object)⟩
  else .error .outsideBuffer

/-- ogrt_get_loaded_so with both enumerations. The struct itself has room for one more entry. -/
def fillSoInfos (process : HostProcess) (malloc : Bool) (names : Nat → NameOutcome) : Except Failure SoInfos :=
  let so_count := process.objects.foldl countProgramHeader 0
  if malloc then
    process.objects.foldlM (fillNext process names) ⟨so_count, 0, List.replicate (so_count + 1) none⟩
  else .error .nullDereference

/-- The pointers of the message that are set, as indices of shared_objects. -/
def sharedObjectPtr (infos : SoInfos) : List Nat := (List.range (infos.size - 2)).map (2 + ·)

/-- The size less two as a size_t. -/
def nSharedObjects (infos : SoInfos) : Nat := (((infos.size : Int) - 2) % 2 ^ 64).toNat

/-- The signature of the entry that the message takes its own from. -/
def messageSignature (infos : SoInfos) : Option Nat := (infos.sharedObjects.head?.bind id).bind (·.signature)

/-- The main program comes first, without a name, and the vDSO somewhere behind it or nowhere. -/
structure Enumerated (objects : List DlPhdrInfo) (vdso : Option Nat) : Prop where
  main : ∃ info, objects.head? = some info ∧ info.name = []
  later : ∀ i ∈ vdso, 0 < i ∧ i < objects.length

/-- The indices of the objects other than the main program and the vDSO. -/
def otherObjects (objects : List DlPhdrInfo) (vdso : Option Nat) : List Nat :=
  (List.range objects.length).filter fun i => i ≠ 0 ∧ vdso ≠ some i

/-- The message reports the objects other than the main program and the vDSO, each with what
was found out about it, and the signature of the main program. -/
structure SoInfos.Reports (infos : SoInfos) (process : HostProcess) (names : Nat → NameOutcome) (vdso : Option Nat) :
    Prop where
  objects : (sharedObjectPtr infos).take (nSharedObjects infos) = otherObjects process.objects vdso
  count : nSharedObjects infos = (otherObjects process.objects vdso).length
  own : ∀ i info, process.objects[i]? = some info → ∃ object, infos.sharedObjects[i]? = some (some object) ∧
    handleProgramHeader process.host process.memory (soName info (names i)) info = some object
  signature : ∃ info object, process.objects.head? = some info ∧ messageSignature infos = object.signature ∧
    handleProgramHeader process.host process.memory (soName info (names 0)) info = some object
  filled : ∀ i < nSharedObjects infos, ∃ index object, (sharedObjectPtr infos)[i]? = some index ∧
    infos.sharedObjects[index]? = some (some object)

variable {process : HostProcess} {names : Nat → NameOutcome} {malloc : Bool} {infos : SoInfos} {vdso : Option Nat}

theorem foldl_countProgramHeader (objects : List DlPhdrInfo) (count : Nat) :
    objects.foldl countProgramHeader count = count + objects.length := by
  induction objects generalizing count with
  | nil => rfl
  | cons info rest ih =>
    rw [List.foldl_cons, ih, countProgramHeader, List.length_cons]
    omega

/-- One turn of the loop of ogrtGetLoadedSo. -/
def loadedAt (process : HostProcess) (names : Nat → NameOutcome) (index : Nat) (info : DlPhdrInfo) :
    Except Failure LoadedObject :=
  if index < process.objects.length + 1 then
    orFail .endlessWalk (handleProgramHeader process.host process.memory (soName info (names index)) info)
  else .error .outsideBuffer

/-- After the objects so far the index is their number, and the entries up to it are filled. -/
theorem foldlM_fillNext {size : Nat} {done : List LoadedObject} {objects : List DlPhdrInfo} {free : Nat}
    (room : done.length + objects.length ≤ process.objects.length) (left : objects.length < free) :
    objects.foldlM (fillNext process names) ⟨size, done.length, done.map some ++ List.replicate free none⟩ =
      (mapAt (loadedAt process names) done.length objects).map fun more =>
        ⟨size, done.length + objects.length,
          (done ++ more).map some ++ List.replicate (free - objects.length) none⟩ := by
  induction objects generalizing done free with
  | nil =>
    have nothing : (done ++ [] : List LoadedObject) = done := List.append_nil done
    rw [List.foldlM_nil, mapAt]
    dsimp only [Except.map]
    rw [nothing]
    rfl
  | cons info rest ih =>
    rw [List.length_cons] at room left
    obtain ⟨free, rfl⟩ := Nat.exists_eq_succ_of_ne_zero (show free ≠ 0 by omega)
    have inBlock : done.length < (done.map some ++ List.replicate (free + 1) none : List (Option LoadedObject)).length := by
      rw [List.length_append, List.length_map, List.length_replicate]
      omega
    rw [List.foldlM_cons, mapAt, fillNext, if_pos inBlock, loadedAt, if_pos (by omega)]
    cases handleProgramHeader process.host process.memory (soName info (names done.length)) info with
    | none => rfl
    | some object =>
      have set : (done.map some ++ List.replicate (free + 1) none).set done.length (some object) =
          (done ++ [object]).map some ++ List.replicate free none := by
        rw [List.set_append_right _ _ (by rw [List.length_map]), List.length_map, Nat.sub_self, List.replicate_succ,
          List.set_cons_zero, List.map_append, List.append_assoc]
        rfl
      have next := @ih (done ++ [object]) free (by rw [List.length_append, List.length_singleton]; omega) (by omega)
      rw [List.length_append, List.length_singleton] at next
      show rest.foldlM (fillNext process names) ⟨size, done.length + 1, _⟩ = _
      rw [set, next]
      cases mapAt (loadedAt process names) (done.length + 1) rest with
      | error e => rfl
      | ok more =>
        have count : done.length + 1 + rest.length = done.length + (rest.length + 1) := by omega
        simp only [orFail, Except.map, List.length_cons, Nat.succ_eq_add_one, Nat.add_sub_add_right, List.append_assoc,
          List.singleton_append, count]

/-- The two enumerations make of the objects what ogrtGetLoadedSo says. -/
theorem fillSoInfos_eq (process : HostProcess) (malloc : Bool) (names : Nat → NameOutcome) :
    fillSoInfos process malloc names = (ogrtGetLoadedSo process malloc names).map fun objects =>
      ⟨process.objects.length, process.objects.length, objects.map some ++ [none]⟩ := by
  unfold fillSoInfos ogrtGetLoadedSo
  dsimp only
  rw [foldl_countProgramHeader, Nat.zero_add]
  split
  · have filled := @foldlM_fillNext process names process.objects.length [] process.objects (process.objects.length + 1)
      (by rw [List.length_nil]; omega) (Nat.lt_succ_self _)
    rw [List.length_nil, Nat.zero_add, Nat.add_sub_cancel_left] at filled
    exact filled
  · rfl

theorem fillSoInfos_ok (loaded : fillSoInfos process malloc names = .ok infos) :
    ∃ objects, ogrtGetLoadedSo process malloc names = .ok objects ∧
      infos = ⟨process.objects.length, process.objects.length, objects.map some ++ [none]⟩ := by
  rw [fillSoInfos_eq] at loaded
  cases made : ogrtGetLoadedSo process malloc names with
  | error e =>
    rw [made] at loaded
    cases loaded
  | ok objects =>
    rw [made] at loaded
    exact ⟨objects, rfl, (Except.ok.inj loaded).symm⟩

theorem sharedObjectPtr_length (infos : SoInfos) : (sharedObjectPtr infos).length = infos.size - 2 := by
  rw [sharedObjectPtr, List.length_map, List.length_range]

/-- Each object has the entry that was made of its own name and headers. -/
theorem own_entries (loaded : fillSoInfos process malloc names = .ok infos) {i : Nat} {info : DlPhdrInfo}
    (found : process.objects[i]? = some info) : ∃ object, infos.sharedObjects[i]? = some (some object) ∧
      handleProgramHeader process.host process.memory (soName info (names i)) info = some object := by
  obtain ⟨objects, made, rfl⟩ := fillSoInfos_ok loaded
  unfold ogrtGetLoadedSo at made
  split at made
  · obtain ⟨object, entry, turn⟩ := mapAt_getElem? made found
    obtain ⟨inside, _⟩ := List.getElem?_eq_some_iff.mp found
    rw [Nat.zero_add, if_pos (by omega), orFail_eq_ok] at turn
    refine ⟨object, ?_, turn⟩
    rw [List.getElem?_append_left (by rw [List.length_map, mapAt_length made]; exact inside), List.getElem?_map, entry]
    rfl
  · cases made

theorem otherObjects_second (objects : List DlPhdrInfo) (two : 2 ≤ objects.length) :
    otherObjects objects (some 1) = (List.range (objects.length - 2)).map (2 + ·) := by
  have split : List.range objects.length = List.range 2 ++ (List.range (objects.length - 2)).map (2 + ·) := by
    rw [← List.range_add, Nat.add_sub_cancel' two]
  have kept : ((List.range (objects.length - 2)).map (2 + ·)).filter (fun i => i ≠ 0 ∧ some 1 ≠ some i) =
      (List.range (objects.length - 2)).map (2 + ·) := by
    refine List.filter_eq_self.mpr fun i member => ?_
    obtain ⟨j, _, rfl⟩ := List.mem_map.mp member
    rw [decide_eq_true_iff, ne_eq, ne_eq, Option.some.injEq]
    omega
  rw [otherObjects, split, List.filter_append, kept]
  rfl

/-- The message of ogrt_send_processinfo is made of the block: the entries that the pointers
lead to, their number and its signature. -/
theorem message_sharedObjects {options : CompileOptions} {pid parentPid : Int32} {o : SendOutcomes} {sending : Sending}
    (gathered : ogrtSendProcessinfo options process pid parentPid o = .ok sending) :
    ∃ infos, fillSoInfos process o.infos o.names = .ok infos ∧
      sending.message.nSharedObjects = nSharedObjects infos ∧
      sending.message.sharedObjects.map some = (sharedObjectPtr infos).map (fun index => infos.sharedObjects[index]?.join) ∧
      sending.message.signature = messageSignature infos := by
  obtain ⟨objects, parts⟩ := ogrtSendProcessinfo_gathered gathered
  have count := ogrtGetLoadedSo_length parts.infos
  refine ⟨⟨process.objects.length, process.objects.length, objects.map some ++ [none]⟩, ?_, ?_, ?_, ?_⟩
  · rw [fillSoInfos_eq, parts.infos]
    rfl
  · rw [parts.count, nSharedObjects, count]
  · rw [parts.objects]
    refine List.ext_getElem? fun i => ?_
    dsimp only [sharedObjectPtr]
    rw [List.getElem?_map, List.getElem?_drop, List.map_map, List.getElem?_map]
    by_cases inside : 2 + i < objects.length
    · rw [List.getElem?_range (by omega), List.getElem?_eq_getElem inside]
      dsimp only [Option.map_some, Function.comp]
      rw [List.getElem?_append_left (by rw [List.length_map]; exact inside), List.getElem?_map,
        List.getElem?_eq_getElem inside]
      rfl
    · rw [List.getElem?_eq_none (by omega), List.getElem?_eq_none (by rw [List.length_range]; omega)]
      rfl
  · rw [parts.signature]
    cases objects <;> rfl

/-- The loaded objects are reported as they are exactly when the vDSO is the second one. -/
theorem loaded_objects_reported_iff (process : HostProcess) (malloc : Bool) (names : Nat → NameOutcome) (infos : SoInfos)
    (vdso : Option Nat) (enumerated : Enumerated process.objects vdso)
    (loaded : fillSoInfos process malloc names = .ok infos) : infos.Reports process names vdso ↔ vdso = some 1 := by
  obtain ⟨main, first, _⟩ := enumerated.main
  obtain ⟨rest, objects⟩ := List.head?_eq_some_iff.mp first
  obtain ⟨entries, made, same⟩ := fillSoInfos_ok loaded
  have size : infos.size = process.objects.length := by rw [same]
  have some : 0 < process.objects.length := by rw [objects, List.length_cons]; omega
  have counted := process.counted
  have value : nSharedObjects infos = (((process.objects.length : Int) - 2) % 2 ^ 64).toNat := by
    rw [nSharedObjects, size]
  have pointers := sharedObjectPtr_length infos
  rw [size] at pointers
  constructor
  · intro reports
    have two : 2 ≤ process.objects.length := by
      by_contra short
      obtain ⟨index, _, set, _⟩ := reports.filled 0 (by rw [value]; omega)
      obtain ⟨inside, _⟩ := List.getElem?_eq_some_iff.mp set
      omega
    have whole : (sharedObjectPtr infos).take (nSharedObjects infos) = sharedObjectPtr infos :=
      List.take_of_length_le (by rw [pointers, value]; omega)
    have reported := reports.objects
    rw [whole] at reported
    by_contra other
    have member : 1 ∈ otherObjects process.objects vdso := by
      rw [otherObjects, List.mem_filter, List.mem_range, decide_eq_true_iff]
      exact ⟨by omega, Nat.one_ne_zero, other⟩
    rw [← reported, sharedObjectPtr] at member
    obtain ⟨i, _, one⟩ := List.mem_map.mp member
    omega
  · rintro rfl
    obtain ⟨_, two⟩ := enumerated.later 1 rfl
    have others := otherObjects_second process.objects (by omega)
    have count : nSharedObjects infos = process.objects.length - 2 := by rw [value]; omega
    have set : sharedObjectPtr infos = otherObjects process.objects (Option.some 1) := by
      rw [others, sharedObjectPtr, size]
    refine ⟨?_, ?_, fun i info found => own_entries loaded found, ?_, fun i inside => ?_⟩
    · rw [set, count]
      refine List.take_of_length_le ?_
      rw [others, List.length_map, List.length_range]
    · rw [count, others, List.length_map, List.length_range]
    · have at0 : process.objects[0]? = Option.some main := by rw [← List.head?_eq_getElem?, first]
      obtain ⟨object, entry, turn⟩ := own_entries loaded at0
      refine ⟨main, object, first, ?_, turn⟩
      rw [messageSignature, List.head?_eq_getElem?, entry]
      rfl
    · have pointer : (sharedObjectPtr infos)[i]? = Option.some (2 + i) := by
        rw [set, others, List.getElem?_map, List.getElem?_range (by omega)]
        rfl
      obtain ⟨object, entry, _⟩ := own_entries loaded (List.getElem?_eq_getElem (show 2 + i < process.objects.length by omega))
      exact ⟨2 + i, object, pointer, entry⟩

/-- The main program, the vDSO and the preload library, in this order. -/
def preloadedProgram : HostProcess where
  host := .little
  memory := fun _ => 0
  pid := 7
  parentPid := 1
  environ := [ascii "OGRT_ACTIVE=1"]
  objects := [⟨[], 0, []⟩, ⟨ascii "linux-vdso.so.1", 0, []⟩, ⟨ascii "/lib/libogrt.so", 0, []⟩]
  counted := by decide

def noRealpath (_ : Nat) : NameOutcome := ⟨true, none, true⟩

theorem loaded_objects_reported_iff_preloaded :
    SoInfos.Reports ⟨3, 3, [some ⟨some [], none⟩, some ⟨none, none⟩, some ⟨none, none⟩, none]⟩ preloadedProgram noRealpath
      (some 1) ↔ some 1 = some 1 :=
  loaded_objects_reported_iff preloadedProgram true noRealpath _ (some 1)
    ⟨⟨_, rfl, rfl⟩, fun _ member => Option.some.inj member ▸ by decide⟩ rfl

/-- Without a vDSO the first library is left out. -/
theorem library_left_out :
    ¬ ∀ (process : HostProcess) (malloc : Bool) (names : Nat → NameOutcome) (infos : SoInfos) (vdso : Option Nat),
      Enumerated process.objects vdso → fillSoInfos process malloc names = .ok infos →
        infos.Reports process names vdso := by
  intro reports
  have reported := reports watchedProgram true noRealpath ⟨2, 2, [some ⟨some [], none⟩, some ⟨none, none⟩, none]⟩ none
    ⟨⟨_, rfl, rfl⟩, nofun⟩ rfl
  exact absurd reported.count (by decide)

end Ogrt
