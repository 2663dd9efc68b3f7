import Ogrt.Client.InitHookSafety

namespace Ogrt
open Checked

/-- An entry of the array: never set or left by a failed asprintf, a string, or NULL. -/
inductive EntryPointer
  | undefined
  | string (text : GoString)
  | null
  deriving DecidableEq, Repr

/-- char *environment[OGRT_MSG_SEND_ENVIRONMENT_WHITELIST_LENGTH+1] with its count. -/
structure EnvironmentArray where
  environment : List EntryPointer
  envvarCount : Nat
  deriving DecidableEq, Repr

def setEntry (array : EnvironmentArray) (entry : EntryPointer) : Except Failure (List EntryPointer) :=
  if array.envvarCount < array.environment.length then .ok (array.environment.set array.envvarCount entry)
  else .error .outsideBuffer

/-- The loop over the whitelist. The count goes up whether asprintf succeeds or not. -/
def copyLoop (environ : List GoString) (asprintf : Nat → Bool) :
    Nat → List GoString → EnvironmentArray → Except Failure EnvironmentArray
  | _, [], array => .ok array
  | i, name :: rest, array =>
    match getenv environ name with
    | none => copyLoop environ asprintf (i + 1) rest array
    | some env => do
      let environment ← setEntry array (if asprintf i then .string (name ++ ascii "=" ++ env) else .undefined)
      copyLoop environ asprintf (i + 1) rest ⟨environment, array.envvarCount + 1⟩

def collectEnvironment (environ : List GoString) (asprintf : Nat → Bool) (whitelist : List GoString) :
    Except Failure EnvironmentArray := do
  let array ← copyLoop environ asprintf 0 whitelist ⟨List.replicate (whitelist.length + 1) .undefined, 0⟩
  let environment ← setEntry array .null
  .ok ⟨environment, array.envvarCount⟩

/-- The variables that are set and were copied, in the order of the names. -/
def copiedVariables (environ : List GoString) (asprintf : Nat → Bool) (i : Nat) (names : List GoString) : List GoString :=
  (names.zipIdx i).filterMap fun (name, i) =>
    if asprintf i then (getenv environ name).map (name ++ ascii "=" ++ ·) else none

/-- The message has these variables, and each entry that packing and the cleanup use was set. -/
structure EnvironmentArray.Holds (array : EnvironmentArray) (copied : List GoString) : Prop where
  count : array.envvarCount = copied.length
  entries : array.environment.take array.envvarCount = copied.map .string

def entryPointer : Option GoString → EntryPointer
  | some text => .string text
  | none => .undefined

variable {environ : List GoString} {asprintf : Nat → Bool}

/-- Behind the entries so far the array is as it was, with room for the variables to come. -/
theorem copyLoop_eq {i free : Nat} {names : List GoString} {done : List (Option GoString)} (room : names.length < free) :
    ∃ entries, whitelistedEnvironment environ asprintf (done.length + free) i done.length (names.map some) = .ok entries ∧
      entries.length ≤ names.length ∧
      copyLoop environ asprintf i names ⟨done.map entryPointer ++ List.replicate free .undefined, done.length⟩ =
        .ok ⟨(done ++ entries).map entryPointer ++ List.replicate (free - entries.length) .undefined,
          done.length + entries.length⟩ := by
  induction names generalizing i free done with
  | nil =>
    refine ⟨[], if_pos (by omega), Nat.le_refl _, ?_⟩
    rw [List.append_nil]
    rfl
  | cons name rest ih =>
    rw [List.length_cons] at room
    rw [List.map_cons, whitelistedEnvironment, copyLoop]
    cases getenv environ name with
    | none =>
      obtain ⟨entries, collected, few, looped⟩ := @ih (i + 1) free done (by omega)
      refine ⟨entries, collected, ?_, looped⟩
      rw [List.length_cons]
      omega
    | some env =>
      obtain ⟨free, rfl⟩ := Nat.exists_eq_succ_of_ne_zero (show free ≠ 0 by omega)
      obtain ⟨entry, copied⟩ : ∃ entry, entry = if asprintf i then some (name ++ ascii "=" ++ env) else none := ⟨_, rfl⟩
      have pointer : (if asprintf i = true then EntryPointer.string (name ++ ascii "=" ++ env) else .undefined) =
          entryPointer entry := by
        rw [copied]
        split <;> rfl
      have stored : setEntry ⟨done.map entryPointer ++ List.replicate (free + 1) .undefined, done.length⟩
          (entryPointer entry) = .ok ((done ++ [entry]).map entryPointer ++ List.replicate free .undefined) := by
        unfold setEntry
        rw [if_pos (by rw [List.length_append, List.length_map, List.length_replicate]; dsimp only; omega),
          List.set_append_right _ _ (by rw [List.length_map]), List.length_map, Nat.sub_self, List.replicate_succ,
          List.set_cons_zero, List.map_append, List.append_assoc]
        rfl
      have count : (done ++ [entry]).length = done.length + 1 := List.length_append
      obtain ⟨entries, collected, few, looped⟩ := @ih (i + 1) free (done ++ [entry]) (by omega)
      rw [count] at collected looped
      rw [show done.length + 1 + free = done.length + (free + 1) by omega] at collected
      refine ⟨entry :: entries, ?_, ?_, ?_⟩
      · dsimp only
        rw [if_pos (by omega), collected, ← copied]
        rfl
      · rw [List.length_cons, List.length_cons]
        omega
      · dsimp only
        rw [pointer, stored]
        show copyLoop environ asprintf (i + 1) rest ⟨_, done.length + 1⟩ = _
        rw [looped, List.append_assoc, List.length_cons, Nat.succ_eq_add_one, Nat.add_sub_add_right,
          show done.length + 1 + entries.length = done.length + (entries.length + 1) by omega]
        rfl

/-- What remains of the entries without those that asprintf has left undefined. -/
theorem filterMap_entries {capacity i count : Nat} {names : List GoString} {entries : List (Option GoString)}
    (collected : whitelistedEnvironment environ asprintf capacity i count (names.map some) = .ok entries) :
    entries.filterMap id = copiedVariables environ asprintf i names := by
  unfold copiedVariables
  induction names generalizing i count entries with
  | nil =>
    rw [List.map_nil, whitelistedEnvironment] at collected
    split at collected <;> cases collected
    rfl
  | cons name rest ih =>
    rw [List.map_cons, whitelistedEnvironment] at collected
    rw [List.zipIdx_cons, List.filterMap_cons]
    dsimp only
    cases value : getenv environ name with
    | none =>
      rw [value] at collected
      have unset : (if asprintf i = true then (none : Option GoString).map (name ++ ascii "=" ++ ·) else none) = none :=
        ite_self _
      rw [unset]
      exact ih collected
    | some env =>
      rw [value] at collected
      dsimp only at collected
      split at collected
      · cases later : whitelistedEnvironment environ asprintf capacity (i + 1) (count + 1) (rest.map some) with
        | error e =>
          rw [later] at collected
          cases collected
        | ok more =>
          rw [later] at collected
          cases collected
          rw [← ih later, Option.map_some]
          cases asprintf i <;> rfl
      · cases collected

theorem collectEnvironment_eq (environ : List GoString) (asprintf : Nat → Bool) (whitelist : List GoString) :
    ∃ entries rest, whitelistedEnvironment environ asprintf (whitelist.length + 1) 0 0 (whitelist.map some) = .ok entries ∧
      collectEnvironment environ asprintf whitelist =
        .ok ⟨entries.map entryPointer ++ .null :: rest, entries.length⟩ ∧
      (entries.map entryPointer ++ .null :: rest).length = whitelist.length + 1 := by
  obtain ⟨entries, collected, few, looped⟩ :=
    @copyLoop_eq environ asprintf 0 (whitelist.length + 1) whitelist [] (Nat.lt_succ_self _)
  rw [List.length_nil, Nat.zero_add] at collected looped
  have left : whitelist.length + 1 - entries.length = whitelist.length - entries.length + 1 := by omega
  refine ⟨entries, List.replicate (whitelist.length - entries.length) .undefined, collected, ?_, ?_⟩
  · have ended : setEntry ⟨entries.map entryPointer ++ List.replicate (whitelist.length + 1 - entries.length) .undefined,
        entries.length⟩ .null =
        .ok (entries.map entryPointer ++ .null :: List.replicate (whitelist.length - entries.length) .undefined) := by
      unfold setEntry
      rw [if_pos (by rw [List.length_append, List.length_map, List.length_replicate]; dsimp only; omega),
        List.set_append_right _ _ (by rw [List.length_map]), List.length_map, Nat.sub_self, left, List.replicate_succ,
        List.set_cons_zero]
    unfold collectEnvironment
    rw [List.map_nil, List.nil_append, List.nil_append] at looped
    exact bind_eq_ok.mpr ⟨_, looped, bind_eq_ok.mpr ⟨_, ended, rfl⟩⟩
  · rw [List.length_append, List.length_map, List.length_cons, List.length_replicate]
    omega

/-- Only without an undefined pointer the entries are the copied strings. -/
theorem pointers_eq_iff (entries : List (Option GoString)) :
    entries.length = (entries.filterMap id).length ∧ entries.map entryPointer = (entries.filterMap id).map .string ↔
      entries.all Option.isSome = true := by
  constructor
  · rintro ⟨_, same⟩
    refine List.all_eq_true.mpr fun entry member => ?_
    have pointer := List.mem_map_of_mem (f := entryPointer) member
    rw [same] at pointer
    obtain ⟨text, _, string⟩ := List.mem_map.mp pointer
    cases entry with
    | none => cases string
    | some text => rfl
  · intro set
    induction entries with
    | nil => exact ⟨rfl, rfl⟩
    | cons entry rest ih =>
      rw [List.all_cons, Bool.and_eq_true] at set
      obtain ⟨count, same⟩ := ih set.2
      cases entry with
      | none => exact absurd set.1 Bool.false_ne_true
      | some text => exact ⟨congrArg (· + 1) count, congrArg (EntryPointer.string text :: ·) same⟩

/-- The message holds the variables that are set and were copied, and no other entry is used,
exactly when no copy fails. Every index lies in the array in any case. -/
theorem whitelisted_environment_iff (environ : List GoString) (asprintf : Nat → Bool) (whitelist : List GoString) :
    (∃ array, collectEnvironment environ asprintf whitelist = .ok array ∧
      array.environment.length = whitelist.length + 1 ∧ array.Holds (copiedVariables environ asprintf 0 whitelist)) ↔
    ∀ i name, whitelist[i]? = some name → (getenv environ name).isSome → asprintf i = true := by
  obtain ⟨entries, rest, collected, made, size⟩ := collectEnvironment_eq environ asprintf whitelist
  obtain ⟨entries', collected', copied⟩ :=
    @whitelistedEnvironment_ok environ asprintf (whitelist.length + 1) 0 0 whitelist (by omega)
  cases Except.ok.inj (collected.symm.trans collected')
  simp only [Nat.zero_add] at copied
  rw [← copied, ← pointers_eq_iff, filterMap_entries collected]
  have first : (entries.map entryPointer ++ .null :: rest).take entries.length = entries.map entryPointer :=
    List.take_left' (by rw [List.length_map])
  constructor
  · rintro ⟨array, made', _, holds⟩
    cases Except.ok.inj (made.symm.trans made')
    refine ⟨holds.count, ?_⟩
    rw [← first]
    exact holds.entries
  · rintro ⟨count, same⟩
    exact ⟨_, made, size, count, first.trans same⟩

/-- The only variable cannot be copied; it is counted, and its pointer is packed and freed. -/
theorem failed_copy_counted :
    ¬ ∀ (environ : List GoString) (asprintf : Nat → Bool) (whitelist : List GoString),
      ∃ array, collectEnvironment environ asprintf whitelist = .ok array ∧
        array.environment.length = whitelist.length + 1 ∧ array.Holds (copiedVariables environ asprintf 0 whitelist) := by
  intro sound
  obtain ⟨array, made, _, holds⟩ := sound [ascii "HOME=/root"] (fun _ => false) [ascii "HOME"]
  have counted : collectEnvironment [ascii "HOME=/root"] (fun _ => false) [ascii "HOME"] =
      .ok ⟨[.undefined, .null], 1⟩ := by decide
  cases Except.ok.inj (counted.symm.trans made)
  exact absurd holds.count (by decide)

end Ogrt
