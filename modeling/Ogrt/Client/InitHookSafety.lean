import Ogrt.Client.InitHook

namespace Ogrt
open ByteBuffer Checked

/-- A link that is read leaves room for the terminator. -/
def BinpathOutcome.Fits (o : BinpathOutcome) : Prop :=
  ∀ block link, o.malloc = some block → o.readlink = some link → link.val.length < pathMax

/-- The link can be read, and it leaves room for the terminator. -/
def BinpathOutcome.Finds (o : BinpathOutcome) (path : GoString) : Prop :=
  ∃ block link, o.malloc = some block ∧ o.readlink = some link ∧ link.val.length < pathMax ∧ path = cString link.val

/-- With a buffer, the command line can be read and leaves room for the terminator. -/
def CmdlineOutcome.Fits (o : CmdlineOutcome) : Prop :=
  ∀ block, o.malloc = some block → o.opens = true ∧ ∃ bytes, o.read = some bytes ∧ bytes.val.length < pathMax

theorem terminated_isSome {buffer : List UInt8} {n : Nat} (size : buffer.length = pathMax) :
    (storeWithin buffer n [0]).isSome ↔ n < pathMax := by
  rw [storeWithin_isSome, size]
  exact ⟨fun both => both.2, fun below => ⟨Int.natCast_nonneg n, below⟩⟩

/-- The terminator ends the string where the bytes end, unless they contain a NUL. -/
theorem cString_terminated {block : List UInt8} {bytes : List UInt8} {terminated : List UInt8}
    (fits : bytes.length < block.length)
    (stored : storeWithin (store block 0 bytes) bytes.length [0] = some terminated) :
    cString terminated = cString bytes := by
  obtain ⟨old, rest, split⟩ : ∃ old rest, block.drop bytes.length = old :: rest := by
    refine ⟨_, _, List.drop_eq_getElem_cons fits⟩
  have first : store block 0 bytes = bytes ++ old :: rest := by
    rw [store, List.take_zero, List.nil_append, List.drop_zero, overwrite_of_le fits.le, split]
  have second : store (bytes ++ old :: rest) bytes.length [0] = bytes ++ 0 :: rest :=
    @store_append _ bytes [old] rest [0] rfl
  unfold storeWithin at stored
  split at stored
  · rw [first, Int.toNat_natCast, second] at stored
    cases stored
    unfold cString
    rw [List.takeWhile_append]
    split
    · rename_i whole
      have all : bytes.takeWhile (· ≠ 0) = bytes := (List.takeWhile_prefix _).eq_of_length whole
      rw [all]
      simp
    · rfl
  · cases stored

/-- A link that is read becomes the path if there is room behind it. -/
theorem ogrtGetBinpath_read {o : BinpathOutcome} {block : Block pathMax} {link : Bytes} (allocated : o.malloc = some block)
    (read : o.readlink = some link) : ogrtGetBinpath o =
      if link.val.length < pathMax then .ok (some (cString link.val)) else .error .outsideBuffer := by
  have size : (store block.val 0 link.val).length = pathMax := (store_length ..).trans block.property
  simp only [ogrtGetBinpath, allocated, read]
  cases stored : storeWithin (store block.val 0 link.val) link.val.length [0] with
  | none =>
    have full : ¬ link.val.length < pathMax := fun below => by
      have present := (terminated_isSome size).mpr below
      rw [stored] at present
      cases present
    rw [if_neg full]
    rfl
  | some terminated =>
    have below : link.val.length < pathMax := (terminated_isSome size).mp (by rw [stored]; rfl)
    rw [if_pos below, ← cString_terminated (below.trans_eq block.property.symm) stored]
    rfl

theorem ogrtGetBinpath_succeeds {o : BinpathOutcome} : Succeeds (ogrtGetBinpath o) ↔ o.Fits := by
  unfold BinpathOutcome.Fits
  cases allocated : o.malloc with
  | none =>
    simp only [ogrtGetBinpath, allocated]
    exact iff_of_true (succeeds_ok _) nofun
  | some block =>
    cases read : o.readlink with
    | none =>
      simp only [ogrtGetBinpath, allocated, read]
      exact iff_of_true (succeeds_ok _) nofun
    | some link =>
      rw [ogrtGetBinpath_read allocated read]
      split
      · rename_i below
        refine iff_of_true (succeeds_ok _) ?_
        rintro _ _ ⟨⟩ ⟨⟩
        exact below
      · rename_i full
        exact iff_of_false (not_succeeds_error _) fun fits => full (fits block link rfl rfl)

theorem ogrtGetBinpath_eq_some {o : BinpathOutcome} {path : GoString} :
    ogrtGetBinpath o = .ok (some path) ↔ o.Finds path := by
  unfold BinpathOutcome.Finds
  cases allocated : o.malloc with
  | none =>
    simp only [ogrtGetBinpath, allocated]
    exact iff_of_false nofun nofun
  | some block =>
    cases read : o.readlink with
    | none =>
      simp only [ogrtGetBinpath, allocated, read]
      exact iff_of_false nofun nofun
    | some link =>
      rw [ogrtGetBinpath_read allocated read]
      split
      · rename_i below
        constructor
        · rintro ⟨⟩
          exact ⟨block, link, rfl, rfl, below, rfl⟩
        · rintro ⟨_, _, ⟨⟩, ⟨⟩, _, rfl⟩
          rfl
      · rename_i full
        refine iff_of_false nofun ?_
        rintro ⟨_, _, ⟨⟩, ⟨⟩, below, _⟩
        exact full below

theorem nulsToSpaces_length (cmdline : List UInt8) (count : Int) : (nulsToSpaces cmdline count).length = cmdline.length := by
  rw [nulsToSpaces, List.length_append, List.length_map, ← List.length_append, List.take_append_drop]

theorem ogrtGetCmdline_succeeds {o : CmdlineOutcome} : Succeeds (ogrtGetCmdline o) ↔ o.Fits := by
  unfold ogrtGetCmdline CmdlineOutcome.Fits
  split
  · rename_i noBlock
    exact iff_of_true (succeeds_ok _) fun _ block => by rw [noBlock] at block; cases block
  · rename_i block allocated
    dsimp only
    rw [succeeds_bind_of_forall fun _ => succeeds_ok _, succeeds_orFail]
    split
    · rename_i bytes read
      obtain ⟨opens, read⟩ := Option.ite_none_right_eq_some.mp read
      dsimp only
      rw [terminated_isSome (by rw [nulsToSpaces_length, store_length]; exact block.property)]
      constructor
      · exact fun below _ _ => ⟨opens, bytes, read, below⟩
      · intro fits
        obtain ⟨_, bytes', read', below⟩ := fits block allocated
        cases Option.some.inj (read.symm.trans read')
        exact below
    · rename_i unread
      -- the end pointer lies one before the buffer
      rw [storeWithin_isSome]
      have before : ¬ (0 : Int) ≤ -1 := by decide
      refine iff_of_false (fun inside => before inside.1) fun fits => ?_
      obtain ⟨opens, bytes, read, _⟩ := fits block allocated
      rw [if_pos opens, read] at unread
      cases unread

/-- The walk over the segment of a PT_NOTE header ends. -/
def WalkEnds (process : HostProcess) (addr : UInt64) (header : ProgramHeader) : Prop :=
  header.type = ptNote → addr + header.vaddr ≠ 0 →
    (offsetLoop process.host process.memory (addr + header.vaddr).toNat header.memsz).Ends 0

def WalksEnd (process : HostProcess) (info : DlPhdrInfo) : Prop := ∀ header ∈ info.phdr, WalkEnds process info.addr header

theorem checkHeader_isSome {process : HostProcess} {addr : UInt64} {signature : Option Nat} {header : ProgramHeader} :
    (checkHeader process.host process.memory addr signature header).isSome ↔ WalkEnds process addr header := by
  unfold checkHeader WalkEnds
  split
  · rename_i isNote
    dsimp only
    split
    · rename_i mapped
      rw [Option.isSome_iff_exists]
      simp only [walkNotes_eq_some_iff]
      have ends := (noteLoop_projects process.host process.memory (addr + header.vaddr).toNat header.memsz).ends_iff
        (s := startWalk signature)
      constructor
      · rintro ⟨result, trace, last, runs, _⟩ _ _
        exact ends.mp ⟨trace, last, runs⟩
      · intro condition
        obtain ⟨trace, last, runs⟩ := ends.mpr (condition isNote.2 mapped)
        exact ⟨_, trace, last, runs, rfl⟩
    · rename_i unmapped
      exact iff_of_true rfl fun _ mapped => absurd mapped unmapped
  · rename_i other
    exact iff_of_true rfl fun isNote => absurd ⟨by rw [isNote]; decide, isNote⟩ other

theorem checkHeaders_isSome {process : HostProcess} {addr : UInt64} {signature : Option Nat} {headers : List ProgramHeader} :
    (headers.foldlM (checkHeader process.host process.memory addr) signature).isSome ↔
      ∀ header ∈ headers, WalkEnds process addr header := by
  induction headers generalizing signature with
  | nil => exact iff_of_true rfl nofun
  | cons header rest ih =>
    rw [List.foldlM_cons, List.forall_mem_cons, ← @checkHeader_isSome process addr signature header]
    cases checkHeader process.host process.memory addr signature header with
    | none => exact iff_of_false Bool.false_ne_true fun both => Bool.false_ne_true both.1
    | some stored => exact ih.trans (and_iff_right rfl).symm

theorem handleProgramHeader_isSome {process : HostProcess} {name : Option GoString} {info : DlPhdrInfo} :
    (handleProgramHeader process.host process.memory name info).isSome ↔ WalksEnd process info := by
  rw [handleProgramHeader, Option.isSome_map]
  exact checkHeaders_isSome

theorem ogrtGetLoadedSo_succeeds {process : HostProcess} {malloc : Bool} {names : Nat → NameOutcome} :
    Succeeds (ogrtGetLoadedSo process malloc names) ↔ malloc = true ∧ ∀ info ∈ process.objects, WalksEnd process info := by
  unfold ogrtGetLoadedSo
  split
  · rename_i allocated
    rw [succeeds_mapAt, and_iff_right allocated]
    constructor
    · intro each info member
      obtain ⟨index, inside, rfl⟩ := List.mem_iff_getElem.mp member
      have turn := each index _ (List.getElem?_eq_getElem inside)
      rw [if_pos (by omega), succeeds_orFail, handleProgramHeader_isSome] at turn
      exact turn
    · intro each index info found
      obtain ⟨inside, rfl⟩ := List.getElem?_eq_some_iff.mp found
      rw [if_pos (by omega), succeeds_orFail, handleProgramHeader_isSome]
      exact each _ (List.getElem_mem inside)
  · rename_i failed
    exact iff_of_false (not_succeeds_error _) fun both => failed both.1

theorem ogrtGetLoadedSo_length {process : HostProcess} {malloc : Bool} {names : Nat → NameOutcome}
    {objects : List LoadedObject} (loaded : ogrtGetLoadedSo process malloc names = .ok objects) :
    objects.length = process.objects.length := by
  unfold ogrtGetLoadedSo at loaded
  split at loaded
  · exact mapAt_length loaded
  · cases loaded

/-- The copies that strtok scans, and with a module in them the array and its modules, could
be allocated. -/
structure ModulesAllocated (module_env : GoString) (o : ModuleOutcomes) : Prop where
  countString : o.countString = true
  moduleString : tokens module_env ≠ [] → o.moduleString = true
  loadedModules : tokens module_env ≠ [] → o.loadedModules = true
  modules : ∀ i < (tokens module_env).length, o.modules i = true

theorem ogrtLoadedModules_succeeds {moduleEnv : Option GoString} {o : ModuleOutcomes} :
    Succeeds (ogrtLoadedModules moduleEnv o) ↔ ∀ module_env, moduleEnv = some module_env → ModulesAllocated module_env o := by
  unfold ogrtLoadedModules
  split
  · exact iff_of_true (succeeds_ok _) nofun
  · rename_i module_env
    have only : (∀ text, some module_env = some text → ModulesAllocated text o) ↔ ModulesAllocated module_env o :=
      ⟨fun each => each _ rfl, fun own text same => Option.some.inj same ▸ own⟩
    rw [only]
    dsimp only
    split
    · rename_i failed
      exact iff_of_false (not_succeeds_error _) fun own => failed own.countString
    · rename_i counted
      rw [not_not] at counted
      split
      · rename_i some
        have nonempty := List.ne_nil_of_length_pos some
        split
        · rename_i failed
          exact iff_of_false (not_succeeds_error _) fun own => failed (own.moduleString nonempty)
        · rename_i copied
          rw [not_not] at copied
          have turn (j : Nat) (inside : j < (tokens module_env).length) (token : GoString) :
              Succeeds (if ¬ o.loadedModules = true then Except.error Failure.nullDereference
                else if 4 * (tokens module_env).length ≤ 0 + j then .error .outsideBuffer
                else if ¬ o.modules (0 + j) = true then .error .nullDereference
                else .ok (strdup (o.names (0 + j)) token)) ↔ o.loadedModules = true ∧ o.modules j = true := by
            rw [Nat.zero_add, if_neg (by omega : ¬ 4 * (tokens module_env).length ≤ j)]
            cases o.loadedModules <;> cases o.modules j <;> simp
          rw [succeeds_mapAt]
          constructor
          · intro each
            have allocated (j : Nat) (inside : j < (tokens module_env).length) :=
              (turn j inside _).mp (each j _ (List.getElem?_eq_getElem inside))
            exact ⟨counted, fun _ => copied, fun _ => (allocated 0 some).1, fun i inside => (allocated i inside).2⟩
          · intro own j token found
            obtain ⟨inside, _⟩ := List.getElem?_eq_some_iff.mp found
            exact (turn j inside token).mpr ⟨own.loadedModules nonempty, own.modules j inside⟩
      · rename_i empty
        have nothing : tokens module_env = [] := List.eq_nil_of_length_eq_zero (by omega)
        refine iff_of_true (succeeds_ok _) ⟨counted, fun some => absurd nothing some, fun some => absurd nothing some, ?_⟩
        rw [nothing]
        exact nofun

theorem arrayReads_getElem? {array : List GoString} {length i : Nat} :
    (arrayReads array length)[i]? = if i < length then some array[i]? else none := by
  rw [arrayReads, List.getElem?_map]
  split
  · rename_i inside
    rw [List.getElem?_range inside]
    rfl
  · rename_i outside
    rw [List.getElem?_eq_none (by rw [List.length_range]; omega)]
    rfl

/-- With an array that is long enough the loop reads its elements. -/
theorem arrayReads_eq {array : List GoString} {length : Nat} (inside : length ≤ array.length) :
    arrayReads array length = (array.take length).map some := by
  refine List.ext_getElem? fun i => ?_
  rw [arrayReads_getElem?, List.getElem?_map, List.getElem?_take]
  split
  · rename_i before
    rw [List.getElem?_eq_getElem (by omega)]
    rfl
  · rfl

theorem arrayReads_all {array : List GoString} {length : Nat} :
    (arrayReads array length).all Option.isSome = true ↔ length ≤ array.length := by
  rw [List.all_eq_true]
  constructor
  · intro each
    by_contra short
    have outside : (arrayReads array length)[array.length]? = some none := by
      rw [arrayReads_getElem?, if_pos (by omega), List.getElem?_eq_none (Nat.le_refl _)]
    exact absurd (each none (List.mem_of_getElem? outside)) Bool.false_ne_true
  · intro inside entry member
    rw [arrayReads_eq inside] at member
    obtain ⟨text, _, rfl⟩ := List.mem_map.mp member
    rfl

/-- The array has room for the variables, and the unset pointers are those of the variables
that are set but could not be copied. -/
theorem whitelistedEnvironment_ok {environ : List GoString} {asprintf : Nat → Bool} {capacity i count : Nat}
    {names : List GoString} (room : count + names.length < capacity) :
    ∃ entries, whitelistedEnvironment environ asprintf capacity i count (names.map some) = .ok entries ∧
      (entries.all Option.isSome = true ↔
        ∀ j name, names[j]? = some name → (getenv environ name).isSome → asprintf (i + j) = true) := by
  induction names generalizing i count with
  | nil => exact ⟨[], if_pos room, iff_of_true rfl nofun⟩
  | cons name rest ih =>
    rw [List.length_cons] at room
    have split (P : Nat → GoString → Prop) :
        (∀ j other, (name :: rest)[j]? = some other → P (i + j) other) ↔
          P i name ∧ ∀ j other, rest[j]? = some other → P (i + 1 + j) other := by
      constructor
      · intro each
        refine ⟨each 0 name rfl, fun j other found => ?_⟩
        have later := each (j + 1) other found
        rwa [Nat.add_comm j, ← Nat.add_assoc] at later
      · rintro ⟨first, later⟩ j other found
        cases j with
        | zero =>
          cases found
          exact first
        | succ j =>
          rw [Nat.add_comm j, ← Nat.add_assoc]
          exact later j other found
    rw [List.map_cons, whitelistedEnvironment, split fun j other => (getenv environ other).isSome → asprintf j = true]
    cases value : getenv environ name with
    | none =>
      obtain ⟨entries, done, copied⟩ := @ih (i + 1) count (by omega)
      exact ⟨entries, done, copied.trans (and_iff_right nofun).symm⟩
    | some env =>
      obtain ⟨entries, done, copied⟩ := @ih (i + 1) (count + 1) (by omega)
      refine ⟨(if asprintf i then some (name ++ ascii "=" ++ env) else none) :: entries, ?_, ?_⟩
      · dsimp only
        rw [if_pos (by omega), done]
        rfl
      · rw [List.all_cons, Bool.and_eq_true, copied]
        refine and_congr_left fun _ => ?_
        cases asprintf i <;> simp

/-- A loop that gets through has read set pointers only. -/
theorem whitelistedEnvironment_reads {environ : List GoString} {asprintf : Nat → Bool} {capacity i count : Nat}
    {names : List (Option GoString)} (collected : Succeeds (whitelistedEnvironment environ asprintf capacity i count names)) :
    names.all Option.isSome = true := by
  induction names generalizing i count with
  | nil => rfl
  | cons entry rest ih =>
    obtain ⟨entries, collected⟩ := collected
    cases entry with
    | none => cases collected
    | some name =>
      rw [whitelistedEnvironment] at collected
      rw [List.all_cons, Option.isSome_some, Bool.true_and]
      split at collected
      · exact ih ⟨_, collected⟩
      · split at collected
        · exact ih (succeeds_map.mp ⟨_, collected⟩)
        · cases collected

/-- The whitelist has as many entries as its LENGTH says, and no copy of a whitelisted variable
failed. -/
structure VariablesCopied (options : CompileOptions) (process : HostProcess) (o : SendOutcomes) : Prop where
  listed : options.sendEnvironment = true →
    options.environmentWhitelistLength ≤ options.environmentWhitelist.length
  copied : options.sendEnvironment = true → ∀ i < options.environmentWhitelistLength, ∀ name,
    options.environmentWhitelist[i]? = some name → (getenv process.environ name).isSome → o.asprintf i = true

theorem sentEnvironment_ok {options : CompileOptions} {process : HostProcess} {o : SendOutcomes} :
    (∃ entries, sentEnvironment options process o = .ok entries ∧ entries.all Option.isSome = true) ↔
      VariablesCopied options process o := by
  unfold sentEnvironment
  split
  · rename_i sent
    have iff_copied : VariablesCopied options process o ↔
        options.environmentWhitelistLength ≤ options.environmentWhitelist.length ∧
          ∀ i < options.environmentWhitelistLength, ∀ name, options.environmentWhitelist[i]? = some name →
            (getenv process.environ name).isSome → o.asprintf i = true :=
      ⟨fun both => ⟨both.listed sent, both.copied sent⟩, fun both => ⟨fun _ => both.1, fun _ => both.2⟩⟩
    rw [iff_copied]
    split
    · rename_i everything
      rw [everything]
      refine iff_of_true ⟨_, rfl, List.all_eq_true.mpr ?_⟩ ⟨Nat.zero_le _, nofun⟩
      intro entry member
      obtain ⟨text, _, rfl⟩ := List.mem_map.mp member
      rfl
    · by_cases inside : options.environmentWhitelistLength ≤ options.environmentWhitelist.length
      · have count : (options.environmentWhitelist.take options.environmentWhitelistLength).length =
            options.environmentWhitelistLength := List.length_take_of_le inside
        obtain ⟨entries, done, copied⟩ := @whitelistedEnvironment_ok process.environ o.asprintf
          (options.environmentWhitelistLength + 1) 0 0 _ (show 0 + _ < _ by rw [count]; omega)
        rw [CompileOptions.whitelist, arrayReads_eq inside, and_iff_right inside]
        have only : (∃ found, whitelistedEnvironment process.environ o.asprintf
            (options.environmentWhitelistLength + 1) 0 0
            ((options.environmentWhitelist.take options.environmentWhitelistLength).map some) = .ok found ∧
              found.all Option.isSome = true) ↔ entries.all Option.isSome = true :=
          ⟨fun ⟨found, same, set⟩ => Except.ok.inj (same.symm.trans done) ▸ set, fun set => ⟨entries, done, set⟩⟩
        rw [only, copied]
        simp only [Nat.zero_add, List.getElem?_take, Option.ite_none_right_eq_some]
        exact ⟨fun each i before name found => each i name ⟨before, found⟩,
          fun each i name both => each i both.1 name both.2⟩
      · refine iff_of_false (fun ⟨entries, collected, _⟩ => inside ?_) fun both => inside both.1
        exact arrayReads_all.mp (whitelistedEnvironment_reads ⟨_, collected⟩)
  · rename_i notSent
    exact iff_of_true ⟨[], rfl, rfl⟩ ⟨fun sent => absurd sent notSent, fun sent => absurd sent notSent⟩

/-- The byte count for malloc, a C int, covers the header and the packed message. -/
def BufferFits (n : Nat) : Prop := 8 + n ≤ sizeT (Int32.ofNat n + 4 + 4)

instance (n : Nat) : Decidable (BufferFits n) := inferInstanceAs (Decidable (_ ≤ _))

theorem packAndSend_succeeds {process : HostProcess} {o : SendOutcomes} :
    Succeeds (packAndSend process o) ↔ o.sendbuffer.isSome ∧ BufferFits o.packed.length := by
  unfold packAndSend
  split
  · rename_i failed
    refine iff_of_false (not_succeeds_error _) fun both => ?_
    rw [failed] at both
    cases both.1
  · rename_i malloc allocated
    have size : (sendSerialized process.host malloc MessageType.processInfoMsg.value o.packed).1.buffer.length =
        sizeT (Int32.ofNat o.packed.length + 4 + 4) := by
      simp only [sendSerialized, ogrtPrepareSendbuffer, store_length]
      exact (malloc _).property
    dsimp only
    rw [allocated, size]
    split
    · rename_i fits
      exact iff_of_true (succeeds_ok _) ⟨rfl, fits⟩
    · rename_i outside
      exact iff_of_false (not_succeeds_error _) fun both => outside both.2

/-- A message of less than 2 GiB fits. -/
theorem bufferFits_of_lt {n : Nat} (small : n + 8 < 2 ^ 31) : BufferFits n := by
  rw [BufferFits, totalLength_eq small]
  omega

/-- What ogrt_send_processinfo needs to go right. -/
structure SendSafe (options : CompileOptions) (process : HostProcess) (o : SendOutcomes) : Prop where
  infos : o.infos = true
  walks : ∀ info ∈ process.objects, WalksEnd process info
  twoObjects : 2 ≤ process.objects.length
  binpath : o.binpath.Fits
  modules : options.sendLoadedmodules = true → ∀ module_env,
    getenv process.environ (ascii "LOADEDMODULES") = some module_env → ModulesAllocated module_env o.modules
  cmdline : options.sendCmdline = true → o.cmdline.Fits
  environment : VariablesCopied options process o
  sendbuffer : o.sendbuffer.isSome
  size : BufferFits o.packed.length

/-- The conversion of the size less two to a size_t finds its way back to the set pointers
only if there are two objects. -/
theorem nSharedObjects_le {n : Nat} (counted : n < 2 ^ 31) : (((n : Int) - 2) % 2 ^ 64).toNat ≤ n - 2 ↔ 2 ≤ n := by
  omega

theorem loadedModules_succeeds {options : CompileOptions} {process : HostProcess} {o : SendOutcomes} :
    Succeeds (loadedModules options process o) ↔ (options.sendLoadedmodules = true → ∀ module_env,
      getenv process.environ (ascii "LOADEDMODULES") = some module_env → ModulesAllocated module_env o.modules) := by
  unfold loadedModules
  split
  · rename_i sent
    rw [ogrtLoadedModules_succeeds, forall_prop_of_true sent]
  · rename_i notSent
    exact iff_of_true (succeeds_ok _) fun sent => absurd sent notSent

theorem sentCmdline_succeeds {options : CompileOptions} {o : SendOutcomes} :
    Succeeds (sentCmdline options o) ↔ (options.sendCmdline = true → o.cmdline.Fits) := by
  unfold sentCmdline
  split
  · rename_i sent
    rw [ogrtGetCmdline_succeeds, forall_prop_of_true sent]
  · rename_i notSent
    exact iff_of_true (succeeds_ok _) fun sent => absurd sent notSent

theorem ClientProcessInfo.readPointers_succeeds {msg : ClientProcessInfo} : Succeeds msg.readPointers ↔
    msg.environmentVariables.all Option.isSome = true ∧ msg.nSharedObjects ≤ msg.sharedObjects.length := by
  unfold ClientProcessInfo.readPointers
  split
  · rename_i both
    exact iff_of_true (succeeds_ok _) both
  · rename_i other
    exact iff_of_false (not_succeeds_error _) other

/-- Where each part of what is sent comes from. -/
structure Sending.Gathered (sending : Sending) (options : CompileOptions) (process : HostProcess) (o : SendOutcomes)
    (so_infos : List LoadedObject) : Prop where
  infos : ogrtGetLoadedSo process o.infos o.names = .ok so_infos
  count : sending.message.nSharedObjects = (((so_infos.length : Int) - 2) % 2 ^ 64).toNat
  objects : sending.message.sharedObjects = so_infos.drop 2
  signature : sending.message.signature = so_infos.head?.bind (·.signature)
  binpath : ogrtGetBinpath o.binpath = .ok sending.message.binpath
  modules : loadedModules options process o = .ok sending.message.loadedModules
  cmdline : sentCmdline options o = .ok sending.message.cmdline
  environment : sentEnvironment options process o = .ok sending.message.environmentVariables
  readable : sending.message.readPointers = .ok ()
  datagram : packAndSend process o = .ok sending.datagram

theorem ogrtSendProcessinfo_gathered {options : CompileOptions} {process : HostProcess} {pid parentPid : Int32}
    {o : SendOutcomes} {sending : Sending} (gathered : ogrtSendProcessinfo options process pid parentPid o = .ok sending) :
    ∃ so_infos, sending.Gathered options process o so_infos := by
  unfold ogrtSendProcessinfo at gathered
  obtain ⟨so_infos, loaded, gathered⟩ := bind_eq_ok.mp gathered
  obtain ⟨binpath, found, gathered⟩ := bind_eq_ok.mp gathered
  obtain ⟨modules, listed, gathered⟩ := bind_eq_ok.mp gathered
  obtain ⟨cmdline, read, gathered⟩ := bind_eq_ok.mp gathered
  obtain ⟨environment, collected, gathered⟩ := bind_eq_ok.mp gathered
  obtain ⟨_, readable, gathered⟩ := bind_eq_ok.mp gathered
  obtain ⟨datagram, sent, gathered⟩ := bind_eq_ok.mp gathered
  cases gathered
  exact ⟨so_infos, loaded, rfl, rfl, rfl, found, listed, read, collected, readable, sent⟩

theorem ogrtSendProcessinfo_succeeds {options : CompileOptions} {process : HostProcess} {pid parentPid : Int32}
    {o : SendOutcomes} : Succeeds (ogrtSendProcessinfo options process pid parentPid o) ↔ SendSafe options process o := by
  constructor
  · intro ⟨sending, made⟩
    obtain ⟨so_infos, parts⟩ := ogrtSendProcessinfo_gathered made
    obtain ⟨infos, walks⟩ := ogrtGetLoadedSo_succeeds.mp ⟨_, parts.infos⟩
    obtain ⟨set, count⟩ := ClientProcessInfo.readPointers_succeeds.mp ⟨_, parts.readable⟩
    rw [parts.count, parts.objects, List.length_drop, ogrtGetLoadedSo_length parts.infos,
      nSharedObjects_le process.counted] at count
    obtain ⟨sendbuffer, size⟩ := packAndSend_succeeds.mp ⟨_, parts.datagram⟩
    exact ⟨infos, walks, count, ogrtGetBinpath_succeeds.mp ⟨_, parts.binpath⟩, loadedModules_succeeds.mp ⟨_, parts.modules⟩,
      sentCmdline_succeeds.mp ⟨_, parts.cmdline⟩, sentEnvironment_ok.mp ⟨_, parts.environment, set⟩, sendbuffer, size⟩
  · intro safe
    obtain ⟨so_infos, loaded⟩ := ogrtGetLoadedSo_succeeds.mpr ⟨safe.infos, safe.walks⟩
    obtain ⟨binpath, found⟩ := ogrtGetBinpath_succeeds.mpr safe.binpath
    obtain ⟨modules, listed⟩ := loadedModules_succeeds.mpr safe.modules
    obtain ⟨cmdline, read⟩ := sentCmdline_succeeds.mpr safe.cmdline
    obtain ⟨environment, collected, set⟩ := sentEnvironment_ok.mpr safe.environment
    unfold ogrtSendProcessinfo
    refine succeeds_bind.mpr ⟨so_infos, loaded, succeeds_bind.mpr ⟨binpath, found, succeeds_bind.mpr ⟨modules, listed,
      succeeds_bind.mpr ⟨cmdline, read, succeeds_bind.mpr ⟨environment, collected, ?_⟩⟩⟩⟩⟩
    obtain ⟨datagram, sent⟩ := packAndSend_succeeds.mpr ⟨safe.sendbuffer, safe.size⟩
    refine succeeds_bind.mpr ⟨(), if_pos ⟨set, ?_⟩,
      succeeds_bind.mpr ⟨datagram, sent, succeeds_ok _⟩⟩
    dsimp only
    rw [List.length_drop, ogrtGetLoadedSo_length loaded, nSharedObjects_le process.counted]
    exact safe.twoObjects

/-- Every filter expression is there and compiles, and none matches the path of the program. -/
inductive FiltersPass (o : HookOutcomes) : Nat → List (Option GoString) → Prop
  | done {i} : FiltersPass o i []
  | next {i regexp rest path} : o.regcomp i regexp = true → (o.filterBinpath i).Finds path →
      o.regexec i regexp path = false → FiltersPass o (i + 1) rest → FiltersPass o i (some regexp :: rest)

/-- A filter expression does not compile or matches, and those before it let the program pass. -/
inductive FiltersStop (o : HookOutcomes) : Nat → List (Option GoString) → Prop
  | uncompiled {i regexp rest} : o.regcomp i regexp = false → FiltersStop o i (some regexp :: rest)
  | matched {i regexp rest path} : o.regcomp i regexp = true → (o.filterBinpath i).Finds path →
      o.regexec i regexp path = true → FiltersStop o i (some regexp :: rest)
  | later {i regexp rest path} : o.regcomp i regexp = true → (o.filterBinpath i).Finds path →
      o.regexec i regexp path = false → FiltersStop o (i + 1) rest → FiltersStop o i (some regexp :: rest)

theorem filterLoop_cons {o : HookOutcomes} {i : Nat} {regexp : GoString} {rest : List (Option GoString)} {passed : Bool} :
    filterLoop o i (some regexp :: rest) = .ok passed ↔
      if o.regcomp i regexp then
        ∃ path, (o.filterBinpath i).Finds path ∧
          if o.regexec i regexp path then passed = false else filterLoop o (i + 1) rest = .ok passed
      else passed = false := by
  have stopped : (Except.ok false : Except Failure Bool) = .ok passed ↔ passed = false :=
    ⟨fun same => (Except.ok.inj same).symm, fun same => same ▸ rfl⟩
  rw [filterLoop]
  split
  · simp only [bind_eq_ok, orFail_eq_ok]
    constructor
    · rintro ⟨_, read, path, rfl, rest⟩
      refine ⟨path, ogrtGetBinpath_eq_some.mp read, ?_⟩
      split at rest <;> rename_i matched
      · rw [if_pos matched]
        exact stopped.mp rest
      · rw [if_neg matched]
        exact rest
    · rintro ⟨path, finds, rest⟩
      refine ⟨_, ogrtGetBinpath_eq_some.mpr finds, path, rfl, ?_⟩
      split at rest <;> rename_i matched
      · rw [if_pos matched]
        exact stopped.mpr rest
      · rw [if_neg matched]
        exact rest
  · exact stopped

theorem filterLoop_true {o : HookOutcomes} {i : Nat} {regexps : List (Option GoString)} :
    filterLoop o i regexps = .ok true ↔ FiltersPass o i regexps := by
  induction regexps generalizing i with
  | nil => exact iff_of_true rfl .done
  | cons entry rest ih =>
    cases entry with
    | none => exact iff_of_false nofun nofun
    | some regexp =>
      rw [filterLoop_cons]
      constructor
      · intro passes
        split at passes <;> rename_i compiles
        · obtain ⟨path, finds, rest⟩ := passes
          split at rest <;> rename_i matched
          · cases rest
          · exact .next compiles finds (Bool.eq_false_iff.mpr matched) (ih.mp rest)
        · cases passes
      · intro passes
        cases passes with
        | next compiles finds unmatched later =>
          rw [if_pos compiles]
          refine ⟨_, finds, ?_⟩
          rw [if_neg (Bool.eq_false_iff.mp unmatched)]
          exact ih.mpr later

theorem filterLoop_false {o : HookOutcomes} {i : Nat} {regexps : List (Option GoString)} :
    filterLoop o i regexps = .ok false ↔ FiltersStop o i regexps := by
  induction regexps generalizing i with
  | nil => exact iff_of_false nofun nofun
  | cons entry rest ih =>
    cases entry with
    | none => exact iff_of_false nofun nofun
    | some regexp =>
      rw [filterLoop_cons]
      constructor
      · intro stops
        split at stops <;> rename_i compiles
        · obtain ⟨path, finds, rest⟩ := stops
          split at rest <;> rename_i matched
          · exact .matched compiles finds matched
          · exact .later compiles finds (Bool.eq_false_iff.mpr matched) (ih.mp rest)
        · exact .uncompiled (Bool.eq_false_iff.mpr compiles)
      · intro stops
        cases stops with
        | uncompiled fails => rw [if_neg (Bool.eq_false_iff.mp fails)]
        | matched compiles finds matched =>
          rw [if_pos compiles]
          refine ⟨_, finds, ?_⟩
          rw [if_pos matched]
        | later compiles finds unmatched later =>
          rw [if_pos compiles]
          refine ⟨_, finds, ?_⟩
          rw [if_neg (Bool.eq_false_iff.mp unmatched)]
          exact ih.mpr later

theorem connectLoop_connected {globals : HookGlobals} {servinfo : List AddressOutcome} :
    (connectLoop globals servinfo).2.2 = true ↔ ∃ p ∈ servinfo, p.socket.isSome ∧ p.connect = true := by
  induction servinfo generalizing globals with
  | nil => exact iff_of_false Bool.false_ne_true fun ⟨_, member, _⟩ => nomatch member
  | cons p rest ih =>
    simp only [List.exists_mem_cons_iff]
    rw [connectLoop]
    split
    · rename_i failed
      rw [ih, failed]
      exact (or_iff_right fun both => Bool.false_ne_true both.1).symm
    · rename_i fd obtained
      split
      · rename_i connects
        exact iff_of_true rfl (Or.inl ⟨by rw [obtained]; rfl, connects⟩)
      · rename_i refused
        exact ih.trans (or_iff_right fun both => refused both.2).symm

theorem loggedBinpath_succeeds {silent : Prop} [Decidable silent] {o : BinpathOutcome} :
    Succeeds (loggedBinpath (if silent then ogrtLogNothing else ogrtLogInfo) o) ↔ (¬ silent → o.Fits) := by
  split
  · rename_i quiet
    exact iff_of_true (succeeds_ok _) fun loud => absurd quiet loud
  · rename_i loud
    exact ogrtGetBinpath_succeeds.trans ⟨fun fits _ => fits, fun fits => fits loud⟩

/-- The hook logs that it watches the process. -/
def Logs (process : HostProcess) : Prop :=
  ¬ (ogrtEnvEnabled process.environ (ascii "OGRT_SILENT") = true ∨
    ogrtEnvEnabled process.environ (ascii "OGRT_SCHLEICHFAHRT") = true)

/-- The lists that are printed have as many entries as their LENGTHs say. -/
def DebugInfoSafe (options : CompileOptions) (process : HostProcess) : Prop :=
  ogrtEnvEnabled process.environ (ascii "OGRT_DEBUG_INFO") = true →
    options.filterRegexpsLength ≤ options.filterRegexps.length ∧ (options.sendEnvironment = true →
      options.environmentWhitelistLength ≤ options.environmentWhitelist.length)

/-- Nothing goes wrong in a call that gets to where it could: in the filters, or behind them
once an address connects. -/
def CallSafe (options : CompileOptions) (process : HostProcess) (o : HookOutcomes) (globals : HookGlobals) : Prop :=
  globals.active = true ∨ ogrtEnvEnabled process.environ (ascii "OGRT_ACTIVE") = true → globals.daemonSocket < 0 →
    o.gethostname = true →
    FiltersStop o 0 options.regexps ∨ FiltersPass o 0 options.regexps ∧
      ∀ servinfo, o.getaddrinfo = some servinfo → (∃ p ∈ servinfo, p.socket.isSome ∧ p.connect = true) →
        (Logs process → o.logBinpath.Fits) ∧ SendSafe options process o.sending

structure HookSafe (options : CompileOptions) (process : HostProcess) (o : HookOutcomes) (globals : HookGlobals) : Prop where
  debugInfo : DebugInfoSafe options process
  call : CallSafe options process o globals

theorem connectAndSend_succeeds {options : CompileOptions} {process : HostProcess} {o : HookOutcomes} {silent : Prop}
    [Decidable silent] {globals : HookGlobals} :
    Succeeds (connectAndSend options process o (if silent then ogrtLogNothing else ogrtLogInfo) globals) ↔
      ∀ servinfo, o.getaddrinfo = some servinfo → (∃ p ∈ servinfo, p.socket.isSome ∧ p.connect = true) →
        (¬ silent → o.logBinpath.Fits) ∧ SendSafe options process o.sending := by
  unfold connectAndSend
  split
  · rename_i failed
    exact iff_of_true (succeeds_ok _) fun _ resolved => by rw [failed] at resolved; cases resolved
  · rename_i servinfo resolved
    have only (P : List AddressOutcome → Prop) : (∀ list, o.getaddrinfo = some list → P list) ↔ P servinfo :=
      ⟨fun each => each _ resolved, fun own list same => Option.some.inj (resolved.symm.trans same) ▸ own⟩
    rw [only fun servinfo => (∃ p ∈ servinfo, p.socket.isSome ∧ p.connect = true) → _, ← @connectLoop_connected globals]
    dsimp only
    split
    · rename_i connected
      rw [forall_prop_of_true connected, ← @loggedBinpath_succeeds silent _ o.logBinpath, ← ogrtSendProcessinfo_succeeds]
      constructor
      · intro succeeds
        obtain ⟨_, logged, rest⟩ := succeeds_bind.mp succeeds
        obtain ⟨sending, sent, _⟩ := succeeds_bind.mp rest
        exact ⟨⟨_, logged⟩, sending, sent⟩
      · rintro ⟨⟨_, logged⟩, sending, sent⟩
        exact succeeds_bind.mpr ⟨_, logged, succeeds_bind.mpr ⟨sending, sent, succeeds_ok _⟩⟩
    · rename_i unconnected
      exact iff_of_true (succeeds_ok _) fun connected => absurd connected unconnected

theorem printList_succeeds {array : List GoString} {length : Nat} :
    Succeeds (printList (arrayReads array length)) ↔ length ≤ array.length := by
  rw [← arrayReads_all, printList]
  split
  · rename_i set
    exact iff_of_true (succeeds_ok _) set
  · rename_i unset
    exact iff_of_false (not_succeeds_error _) unset

theorem debugInfo_succeeds {options : CompileOptions} {process : HostProcess} :
    Succeeds (debugInfo options process.environ) ↔ DebugInfoSafe options process := by
  unfold debugInfo DebugInfoSafe
  split
  · rename_i shown
    rw [forall_prop_of_true shown, succeeds_bind_unit, ← @printList_succeeds options.filterRegexps]
    have second : Succeeds (if options.sendEnvironment then printList options.whitelist else .ok ()) ↔
        (options.sendEnvironment = true → options.environmentWhitelistLength ≤ options.environmentWhitelist.length) := by
      split
      · rename_i sent
        rw [forall_prop_of_true sent]
        exact printList_succeeds
      · rename_i notSent
        exact iff_of_true (succeeds_ok _) fun sent => absurd sent notSent
    rw [← second]
    exact Iff.rfl
  · rename_i hidden
    exact iff_of_true (succeeds_ok _) fun shown => absurd shown hidden

theorem ogrtPreloadInitHook_succeeds {options : CompileOptions} {process : HostProcess} {o : HookOutcomes}
    {globals : HookGlobals} :
    Succeeds (ogrtPreloadInitHook options process o globals) ↔ HookSafe options process o globals := by
  have parts : HookSafe options process o globals ↔ DebugInfoSafe options process ∧ CallSafe options process o globals :=
    ⟨fun both => ⟨both.1, both.2⟩, fun both => ⟨both.1, both.2⟩⟩
  rw [parts, ← debugInfo_succeeds]
  unfold ogrtPreloadInitHook CallSafe
  dsimp only
  rw [succeeds_bind_unit]
  refine and_congr_right fun _ => ?_
  split
  · rename_i watched
    obtain ⟨active, fresh⟩ := watched
    rw [forall_prop_of_true (of_decide_eq_true active), forall_prop_of_true fresh]
    split
    · rename_i named
      rw [forall_prop_of_true named, ← filterLoop_false, ← filterLoop_true, succeeds_bind]
      unfold Logs
      constructor
      · rintro ⟨passed, filtered, rest⟩
        cases passed with
        | false => exact Or.inl filtered
        | true => exact Or.inr ⟨filtered, connectAndSend_succeeds.mp rest⟩
      · rintro (stopped | ⟨passed, rest⟩)
        · exact ⟨false, stopped, succeeds_ok _⟩
        · exact ⟨true, passed, connectAndSend_succeeds.mpr rest⟩
    · rename_i failed
      exact iff_of_true (succeeds_ok _) fun named => absurd named failed
  · rename_i other
    exact iff_of_true (succeeds_ok _) fun active fresh => absurd ⟨decide_eq_true active, fresh⟩ other

/-- The hook returns without harm exactly when nothing goes wrong where it gets. -/
theorem init_hook_returns_iff (options : CompileOptions) (process : HostProcess) (o : HookOutcomes)
    (globals : HookGlobals) :
    (∃ result, ogrtPreloadInitHook options process o globals = .ok result) ↔ HookSafe options process o globals :=
  ogrtPreloadInitHook_succeeds

/-- A program that is to be watched, with two objects and no note in them. -/
def watchedProgram : HostProcess where
  host := .little
  memory := fun _ => 0
  pid := 7
  parentPid := 1
  environ := [ascii "OGRT_ACTIVE=1"]
  objects := [⟨[], 0, []⟩, ⟨ascii "/lib/libogrt.so", 0, []⟩]
  counted := by decide

/-- Every call succeeds, but under /proc nothing can be read. -/
def procMissing : HookOutcomes where
  gethostname := true
  regcomp _ _ := true
  filterBinpath _ := ⟨some ⟨List.replicate pathMax 0, List.length_replicate⟩, none⟩
  regexec _ _ _ := false
  getaddrinfo := some [⟨some 3, true⟩]
  logBinpath := ⟨some ⟨List.replicate pathMax 0, List.length_replicate⟩, none⟩
  send datagram := datagram.length
  sending :=
    { infos := true
      names := fun _ => ⟨true, none, true⟩
      time := 5
      binpath := ⟨some ⟨List.replicate pathMax 0, List.length_replicate⟩, none⟩
      modules := ⟨true, true, true, fun _ => true, fun _ => true⟩
      cmdline := ⟨some ⟨List.replicate pathMax 0, List.length_replicate⟩, false, none⟩
      getpwuid := none
      usernameCopy := true
      gethostname := none
      hostnameCopy := true
      asprintf := fun _ => true
      packed := [0]
      sendbuffer := some fun size => ⟨List.replicate size 0, List.length_replicate⟩ }

/-- Without /proc the path of the program is NULL, and it is passed to regexec. -/
theorem filter_matches_null :
    ¬ ∀ (options : CompileOptions) (process : HostProcess) (o : HookOutcomes) (globals : HookGlobals),
      ∃ result, ogrtPreloadInitHook options process o globals = .ok result := by
  intro returns
  obtain ⟨result, ran⟩ := returns ⟨ascii "JOBID", [ascii "/bin/bash"], 1, true, true, true, true, false, [], 0⟩ watchedProgram
    procMissing ⟨false, -1, 0, 0⟩
  have harmed : ogrtPreloadInitHook ⟨ascii "JOBID", [ascii "/bin/bash"], 1, true, true, true, true, false, [], 0⟩ watchedProgram
      procMissing ⟨false, -1, 0, 0⟩ = .error .nullString := rfl
  cases harmed.symm.trans ran

end Ogrt
