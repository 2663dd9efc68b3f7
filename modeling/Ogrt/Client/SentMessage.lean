import Ogrt.Client.InitHookSafety

namespace Ogrt
open Checked

/-- LOADEDMODULES if the modules are sent. -/
def sentModules (options : CompileOptions) (process : HostProcess) : Option GoString :=
  if options.sendLoadedmodules then getenv process.environ (ascii "LOADEDMODULES") else none

def moduleTokens (moduleEnv : Option GoString) : List GoString := moduleEnv.elim [] tokens

/-- The entries of the environment that are sent. -/
def sentVariables (options : CompileOptions) (process : HostProcess) : List GoString :=
  if options.sendEnvironment then
    if options.environmentWhitelistLength = 0 then process.environ
    else (options.environmentWhitelist.take options.environmentWhitelistLength).filterMap fun name =>
      (getenv process.environ name).map fun env => name ++ ascii "=" ++ env
  else []

theorem loadedModules_eq (options : CompileOptions) (process : HostProcess) (o : SendOutcomes) :
    loadedModules options process o = ogrtLoadedModules (sentModules options process) o.modules := by
  unfold loadedModules sentModules
  split
  · rfl
  · rfl

/-- Each token of the list has its module, without a name where strdup has failed. -/
theorem ogrtLoadedModules_getElem? {moduleEnv : Option GoString} {o : ModuleOutcomes} {modules : List (Option GoString)}
    (listed : ogrtLoadedModules moduleEnv o = .ok modules) (i : Nat) :
    modules[i]? = (moduleTokens moduleEnv)[i]?.map (strdup (o.names i)) := by
  unfold ogrtLoadedModules at listed
  cases moduleEnv with
  | none =>
    cases listed
    rfl
  | some module_env =>
    show _ = (tokens module_env)[i]?.map _
    dsimp only at listed
    split at listed
    · cases listed
    · split at listed
      · split at listed
        · cases listed
        · have count := mapAt_length listed
          cases found : (tokens module_env)[i]? with
          | none => exact List.getElem?_eq_none (count.trans_le (List.getElem?_eq_none_iff.mp found))
          | some token =>
            obtain ⟨made, entry, turn⟩ := mapAt_getElem? listed found
            rw [Nat.zero_add] at turn
            split at turn
            · cases turn
            · split at turn
              · cases turn
              · split at turn
                · cases turn
                · rw [entry, ← Except.ok.inj turn]
                  rfl
      · rename_i empty
        cases listed
        rw [List.eq_nil_of_length_eq_zero (show (tokens module_env).length = 0 by omega)]
        rfl

/-- With every pointer set, the array has the whitelisted variables that are set. -/
theorem whitelistedEnvironment_entries {environ : List GoString} {asprintf : Nat → Bool} {capacity i count : Nat}
    {names : List GoString} {entries : List (Option GoString)}
    (collected : whitelistedEnvironment environ asprintf capacity i count (names.map some) = .ok entries)
    (set : entries.all Option.isSome = true) :
    entries = (names.filterMap fun name => (getenv environ name).map fun env => name ++ ascii "=" ++ env).map some := by
  induction names generalizing i count entries with
  | nil =>
    rw [List.map_nil, whitelistedEnvironment] at collected
    split at collected <;> cases collected
    rfl
  | cons name rest ih =>
    rw [List.map_cons, whitelistedEnvironment] at collected
    rw [List.filterMap_cons]
    cases value : getenv environ name with
    | none =>
      rw [value] at collected
      exact ih collected set
    | some env =>
      rw [value] at collected
      dsimp only at collected
      split at collected
      · cases later : whitelistedEnvironment environ asprintf capacity (i + 1) (count + 1) (rest.map some) with
        | error e =>
          rw [later] at collected
          cases collected
        | ok more =>
          rw [later] at collected
          cases collected
          rw [List.all_cons, Bool.and_eq_true] at set
          obtain ⟨here, behind⟩ := set
          have copied : asprintf i = true := by
            cases succeeds : asprintf i with
            | false =>
              rw [succeeds] at here
              cases here
            | true => rfl
          have rest := ih later behind
          show (if asprintf i then some _ else none) :: more = some _ :: List.map some _
          rw [← rest, if_pos copied]
      · cases collected

theorem sentEnvironment_entries {options : CompileOptions} {process : HostProcess} {o : SendOutcomes}
    {entries : List (Option GoString)} (collected : sentEnvironment options process o = .ok entries)
    (set : entries.all Option.isSome = true) : entries = (sentVariables options process).map some := by
  unfold sentEnvironment at collected
  unfold sentVariables
  split at collected
  · rename_i sent
    rw [if_pos sent]
    split at collected
    · rename_i everything
      cases collected
      rw [if_pos everything]
    · rename_i whitelist
      rw [if_neg whitelist]
      have whole := arrayReads_all.mp (whitelistedEnvironment_reads ⟨_, collected⟩)
      rw [CompileOptions.whitelist, arrayReads_eq whole] at collected
      exact whitelistedEnvironment_entries collected set
  · rename_i notSent
    cases collected
    rw [if_neg notSent]
    rfl

/-- The entry of each object is made of its own name and headers. -/
theorem ogrtGetLoadedSo_getElem? {process : HostProcess} {malloc : Bool} {names : Nat → NameOutcome}
    {so_infos : List LoadedObject} (loaded : ogrtGetLoadedSo process malloc names = .ok so_infos) {i : Nat}
    {info : DlPhdrInfo} (found : process.objects[i]? = some info) : ∃ object, so_infos[i]? = some object ∧
      handleProgramHeader process.host process.memory (soName info (names i)) info = some object := by
  unfold ogrtGetLoadedSo at loaded
  split at loaded
  · obtain ⟨object, entry, turn⟩ := mapAt_getElem? loaded found
    rw [Nat.zero_add] at turn
    split at turn
    · exact ⟨object, entry, orFail_eq_ok.mp turn⟩
    · cases turn
  · cases loaded

/-- The fields of the message that come from the process alone. -/
structure Sending.Identified (sending : Sending) (options : CompileOptions) (process : HostProcess) (pid parentPid : Int32)
    (o : SendOutcomes) : Prop where
  pid : sending.message.pid = pid
  parentPid : sending.message.parentPid = parentPid
  time : sending.message.time = o.time
  jobId : sending.message.jobId = (getenv process.environ options.envJobid).getD (ascii "UNKNOWN")
  username : sending.message.username =
    if options.sendUsername then some ((ogrtGetUsername o).getD (ascii "UNKNOWN")) else none
  hostname : sending.message.hostname =
    if options.sendHostname then some ((ogrtGetHostname o).getD (ascii "UNKNOWN")) else none

theorem ogrtSendProcessinfo_identified {options : CompileOptions} {process : HostProcess} {pid parentPid : Int32}
    {o : SendOutcomes} {sending : Sending} (made : ogrtSendProcessinfo options process pid parentPid o = .ok sending) :
    sending.Identified options process pid parentPid o := by
  unfold ogrtSendProcessinfo at made
  obtain ⟨_, _, made⟩ := bind_eq_ok.mp made
  obtain ⟨_, _, made⟩ := bind_eq_ok.mp made
  obtain ⟨_, _, made⟩ := bind_eq_ok.mp made
  obtain ⟨_, _, made⟩ := bind_eq_ok.mp made
  obtain ⟨_, _, made⟩ := bind_eq_ok.mp made
  obtain ⟨_, _, made⟩ := bind_eq_ok.mp made
  obtain ⟨_, _, made⟩ := bind_eq_ok.mp made
  cases made
  exact ⟨rfl, rfl, rfl, rfl, rfl, rfl⟩

end Ogrt
