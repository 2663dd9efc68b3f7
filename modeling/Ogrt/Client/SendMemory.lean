import Ogrt.Client.HookMemory

namespace Ogrt
open ResourceTrace Checked

variable {options : CompileOptions} {process : HostProcess} {o : SendOutcomes}

@[simp] theorem own_acquires (r s : HookResource) (succeeds : Bool) :
    own r (acquires succeeds s) = if s = r then acquires succeeds s else [] :=
  own_of_about (by cases succeeds <;> simp [acquires]) r

@[simp] theorem own_uses (r s : HookResource) (set : Bool) : own r (uses set s) = if s = r then uses set s else [] :=
  own_of_about (by cases set <;> simp [uses]) r

@[simp] theorem own_frees (r s : HookResource) (set : Bool) : own r (frees set s) = if s = r then frees set s else [] :=
  own_of_about (by cases set <;> simp [frees]) r

@[simp] theorem own_binpathTrace (r s : HookResource) (o : BinpathOutcome) :
    own r (ogrtGetBinpathTrace s o) = if s = r then ogrtGetBinpathTrace s o else [] := by
  unfold ogrtGetBinpathTrace
  by_cases same : s = r <;> simp [own_ite, same]

@[simp] theorem own_soNameTrace (r s : HookResource) (info : DlPhdrInfo) (o : NameOutcome) :
    own r (soNameTrace s info o) = if s = r then soNameTrace s info o else [] := by
  unfold soNameTrace
  by_cases same : s = r <;> simp [own_ite, same]

@[simp] theorem history_acquires (r : HookResource) (succeeds : Bool) : history false (acquires succeeds r) = some succeeds := by
  cases succeeds <;> rfl

@[simp] theorem history_uses (r : HookResource) (set : Bool) : history set (uses set r) = some set := by
  cases set <;> rfl

@[simp] theorem history_frees (r : HookResource) (set : Bool) : history set (frees set r) = some false := by
  cases set <;> rfl

@[simp] theorem history_binpathTrace (r : HookResource) (o : BinpathOutcome) :
    history false (ogrtGetBinpathTrace r o) = some o.set := by
  unfold ogrtGetBinpathTrace BinpathOutcome.set
  cases o.malloc.isSome <;> cases o.readlink.isSome <;> rfl

/-- The name is held exactly if its pointer is set. -/
@[simp] theorem history_soNameTrace (r : HookResource) (info : DlPhdrInfo) (o : NameOutcome) :
    history false (soNameTrace r info o) = some (soName info o).isSome := by
  unfold soNameTrace soName ogrtNormalizePath strdup
  split
  · cases o.malloc with
    | false => rfl
    | true =>
      rw [if_pos rfl, if_pos rfl]
      cases o.realpath <;> rfl
  · rw [history_acquires]
    cases o.strdup <;> rfl

/-- The turns of the loop are about variables, each about one of its own. -/
theorem own_whitelistTrace_other {r : HookResource} (other : ∀ c, HookResource.environment c ≠ r) (environ : List GoString)
    (asprintf : Nat → Bool) (i count : Nat) (names : List GoString) :
    own r (whitelistTrace environ asprintf i count names) = [] := by
  induction names generalizing i count with
  | nil => rfl
  | cons name rest ih =>
    rw [whitelistTrace]
    split
    · rw [own_append, ih, own_acquires, if_neg (other count), List.append_nil]
    · exact ih (i + 1) count

theorem own_whitelistTrace {environ : List GoString} {asprintf : Nat → Bool} (c : Nat) {i count : Nat} {names : List GoString}
    (copied : ∀ j name, names[j]? = some name → (getenv environ name).isSome → asprintf (i + j) = true) :
    own (.environment c) (whitelistTrace environ asprintf i count names) =
      if count ≤ c then ((names.filter fun name => (getenv environ name).isSome)[c - count]?).elim [] fun _ =>
        [.acquire (.environment c)] else [] := by
  induction names generalizing i count with
  | nil => rw [List.filter_nil, List.getElem?_nil, Option.elim_none, ite_self]; rfl
  | cons name rest ih =>
    have later : ∀ j other, rest[j]? = some other → (getenv environ other).isSome → asprintf (i + 1 + j) = true := by
      intro j other found set
      rw [Nat.add_assoc, Nat.add_comm 1]
      exact copied (j + 1) other found set
    rw [whitelistTrace, List.filter_cons]
    split
    · rename_i set
      have succeeds : asprintf i = true := copied 0 name rfl set
      rw [own_append, ih later, own_acquires, succeeds]
      by_cases here : count = c
      · subst here
        simp [acquires]
      · by_cases after : count ≤ c
        · have index : c - count = c - (count + 1) + 1 := by omega
          simp [here, after, index, show count + 1 ≤ c by omega]
        · simp [here, after, show ¬ count + 1 ≤ c by omega]
    · exact ih later

/-- What the message refers to as it is packed, with the file that was left open. -/
def gathered (options : CompileOptions) (process : HostProcess) (o : SendOutcomes) : HookResource → Bool
  | .soInfos => true
  | .soName k => (process.objects[k]?).elim false fun info => (soName info (o.names k)).isSome
  | .binpath => o.binpath.set
  | .loadedModules => 0 < (moduleTokens (sentModules options process)).length
  | .ogrtModule k => k < (moduleTokens (sentModules options process)).length
  | .moduleName k => k < (moduleTokens (sentModules options process)).length && o.modules.names k
  | .cmdline | .cmdlineFile => options.sendCmdline && o.cmdline.malloc.isSome
  | .username => options.sendUsername && (ogrtGetUsername o).isSome
  | .hostname => options.sendHostname && (ogrtGetHostname o).isSome
  | .environment c => c < (whitelistedVariables options process).length
  | _ => false

theorem history_packTrace (r : HookResource) :
    history (gathered options process o r) (own r (packTrace options process o)) = some (gathered options process o r) := by
  unfold packTrace
  cases r with
  | soName k =>
    -- the first two names are not packed
    have names : own (.soName k) (loopAt (packName o.names) 2 (process.objects.drop 2)) =
        if 2 ≤ k then (process.objects[k]?).elim [] fun info => uses (soName info (o.names k)).isSome (.soName k) else [] := by
      rw [own_loopAt k fun j info apart => by simp [packName, apart], List.getElem?_drop]
      simp +contextual [packName]
    have turns : history (gathered options process o (.soName k))
        (own (.soName k) (loopAt (packName o.names) 2 (process.objects.drop 2))) =
          some (gathered options process o (.soName k)) := by
      rw [names, gathered]
      split
      · cases process.objects[k]? <;> simp
      · rfl
    simpa [packModule, packVariable] using turns
  | loadedModules =>
    have turns : history (gathered options process o .loadedModules)
        (own .loadedModules (loopAt (packModule o.modules) 0 (moduleTokens (sentModules options process)))) =
          some (gathered options process o .loadedModules) := by
      rw [gathered]
      cases moduleTokens (sentModules options process) with
      | nil => rfl
      | cons first rest => exact history_loopAt (fun j token => by simp [packModule]) 0 _
    simpa [packName, packVariable] using turns
  | ogrtModule k =>
    have turns : history (gathered options process o (.ogrtModule k))
        (own (.ogrtModule k) (loopAt (packModule o.modules) 0 (moduleTokens (sentModules options process)))) =
          some (gathered options process o (.ogrtModule k)) := by
      refine history_loopAt_turn k (fun j token apart => by simp [packModule, apart]) (fun token found => ?_) fun _ => rfl
      simp [packModule, gathered, (List.getElem?_eq_some_iff.mp found).1]
    simpa [packName, packVariable] using turns
  | moduleName k =>
    have turns : history (gathered options process o (.moduleName k))
        (own (.moduleName k) (loopAt (packModule o.modules) 0 (moduleTokens (sentModules options process)))) =
          some (gathered options process o (.moduleName k)) := by
      refine history_loopAt_turn k (fun j token apart => by simp [packModule, apart]) (fun token found => ?_) fun _ => rfl
      simp [packModule, gathered, (List.getElem?_eq_some_iff.mp found).1]
    simpa [packName, packVariable] using turns
  | environment c =>
    have turns : history (gathered options process o (.environment c))
        (own (.environment c) (loopAt packVariable 0 (whitelistedVariables options process))) =
          some (gathered options process o (.environment c)) := by
      refine history_loopAt_turn c (fun j name apart => by simp [packVariable, apart]) (fun name found => ?_) fun _ => rfl
      simp [packVariable, gathered, (List.getElem?_eq_some_iff.mp found).1]
    simpa [packName, packModule] using turns
  | _ => simp [packName, packModule, packVariable, gathered]

theorem own_freeModules {r : HookResource} (other : HookResource.loadedModules ≠ r) (o : ModuleOutcomes)
    (modules : List GoString) :
    own r (if 0 < modules.length then loopAt (freeModule o) 0 modules ++ [.release .loadedModules] else []) =
      own r (loopAt (freeModule o) 0 modules) := by
  cases modules with
  | nil => rfl
  | cons first rest => simp [other]

/-- Only the descriptor is left. -/
theorem history_freeTrace (r : HookResource) :
    history (gathered options process o r || decide (r = .sendbuffer)) (own r (freeTrace options process o)) =
      some (gathered options process o r && decide (r = .cmdlineFile)) := by
  unfold freeTrace
  cases r with
  | soName k =>
    have turns : history (gathered options process o (.soName k)) (own (.soName k) (loopAt (freeName o.names) 0 process.objects)) =
        some false := by
      refine history_loopAt_turn k (fun j info apart => by simp [freeName, apart]) (fun info found => ?_) fun outside => ?_
      · simp [freeName, gathered, found]
      · simp [gathered, List.getElem?_eq_none_iff.mpr outside]
    simpa [own_ite, freeModule, freeVariable] using turns
  | soInfos =>
    have turns : history true (own .soInfos (loopAt (freeName o.names) 0 process.objects)) = some true :=
      history_loopAt (fun j info => by simp [freeName]) 0 _
    simp [own_ite, history_append, freeModule, freeVariable, gathered, turns]
  | loadedModules =>
    have turns : history true (own .loadedModules (loopAt (freeModule o.modules) 0
        (moduleTokens (sentModules options process)))) = some true :=
      history_loopAt (fun j token => by simp [freeModule]) 0 _
    by_cases nonempty : 0 < (moduleTokens (sentModules options process)).length
    · simp [nonempty, history_append, freeName, freeVariable, gathered, turns]
    · simp [nonempty, freeName, freeVariable, gathered]
  | ogrtModule k =>
    have turns : history (gathered options process o (.ogrtModule k)) (own (.ogrtModule k) (loopAt (freeModule o.modules) 0
        (moduleTokens (sentModules options process)))) = some false := by
      refine history_loopAt_turn k (fun j token apart => by simp [freeModule, apart]) (fun token found => ?_) fun outside => ?_
      · simp [freeModule, gathered, (List.getElem?_eq_some_iff.mp found).1]
      · simp [gathered, outside]
    simpa [own_freeModules, freeName, freeVariable] using turns
  | moduleName k =>
    have turns : history (gathered options process o (.moduleName k)) (own (.moduleName k) (loopAt (freeModule o.modules) 0
        (moduleTokens (sentModules options process)))) = some false := by
      refine history_loopAt_turn k (fun j token apart => by simp [freeModule, apart]) (fun token found => ?_) fun outside => ?_
      · simp [freeModule, gathered, (List.getElem?_eq_some_iff.mp found).1]
      · simp [gathered, outside]
    simpa [own_freeModules, freeName, freeVariable] using turns
  | environment c =>
    have turns : history (gathered options process o (.environment c))
        (own (.environment c) (loopAt freeVariable 0 (whitelistedVariables options process))) = some false := by
      refine history_loopAt_turn c (fun j name apart => by simp [freeVariable, apart]) (fun name found => ?_) fun outside => ?_
      · simp [freeVariable, gathered, (List.getElem?_eq_some_iff.mp found).1]
      · simp [gathered, outside]
    simpa [own_ite, freeName, freeModule] using turns
  | _ => simp [freeName, freeModule, freeVariable, gathered, own_ite]

theorem SendSafe.modulesAllocated (safe : SendSafe options process o) (module_env : GoString)
    (sent : sentModules options process = some module_env) : ModulesAllocated module_env o.modules := by
  obtain ⟨option, set⟩ := Option.ite_none_right_eq_some.mp sent
  exact safe.modules option module_env set

/-- What ogrt_send_processinfo keeps of the modules for the message. -/
def modulesHeld (moduleEnv : Option GoString) (o : ModuleOutcomes) : HookResource → Bool
  | .loadedModules => 0 < (moduleTokens moduleEnv).length
  | .ogrtModule k => k < (moduleTokens moduleEnv).length
  | .moduleName k => k < (moduleTokens moduleEnv).length && o.names k
  | _ => false

theorem history_loadedModulesTrace {moduleEnv : Option GoString} {o : ModuleOutcomes}
    (allocated : ∀ module_env, moduleEnv = some module_env → ModulesAllocated module_env o) (r : HookResource) :
    history false (own r (ogrtLoadedModulesTrace moduleEnv o)) = some (modulesHeld moduleEnv o r) := by
  unfold ogrtLoadedModulesTrace
  cases moduleEnv with
  | none => cases r <;> rfl
  | some module_env =>
    obtain ⟨counted, copied, listed, made⟩ := allocated module_env rfl
    have found : moduleTokens (some module_env) = tokens module_env := rfl
    rw [if_pos Option.isSome_some, found]
    by_cases nonempty : 0 < (tokens module_env).length
    · have some := List.ne_nil_of_length_pos nonempty
      rw [if_pos nonempty]
      cases r with
      | countString => simp [counted, history_append, modulesHeld, moduleTurn]
      | moduleString =>
        have turns : history true (own .moduleString (loopAt (moduleTurn o) 0 (tokens module_env))) = .some true :=
          history_loopAt (fun j token => by simp [moduleTurn]) 0 _
        simp [copied some, history_append, modulesHeld, turns]
      | loadedModules =>
        have turns : history true (own .loadedModules (loopAt (moduleTurn o) 0 (tokens module_env))) = .some true :=
          history_loopAt (fun j token => by simp [moduleTurn]) 0 _
        simp [listed some, history_append, modulesHeld, found, nonempty, turns]
      | ogrtModule k =>
        have turns : history false (own (.ogrtModule k) (loopAt (moduleTurn o) 0 (tokens module_env))) =
            .some (decide (k < (tokens module_env).length)) := by
          refine history_loopAt_turn k (fun j token apart => by simp [moduleTurn, apart]) (fun token stored => ?_) fun outside => ?_
          · have inside := (List.getElem?_eq_some_iff.mp stored).1
            simp [moduleTurn, made k inside, inside, history_append]
          · simp [outside]
        simpa [modulesHeld, found] using turns
      | moduleName k =>
        have turns : history false (own (.moduleName k) (loopAt (moduleTurn o) 0 (tokens module_env))) =
            .some (decide (k < (tokens module_env).length) && o.names k) := by
          refine history_loopAt_turn k (fun j token apart => by simp [moduleTurn, apart]) (fun token stored => ?_) fun outside => ?_
          · simp [moduleTurn, (List.getElem?_eq_some_iff.mp stored).1]
          · simp [outside]
        simpa [modulesHeld, found] using turns
      | _ => simp [modulesHeld, moduleTurn]
    · have none : tokens module_env = [] := List.eq_nil_of_length_eq_zero (by omega)
      rw [if_neg nonempty]
      cases r with
      | countString => simp [counted, history_append, modulesHeld]
      | _ => simp [modulesHeld, found, none]

theorem history_cmdlineTrace {o : CmdlineOutcome} (fits : o.Fits) (r : HookResource) :
    history false (own r (ogrtGetCmdlineTrace o)) =
      some (o.malloc.isSome && (decide (r = .cmdline) || decide (r = .cmdlineFile))) := by
  unfold ogrtGetCmdlineTrace
  cases allocated : o.malloc with
  | none => rfl
  | some block =>
    obtain ⟨opens, _⟩ := fits block allocated
    cases r with
    | cmdline => simp
    | cmdlineFile => simp [opens, history_append]
    | _ => simp

theorem history_gatherTrace (safe : SendSafe options process o) (r : HookResource) :
    history false (own r (gatherTrace options process o)) = some (gathered options process o r) := by
  unfold gatherTrace ogrtGetLoadedSoTrace
  cases r with
  | soName k =>
    have turns : history false (own (.soName k) (loopAt (handleProgramHeaderTrace o.names) 0 process.objects)) =
        some (gathered options process o (.soName k)) := by
      refine history_loopAt_turn k (fun j info apart => by simp [handleProgramHeaderTrace, apart]) (fun info found => ?_)
        fun outside => ?_
      · simp [handleProgramHeaderTrace, gathered, found]
      · simp [gathered, List.getElem?_eq_none_iff.mpr outside]
    simpa [own_ite, ogrtLoadedModulesTrace, moduleTurn, ogrtGetCmdlineTrace, own_whitelistTrace_other] using turns
  | soInfos =>
    have turns : history true (own .soInfos (loopAt (handleProgramHeaderTrace o.names) 0 process.objects)) = some true :=
      history_loopAt (fun j info => by simp [handleProgramHeaderTrace]) 0 _
    simp [gathered, own_ite, history_append, safe.infos, ogrtLoadedModulesTrace, moduleTurn, ogrtGetCmdlineTrace,
      own_whitelistTrace_other, turns]
  | countString | moduleString | loadedModules | ogrtModule k | moduleName k =>
    have modules := fun r => history_loadedModulesTrace safe.modulesAllocated r
    simp [handleProgramHeaderTrace, own_ite, ogrtGetCmdlineTrace, own_whitelistTrace_other, modules, modulesHeld, gathered]
  | cmdline | cmdlineFile =>
    cases sent : options.sendCmdline with
    | false =>
      simp [handleProgramHeaderTrace, gathered, own_ite, ogrtLoadedModulesTrace, moduleTurn, own_whitelistTrace_other, sent]
    | true =>
      have read := fun r => history_cmdlineTrace (safe.cmdline sent) r
      simp [handleProgramHeaderTrace, gathered, own_ite, ogrtLoadedModulesTrace, moduleTurn, own_whitelistTrace_other, sent, read]
  | environment c =>
    have loop : history false (own (.environment c) (if options.sendEnvironment = true then
        whitelistTrace process.environ o.asprintf 0 0 options.whitelisted else [])) =
          some (gathered options process o (.environment c)) := by
      rw [gathered, whitelistedVariables]
      split
      · rename_i sent
        have copied : ∀ j name, options.whitelisted[j]? = some name → (getenv process.environ name).isSome →
            o.asprintf (0 + j) = true := by
          intro j name found set
          rw [Nat.zero_add]
          obtain ⟨before, listed⟩ := Option.ite_none_right_eq_some.mp (List.getElem?_take.symm.trans found)
          exact safe.environment.copied sent j before name listed set
        rw [own_whitelistTrace c copied, if_pos (Nat.zero_le c), Nat.sub_zero]
        cases found : (options.whitelisted.filter fun name => (getenv process.environ name).isSome)[c]? with
        | none =>
          rw [decide_eq_false (Nat.not_lt.mpr (List.getElem?_eq_none_iff.mp found))]
          rfl
        | some name =>
          rw [decide_eq_true (List.getElem?_eq_some_iff.mp found).1]
          rfl
      · rfl
    simpa [handleProgramHeaderTrace, own_ite, ogrtLoadedModulesTrace, moduleTurn, ogrtGetCmdlineTrace] using loop
  | _ =>
    simp [handleProgramHeaderTrace, gathered, own_ite, ogrtLoadedModulesTrace, moduleTurn, ogrtGetCmdlineTrace,
      own_whitelistTrace_other]

/-- What the hook acquires before it sends a message. -/
def HookResource.BeforeSending : HookResource → Prop
  | .regex _ | .filterBinpath _ | .addressList | .logBinpath => True
  | _ => False

/-- Of what a call of ogrt_send_processinfo that returns has acquired, the file stays open. -/
theorem history_sendTrace (safe : SendSafe options process o) (r : HookResource) :
    history false (own r (ogrtSendProcessinfoTrace options process o)) =
      some (gathered options process o r && decide (r = .cmdlineFile)) := by
  unfold ogrtSendProcessinfoTrace
  have packed := @history_packTrace options process o r
  have freed := @history_freeTrace options process o r
  simp only [own_append, history_append, history_gatherTrace safe, packed, Option.bind_some]
  by_cases buffer : r = .sendbuffer
  · subst buffer
    have allocated : o.sendbuffer.isSome = true := safe.sendbuffer
    have unpacked : own .sendbuffer (packTrace options process o) = [] := by
      simp [packTrace, packName, packModule, packVariable]
    simp [gathered, unpacked, allocated] at freed ⊢
    exact freed
  · have apart : ¬ HookResource.sendbuffer = r := Ne.symm buffer
    simp [buffer, apart] at freed ⊢
    rw [packed]
    exact freed

/-- What the hook has acquired before it sends a message stays as it is. -/
theorem own_sendTrace_eq_nil {r : HookResource} (before : r.BeforeSending) :
    own r (ogrtSendProcessinfoTrace options process o) = [] := by
  cases r with
  | regex | filterBinpath | addressList | logBinpath =>
    simp [ogrtSendProcessinfoTrace, gatherTrace, ogrtGetLoadedSoTrace, handleProgramHeaderTrace, ogrtLoadedModulesTrace,
      moduleTurn, ogrtGetCmdlineTrace, packTrace, packName, packModule, packVariable, freeTrace, freeName, freeModule,
      freeVariable, own_ite, own_whitelistTrace_other]
  | _ => exact absurd before id

end Ogrt
