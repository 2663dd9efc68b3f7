import Ogrt.Client.HookCalls

namespace Ogrt
open Checked

/-- What lets a process be reported on the socket `fd`: OGRT_ACTIVE is on, the host has a name,
every filter expression compiles and none matches, and `fd` is the socket of the first address
that can be connected. -/
structure Reports (options : CompileOptions) (process : HostProcess) (o : HookOutcomes) (path : GoString) (fd : Nat) :
    Prop where
  enabled : ∃ value, getenv process.environ (ascii "OGRT_ACTIVE") = some value ∧
    (value = ascii "yes" ∨ value = ascii "true" ∨ value = ascii "1")
  named : o.gethostname = true
  filters : ∀ i < options.filterRegexpsLength, ∀ regexp, options.filterRegexps[i]? = some regexp →
    o.regcomp i regexp = true ∧ o.regexec i regexp path = false
  connected : ∃ servinfo, o.getaddrinfo = some servinfo ∧ firstConnected servinfo = some fd

theorem ogrtEnvEnabled_iff {environ : List GoString} {name : GoString} :
    ogrtEnvEnabled environ name = true ↔ ∃ value, getenv environ name = some value ∧
      (value = ascii "yes" ∨ value = ascii "true" ∨ value = ascii "1") := by
  unfold ogrtEnvEnabled
  cases getenv environ name with
  | none => exact iff_of_false Bool.false_ne_true nofun
  | some env_var =>
    dsimp only
    rw [decide_eq_true_iff]
    exact ⟨fun on => ⟨env_var, rfl, on⟩, fun ⟨_, same, on⟩ => Option.some.inj same ▸ on⟩

/-- With a path that can be read at each expression the loop is about the expressions alone. -/
theorem filtersPass_iff {o : HookOutcomes} {path : GoString} {i : Nat} {regexps : List GoString}
    (readable : ∀ j < regexps.length, (o.filterBinpath (i + j)).Finds path) :
    FiltersPass o i (regexps.map some) ↔ ∀ j regexp, regexps[j]? = some regexp →
      o.regcomp (i + j) regexp = true ∧ o.regexec (i + j) regexp path = false := by
  induction regexps generalizing i with
  | nil => exact iff_of_true .done nofun
  | cons first rest ih =>
    have here := readable 0 (by rw [List.length_cons]; omega)
    have later : ∀ j < rest.length, (o.filterBinpath (i + 1 + j)).Finds path := by
      intro j inside
      rw [Nat.add_assoc, Nat.add_comm 1]
      exact readable (j + 1) (Nat.succ_lt_succ inside)
    constructor
    · intro passes j regexp found
      cases passes with
      | next compiles finds unmatched passes =>
        cases j with
        | zero =>
          cases found
          rw [finds.unique here] at unmatched
          exact ⟨compiles, unmatched⟩
        | succ j =>
          rw [Nat.add_comm j, ← Nat.add_assoc]
          exact (ih later).mp passes j regexp found
    · intro each
      obtain ⟨compiles, unmatched⟩ := each 0 first rfl
      refine .next compiles here unmatched ((ih later).mpr fun j regexp found => ?_)
      rw [Nat.add_assoc, Nat.add_comm 1]
      exact each (j + 1) regexp found

/-- The loop ends one way or the other. -/
theorem filters_decide {o : HookOutcomes} {path : GoString} {i : Nat} {regexps : List GoString}
    (readable : ∀ j < regexps.length, (o.filterBinpath (i + j)).Finds path) :
    FiltersStop o i (regexps.map some) ∨ FiltersPass o i (regexps.map some) := by
  induction regexps generalizing i with
  | nil => exact Or.inr .done
  | cons first rest ih =>
    have here := readable 0 (by rw [List.length_cons]; omega)
    have decided := @ih (i + 1) fun j inside => by
      rw [Nat.add_assoc, Nat.add_comm 1]
      exact readable (j + 1) (Nat.succ_lt_succ inside)
    cases compiles : o.regcomp i first with
    | false => exact Or.inl (.uncompiled compiles)
    | true =>
      cases matched : o.regexec i first path with
      | true => exact Or.inl (.matched compiles here matched)
      | false => exact decided.imp (.later compiles here matched) (.next compiles here matched)

theorem firstConnected_isSome {servinfo : List AddressOutcome} :
    (firstConnected servinfo).isSome ↔ ∃ p ∈ servinfo, p.socket.isSome ∧ p.connect = true := by
  rw [← (connectLoop_connects servinfo initialGlobals).1]
  exact connectLoop_connected

theorem sentOn_connectLoop (servinfo : List AddressOutcome) (globals : HookGlobals) :
    sentOn (connectLoop globals servinfo).2.1 = [] := by
  induction servinfo generalizing globals with
  | nil => rfl
  | cons p rest ih =>
    rw [connectLoop]
    split
    · exact ih _
    · split
      · rfl
      · exact ih _

/-- The arrays hold as many entries as the LENGTH macros say. -/
structure CompileOptions.Whole (options : CompileOptions) : Prop where
  regexps : options.filterRegexpsLength ≤ options.filterRegexps.length
  whitelist : options.environmentWhitelistLength ≤ options.environmentWhitelist.length

variable {options : CompileOptions} {process : HostProcess} {o : HookOutcomes} {path : GoString}

theorem CompileOptions.Whole.debugInfoSafe (whole : options.Whole) (process : HostProcess) : DebugInfoSafe options process :=
  fun _ => ⟨whole.regexps, fun _ => whole.whitelist⟩

/-- With whole arrays the loop is about the expressions of the list. -/
theorem CompileOptions.Whole.filtersPass_iff (whole : options.Whole)
    (readable : ∀ i < options.filterRegexpsLength, (o.filterBinpath i).Finds path) :
    FiltersPass o 0 options.regexps ↔ ∀ i < options.filterRegexpsLength, ∀ regexp,
      options.filterRegexps[i]? = some regexp → o.regcomp i regexp = true ∧ o.regexec i regexp path = false := by
  have count : (options.filterRegexps.take options.filterRegexpsLength).length = options.filterRegexpsLength :=
    List.length_take_of_le whole.regexps
  rw [CompileOptions.regexps, arrayReads_eq whole.regexps,
    Ogrt.filtersPass_iff fun j inside => by rw [Nat.zero_add]; exact readable j (by omega)]
  simp only [Nat.zero_add, List.getElem?_take, Option.ite_none_right_eq_some]
  exact ⟨fun each i before regexp found => each i regexp ⟨before, found⟩,
    fun each i regexp both => each i both.1 regexp both.2⟩

theorem CompileOptions.Whole.filters_decide (whole : options.Whole)
    (readable : ∀ i < options.filterRegexpsLength, (o.filterBinpath i).Finds path) :
    FiltersStop o 0 options.regexps ∨ FiltersPass o 0 options.regexps := by
  have count : (options.filterRegexps.take options.filterRegexpsLength).length = options.filterRegexpsLength :=
    List.length_take_of_le whole.regexps
  rw [CompileOptions.regexps, arrayReads_eq whole.regexps]
  exact Ogrt.filters_decide fun j inside => by rw [Nat.zero_add]; exact readable j (by omega)

theorem Reports.unique {fd other : Nat} (one : Reports options process o path fd)
    (two : Reports options process o path other) : fd = other := by
  obtain ⟨servinfo, resolved, first⟩ := one.connected
  obtain ⟨servinfo', resolved', first'⟩ := two.connected
  cases Option.some.inj (resolved.symm.trans resolved')
  exact Option.some.inj (first.symm.trans first')

/-- Where nothing is to be reported nothing can go wrong either. -/
theorem hookSafe_of_reports (whole : options.Whole)
    (readable : ∀ i < options.filterRegexpsLength, (o.filterBinpath i).Finds path)
    (gathered : ∀ fd, Reports options process o path fd →
      (Logs process → o.logBinpath.Fits) ∧ SendSafe options process o.sending) :
    HookSafe options process o initialGlobals := by
  refine ⟨whole.debugInfoSafe process, fun active _ named => ?_⟩
  refine (whole.filters_decide readable).imp_right fun passes => ⟨passes, fun servinfo resolved connects => ?_⟩
  obtain ⟨fd, first⟩ := Option.isSome_iff_exists.mp (firstConnected_isSome.mpr connects)
  have filters := (whole.filtersPass_iff readable).mp passes
  exact gathered fd ⟨ogrtEnvEnabled_iff.mp (active.resolve_left nofun), named, filters, servinfo, resolved, first⟩

/-- The first call of the hook sends once, on the socket of the first address that can be
connected, if all the conditions are met, and never otherwise. A message that is to be sent
has to be gathered first. -/
theorem init_hook_decision (options : CompileOptions) (process : HostProcess) (o : HookOutcomes) (path : GoString)
    (whole : options.Whole) (readable : ∀ i < options.filterRegexpsLength, (o.filterBinpath i).Finds path)
    (gathered : ∀ fd, Reports options process o path fd →
      (Logs process → o.logBinpath.Fits) ∧ SendSafe options process o.sending) :
    ∃ result, ogrtPreloadInitHook options process o initialGlobals = .ok result ∧
      (∀ fd, Reports options process o path fd → sentOn result.calls = [(fd : Int)]) ∧
      ((¬ ∃ fd, Reports options process o path fd) → sentOn result.calls = []) := by
  obtain ⟨result, ran⟩ := ogrtPreloadInitHook_succeeds.mpr (hookSafe_of_reports whole readable gathered)
  have passes {fd : Nat} (reports : Reports options process o path fd) : FiltersPass o 0 options.regexps :=
    (whole.filtersPass_iff readable).mpr reports.filters
  refine ⟨result, ran, ?_⟩
  -- in each case nothing is sent, or the address that is connected is the one to report on
  have silent (quiet : sentOn result.calls = []) (no : ∀ fd, ¬ Reports options process o path fd) :
      (∀ fd, Reports options process o path fd → sentOn result.calls = [(fd : Int)]) ∧
        ((¬ ∃ fd, Reports options process o path fd) → sentOn result.calls = []) :=
    ⟨fun fd reports => absurd reports (no fd), fun _ => quiet⟩
  cases hook_effect ran with
  | idle other =>
    refine silent rfl fun fd reports => other ⟨Or.inr (ogrtEnvEnabled_iff.mpr reports.enabled), ?_⟩
    show (-1 : Int) < 0
    omega
  | stopped _ _ stops =>
    refine silent rfl fun fd reports => ?_
    rcases stops with unnamed | stops
    · rw [reports.named] at unnamed
      cases unnamed
    · exact stops.not_pass (passes reports)
  | unresolved _ _ _ _ failed =>
    refine silent rfl fun fd reports => ?_
    obtain ⟨servinfo, resolved, _⟩ := reports.connected
    rw [failed] at resolved
    cases resolved
  | @unconnected servinfo _ _ _ _ resolved none =>
    refine silent (sentOn_connectLoop servinfo _) fun fd reports => ?_
    obtain ⟨servinfo', resolved', first⟩ := reports.connected
    cases Option.some.inj (resolved.symm.trans resolved')
    rw [none] at first
    cases first
  | @reported servinfo fd sending active _ named filtered resolved first _ =>
    have filters := (whole.filtersPass_iff readable).mp filtered
    have reports : Reports options process o path fd :=
      ⟨ogrtEnvEnabled_iff.mp (active.resolve_left nofun), named, filters, servinfo, resolved, first⟩
    have sent : sentOn (.getaddrinfo :: (connectLoop (initialGlobals.entered process) servinfo).2.1 ++
        [.freeaddrinfo, .send fd sending.datagram (o.send sending.datagram), .close fd]) = [(fd : Int)] := by
      unfold sentOn
      rw [List.cons_append, List.filterMap_cons, List.filterMap_append]
      exact congrArg (· ++ [(fd : Int)]) (sentOn_connectLoop servinfo _)
    exact ⟨fun other reports' => by rw [reports'.unique reports]; exact sent, fun no => absurd ⟨fd, reports⟩ no⟩

theorem lsPath_length : (ascii "/bin/ls").length ≤ pathMax := by decide

/-- The calls of procMissing, with a path that can be read for the filter expressions. -/
def binpathRead : HookOutcomes :=
  { procMissing with
    filterBinpath := fun i => { procMissing.filterBinpath i with readlink := some ⟨ascii "/bin/ls", lsPath_length⟩ } }

def bashFiltered : CompileOptions := ⟨ascii "JOBID", [ascii "bash"], 1, true, true, false, true, false, [], 0⟩

theorem bashFiltered_whole : bashFiltered.Whole := ⟨Nat.le_refl _, Nat.le_refl _⟩

theorem bashFiltered_sendSafe : SendSafe bashFiltered watchedProgram binpathRead.sending where
  infos := rfl
  walks := by
    intro info member header inside
    have none : info.phdr = [] := by
      rcases List.mem_pair.mp member with rfl | rfl <;> rfl
    rw [none] at inside
    exact absurd inside List.not_mem_nil
  twoObjects := by decide
  binpath := by
    intro _ _ _ read
    cases read
  modules := by
    intro _ module_env unset
    rw [show getenv watchedProgram.environ (ascii "LOADEDMODULES") = none by decide] at unset
    cases unset
  cmdline := nofun
  environment := ⟨nofun, nofun⟩
  sendbuffer := rfl
  size := by decide

/-- The expression does not match, and the message leaves through the only socket. -/
theorem init_hook_decision_ls :
    Reports bashFiltered watchedProgram binpathRead (ascii "/bin/ls") 3 ∧
      ∃ result, ogrtPreloadInitHook bashFiltered watchedProgram binpathRead initialGlobals = .ok result ∧
        sentOn result.calls = [3] := by
  have reports : Reports bashFiltered watchedProgram binpathRead (ascii "/bin/ls") 3 :=
    ⟨⟨ascii "1", by decide, by decide⟩, rfl, fun _ _ _ _ => ⟨rfl, rfl⟩, _, rfl, rfl⟩
  obtain ⟨result, ran, sends, _⟩ := init_hook_decision bashFiltered watchedProgram binpathRead (ascii "/bin/ls")
    bashFiltered_whole (fun _ _ => ⟨_, _, rfl, rfl, by decide, by decide⟩)
    (fun _ _ => ⟨(fun _ _ _ _ read => absurd read nofun), bashFiltered_sendSafe⟩)
  exact ⟨reports, result, ran, sends 3 reports⟩

end Ogrt
