import Ogrt.Client.SendMemory

namespace Ogrt
open ResourceTrace Checked

/-- The loop from turn `i` on gets to turn `k` and compiles its expression. -/
inductive TurnCompiled (o : HookOutcomes) (k : Nat) : Nat → List (Option GoString) → Prop
  | here {regexp rest} : o.regcomp k regexp = true → TurnCompiled o k k (some regexp :: rest)
  | later {i regexp rest path} : o.regcomp i regexp = true → (o.filterBinpath i).Finds path →
      o.regexec i regexp path = false → TurnCompiled o k (i + 1) rest → TurnCompiled o k i (some regexp :: rest)

/-- What the turn `k` of the filter loop leaves behind. -/
def HookResource.OfTurn (k : Nat) (r : HookResource) : Prop := r = .regex k ∨ r = .filterBinpath k

theorem own_filterTrace_eq_nil {o : HookOutcomes} {r : HookResource} {i : Nat} {regexps : List (Option GoString)}
    (other : ∀ k, r.OfTurn k → k < i) : own r (filterTrace o i regexps) = [] := by
  induction regexps generalizing i with
  | nil => rfl
  | cons entry rest ih =>
    cases entry with
    | none => rfl
    | some regexp =>
      have apart : ¬ HookResource.regex i = r ∧ ¬ HookResource.filterBinpath i = r :=
        ⟨fun same => Nat.lt_irrefl i (other i (Or.inl same.symm)), fun same => Nat.lt_irrefl i (other i (Or.inr same.symm))⟩
      have later : own r (filterTrace o (i + 1) rest) = [] := ih fun k turn => (other k turn).trans (Nat.lt_succ_self i)
      rw [filterTrace]
      simp [own_ite, apart, later]

theorem BinpathOutcome.Finds.set {found : BinpathOutcome} {path : GoString} (finds : found.Finds path) :
    found.set = true := by
  obtain ⟨block, link, allocated, read, _⟩ := finds
  unfold BinpathOutcome.set
  rw [allocated, read]
  rfl

/-- The filter loop passes an expression that does not match. -/
theorem filterLoop_one {o : HookOutcomes} {i : Nat} {regexp path : GoString} (compiles : o.regcomp i regexp = true)
    (finds : (o.filterBinpath i).Finds path) :
    filterLoop o i [some regexp] = .ok true ↔ ¬ o.regexec i regexp path = true := by
  rw [filterLoop_cons, if_pos compiles]
  constructor
  · rintro ⟨path', finds', unmatched⟩ matched
    rw [finds'.unique finds, if_pos matched] at unmatched
    cases unmatched
  · intro unmatched
    refine ⟨path, finds, ?_⟩
    rw [if_neg unmatched]
    rfl

/-- Each expression that is compiled stays compiled, and so does the path it was matched with. -/
theorem history_filterTrace {o : HookOutcomes} {r : HookResource} {k : Nat} (about : r.OfTurn k) {i : Nat}
    {regexps : List (Option GoString)} (returns : Succeeds (filterLoop o i regexps)) :
    ∃ after, history false (own r (filterTrace o i regexps)) = some after ∧ (after = true ↔ TurnCompiled o k i regexps) := by
  induction regexps generalizing i with
  | nil => exact ⟨false, rfl, iff_of_false Bool.false_ne_true nofun⟩
  | cons entry rest ih =>
    obtain ⟨passed, ran⟩ := returns
    cases entry with
    | none => cases ran
    | some regexp =>
      rw [filterLoop_cons] at ran
      rw [filterTrace]
      cases compiles : o.regcomp i regexp with
      | false =>
        refine ⟨false, rfl, iff_of_false Bool.false_ne_true fun compiled => ?_⟩
        cases compiled with
        | here compiles' => rw [compiles] at compiles'; cases compiles'
        | later compiles' => rw [compiles] at compiles'; cases compiles'
      | true =>
        rw [if_pos compiles] at ran
        obtain ⟨path, finds, ran⟩ := ran
        have continues := filterLoop_one compiles finds
        by_cases here : k = i
        · subst here
          refine ⟨true, ?_, iff_of_true rfl (.here compiles)⟩
          have later : own r (filterTrace o (k + 1) rest) = [] := by
            refine own_filterTrace_eq_nil fun j turn => ?_
            rcases about with rfl | rfl <;> rcases turn with same | same <;> cases same <;> omega
          rcases about with rfl | rfl
          · simp [own_ite, later]
          · simp [own_ite, later, history_append, finds.set]
        · have apart : ¬ HookResource.regex i = r ∧ ¬ HookResource.filterBinpath i = r := by
            rcases about with rfl | rfl <;> simp [Ne.symm here]
          have skipped (more : HookTrace) : own r (.acquire (.regex i) :: ogrtGetBinpathTrace (.filterBinpath i) (o.filterBinpath i) ++
              [.use (.regex i), .use (.filterBinpath i)] ++ more) = own r more := by
            simp [apart]
          rw [if_pos rfl, skipped]
          split at ran
          · rename_i matched
            rw [if_neg fun passes => continues.mp passes matched]
            refine ⟨false, rfl, iff_of_false Bool.false_ne_true fun compiled => ?_⟩
            cases compiled with
            | here => exact here rfl
            | later _ finds' unmatched =>
              rw [finds'.unique finds, matched] at unmatched
              cases unmatched
          · rename_i unmatched
            rw [if_pos (continues.mpr unmatched)]
            obtain ⟨after, account, same⟩ := ih ⟨passed, ran⟩
            refine ⟨after, account, same.trans ⟨.later compiles finds (Bool.eq_false_iff.mpr unmatched), fun compiled => ?_⟩⟩
            cases compiled with
            | here => exact absurd rfl here
            | later _ _ _ compiled => exact compiled

/-- The process is watched, and the hook gets past gethostname. -/
structure HookWatches (process : HostProcess) (o : HookOutcomes) (globals : HookGlobals) : Prop where
  active : HookActive process globals
  fresh : globals.daemonSocket < 0
  named : o.gethostname = true

/-- The hook gets past the filters, and to the addresses of the server. -/
structure HookResolves (options : CompileOptions) (process : HostProcess) (o : HookOutcomes) (globals : HookGlobals)
    (servinfo : List AddressOutcome) : Prop where
  watches : HookWatches process o globals
  passes : FiltersPass o 0 options.regexps
  resolved : o.getaddrinfo = some servinfo

/-- What a call leaves behind in the process. -/
inductive Leaks (options : CompileOptions) (process : HostProcess) (o : HookOutcomes) (globals : HookGlobals) :
    HookResource → Prop
  | regex {k} : HookWatches process o globals → TurnCompiled o k 0 options.regexps →
      Leaks options process o globals (.regex k)
  | filterBinpath {k} : HookWatches process o globals → TurnCompiled o k 0 options.regexps →
      Leaks options process o globals (.filterBinpath k)
  | addressList {servinfo} : HookResolves options process o globals servinfo → firstConnected servinfo = none →
      Leaks options process o globals .addressList
  | logBinpath {servinfo} : HookResolves options process o globals servinfo → (firstConnected servinfo).isSome →
      Logs process → o.logBinpath.set = true → Leaks options process o globals .logBinpath
  | cmdlineFile {servinfo} : HookResolves options process o globals servinfo → (firstConnected servinfo).isSome →
      options.sendCmdline = true → o.sending.cmdline.malloc.isSome → Leaks options process o globals .cmdlineFile

variable {options : CompileOptions} {process : HostProcess} {o : HookOutcomes} {globals : HookGlobals}

theorem Leaks.watches {r : HookResource} (leaks : Leaks options process o globals r) : HookWatches process o globals := by
  cases leaks with
  | regex watches => exact watches
  | filterBinpath watches => exact watches
  | addressList resolves => exact resolves.watches
  | logBinpath resolves => exact resolves.watches
  | cmdlineFile resolves => exact resolves.watches

theorem hookTrace_unwatched (other : ¬ HookWatches process o globals) :
    ogrtPreloadInitHookTrace options process o globals = [] := by
  unfold ogrtPreloadInitHookTrace
  dsimp only
  split
  · rename_i entered
    rw [if_neg fun named => other ⟨entered.1, entered.2, named⟩]
  · rfl

theorem hookTrace_watched (watches : HookWatches process o globals) :
    ogrtPreloadInitHookTrace options process o globals = filterTrace o 0 options.regexps ++
      if filterLoop o 0 options.regexps = .ok true then
        connectAndSendTrace options process o (if ogrtEnvEnabled process.environ (ascii "OGRT_SILENT") = true ∨
          ogrtEnvEnabled process.environ (ascii "OGRT_SCHLEICHFAHRT") = true then ogrtLogNothing else ogrtLogInfo)
      else [] := by
  unfold ogrtPreloadInitHookTrace
  dsimp only
  rw [if_pos ⟨watches.active, watches.fresh⟩, if_pos watches.named]

theorem history_unconnected {servinfo : List AddressOutcome} {level : Nat} (resolved : o.getaddrinfo = some servinfo)
    (none : firstConnected servinfo = none) (r : HookResource) :
    history false (own r (connectAndSendTrace options process o level)) = some (decide (r = .addressList)) := by
  unfold connectAndSendTrace
  rw [resolved]
  cases r with
  | addressList => simp [none]
  | _ => simp [none]

theorem history_connected {servinfo : List AddressOutcome} {level : Nat} (resolved : o.getaddrinfo = some servinfo)
    (found : (firstConnected servinfo).isSome) (safe : SendSafe options process o.sending) (r : HookResource) :
    history false (own r (connectAndSendTrace options process o level)) =
      some (decide (r = .logBinpath ∧ ogrtLogInfo ≤ level ∧ o.logBinpath.set = true ∨
        r = .cmdlineFile ∧ options.sendCmdline = true ∧ o.sending.cmdline.malloc.isSome = true)) := by
  unfold connectAndSendTrace
  rw [resolved]
  cases r with
  | regex k => simp [found, own_ite, @own_sendTrace_eq_nil _ _ _ (.regex k) trivial]
  | filterBinpath k => simp [found, own_ite, @own_sendTrace_eq_nil _ _ _ (.filterBinpath k) trivial]
  | addressList => simp [found, own_ite, @own_sendTrace_eq_nil _ _ _ .addressList trivial]
  | logBinpath =>
    simp [found, own_ite, @own_sendTrace_eq_nil _ _ _ .logBinpath trivial]
    split
    · rename_i logs
      simp [logs]
    · rename_i quiet
      simp [quiet]
  | cmdlineFile => simp [found, own_ite, history_sendTrace safe, gathered]
  | _ => simp [found, own_ite, history_sendTrace safe]

theorem own_connectTrace_eq_nil {r : HookResource} {k : Nat} (about : r.OfTurn k) (level : Nat) :
    own r (connectAndSendTrace options process o level) = [] := by
  unfold connectAndSendTrace
  cases o.getaddrinfo with
  | none => rfl
  | some servinfo =>
    rcases about with rfl | rfl
    · simp [own_ite, @own_sendTrace_eq_nil _ _ _ (.regex k) trivial]
    · simp [own_ite, @own_sendTrace_eq_nil _ _ _ (.filterBinpath k) trivial]

theorem filterLoop_returns {result : HookResult} (ran : ogrtPreloadInitHook options process o globals = .ok result)
    (watches : HookWatches process o globals) : Succeeds (filterLoop o 0 options.regexps) := by
  cases hook_effect ran with
  | idle other => exact absurd ⟨watches.active, watches.fresh⟩ other
  | stopped _ _ stops =>
    rcases stops with unnamed | stops
    · rw [watches.named] at unnamed
      cases unnamed
    · exact ⟨false, filterLoop_false.mpr stops⟩
  | unresolved _ _ _ passes => exact ⟨true, filterLoop_true.mpr passes⟩
  | unconnected _ _ _ passes => exact ⟨true, filterLoop_true.mpr passes⟩
  | reported _ _ _ passes => exact ⟨true, filterLoop_true.mpr passes⟩

theorem leaks_ofTurn {r : HookResource} {k : Nat} (about : r.OfTurn k) :
    Leaks options process o globals r ↔ HookWatches process o globals ∧ TurnCompiled o k 0 options.regexps := by
  rcases about with rfl | rfl
  · constructor
    · intro leaks
      cases leaks with
      | regex watches compiled => exact ⟨watches, compiled⟩
    · exact fun both => .regex both.1 both.2
  · constructor
    · intro leaks
      cases leaks with
      | filterBinpath watches compiled => exact ⟨watches, compiled⟩
    · exact fun both => .filterBinpath both.1 both.2

theorem Leaks.resolves {r : HookResource} (leaks : Leaks options process o globals r) (about : ∀ k, ¬ r.OfTurn k) :
    ∃ servinfo, HookResolves options process o globals servinfo := by
  cases leaks with
  | @regex k => exact absurd (Or.inl rfl) (about k)
  | @filterBinpath k => exact absurd (Or.inr rfl) (about k)
  | addressList resolves => exact ⟨_, resolves⟩
  | logBinpath resolves => exact ⟨_, resolves⟩
  | cmdlineFile resolves => exact ⟨_, resolves⟩

theorem HookResolves.unique {servinfo other : List AddressOutcome} (one : HookResolves options process o globals servinfo)
    (resolved : o.getaddrinfo = some other) : servinfo = other := Option.some.inj (one.resolved.symm.trans resolved)

/-- The hook fails to reach the server, or reports the process. -/
theorem leaks_behind_filters {r : HookResource} (about : ∀ k, ¬ r.OfTurn k) {servinfo : List AddressOutcome}
    (resolves : HookResolves options process o globals servinfo) :
    Leaks options process o globals r ↔
      firstConnected servinfo = none ∧ r = .addressList ∨
      (firstConnected servinfo).isSome ∧ (r = .logBinpath ∧ Logs process ∧ o.logBinpath.set = true ∨
        r = .cmdlineFile ∧ options.sendCmdline = true ∧ o.sending.cmdline.malloc.isSome = true) := by
  constructor
  · intro leaks
    cases leaks with
    | @regex k => exact absurd (Or.inl rfl) (about k)
    | @filterBinpath k => exact absurd (Or.inr rfl) (about k)
    | addressList own none =>
      rw [own.unique resolves.resolved] at none
      exact Or.inl ⟨none, rfl⟩
    | logBinpath own found logs set =>
      rw [own.unique resolves.resolved] at found
      exact Or.inr ⟨found, Or.inl ⟨rfl, logs, set⟩⟩
    | cmdlineFile own found sent allocated =>
      rw [own.unique resolves.resolved] at found
      exact Or.inr ⟨found, Or.inr ⟨rfl, sent, allocated⟩⟩
  · rintro (⟨none, rfl⟩ | ⟨found, ⟨rfl, logs, set⟩ | ⟨rfl, sent, allocated⟩⟩)
    · exact .addressList resolves none
    · exact .logBinpath resolves found logs set
    · exact .cmdlineFile resolves found sent allocated

theorem logs_iff : Logs process ↔ ogrtLogInfo ≤ if ogrtEnvEnabled process.environ (ascii "OGRT_SILENT") = true ∨
    ogrtEnvEnabled process.environ (ascii "OGRT_SCHLEICHFAHRT") = true then ogrtLogNothing else ogrtLogInfo := by
  unfold Logs
  split
  · rename_i silent
    exact iff_of_false (fun loud => loud silent) (by decide)
  · rename_i loud
    exact iff_of_true loud (Nat.le_refl _)

theorem hook_history {result : HookResult} (ran : ogrtPreloadInitHook options process o globals = .ok result)
    (r : HookResource) : ∃ after, history false (own r (ogrtPreloadInitHookTrace options process o globals)) = some after ∧
      (after = true ↔ Leaks options process o globals r) := by
  by_cases watches : HookWatches process o globals
  · have returns := filterLoop_returns ran watches
    rw [hookTrace_watched watches, own_append, own_ite]
    by_cases turn : ∃ k, r.OfTurn k
    · obtain ⟨k, about⟩ := turn
      rw [own_connectTrace_eq_nil about, own_nil, ite_self, List.append_nil, leaks_ofTurn about, and_iff_right watches]
      exact history_filterTrace about returns
    · have about : ∀ k, ¬ r.OfTurn k := fun k own => turn ⟨k, own⟩
      rw [own_filterTrace_eq_nil fun k own => absurd own (about k), List.nil_append]
      cases hook_effect ran with
      | idle other => exact absurd ⟨watches.active, watches.fresh⟩ other
      | stopped _ _ stops =>
        have stops := stops.resolve_left (by rw [watches.named]; exact nofun)
        have stopped : filterLoop o 0 options.regexps ≠ .ok true := fun passes =>
          stops.not_pass (filterLoop_true.mp passes)
        rw [if_neg stopped]
        refine ⟨false, rfl, iff_of_false Bool.false_ne_true fun leaks => ?_⟩
        obtain ⟨_, resolves⟩ := leaks.resolves about
        exact stops.not_pass resolves.passes
      | unresolved _ _ _ passes failed =>
        have nothing (level : Nat) : connectAndSendTrace options process o level = [] := by
          unfold connectAndSendTrace
          rw [failed]
          rfl
        rw [nothing, ite_self]
        refine ⟨false, rfl, iff_of_false Bool.false_ne_true fun leaks => ?_⟩
        obtain ⟨_, resolves⟩ := leaks.resolves about
        cases failed.symm.trans resolves.resolved
      | @unconnected servinfo _ _ _ passes resolved none =>
        have resolves : HookResolves options process o globals servinfo := ⟨watches, passes, resolved⟩
        rw [if_pos (filterLoop_true.mpr passes), history_unconnected resolved none, leaks_behind_filters about resolves, none]
        refine ⟨_, rfl, ?_⟩
        simp
      | @reported servinfo fd sending _ _ _ passes resolved found sent =>
        have resolves : HookResolves options process o globals servinfo := ⟨watches, passes, resolved⟩
        have some : (firstConnected servinfo).isSome := by rw [found]; rfl
        rw [if_pos (filterLoop_true.mpr passes), history_connected resolved some (ogrtSendProcessinfo_succeeds.mp ⟨_, sent⟩),
          leaks_behind_filters about resolves, logs_iff]
        refine ⟨_, rfl, ?_⟩
        simp [found]
  · rw [hookTrace_unwatched watches]
    exact ⟨false, rfl, iff_of_false Bool.false_ne_true fun leaks => watches leaks.watches⟩

/-- The calls of the hook in one process, each with resources of its own, up to one that fails. -/
def hookCallsTrace (options : CompileOptions) : HookGlobals → Nat → List (HostProcess × HookOutcomes) →
    List (Event (Nat × HookResource))
  | _, _, [] => []
  | globals, k, call :: rest =>
    (ogrtPreloadInitHookTrace options call.1 call.2 globals).map (Event.map (Prod.mk k)) ++
      match ogrtPreloadInitHook options call.1 call.2 globals with
      | .ok result => hookCallsTrace options result.globals (k + 1) rest
      | .error _ => []

/-- The call `j` of those made from a state on leaks. -/
def LeakedBy (options : CompileOptions) (s : HookState) (calls : List (HostProcess × HookOutcomes)) (j : Nat)
    (r : HookResource) : Prop :=
  ∃ call before, calls[j]? = some call ∧ (hookRuns options).run s (calls.take j) = some before ∧
    Leaks options call.1 call.2 before.globals r

theorem own_hookCallsTrace_eq_nil {j : Nat} {r : HookResource} {k : Nat} (before : j < k) (globals : HookGlobals)
    (calls : List (HostProcess × HookOutcomes)) : own (j, r) (hookCallsTrace options globals k calls) = [] := by
  induction calls generalizing globals k with
  | nil => rfl
  | cons call rest ih =>
    have other : ∀ r', (k, r') ≠ (j, r) := fun r' same => Nat.ne_of_gt before (congrArg Prod.fst same)
    rw [hookCallsTrace, own_append, own_map_eq_nil other, List.nil_append]
    split
    · exact ih (before.trans (Nat.lt_succ_self k)) _
    · rfl

theorem hookRuns_ok {s t : HookState} {call : HostProcess × HookOutcomes}
    (taken : (hookRuns options).step s call = some t) : ∃ result,
      ogrtPreloadInitHook options call.1 call.2 s.globals = .ok result ∧
        t = ⟨result.globals, s.holdings.settle result.calls⟩ := by
  dsimp only [hookRuns] at taken
  split at taken
  · rename_i result called
    exact ⟨result, called, (Option.some.inj taken).symm⟩
  · cases taken

theorem history_hookCallsTrace {s t : HookState} {calls : List (HostProcess × HookOutcomes)}
    (ran : (hookRuns options).run s calls = some t) (j : Nat) (r : HookResource) (k : Nat) :
    ∃ after, history false (own (k + j, r) (hookCallsTrace options s.globals k calls)) = some after ∧
      (after = true ↔ LeakedBy options s calls j r) := by
  induction calls generalizing s j k with
  | nil =>
    refine ⟨false, rfl, iff_of_false Bool.false_ne_true ?_⟩
    rintro ⟨_, _, found, _⟩
    rw [List.getElem?_nil] at found
    cases found
  | cons call rest ih =>
    obtain ⟨next, taken, later⟩ := StepSystem.run_cons_eq_some.mp ran
    rw [hookCallsTrace, own_append]
    obtain ⟨result, called, rfl⟩ := hookRuns_ok taken
    rw [called]
    cases j with
    | zero =>
      obtain ⟨after, account, same⟩ := hook_history called r
      rw [Nat.add_zero, own_map (Prod.mk_right_injective k), own_hookCallsTrace_eq_nil (Nat.lt_succ_self k), List.append_nil,
        history_map]
      refine ⟨after, account, same.trans ⟨fun leaks => ⟨call, s, rfl, rfl, leaks⟩, ?_⟩⟩
      rintro ⟨_, before, found, here, leaks⟩
      cases found
      cases here
      exact leaks
    | succ j =>
      have other : ∀ r', (k, r') ≠ (k + (j + 1), r) := fun r' same => by
        have index := congrArg Prod.fst same
        dsimp only at index
        omega
      rw [own_map_eq_nil other, List.nil_append, show k + (j + 1) = k + 1 + j by omega]
      obtain ⟨after, account, same⟩ := ih later j (k + 1)
      refine ⟨after, account, same.trans ?_⟩
      constructor
      · rintro ⟨own, before, found, earlier, leaks⟩
        exact ⟨own, before, found, StepSystem.run_cons_eq_some.mpr ⟨_, taken, earlier⟩, leaks⟩
      · rintro ⟨own, before, found, earlier, leaks⟩
        obtain ⟨_, first, earlier⟩ := StepSystem.run_cons_eq_some.mp earlier
        cases Option.some.inj (taken.symm.trans first)
        exact ⟨own, before, found, earlier, leaks⟩

/-- Once send was called no call leaks. -/
theorem Leaks.uncalled {s : HookState} {calls : List (HostProcess × HookOutcomes)} {call : HostProcess × HookOutcomes}
    (ran : (hookRuns options).run (hookRuns options).init calls = some s) {r : HookResource}
    (leaks : Leaks options call.1 call.2 s.globals r) : s.holdings.called = false := by
  have stored : s.Stored := StepSystem.run_invariant stored_init HookState.Stored.step ran
  exact stored.uncalled leaks.watches.fresh

/-- In every run of calls of the hook that all return, each resource is used and released only
while it is held, and none is acquired twice. What is left is what calls leak that were made
before send was called. -/
theorem hook_leaks (options : CompileOptions) (calls : List (HostProcess × HookOutcomes)) (s : HookState)
    (ran : (hookRuns options).run (hookRuns options).init calls = some s) :
    ∃ held, (ledger (Nat × HookResource)).run ∅ (hookCallsTrace options initialGlobals 0 calls) = some held ∧
      ∀ j r, (j, r) ∈ held ↔ ∃ call before, calls[j]? = some call ∧
        (hookRuns options).run (hookRuns options).init (calls.take j) = some before ∧
          before.holdings.called = false ∧ Leaks options call.1 call.2 before.globals r := by
  obtain ⟨held, stands, left⟩ := @run_of_histories _ _ ∅ (hookCallsTrace options initialGlobals 0 calls)
    (fun tagged => LeakedBy options (hookRuns options).init calls tagged.1 tagged.2) fun tagged => by
      obtain ⟨after, account, same⟩ := history_hookCallsTrace ran tagged.1 tagged.2 0
      rw [Nat.zero_add] at account
      exact ⟨after, account, same⟩
  refine ⟨held, stands, fun j r => (left (j, r)).trans ?_⟩
  constructor
  · rintro ⟨call, before, found, earlier, leaks⟩
    exact ⟨call, before, found, earlier, leaks.uncalled earlier, leaks⟩
  · rintro ⟨call, before, found, earlier, _, leaks⟩
    exact ⟨call, before, found, earlier, leaks⟩

/-- With the command line in the message. -/
def cmdlineSent : CompileOptions := { bashFiltered with sendCmdline := true }

theorem cmdlineSent_whole : cmdlineSent.Whole := ⟨Nat.le_refl _, Nat.le_refl _⟩

theorem lsCmdline_length : (ascii "ls").length ≤ pathMax := by decide

/-- The calls of binpathRead, with all of /proc readable. -/
def procRead : HookOutcomes :=
  { binpathRead with
    logBinpath := binpathRead.filterBinpath 0
    sending := { binpathRead.sending with
      cmdline := { binpathRead.sending.cmdline with opens := true, read := some ⟨ascii "ls", lsCmdline_length⟩ } } }

/-- There is no socket to be had. -/
def noSocket : HookOutcomes := { procRead with getaddrinfo := some [⟨none, false⟩] }

theorem procRead_sendSafe : SendSafe cmdlineSent watchedProgram procRead.sending :=
  { bashFiltered_sendSafe with
    cmdline := fun _ _ _ => ⟨rfl, _, rfl, by decide⟩
    environment := ⟨nofun, nofun⟩ }

theorem procRead_passes : FiltersPass procRead 0 cmdlineSent.regexps :=
  .next rfl ⟨_, _, rfl, rfl, by decide, rfl⟩ rfl .done

theorem noSocket_passes : FiltersPass noSocket 0 cmdlineSent.regexps :=
  .next rfl ⟨_, _, rfl, rfl, by decide, rfl⟩ rfl .done

theorem procRead_safe (globals : HookGlobals) : HookSafe cmdlineSent watchedProgram procRead globals :=
  ⟨cmdlineSent_whole.debugInfoSafe _, fun _ _ _ => Or.inr ⟨procRead_passes, fun _ _ _ =>
    ⟨fun _ _ _ _ read => by cases read; decide, procRead_sendSafe⟩⟩⟩

theorem noSocket_safe (globals : HookGlobals) : HookSafe cmdlineSent watchedProgram noSocket globals := by
  refine ⟨cmdlineSent_whole.debugInfoSafe _, fun _ _ _ => Or.inr ⟨noSocket_passes, fun servinfo resolved connects => ?_⟩⟩
  cases resolved
  exact absurd connects (by decide)

/-- A call without a socket leaves the next one to try again. -/
theorem noSocket_fresh {result : HookResult} (ran : ogrtPreloadInitHook cmdlineSent watchedProgram noSocket initialGlobals =
    .ok result) : result.globals.daemonSocket < 0 := by
  have watches : HookActive watchedProgram initialGlobals ∧ initialGlobals.daemonSocket < 0 := by decide
  cases hook_effect ran with
  | idle other => exact absurd watches other
  | stopped => exact watches.2
  | unresolved => exact watches.2
  | @unconnected servinfo _ _ _ _ resolved =>
    cases resolved
    decide
  | @reported servinfo fd _ _ _ _ _ resolved found =>
    cases resolved
    cases found

/-- A first call finds no socket and a second one reports /bin/ls: both leave an expression behind
with the path it was matched with, the first the address list, and the second the path that it
logs and the file that it takes the command line from. -/
theorem hook_leaks_ls : ∃ s held, (hookRuns cmdlineSent).run (hookRuns cmdlineSent).init
      [(watchedProgram, noSocket), (watchedProgram, procRead)] = some s ∧
    (ledger (Nat × HookResource)).run ∅ (hookCallsTrace cmdlineSent initialGlobals 0
      [(watchedProgram, noSocket), (watchedProgram, procRead)]) = some held ∧
    (0, .regex 0) ∈ held ∧ (0, .filterBinpath 0) ∈ held ∧ (0, .addressList) ∈ held ∧ (0, .cmdlineFile) ∉ held ∧
    (1, .regex 0) ∈ held ∧ (1, .filterBinpath 0) ∈ held ∧ (1, .logBinpath) ∈ held ∧ (1, .cmdlineFile) ∈ held ∧
    (1, .addressList) ∉ held := by
  obtain ⟨first, called⟩ := ogrtPreloadInitHook_succeeds.mpr (noSocket_safe initialGlobals)
  obtain ⟨second, calledAgain⟩ := ogrtPreloadInitHook_succeeds.mpr (procRead_safe first.globals)
  have tried : (hookRuns cmdlineSent).step (hookRuns cmdlineSent).init (watchedProgram, noSocket) =
      some ⟨first.globals, (hookRuns cmdlineSent).init.holdings.settle first.calls⟩ := by
    dsimp only [hookRuns]
    rw [called]
  have reported : (hookRuns cmdlineSent).step
        ⟨first.globals, (hookRuns cmdlineSent).init.holdings.settle first.calls⟩ (watchedProgram, procRead) =
      some ⟨second.globals, ((hookRuns cmdlineSent).init.holdings.settle first.calls).settle second.calls⟩ := by
    dsimp only [hookRuns]
    rw [calledAgain]
  have before : (hookRuns cmdlineSent).run (hookRuns cmdlineSent).init [(watchedProgram, noSocket)] = some _ :=
    StepSystem.run_cons_eq_some.mpr ⟨_, tried, StepSystem.run_nil _⟩
  have ran : (hookRuns cmdlineSent).run (hookRuns cmdlineSent).init
      [(watchedProgram, noSocket), (watchedProgram, procRead)] = some _ :=
    StepSystem.run_cons_eq_some.mpr ⟨_, tried, StepSystem.run_cons_eq_some.mpr ⟨_, reported, StepSystem.run_nil _⟩⟩
  obtain ⟨held, stands, left⟩ := hook_leaks cmdlineSent [(watchedProgram, noSocket), (watchedProgram, procRead)] _ ran
  have watchesFirst : HookWatches watchedProgram noSocket initialGlobals := ⟨Or.inr (by decide), by decide, rfl⟩
  have watches : HookWatches watchedProgram procRead first.globals := ⟨Or.inr (by decide), noSocket_fresh called, rfl⟩
  have resolvesFirst : HookResolves cmdlineSent watchedProgram noSocket initialGlobals [⟨none, false⟩] :=
    ⟨watchesFirst, noSocket_passes, rfl⟩
  have resolves : HookResolves cmdlineSent watchedProgram procRead first.globals [⟨some 3, true⟩] :=
    ⟨watches, procRead_passes, rfl⟩
  have logs : Logs watchedProgram := by
    unfold Logs
    decide
  have leaves {r : HookResource} (leaks : Leaks cmdlineSent watchedProgram noSocket initialGlobals r) : (0, r) ∈ held :=
    (left 0 r).mpr ⟨_, _, rfl, rfl, rfl, leaks⟩
  have leavesAgain {r : HookResource} (leaks : Leaks cmdlineSent watchedProgram procRead first.globals r) : (1, r) ∈ held :=
    (left 1 r).mpr ⟨_, _, rfl, before, @Leaks.uncalled _ _ _ (watchedProgram, procRead) before _ leaks, leaks⟩
  refine ⟨_, held, ran, stands, leaves (.regex watchesFirst (.here rfl)), leaves (.filterBinpath watchesFirst (.here rfl)),
    leaves (.addressList resolvesFirst rfl), fun leaked => ?_, leavesAgain (.regex watches (.here rfl)),
    leavesAgain (.filterBinpath watches (.here rfl)), leavesAgain (.logBinpath resolves rfl logs rfl),
    leavesAgain (.cmdlineFile resolves rfl rfl rfl), fun leaked => ?_⟩
  · obtain ⟨call, start, found, none, _, leaks⟩ := (left 0 _).mp leaked
    cases found
    cases none
    cases leaks with
    | cmdlineFile own connects => rw [own.unique resolvesFirst.resolved] at connects; cases connects
  · obtain ⟨call, start, found, earlier, _, leaks⟩ := (left 1 _).mp leaked
    cases found
    cases leaks with
    | addressList own unconnected => rw [own.unique resolves.resolved] at unconnected; cases unconnected

end Ogrt
