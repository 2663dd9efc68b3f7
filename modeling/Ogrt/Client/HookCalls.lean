import Ogrt.Client.InitHookSafety

namespace Ogrt
open Checked

/-- The globals as the library is loaded. -/
def initialGlobals : HookGlobals := ⟨false, -1, 0, 0⟩

/-- The hook is active once OGRT_ACTIVE was set in one of its calls. -/
def HookActive (process : HostProcess) (globals : HookGlobals) : Prop :=
  globals.active = true ∨ ogrtEnvEnabled process.environ (ascii "OGRT_ACTIVE") = true

instance (process : HostProcess) (globals : HookGlobals) : Decidable (HookActive process globals) :=
  inferInstanceAs (Decidable (_ ∨ _))

/-- The socket of the first address for which both socket and connect succeed. -/
def firstConnected (servinfo : List AddressOutcome) : Option Nat :=
  servinfo.findSome? fun p => if p.connect then p.socket else none

/-- The sockets that send is called on. -/
def sentOn (calls : List SystemCall) : List Int :=
  calls.filterMap fun call => match call with
    | .send fd _ _ => some fd
    | _ => none

/-- The globals of a call that gets to gethostname. -/
def HookGlobals.entered (globals : HookGlobals) (process : HostProcess) : HookGlobals :=
  ⟨true, globals.daemonSocket, process.pid, process.parentPid⟩

/-- What a call of the hook does that returns. -/
inductive HookEffect (options : CompileOptions) (process : HostProcess) (o : HookOutcomes) (globals : HookGlobals) :
    HookResult → Prop
  | idle : ¬ (HookActive process globals ∧ globals.daemonSocket < 0) →
      HookEffect options process o globals
        ⟨0, { globals with active := decide (HookActive process globals) }, [.close globals.daemonSocket]⟩
  | stopped : HookActive process globals → globals.daemonSocket < 0 →
      (o.gethostname = false ∨ FiltersStop o 0 options.regexps) →
      HookEffect options process o globals ⟨1, { globals.entered process with active := false }, []⟩
  | unresolved : HookActive process globals → globals.daemonSocket < 0 → o.gethostname = true →
      FiltersPass o 0 options.regexps → o.getaddrinfo = none →
      HookEffect options process o globals ⟨1, { globals.entered process with active := false }, []⟩
  | unconnected {servinfo} : HookActive process globals → globals.daemonSocket < 0 → o.gethostname = true →
      FiltersPass o 0 options.regexps → o.getaddrinfo = some servinfo → firstConnected servinfo = none →
      HookEffect options process o globals
        ⟨1, { (connectLoop (globals.entered process) servinfo).1 with active := false },
          .getaddrinfo :: (connectLoop (globals.entered process) servinfo).2.1⟩
  | reported {servinfo fd sending} : HookActive process globals → globals.daemonSocket < 0 → o.gethostname = true →
      FiltersPass o 0 options.regexps → o.getaddrinfo = some servinfo → firstConnected servinfo = some fd →
      ogrtSendProcessinfo options process process.pid process.parentPid o.sending = .ok sending →
      HookEffect options process o globals
        ⟨0, (connectLoop (globals.entered process) servinfo).1,
          .getaddrinfo :: (connectLoop (globals.entered process) servinfo).2.1 ++
            [.freeaddrinfo, .send fd sending.datagram (o.send sending.datagram), .close fd]⟩

variable {options : CompileOptions} {process : HostProcess} {o : HookOutcomes} {globals : HookGlobals}

/-- The loop stops at the first address that can be connected, with its socket stored. -/
theorem connectLoop_connects (servinfo : List AddressOutcome) (globals : HookGlobals) :
    (connectLoop globals servinfo).2.2 = (firstConnected servinfo).isSome ∧
      ∀ fd, firstConnected servinfo = some fd → (connectLoop globals servinfo).1.daemonSocket = fd := by
  induction servinfo generalizing globals with
  | nil => exact ⟨rfl, nofun⟩
  | cons p rest ih =>
    unfold firstConnected
    rw [connectLoop, List.findSome?_cons]
    cases obtained : p.socket with
    | none =>
      have skipped : (if p.connect = true then (none : Option Nat) else none) = none := ite_self _
      rw [skipped]
      exact ih _
    | some fd =>
      cases p.connect with
      | true => exact ⟨rfl, fun fd same => congrArg Int.ofNat (Option.some.inj same)⟩
      | false => exact ih _

theorem connectLoop_pids (servinfo : List AddressOutcome) (globals : HookGlobals) :
    (connectLoop globals servinfo).1.pid = globals.pid ∧
      (connectLoop globals servinfo).1.parentPid = globals.parentPid := by
  induction servinfo generalizing globals with
  | nil => exact ⟨rfl, rfl⟩
  | cons p rest ih =>
    rw [connectLoop]
    split
    · exact ih _
    · split
      · exact ⟨rfl, rfl⟩
      · exact ih _

theorem connectAndSend_effect {level : Nat} {result : HookResult} (active : HookActive process globals)
    (fresh : globals.daemonSocket < 0) (named : o.gethostname = true) (passed : FiltersPass o 0 options.regexps)
    (ran : connectAndSend options process o level (globals.entered process) = .ok result) :
    HookEffect options process o globals result := by
  unfold connectAndSend at ran
  split at ran
  · rename_i failed
    cases ran
    exact .unresolved active fresh named passed failed
  · rename_i servinfo resolved
    obtain ⟨connected, stored⟩ := connectLoop_connects servinfo (globals.entered process)
    obtain ⟨pid, parentPid⟩ := connectLoop_pids servinfo (globals.entered process)
    dsimp only at ran
    cases found : firstConnected servinfo with
    | none =>
      rw [connected, found, if_neg (by decide)] at ran
      cases ran
      exact .unconnected active fresh named passed resolved found
    | some fd =>
      rw [connected, found, if_pos Option.isSome_some] at ran
      obtain ⟨_, _, ran⟩ := bind_eq_ok.mp ran
      obtain ⟨sending, sent, ran⟩ := bind_eq_ok.mp ran
      rw [pid, parentPid] at sent
      rw [stored fd found] at ran
      cases ran
      exact .reported active fresh named passed resolved found sent

/-- Everything that a call of the hook does, if it returns. -/
theorem hook_effect {result : HookResult} (ran : ogrtPreloadInitHook options process o globals = .ok result) :
    HookEffect options process o globals result := by
  unfold ogrtPreloadInitHook at ran
  dsimp only at ran
  obtain ⟨_, _, ran⟩ := bind_eq_ok.mp ran
  have flag : (decide (globals.active = true ∨ ogrtEnvEnabled process.environ (ascii "OGRT_ACTIVE") = true)) =
      decide (HookActive process globals) := rfl
  rw [flag] at ran
  split at ran
  · rename_i watched
    obtain ⟨active, fresh⟩ := watched
    have entered : decide (HookActive process globals) = true := active
    rw [entered] at ran
    split at ran
    · rename_i named
      obtain ⟨passed, filtered, ran⟩ := bind_eq_ok.mp ran
      cases passed with
      | false =>
        cases ran
        exact .stopped (of_decide_eq_true active) fresh (Or.inr (filterLoop_false.mp filtered))
      | true =>
        exact connectAndSend_effect (of_decide_eq_true active) fresh named (filterLoop_true.mp filtered) ran
    · rename_i failed
      cases ran
      exact .stopped (of_decide_eq_true active) fresh (Or.inl (Bool.eq_false_iff.mpr failed))
  · rename_i other
    cases ran
    exact .idle fun both => other ⟨decide_eq_true both.1, both.2⟩

theorem FiltersStop.not_pass {o : HookOutcomes} {i : Nat} {regexps : List (Option GoString)} (stops : FiltersStop o i regexps) :
    ¬ FiltersPass o i regexps := fun passes => by
  have stopped := filterLoop_false.mpr stops
  rw [filterLoop_true.mpr passes] at stopped
  cases stopped

theorem BinpathOutcome.Finds.unique {found : BinpathOutcome} {path other : GoString} (one : found.Finds path)
    (two : found.Finds other) : path = other := by
  obtain ⟨_, link, _, read, _, rfl⟩ := one
  obtain ⟨_, link', _, read', _, rfl⟩ := two
  cases Option.some.inj (read.symm.trans read')
  rfl

end Ogrt
