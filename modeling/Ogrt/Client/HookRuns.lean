import Ogrt.Client.HookDecision
import Ogrt.Lib.StepSystem

namespace Ogrt
open Checked

/-- What the hook has to give back. `stray` says that it has given back what it did not hold,
`called` that it has called send, and `sent` that send has accepted a frame. -/
structure Holdings where
  sockets : List Nat
  addressLists : Nat
  stray : Bool
  called : Bool
  sent : Bool

/-- What one call changes. No descriptor has a negative number, so that close(-1) closes none.
A message counts as sent if a socket of the hook accepts all of it. -/
def Holdings.after (holdings : Holdings) : SystemCall → Holdings
  | .getaddrinfo => { holdings with addressLists := holdings.addressLists + 1 }
  | .freeaddrinfo =>
    if 0 < holdings.addressLists then { holdings with addressLists := holdings.addressLists - 1 }
    else { holdings with stray := true }
  | .socket fd => { holdings with sockets := fd :: holdings.sockets }
  | .close fd =>
    if fd < 0 then holdings
    else if fd.toNat ∈ holdings.sockets then { holdings with sockets := holdings.sockets.erase fd.toNat }
    else { holdings with stray := true }
  | .send fd datagram result =>
    if 0 ≤ fd ∧ fd.toNat ∈ holdings.sockets then
      { holdings with called := true, sent := holdings.sent ∨ result = datagram.length }
    else holdings

def Holdings.settle (holdings : Holdings) (calls : List SystemCall) : Holdings := calls.foldl Holdings.after holdings

structure HookState where
  globals : HookGlobals
  holdings : Holdings

/-- The calls of the hook in one process. Its environment and what the system calls do may
differ from call to call. There is no state after a call that fails. -/
def hookRuns (options : CompileOptions) : StepSystem HookState (HostProcess × HookOutcomes) where
  init := ⟨initialGlobals, ⟨[], 0, false, false, false⟩⟩
  step s call :=
    match ogrtPreloadInitHook options call.1 call.2 s.globals with
    | .ok result => some ⟨result.globals, s.holdings.settle result.calls⟩
    | .error _ => none

/-- The hook is active exactly if a message was sent, and each descriptor and address list was
given back exactly once, and nothing else. -/
structure HookState.Settled (s : HookState) : Prop where
  active : s.globals.active = s.holdings.sent
  sockets : s.holdings.sockets = []
  addressLists : s.holdings.addressLists = 0
  stray : s.holdings.stray = false

def FirstConnects (servinfo : List AddressOutcome) : Prop := ∃ fd rest, servinfo = ⟨some fd, true⟩ :: rest

/-- The frame that the call puts together is accepted as a whole. -/
def SendAccepts (options : CompileOptions) (call : HostProcess × HookOutcomes) : Prop :=
  ∀ sending, ogrtSendProcessinfo options call.1 call.1.pid call.1.parentPid call.2.sending = .ok sending →
    call.2.send sending.datagram = sending.datagram.length

/-- No socket was stored before, and if the call gets its addresses one of them can be connected,
and send accepts the frame exactly if this is the first one. -/
def TidyCall (options : CompileOptions) (s : HookState) (call : HostProcess × HookOutcomes) : Prop :=
  s.globals.daemonSocket < 0 ∧
    (HookActive call.1 s.globals → call.2.gethostname = true → FiltersPass call.2 0 options.regexps →
      ∀ servinfo, call.2.getaddrinfo = some servinfo →
        (firstConnected servinfo).isSome ∧ (FirstConnects servinfo ↔ SendAccepts options call))

@[simp] theorem Holdings.settle_nil (holdings : Holdings) : holdings.settle [] = holdings := rfl

@[simp] theorem Holdings.settle_cons (holdings : Holdings) (call : SystemCall) (calls : List SystemCall) :
    holdings.settle (call :: calls) = (holdings.after call).settle calls := rfl

theorem Holdings.settle_append (holdings : Holdings) (calls more : List SystemCall) :
    holdings.settle (calls ++ more) = (holdings.settle calls).settle more := List.foldl_append

/-- A socket that could not be connected is closed at once. -/
theorem Holdings.settle_refused (holdings : Holdings) (fd : Nat) :
    (holdings.after (.socket fd)).after (.close fd) = holdings := by
  have number : ¬ (fd : Int) < 0 := by omega
  simp only [Holdings.after, number, Int.toNat_natCast, List.mem_cons_self, List.erase_cons_head, if_true, if_false]

theorem connectLoop_settled (servinfo : List AddressOutcome) (globals : HookGlobals) (holdings : Holdings) :
    holdings.settle (connectLoop globals servinfo).2.1 =
      match firstConnected servinfo with
      | none => holdings
      | some fd => holdings.after (.socket fd) := by
  induction servinfo generalizing globals with
  | nil => rfl
  | cons p rest ih =>
    unfold firstConnected
    rw [connectLoop, List.findSome?_cons]
    cases obtained : p.socket with
    | none =>
      have skipped : (if p.connect = true then (none : Option Nat) else none) = none := ite_self _
      rw [skipped]
      exact ih _
    | some fd =>
      cases p.connect with
      | true => rfl
      | false =>
        dsimp only
        rw [if_neg Bool.false_ne_true, Holdings.settle_cons, Holdings.settle_cons, Holdings.settle_refused]
        exact ih _

theorem connectLoop_inactive (servinfo : List AddressOutcome) {globals : HookGlobals} (off : globals.active = false) :
    (connectLoop globals servinfo).1.active = false := by
  induction servinfo generalizing globals with
  | nil => exact off
  | cons p rest ih =>
    rw [connectLoop]
    split
    · exact ih rfl
    · split
      · exact off
      · exact ih rfl

/-- The flag survives the loop only if the first address can be connected. -/
theorem connectLoop_active {servinfo : List AddressOutcome} {globals : HookGlobals} {fd : Nat}
    (on : globals.active = true) (found : firstConnected servinfo = some fd) :
    (connectLoop globals servinfo).1.active = true ↔ FirstConnects servinfo := by
  cases servinfo with
  | nil => cases found
  | cons p rest =>
    rw [connectLoop]
    obtain ⟨socket, connect⟩ := p
    cases socket with
    | none =>
      dsimp only
      rw [connectLoop_inactive rest rfl]
      refine iff_of_false Bool.false_ne_true ?_
      rintro ⟨_, _, same⟩
      cases same
    | some first =>
      cases connect with
      | true => exact iff_of_true on ⟨first, rest, rfl⟩
      | false =>
        dsimp only
        rw [if_neg Bool.false_ne_true]
        dsimp only
        rw [connectLoop_inactive rest rfl]
        refine iff_of_false Bool.false_ne_true ?_
        rintro ⟨_, _, same⟩
        cases same

/-- The calls around send leave nothing behind. -/
theorem settle_reported {holdings : Holdings} {servinfo : List AddressOutcome} {globals : HookGlobals} {fd : Nat}
    {datagram : Datagram} {result : Int} (found : firstConnected servinfo = some fd) :
    holdings.settle (.getaddrinfo :: (connectLoop globals servinfo).2.1 ++
      [.freeaddrinfo, .send fd datagram result, .close fd]) =
        { holdings with called := true, sent := holdings.sent ∨ result = datagram.length } := by
  have number : ¬ (fd : Int) < 0 := by omega
  have other : (0 : Int) ≤ fd := by omega
  rw [List.cons_append, Holdings.settle_cons, Holdings.settle_append, connectLoop_settled, found]
  simp only [Holdings.settle_cons, Holdings.settle_nil, Holdings.after, Int.toNat_natCast, List.mem_cons_self,
    List.erase_cons_head, number, other, Nat.succ_pos, Nat.add_sub_cancel, if_true, if_false, and_self]

/-- close of a negative number closes no descriptor. -/
theorem settle_close_negative {holdings : Holdings} {fd : Int} (negative : fd < 0) :
    holdings.settle [.close fd] = holdings := by
  rw [Holdings.settle_cons, Holdings.settle_nil, Holdings.after, if_pos negative]

variable {options : CompileOptions}

theorem hookRuns_step {s t : HookState} {call : HostProcess × HookOutcomes}
    (taken : (hookRuns options).step s call = some t) :
    ∃ result, HookEffect options call.1 call.2 s.globals result ∧ t = ⟨result.globals, s.holdings.settle result.calls⟩ := by
  dsimp only [hookRuns] at taken
  split at taken
  · rename_i result ran
    exact ⟨result, hook_effect ran, (Option.some.inj taken).symm⟩
  · cases taken

/-- Once send was called its socket stays stored, and only a call of send sends. -/
structure HookState.Stored (s : HookState) : Prop where
  socket : s.holdings.called = true → 0 ≤ s.globals.daemonSocket
  called : s.holdings.sent = true → s.holdings.called = true

theorem stored_init : (hookRuns options).init.Stored := ⟨nofun, nofun⟩

theorem HookState.Stored.uncalled {s : HookState} (stored : s.Stored) (fresh : s.globals.daemonSocket < 0) :
    s.holdings.called = false := Bool.eq_false_iff.mpr fun called => absurd (stored.socket called) (Int.not_le.mpr fresh)

theorem HookState.Stored.unsent {s : HookState} (stored : s.Stored) (fresh : s.globals.daemonSocket < 0) :
    s.holdings.sent = false := Bool.eq_false_iff.mpr fun sent => by
  have called := stored.called sent
  rw [stored.uncalled fresh] at called
  cases called

theorem HookState.Stored.step {s t : HookState} {call : HostProcess × HookOutcomes} (stored : s.Stored)
    (taken : (hookRuns options).step s call = some t) : t.Stored := by
  obtain ⟨result, effect, rfl⟩ := hookRuns_step taken
  cases effect with
  | idle =>
    obtain ⟨called, sent⟩ : (s.holdings.after (.close s.globals.daemonSocket)).called = s.holdings.called ∧
        (s.holdings.after (.close s.globals.daemonSocket)).sent = s.holdings.sent := by
      simp only [Holdings.after]
      split
      · exact ⟨rfl, rfl⟩
      · split <;> exact ⟨rfl, rfl⟩
    exact ⟨fun now => stored.socket (called.symm.trans now), fun now => called.trans (stored.called (sent.symm.trans now))⟩
  | stopped _ fresh => exact ⟨fun called => absurd (stored.socket called) (Int.not_le.mpr fresh), stored.called⟩
  | unresolved _ fresh => exact ⟨fun called => absurd (stored.socket called) (Int.not_le.mpr fresh), stored.called⟩
  | @unconnected servinfo _ fresh _ _ _ none =>
    have same : s.holdings.settle (.getaddrinfo :: (connectLoop (s.globals.entered call.1) servinfo).2.1) =
        s.holdings.after .getaddrinfo := by rw [Holdings.settle_cons, connectLoop_settled, none]
    refine ⟨fun called => ?_, fun sent => ?_⟩
    · dsimp only at called
      rw [same] at called
      exact absurd (stored.socket called) (Int.not_le.mpr fresh)
    · dsimp only at sent ⊢
      rw [same] at sent ⊢
      exact stored.called sent
  | @reported servinfo fd _ _ _ _ _ _ found =>
    refine ⟨fun _ => ?_, fun _ => ?_⟩
    · dsimp only
      rw [(connectLoop_connects servinfo (s.globals.entered call.1)).2 fd found]
      omega
    · dsimp only
      rw [settle_reported found]

/-- A call that comes to send keeps the account settled exactly if the flag tells what send did. -/
theorem settled_reported_iff {globals : HookGlobals} {called : Bool} {servinfo : List AddressOutcome} {fd : Nat}
    {datagram : Datagram} {result : Int} (found : firstConnected servinfo = some fd) (on : globals.active = true) :
    HookState.Settled ⟨(connectLoop globals servinfo).1, Holdings.settle ⟨[], 0, false, called, false⟩
      (.getaddrinfo :: (connectLoop globals servinfo).2.1 ++ [.freeaddrinfo, .send fd datagram result, .close fd])⟩ ↔
        (FirstConnects servinfo ↔ result = datagram.length) := by
  rw [settle_reported found, ← connectLoop_active on found]
  constructor
  · intro settled
    have kept := settled.active
    dsimp only at kept
    rw [kept]
    simp
  · intro same
    refine ⟨?_, rfl, rfl, rfl⟩
    dsimp only
    rw [Bool.eq_iff_iff, same]
    simp

/-- A call keeps the account settled exactly if it is tidy. -/
theorem settled_step {s t : HookState} {call : HostProcess × HookOutcomes}
    (stored : s.Stored) (settled : s.Settled)
    (taken : (hookRuns options).step s call = some t) : t.Settled ↔ TidyCall options s call := by
  have uncalled := stored.uncalled
  have unsent := stored.unsent
  obtain ⟨⟨active, daemonSocket, pid, parentPid⟩, ⟨sockets, addressLists, stray, called, sent⟩⟩ := s
  obtain ⟨kept, empty, freed, sound⟩ := settled
  dsimp only at uncalled unsent kept empty freed sound
  subst kept empty freed sound
  obtain ⟨result, effect, rfl⟩ := hookRuns_step taken
  cases effect with
  | idle other =>
    by_cases fresh : daemonSocket < 0
    · have off : ¬ HookActive call.1 ⟨active, daemonSocket, pid, parentPid⟩ := fun on => other ⟨on, fresh⟩
      rw [settle_close_negative fresh, decide_eq_false off]
      exact iff_of_true ⟨(unsent fresh).symm, rfl, rfl, rfl⟩ ⟨fresh, fun on => absurd on off⟩
    · refine iff_of_false (fun settled => ?_) fun tidy => fresh tidy.1
      have stray := settled.stray
      dsimp only at stray
      rw [Holdings.settle_cons, Holdings.settle_nil, Holdings.after, if_neg fresh, if_neg List.not_mem_nil] at stray
      cases stray
  | stopped on fresh stops =>
    refine iff_of_true ⟨(unsent fresh).symm, rfl, rfl, rfl⟩ ⟨fresh, fun _ named passes => ?_⟩
    rcases stops with unnamed | stops
    · rw [named] at unnamed
      cases unnamed
    · exact absurd passes stops.not_pass
  | unresolved on fresh named passes failed =>
    refine iff_of_true ⟨(unsent fresh).symm, rfl, rfl, rfl⟩ ⟨fresh, fun _ _ _ servinfo resolved => ?_⟩
    rw [failed] at resolved
    cases resolved
  | @unconnected servinfo on fresh named passes resolved none =>
    refine iff_of_false (fun settled => ?_) fun tidy => ?_
    · have lists := settled.addressLists
      dsimp only at lists
      rw [Holdings.settle_cons, connectLoop_settled, none] at lists
      exact absurd lists (Nat.succ_ne_zero _)
    · have connects := (tidy.2 on named passes servinfo resolved).1
      rw [none] at connects
      cases connects
  | @reported servinfo fd sending on fresh named passes resolved found gathered =>
    have accepts : SendAccepts options call ↔ call.2.send sending.datagram = sending.datagram.length :=
      ⟨fun each => each sending gathered, fun own other same => by cases Except.ok.inj (gathered.symm.trans same); exact own⟩
    have nothing : active = false := unsent fresh
    subst nothing
    refine (settled_reported_iff found rfl).trans ?_
    rw [← accepts]
    constructor
    · intro same
      refine ⟨fresh, fun _ _ _ servinfo' resolved' => ?_⟩
      cases Option.some.inj (resolved.symm.trans resolved')
      exact ⟨by rw [found]; rfl, same⟩
    · exact fun tidy => (tidy.2 on named passes servinfo resolved).2

/-- After each call the account is settled exactly if each call up to it was tidy. -/
theorem hook_runs_settled_iff (options : CompileOptions) (calls : List (HostProcess × HookOutcomes)) :
    (hookRuns options).EveryStep (TidyCall options) (hookRuns options).init calls ↔
      ∀ earlier t, earlier <+: calls → (hookRuns options).run (hookRuns options).init earlier = some t → t.Settled :=
  StepSystem.everyStep_iff HookState.Stored stored_init ⟨rfl, rfl, rfl, rfl⟩ HookState.Stored.step settled_step

/-- The first address refuses and the second one connects. -/
def secondConnects : HookOutcomes := { binpathRead with getaddrinfo := some [⟨some 3, false⟩, ⟨some 4, true⟩] }

/-- The message is sent over the second address, and the hook is inactive. -/
theorem second_address_inactive :
    ¬ ∀ (options : CompileOptions) (calls earlier : List (HostProcess × HookOutcomes)) (t : HookState),
      earlier <+: calls → (hookRuns options).run (hookRuns options).init earlier = some t → t.Settled := by
  intro settles
  have safe : HookSafe bashFiltered watchedProgram secondConnects initialGlobals :=
    @hookSafe_of_reports _ _ _ (ascii "/bin/ls") bashFiltered_whole (fun _ _ => ⟨_, _, rfl, rfl, by decide, by decide⟩)
      fun _ _ => ⟨(fun _ _ _ _ read => absurd read nofun), bashFiltered_sendSafe⟩
  obtain ⟨result, ran⟩ := ogrtPreloadInitHook_succeeds.mpr safe
  have taken : (hookRuns bashFiltered).step (hookRuns bashFiltered).init (watchedProgram, secondConnects) =
      some ⟨result.globals, (hookRuns bashFiltered).init.holdings.settle result.calls⟩ := by
    dsimp only [hookRuns]
    rw [ran]
  have settled := settles bashFiltered [(watchedProgram, secondConnects)] [(watchedProgram, secondConnects)] _
    List.prefix_rfl (StepSystem.run_cons_eq_some.mpr ⟨_, taken, rfl⟩)
  have tidy := (settled_step stored_init ⟨rfl, rfl, rfl, rfl⟩ taken).mp settled
  have passes : FiltersPass secondConnects 0 bashFiltered.regexps :=
    .next rfl ⟨_, _, rfl, rfl, by decide, rfl⟩ rfl .done
  have accepted : SendAccepts bashFiltered (watchedProgram, secondConnects) := fun _ _ => rfl
  obtain ⟨fd, rest, same⟩ := (tidy.2 (Or.inr (by decide)) rfl passes _ rfl).2.mpr accepted
  cases same

end Ogrt
