import Ogrt.Server.StartupRun

namespace Ogrt

/-- The goroutine of the signal handler: at `sig := <-c`, before listener.Close, and in the
range over config.Outputs with the entries that are still to come. -/
inductive HandlerPhase
  | waiting
  | caught
  | closing (rest : List (String × OutputConfig))

/-- main in or before its receive loop, and in its return with the deferred Close calls that
are still to come. -/
inductive ReturnPhase
  | running
  | returning (deferred : List Writer)

inductive Ending
  | exited
  | nilDereference
  | mainReturned
  deriving DecidableEq, Repr

/-- `configWriter` are the Writer fields of config.Outputs. -/
structure ShutdownState where
  dispatch : DispatchState
  configWriter : String → Option Writer
  main : ReturnPhase
  handler : HandlerPhase
  handlerClosed : List Writer
  deferredClosed : List Writer
  ending : Option Ending

inductive ShutdownLabel
  | dispatch (label : DispatchLabel)
  | signal
  | closeListener
  | closeOutput (entry : String × OutputConfig)
  | exit
  | receiveFails
  | deferredClose
  | mainReturns

/-- The loop over the configured outputs is over. -/
def DispatchState.Started (s : DispatchState) : Prop := s.current = none ∧ s.remaining = []

instance (s : DispatchState) : Decidable s.Started := inferInstanceAs (Decidable (_ ∧ _))

instance : LawfulBEq (String × OutputConfig) := inferInstance

def ShutdownState.over (s : ShutdownState) : Bool := s.dispatch.aborted || s.ending.isSome

/-- Signals are handled once start-up is over. ReadFromUDP may fail at any time, and does so
when the listener is closed; then main logs the error and returns. -/
def shutdownStep (config : Configuration) (s : ShutdownState) (label : ShutdownLabel) : Option ShutdownState :=
  if s.over then none else
  match label with
  | .dispatch label => (dispatchStep s.dispatch label).map fun dispatch => { s with dispatch := dispatch }
  | .signal =>
    match s.handler with
    | .waiting => if s.dispatch.Started then some { s with handler := .caught } else none
    | _ => none
  | .closeListener =>
    match s.handler with
    | .caught => some { s with handler := .closing config.outputs }
    | _ => none
  | .closeOutput entry =>
    match s.handler with
    | .closing rest =>
      if entry ∈ rest then
        match s.configWriter entry.1 with
        | some writer =>
          some { s with
            handler := .closing (rest.erase entry)
            handlerClosed := s.handlerClosed ++ [writer] }
        | none => some { s with ending := some .nilDereference }
      else none
    | _ => none
  | .exit =>
    match s.handler with
    | .closing [] => some { s with ending := some .exited }
    | _ => none
  | .receiveFails =>
    match s.main with
    | .running =>
      if s.dispatch.Started then some { s with main := .returning (s.dispatch.opened.map Prod.snd).reverse } else none
    | .returning _ => none
  | .deferredClose =>
    match s.main with
    | .returning (writer :: deferred) =>
      some { s with
        main := .returning deferred
        deferredClosed := s.deferredClosed ++ [writer] }
    | _ => none
  | .mainReturns =>
    match s.main with
    | .returning [] => some { s with ending := some .mainReturned }
    | _ => none

/-- toml.DecodeFile leaves the Writer fields nil. -/
def shutdownSystem (config : Configuration) : StepSystem ShutdownState ShutdownLabel where
  init := ⟨(dispatchSystem config).init, fun _ => none, .running, .waiting, [], [], none⟩
  step := shutdownStep config

/-- The steps by what they do, guards included. -/
inductive ShutdownStep (config : Configuration) (s : ShutdownState) : ShutdownState → Prop
  | dispatch {label dispatch} : (dispatchSystem config).step s.dispatch label = some dispatch →
      ShutdownStep config s { s with dispatch := dispatch }
  | signal : s.handler = .waiting → s.dispatch.Started → ShutdownStep config s { s with handler := .caught }
  | closeListener : s.handler = .caught → ShutdownStep config s { s with handler := .closing config.outputs }
  | closeOutput {entry rest writer} : s.handler = .closing rest → entry ∈ rest → s.configWriter entry.1 = some writer →
      ShutdownStep config s { s with
        handler := .closing (rest.erase entry)
        handlerClosed := s.handlerClosed ++ [writer] }
  | closeNil {entry rest} : s.handler = .closing rest → entry ∈ rest → s.configWriter entry.1 = none →
      ShutdownStep config s { s with ending := some .nilDereference }
  | exit : s.handler = .closing [] → ShutdownStep config s { s with ending := some .exited }
  | receiveFails : s.main = .running → s.dispatch.Started →
      ShutdownStep config s { s with main := .returning (s.dispatch.opened.map Prod.snd).reverse }
  | deferredClose {writer deferred} : s.main = .returning (writer :: deferred) →
      ShutdownStep config s { s with
        main := .returning deferred
        deferredClosed := s.deferredClosed ++ [writer] }
  | mainReturns : s.main = .returning [] → ShutdownStep config s { s with ending := some .mainReturned }

variable {config : Configuration}

theorem shutdownStep_sound {s t : ShutdownState} {label : ShutdownLabel}
    (taken : (shutdownSystem config).step s label = some t) : s.over = false ∧ ShutdownStep config s t := by
  change shutdownStep config s label = some t at taken
  unfold shutdownStep at taken
  split at taken
  · cases taken
  rename_i running
  refine ⟨Bool.eq_false_iff.mpr running, ?_⟩
  cases label with
  | dispatch label =>
    obtain ⟨dispatch, moved, rfl⟩ := Option.map_eq_some_iff.mp taken
    exact .dispatch moved
  | signal =>
    dsimp only at taken
    split at taken
    · rename_i waiting
      obtain ⟨started, same⟩ := Option.ite_none_right_eq_some.mp taken
      cases same
      exact .signal waiting started
    · cases taken
  | closeListener =>
    dsimp only at taken
    split at taken
    · rename_i caught
      cases taken
      exact .closeListener caught
    · cases taken
  | closeOutput entry =>
    dsimp only at taken
    split at taken
    · rename_i rest closing
      obtain ⟨member, taken⟩ := Option.ite_none_right_eq_some.mp taken
      split at taken
      · rename_i writer present
        cases taken
        exact .closeOutput closing member present
      · rename_i absent
        cases taken
        exact .closeNil closing member absent
    · cases taken
  | exit =>
    dsimp only at taken
    split at taken
    · rename_i closing
      cases taken
      exact .exit closing
    · cases taken
  | receiveFails =>
    dsimp only at taken
    split at taken
    · rename_i receiving
      obtain ⟨started, same⟩ := Option.ite_none_right_eq_some.mp taken
      cases same
      exact .receiveFails receiving started
    · cases taken
  | deferredClose =>
    dsimp only at taken
    split at taken
    · rename_i returning
      cases taken
      exact .deferredClose returning
    · cases taken
  | mainReturns =>
    dsimp only at taken
    split at taken
    · rename_i returning
      cases taken
      exact .mainReturns returning
    · cases taken

/-- After start-up no writer is opened any more. -/
theorem DispatchState.Started.step {s t : DispatchState} {label : DispatchLabel} (started : s.Started)
    (effect : DispatchStep s label t) : t.Started ∧ t.opened = s.opened := by
  obtain ⟨between, began⟩ := started
  cases effect with
  | beginOutput _ member =>
    rw [began] at member
    cases member
  | openWriter atLoop => rw [between] at atLoop; cases atLoop
  | appendWriter atLoop => rw [between] at atLoop; cases atLoop
  | startWorker atLoop => rw [between] at atLoop; cases atLoop
  | endOutput atLoop => rw [between] at atLoop; cases atLoop
  | lookup => exact ⟨⟨between, began⟩, rfl⟩
  | decode => exact ⟨⟨between, began⟩, rfl⟩
  | accept => exact ⟨⟨between, began⟩, rfl⟩
  | persist => exact ⟨⟨between, began⟩, rfl⟩
  | finish => exact ⟨⟨between, began⟩, rfl⟩
  | abort => exact ⟨⟨between, began⟩, rfl⟩

/-- What holds of the handler. No step sets a Writer field of config.Outputs, so the handler
never gets past its first entry. -/
structure HandlerInv (config : Configuration) (s : ShutdownState) : Prop where
  nilWriters : ∀ name, s.configWriter name = none
  started : s.handler ≠ .waiting → s.dispatch.Started
  untouched : ∀ rest, s.handler = .closing rest → rest = config.outputs
  exited : s.ending = some .exited → config.outputs = []
  dereferenced : s.ending = some .nilDereference → config.outputs ≠ [] ∧ s.handler ≠ .waiting

/-- What holds of the Close calls that main has deferred. -/
structure DeferredInv (s : ShutdownState) : Prop where
  running : s.main = .running → s.deferredClosed = []
  returning : ∀ left, s.main = .returning left → s.dispatch.Started ∧
    s.deferredClosed ++ left = (s.dispatch.opened.map Prod.snd).reverse
  returned : s.ending = some .mainReturned → s.main = .returning []

theorem ShutdownState.not_ended {s : ShutdownState} (running : s.over = false) :
    ∀ ending, s.ending ≠ some ending := by
  intro ending ended
  have unended := (Bool.or_eq_false_iff.mp running).2
  rw [ended] at unended
  cases unended

theorem HandlerInv.step {s t : ShutdownState} (inv : HandlerInv config s) (running : s.over = false)
    (effect : ShutdownStep config s t) : HandlerInv config t := by
  have goesOn := ShutdownState.not_ended running
  cases effect with
  | dispatch moved =>
    exact { inv with started := fun signalled => ((inv.started signalled).step (dispatchStep_sound moved)).1 }
  | signal waiting started =>
    exact { inv with
      started := fun _ => started
      untouched := nofun
      dereferenced := fun ended => absurd ended (goesOn _) }
  | closeListener caught =>
    refine { inv with
      started := fun _ => inv.started (by rw [caught]; nofun)
      untouched := ?_
      dereferenced := fun ended => absurd ended (goesOn _) }
    rintro rest same
    cases same
    rfl
  | closeOutput _ _ present =>
    rw [inv.nilWriters] at present
    cases present
  | closeNil closing member absent =>
    refine { inv with exited := nofun, dereferenced := fun _ => ⟨?_, by rw [closing]; nofun⟩ }
    rw [← inv.untouched _ closing]
    exact List.ne_nil_of_mem member
  | exit closing => exact { inv with exited := fun _ => (inv.untouched _ closing).symm, dereferenced := nofun }
  | receiveFails => exact { inv with }
  | deferredClose => exact { inv with }
  | mainReturns => exact { inv with exited := nofun, dereferenced := nofun }

theorem DeferredInv.step {s t : ShutdownState} (inv : DeferredInv s) (running : s.over = false)
    (effect : ShutdownStep config s t) : DeferredInv t := by
  have goesOn := ShutdownState.not_ended running
  cases effect with
  | dispatch moved =>
    refine { inv with returning := fun left returning => ?_ }
    obtain ⟨started, closings⟩ := inv.returning left returning
    obtain ⟨still, same⟩ := started.step (dispatchStep_sound moved)
    exact ⟨still, by rw [closings]; dsimp only; rw [same]⟩
  | signal => exact { inv with }
  | closeListener => exact { inv with }
  | closeOutput => exact { inv with }
  | closeNil => exact { inv with returned := nofun }
  | exit => exact { inv with returned := nofun }
  | receiveFails receiving started =>
    refine ⟨nofun, fun left same => ?_, fun ended => absurd ended (goesOn _)⟩
    cases same
    exact ⟨started, by rw [inv.running receiving, List.nil_append]⟩
  | deferredClose returning =>
    refine ⟨nofun, fun left same => ?_, fun ended => absurd ended (goesOn _)⟩
    cases same
    obtain ⟨started, closings⟩ := inv.returning _ returning
    exact ⟨started, by rw [List.append_assoc, List.singleton_append, closings]⟩
  | mainReturns returning => exact { inv with returned := fun _ => returning }

/-- The invariants hold after any interleaving of the server, the handler and main. -/
theorem reachable_shutdownInv {s : ShutdownState} (reach : (shutdownSystem config).Reachable s) :
    (dispatchSystem config).Reachable s.dispatch ∧ HandlerInv config s ∧ DeferredInv s := by
  refine reach.invariant (P := fun s => (dispatchSystem config).Reachable s.dispatch ∧ HandlerInv config s ∧ DeferredInv s)
    ⟨.init, ⟨fun _ => rfl, fun signalled => absurd rfl signalled, nofun, nofun, nofun⟩, fun _ => rfl, nofun, nofun⟩ ?_
  rintro s t label ⟨dispatched, handled, deferred⟩ taken
  obtain ⟨running, effect⟩ := shutdownStep_sound taken
  refine ⟨?_, handled.step running effect, deferred.step running effect⟩
  cases effect with
  | dispatch moved => exact dispatched.step moved
  | signal => exact dispatched
  | closeListener => exact dispatched
  | closeOutput => exact dispatched
  | closeNil => exact dispatched
  | exit => exact dispatched
  | receiveFails => exact dispatched
  | deferredClose => exact dispatched
  | mainReturns => exact dispatched

/-- The other way to end closes every writer, the last one opened first. -/
theorem deferred_calls_close_writers {s : ShutdownState} (reach : (shutdownSystem config).Reachable s)
    (ended : s.ending = some .mainReturned) : s.deferredClosed = (s.dispatch.opened.map Prod.snd).reverse := by
  obtain ⟨_, _, inv⟩ := reachable_shutdownInv reach
  have closings := (inv.returning [] (inv.returned ended)).2
  rwa [List.append_nil] at closings

/-- With an output in the configuration no run gets to os.Exit. -/
theorem handler_never_exits {s : ShutdownState} (nonempty : config.outputs ≠ [])
    (reach : (shutdownSystem config).Reachable s) : s.ending ≠ some .exited := fun ended =>
  nonempty ((reachable_shutdownInv reach).2.1.exited ended)

/-- What the server does on its own is part of the whole. -/
theorem reachable_of_dispatch {d : DispatchState} (reach : (dispatchSystem config).Reachable d) :
    (shutdownSystem config).Reachable ⟨d, fun _ => none, .running, .waiting, [], [], none⟩ := by
  induction reach with
  | init => exact .init
  | @step d e label _ moved ih =>
    refine ih.step (l := .dispatch label) ?_
    have live := dispatchStep_live moved
    have moved' : dispatchStep d label = some e := moved
    simp only [shutdownSystem, shutdownStep, ShutdownState.over, live, Option.isSome_none, Bool.or_false,
      Bool.false_eq_true, if_false, moved', Option.map_some]

/-- After start-up a signal can lead to the nil dereference as soon as an output is configured. -/
theorem signal_dereferences_nil (startable : config.Startable) (nonempty : config.outputs ≠ []) :
    ∃ s, (shutdownSystem config).Reachable s ∧ s.ending = some .nilDereference := by
  obtain ⟨d, reach, quiet, between, began⟩ := startup_completes startable
  obtain ⟨entry, member⟩ := List.exists_mem_of_ne_nil _ nonempty
  have ran : (shutdownSystem config).run ⟨d, fun _ => none, .running, .waiting, [], [], none⟩
      [.signal, .closeListener, .closeOutput entry] =
      some ⟨d, fun _ => none, .running, .closing config.outputs, [], [], some .nilDereference⟩ := by
    have started : d.Started := ⟨between, began⟩
    simp only [StepSystem.run, shutdownSystem, shutdownStep, ShutdownState.over, quiet.live, started, member,
      Option.isSome_none, Bool.or_false, Bool.false_eq_true, if_false, if_true, Option.bind_some]
  exact ⟨_, (reachable_of_dispatch reach).run ran, rfl⟩

/-- What a state has to do with an orderly shutdown: the handler has not dereferenced nil; if
it has called os.Exit, it has closed every opened writer exactly once; and while the process
runs, a signalled handler can still get there. -/
structure OrderlyShutdown (config : Configuration) (s : ShutdownState) : Prop where
  noNil : s.ending ≠ some .nilDereference
  closed : s.ending = some .exited → ∀ entry ∈ s.dispatch.opened, s.handlerClosed.count entry.2 = 1
  goesThrough : s.handler ≠ .waiting → s.over = false →
    ∃ labels t, (shutdownSystem config).run s labels = some t ∧ t.ending = some .exited

/-- Every shutdown is orderly exactly when no output is configured, or when start-up never
comes to the handler. -/
theorem orderly_shutdown_iff (config : Configuration) :
    (∀ s, (shutdownSystem config).Reachable s → OrderlyShutdown config s) ↔
      config.outputs = [] ∨ ¬ config.Startable := by
  constructor
  · intro orderly
    by_contra other
    obtain ⟨nonempty, startable⟩ := not_or.mp other
    obtain ⟨s, reach, ended⟩ := signal_dereferences_nil (not_not.mp startable) nonempty
    exact (orderly s reach).noNil ended
  · intro condition s reach
    obtain ⟨dispatched, inv, _⟩ := reachable_shutdownInv reach
    have noOutput (signalled : s.handler ≠ .waiting) : config.outputs = [] := by
      obtain ⟨between, began⟩ := inv.started signalled
      exact condition.resolve_right fun unstartable => unstartable (startable_of_started dispatched between began)
    refine ⟨fun ended => ?_, fun ended entry opened => ?_, fun signalled running => ?_⟩
    · obtain ⟨nonempty, signalled⟩ := inv.dereferenced ended
      exact nonempty (noOutput signalled)
    · obtain ⟨out, member, _⟩ := (reachable_dispatchInv dispatched).startup.kinds entry opened
      rw [inv.exited ended] at member
      cases member
    · have empty := noOutput signalled
      cases phase : s.handler with
      | waiting => exact absurd phase signalled
      | caught =>
        refine ⟨[.closeListener, .exit], { s with handler := .closing [], ending := some .exited }, ?_, rfl⟩
        have again : ShutdownState.over { s with handler := .closing [] } = false := running
        simp only [StepSystem.run, shutdownSystem, shutdownStep, running, again, phase, empty, Bool.false_eq_true, if_false,
          Option.bind_some]
      | closing rest =>
        have all := inv.untouched rest phase
        rw [empty] at all
        subst all
        refine ⟨[.exit], { s with ending := some .exited }, ?_, rfl⟩
        simp only [StepSystem.run, shutdownSystem, shutdownStep, running, phase, Bool.false_eq_true, if_false,
          Option.bind_some]

/-- One file output with one worker. -/
theorem signal_ends_in_nil_dereference :
    ¬ ∀ (config : Configuration) (s : ShutdownState), (shutdownSystem config).Reachable s → OrderlyShutdown config s := by
  intro orderly
  let config : Configuration := ⟨[("file", ⟨"JsonFile", ascii "/out", 1⟩)], by decide⟩
  have startable : config.Startable := by
    unfold Configuration.Startable
    decide
  obtain ⟨s, reach, ended⟩ := signal_dereferences_nil startable (List.cons_ne_nil _ _)
  exact (orderly config s reach).noNil ended

end Ogrt
