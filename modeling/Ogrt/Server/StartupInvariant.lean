import Ogrt.Server.Dispatch

namespace Ogrt
open Function

/-- The writer that the worker has looked up. -/
def WorkerPhase.writer : WorkerPhase → Option Writer
  | .starting => none
  | .idle out => some out
  | .taken out _ => some out
  | .persisting out _ => some out

/-- The number of writers of its output that the start-up loop has appended. -/
def OutputLoop.written (loop : OutputLoop) : Nat :=
  match loop.stage with
  | .appended => loop.i + 1
  | .check => loop.i
  | .opened _ => loop.i

/-- The writer that start-up has opened for an output but not yet appended. -/
def DispatchState.inHand (s : DispatchState) (name : String) : List Writer :=
  match s.current with
  | some ⟨loopName, _, _, .opened writer⟩ => if loopName = name then [writer] else []
  | _ => []

/-- The writers opened for an output, in the order of their opening. -/
def DispatchState.openedFor (s : DispatchState) (name : String) : List Writer :=
  (s.opened.filter (·.1 = name)).map Prod.snd

/-- A worker runs for each appended writer, except for the one start-up is about to start;
what a worker has looked up is the writer at its id. -/
structure WorkersStarted (current : Option OutputLoop) (outputs : String → List Writer)
    (workers : String × Nat → Option WorkerPhase) : Prop where
  started : ∀ name id, (workers (name, id)).isSome ↔ id < (outputs name).length ∧
    ∀ loop, current = some loop → loop.stage = .appended → (name, id) ≠ (loop.name, loop.i)
  writers : ∀ name id phase writer, workers (name, id) = some phase → phase.writer = some writer →
    (outputs name)[id]? = some writer

structure StartupInv (config : Configuration) (s : DispatchState) : Prop where
  sections : (s.channels ++ s.remaining.map Prod.fst).Perm (config.outputs.map Prod.fst)
  configured : ∀ entry ∈ s.remaining, entry ∈ config.outputs
  loopConfigured : ∀ loop, s.current = some loop →
    (loop.name, loop.out) ∈ config.outputs ∧ loop.name ∈ s.channels
  bounded : ∀ loop, s.current = some loop →
    loop.i ≤ loop.out.workers.toNat ∧ (loop.stage ≠ .check → loop.i < loop.out.workers.toNat)
  counter : ∀ loop, s.current = some loop → (s.outputs loop.name).length = loop.written
  untouched : ∀ name, name ∉ s.channels → s.outputs name = []
  finished : ∀ entry ∈ config.outputs, entry.1 ∈ s.channels →
    (∀ loop, s.current = some loop → loop.name ≠ entry.1) →
    (s.outputs entry.1).length = entry.2.workers.toNat
  openLog : ∀ name, s.openedFor name = s.outputs name ++ s.inHand name
  kinds : ∀ entry ∈ s.opened, ∃ out, (entry.1, out) ∈ config.outputs ∧ 0 < out.workers ∧
    newWriter out.type = some entry.2.kind ∧ entry.2.kind.opens out.params = true
  workersStarted : WorkersStarted s.current s.outputs s.workers

/-- After start-up there is a channel for each section. -/
theorem StartupInv.mem_channels {config : Configuration} {s : DispatchState} (inv : StartupInv config s)
    (began : s.remaining = []) {name : String} : name ∈ s.channels ↔ name ∈ config.outputs.map Prod.fst := by
  have sections := inv.sections
  rw [began, List.map_nil, List.append_nil] at sections
  exact sections.mem_iff

theorem update_eq_some {workers : String × Nat → Option WorkerPhase} {key other : String × Nat}
    {phase next : WorkerPhase} (found : update workers key (some next) other = some phase) :
    (other = key ∧ phase = next) ∨ (other ≠ key ∧ workers other = some phase) := by
  by_cases same : other = key
  · subst same
    rw [update_self] at found
    exact Or.inl ⟨rfl, (Option.some.inj found).symm⟩
  · rw [update_of_ne same] at found
    exact Or.inr ⟨same, found⟩

theorem WorkersStarted.setPhase {current : Option OutputLoop} {outputs : String → List Writer}
    {workers : String × Nat → Option WorkerPhase} {name : String} {id : Nat} {phase next : WorkerPhase}
    (inv : WorkersStarted current outputs workers) (before : workers (name, id) = some phase)
    (own : ∀ writer, next.writer = some writer → (outputs name)[id]? = some writer) :
    WorkersStarted current outputs (update workers (name, id) (some next)) := by
  refine ⟨fun name' id' => ?_, fun name' id' phase' writer found looked => ?_⟩
  · rw [← inv.started name' id']
    by_cases same : (name', id') = (name, id)
    · rw [same, update_self, before, Option.isSome_some, Option.isSome_some]
    · rw [update_of_ne same]
  · rcases update_eq_some found with ⟨same, rfl⟩ | ⟨_, old⟩
    · cases same
      exact own writer looked
    · exact inv.writers name' id' phase' writer old looked

/-- What happens to a worker after its lookup leaves its writer alone. -/
theorem WorkersStarted.keepWriter {current : Option OutputLoop} {outputs : String → List Writer}
    {workers : String × Nat → Option WorkerPhase} {name : String} {id : Nat} {phase next : WorkerPhase}
    (inv : WorkersStarted current outputs workers) (before : workers (name, id) = some phase)
    (same : next.writer = phase.writer) :
    WorkersStarted current outputs (update workers (name, id) (some next)) :=
  inv.setPhase before fun writer looked => inv.writers name id phase writer before (same ▸ looked)

theorem startupInv_init (config : Configuration) : StartupInv config (dispatchSystem config).init where
  sections := List.Perm.refl _
  configured := fun _ member => member
  loopConfigured := nofun
  bounded := nofun
  counter := nofun
  untouched := fun _ _ => rfl
  finished := fun _ _ began => absurd began List.not_mem_nil
  openLog := fun _ => rfl
  kinds := nofun
  workersStarted := ⟨fun _ _ => iff_of_false Bool.false_ne_true fun both => absurd both.1 (Nat.not_lt_zero _), nofun⟩

theorem Configuration.unique (config : Configuration) {name : String} {out other : OutputConfig}
    (member : (name, out) ∈ config.outputs) (same : (name, other) ∈ config.outputs) : out = other := by
  have key := List.inj_on_of_nodup_map config.distinct member same rfl
  exact (Prod.mk.inj key).2

theorem StartupInv.beginOutput {config : Configuration} {s : DispatchState} {entry : String × OutputConfig}
    (inv : StartupInv config s) (between : s.current = none) (member : entry ∈ s.remaining) :
    StartupInv config { s with
      remaining := s.remaining.erase entry
      current := some ⟨entry.1, entry.2, 0, .check⟩
      channels := s.channels ++ [entry.1] } := by
  have distinct := inv.sections.nodup_iff.mpr config.distinct
  have fresh : entry.1 ∉ s.channels := fun began =>
    (List.nodup_append.mp distinct).2.2 _ began _ (List.mem_map_of_mem member) rfl
  have moved : (s.remaining.map Prod.fst).Perm (entry.1 :: (s.remaining.erase entry).map Prod.fst) :=
    (List.perm_cons_erase member).map Prod.fst
  refine { inv with
    sections := ?_, configured := fun e later => inv.configured e (List.mem_of_mem_erase later)
    loopConfigured := ?_, bounded := ?_, counter := ?_, untouched := ?_, finished := ?_, openLog := ?_
    workersStarted := ⟨fun name id => ?_, inv.workersStarted.writers⟩ }
  · rw [List.append_assoc]
    exact (moved.symm.append_left _).trans inv.sections
  · rintro loop same
    cases same
    exact ⟨inv.configured entry member, List.mem_append_right _ (List.mem_singleton.mpr rfl)⟩
  · rintro loop same
    cases same
    exact ⟨Nat.zero_le _, fun other => absurd rfl other⟩
  · rintro loop same
    cases same
    rw [inv.untouched entry.1 fresh]
    rfl
  · intro name absent
    exact inv.untouched name fun began => absent (List.mem_append_left _ began)
  · intro e configured began elsewhere
    rcases List.mem_append.mp began with old | new
    · exact inv.finished e configured old (by rw [between]; nofun)
    · exact absurd (List.mem_singleton.mp new).symm (elsewhere _ rfl)
  · intro name
    have log := inv.openLog name
    simp only [DispatchState.inHand, between] at log
    exact log
  · rw [inv.workersStarted.started name id, between]
    exact ⟨fun both => ⟨both.1, by rintro loop same; cases same; nofun⟩, fun both => ⟨both.1, nofun⟩⟩

theorem StartupInv.openWriter {config : Configuration} {s : DispatchState} {name : String}
    {out : OutputConfig} {i : Nat} {kind : WriterKind} (inv : StartupInv config s)
    (atLoop : s.current = some ⟨name, out, i, .check⟩) (more : (i : Int) < out.workers)
    (known : newWriter out.type = some kind) (opens : kind.opens out.params = true) :
    StartupInv config { s with
      opened := s.opened ++ [(name, ⟨s.opened.length, kind, out.params⟩)]
      current := some ⟨name, out, i, .opened ⟨s.opened.length, kind, out.params⟩⟩ } := by
  have configured := inv.loopConfigured _ atLoop
  have count : (s.outputs name).length = i := inv.counter _ atLoop
  have below : i ≤ out.workers.toNat := (inv.bounded _ atLoop).1
  refine { inv with
    loopConfigured := ?_, bounded := ?_, counter := ?_, finished := ?_, openLog := ?_, kinds := ?_
    workersStarted := ⟨fun name' id => ?_, inv.workersStarted.writers⟩ }
  · rintro loop same
    cases same
    exact configured
  · rintro loop same
    cases same
    exact ⟨below, fun _ => show i < out.workers.toNat by omega⟩
  · rintro loop same
    cases same
    exact count
  · intro entry member began elsewhere
    have other : name ≠ entry.1 := elsewhere _ rfl
    refine inv.finished entry member began fun loop same => ?_
    rw [atLoop] at same
    cases same
    exact other
  · intro name'
    have log := inv.openLog name'
    simp only [DispatchState.inHand, atLoop, List.append_nil] at log
    simp only [DispatchState.openedFor, DispatchState.inHand, List.filter_append, List.map_append] at log ⊢
    rw [log]
    by_cases same : name = name' <;> simp [same]
  · intro entry member
    rcases List.mem_append.mp member with old | new
    · exact inv.kinds entry old
    · cases List.mem_singleton.mp new
      exact ⟨out, configured.1, by omega, known, opens⟩
  · rw [inv.workersStarted.started name' id, atLoop]
    exact ⟨fun both => ⟨both.1, by rintro loop same; cases same; nofun⟩,
      fun both => ⟨both.1, by rintro loop same; cases same; nofun⟩⟩

theorem StartupInv.appendWriter {config : Configuration} {s : DispatchState} {name : String}
    {out : OutputConfig} {i : Nat} {writer : Writer} (inv : StartupInv config s)
    (atLoop : s.current = some ⟨name, out, i, .opened writer⟩) :
    StartupInv config { s with
      outputs := update s.outputs name (s.outputs name ++ [writer])
      current := some ⟨name, out, i, .appended⟩ } := by
  have count : (s.outputs name).length = i := inv.counter _ atLoop
  have configured := inv.loopConfigured _ atLoop
  have bounded := inv.bounded _ atLoop
  refine { inv with
    loopConfigured := ?_, bounded := ?_, counter := ?_, untouched := ?_, finished := ?_, openLog := ?_
    workersStarted := ⟨fun name' id => ?_, fun name' id phase looked found same => ?_⟩ }
  · rintro loop same
    cases same
    exact configured
  · rintro loop same
    cases same
    exact ⟨bounded.1, fun _ => bounded.2 nofun⟩
  · rintro loop same
    cases same
    simp [OutputLoop.written, count]
  · intro name' absent
    have other : name' ≠ name := fun same => absent (same ▸ configured.2)
    dsimp only
    rw [update_of_ne other]
    exact inv.untouched name' absent
  · intro entry member began elsewhere
    have other : entry.1 ≠ name := fun same => elsewhere _ rfl same.symm
    dsimp only
    rw [update_of_ne other]
    refine inv.finished entry member began fun loop same => ?_
    rw [atLoop] at same
    cases same
    exact other.symm
  · intro name'
    have log := inv.openLog name'
    simp only [DispatchState.openedFor, DispatchState.inHand, atLoop] at log ⊢
    by_cases same : name = name'
    · subst same
      rw [update_self, List.append_nil]
      simpa using log
    · rw [update_of_ne (Ne.symm same), List.append_nil]
      simpa [same] using log
  · dsimp only
    rw [inv.workersStarted.started name' id, atLoop]
    by_cases same : name' = name
    · subst same
      rw [update_self, List.length_append, count]
      constructor
      · rintro ⟨below, _⟩
        refine ⟨by simp; omega, ?_⟩
        rintro loop same _ clash
        cases same
        have : id = i := (Prod.mk.inj clash).2
        omega
      · rintro ⟨below, apart⟩
        have : id ≠ i := fun clash => apart _ rfl rfl (by rw [clash])
        exact ⟨by simp at below; omega, by rintro loop same; cases same; nofun⟩
    · rw [update_of_ne same]
      refine and_congr_right fun _ => ⟨fun _ => ?_, fun _ => ?_⟩
      · rintro loop current _ clash
        cases current
        exact same (Prod.mk.inj clash).1
      · rintro loop current
        cases current
        nofun
  · have old := inv.workersStarted.writers name' id phase looked found same
    dsimp only
    by_cases other : name' = name
    · subst other
      rw [update_self, List.getElem?_append_left (List.getElem?_eq_some_iff.mp old).1]
      exact old
    · rw [update_of_ne other]
      exact old

theorem StartupInv.startWorker {config : Configuration} {s : DispatchState} {name : String}
    {out : OutputConfig} {i : Nat} (inv : StartupInv config s)
    (atLoop : s.current = some ⟨name, out, i, .appended⟩) :
    StartupInv config { s with
      workers := update s.workers (name, i) (some .starting)
      current := some ⟨name, out, i + 1, .check⟩ } := by
  have count : (s.outputs name).length = i + 1 := inv.counter _ atLoop
  have configured := inv.loopConfigured _ atLoop
  have bounded := inv.bounded _ atLoop
  refine { inv with
    loopConfigured := ?_, bounded := ?_, counter := ?_, finished := ?_, openLog := ?_
    workersStarted := ⟨fun name' id => ?_, fun name' id phase looked found same => ?_⟩ }
  · rintro loop same
    cases same
    exact configured
  · rintro loop same
    cases same
    exact ⟨bounded.2 nofun, fun other => absurd rfl other⟩
  · rintro loop same
    cases same
    exact count
  · intro entry member began elsewhere
    have other : name ≠ entry.1 := elsewhere _ rfl
    refine inv.finished entry member began fun loop same => ?_
    rw [atLoop] at same
    cases same
    exact other
  · intro name'
    have log := inv.openLog name'
    simp only [DispatchState.inHand, atLoop] at log
    exact log
  · dsimp only
    by_cases same : (name', id) = (name, i)
    · cases same
      rw [update_self, count]
      exact iff_of_true rfl ⟨Nat.lt_succ_self _, by rintro loop current; cases current; nofun⟩
    · rw [update_of_ne same, inv.workersStarted.started name' id, atLoop]
      refine and_congr_right fun _ => ⟨fun _ => ?_, fun _ => ?_⟩
      · rintro loop current
        cases current
        nofun
      · rintro loop current _
        cases current
        exact same
  · rcases update_eq_some found with ⟨_, rfl⟩ | ⟨_, old⟩
    · cases same
    · exact inv.workersStarted.writers name' id phase looked old same

theorem StartupInv.endOutput {config : Configuration} {s : DispatchState} {name : String}
    {out : OutputConfig} {i : Nat} (inv : StartupInv config s)
    (atLoop : s.current = some ⟨name, out, i, .check⟩) (finished : out.workers ≤ i) :
    StartupInv config { s with current := none } := by
  refine { inv with
    loopConfigured := nofun, bounded := nofun, counter := nofun, finished := ?_, openLog := ?_
    workersStarted := ⟨fun name' id => ?_, inv.workersStarted.writers⟩ }
  · rintro ⟨name', out'⟩ member began _
    by_cases same : name' = name
    · subst same
      have sameOut := config.unique member (inv.loopConfigured _ atLoop).1
      have count : (s.outputs name').length = i := inv.counter _ atLoop
      have below : i ≤ out.workers.toNat := (inv.bounded _ atLoop).1
      dsimp only at sameOut ⊢
      rw [count, sameOut]
      omega
    · refine inv.finished _ member began fun loop current => ?_
      rw [atLoop] at current
      cases current
      exact Ne.symm same
  · intro name'
    have log := inv.openLog name'
    simp only [DispatchState.inHand, atLoop] at log
    exact log
  · rw [inv.workersStarted.started name' id, atLoop]
    exact and_congr_right fun _ => ⟨fun _ => nofun, fun _ => by rintro loop current; cases current; nofun⟩

theorem StartupInv.step {config : Configuration} {s t : DispatchState} {label : DispatchLabel}
    (inv : StartupInv config s) (taken : DispatchStep s label t) : StartupInv config t := by
  cases taken with
  | beginOutput between member => exact inv.beginOutput between member
  | openWriter atLoop more known opens => exact inv.openWriter atLoop more known opens
  | appendWriter atLoop => exact inv.appendWriter atLoop
  | startWorker atLoop => exact inv.startWorker atLoop
  | endOutput atLoop finished => exact inv.endOutput atLoop finished
  | lookup starting found =>
    refine { inv with workersStarted := inv.workersStarted.setPhase starting fun writer looked => ?_ }
    cases looked
    exact found
  | decode => exact { inv with }
  | accept _ waiting => exact { inv with workersStarted := inv.workersStarted.keepWriter waiting rfl }
  | persist holding _ => exact { inv with workersStarted := inv.workersStarted.keepWriter holding rfl }
  | finish inside _ => exact { inv with workersStarted := inv.workersStarted.keepWriter inside rfl }
  | abort => exact { inv with }

end Ogrt
