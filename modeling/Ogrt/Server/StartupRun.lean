import Ogrt.Server.FanOut

namespace Ogrt
open Function

/-- No message yet, and every started worker waits on its channel. -/
structure Quiet (s : DispatchState) : Prop where
  live : s.aborted = false
  decoded : s.decoded = []
  heap : s.heap = []
  forwarders : s.forwarders = []
  accepted : s.accepted = []
  handed : s.handed = []
  persisted : s.persisted = []
  idle : ∀ key phase, s.workers key = some phase → ∃ writer, phase = .idle writer

variable {config : Configuration}

/-- One turn of the loop over the workers of an output, with the new worker's lookup. -/
theorem quiet_startWorker {s : DispatchState} {name : String} {out : OutputConfig} {i : Nat} {kind : WriterKind}
    (reach : (dispatchSystem config).Reachable s) (quiet : Quiet s)
    (atLoop : s.current = some ⟨name, out, i, .check⟩) (more : (i : Int) < out.workers)
    (known : newWriter out.type = some kind) (opens : kind.opens out.params = true) :
    ∃ t, (dispatchSystem config).Reachable t ∧ Quiet t ∧ t.current = some ⟨name, out, i + 1, .check⟩ ∧
      t.remaining = s.remaining := by
  have count : (s.outputs name).length = i := (reachable_dispatchInv reach).startup.counter _ atLoop
  have opened := reach.step (dispatchStep_complete (.openWriter atLoop more known opens) quiet.live quiet.live)
  have appended := opened.step (dispatchStep_complete (.appendWriter rfl) quiet.live quiet.live)
  have started := appended.step (dispatchStep_complete (.startWorker rfl) quiet.live quiet.live)
  have looked := started.step (dispatchStep_complete
    (.lookup (update_self ..) (by dsimp only; rw [update_self, ← count, List.getElem?_concat_length]))
    quiet.live quiet.live)
  refine ⟨_, looked, { quiet with idle := fun key phase found => ?_ }, rfl, rfl⟩
  rcases update_eq_some found with ⟨_, same⟩ | ⟨_, found⟩
  · exact ⟨_, same⟩
  rcases update_eq_some found with ⟨same, _⟩ | ⟨_, old⟩
  · contradiction
  · exact quiet.idle key phase old

theorem quiet_endOutput {s : DispatchState} {name : String} {out : OutputConfig} {i : Nat}
    (reach : (dispatchSystem config).Reachable s) (quiet : Quiet s)
    (atLoop : s.current = some ⟨name, out, i, .check⟩) (opens : 0 < out.workers → out.opens = true) :
    ∃ t, (dispatchSystem config).Reachable t ∧ Quiet t ∧ t.current = none ∧ t.remaining = s.remaining := by
  obtain ⟨left, count⟩ : ∃ left, out.workers.toNat - i = left := ⟨_, rfl⟩
  induction left generalizing s i with
  | zero =>
    have finished : out.workers ≤ i := by omega
    have ended := reach.step (dispatchStep_complete (.endOutput atLoop finished) quiet.live quiet.live)
    exact ⟨_, ended, { quiet with }, rfl, rfl⟩
  | succ left ih =>
    obtain ⟨kind, type, params⟩ := OutputConfig.opens_iff.mp (opens (by omega))
    obtain ⟨t, reach', quiet', atLoop', same⟩ := quiet_startWorker reach quiet atLoop (by omega) type params
    obtain ⟨u, ended, quiet'', between, same'⟩ := ih reach' quiet' atLoop' (by omega)
    exact ⟨u, ended, quiet'', between, same'.trans same⟩

/-- Every section that configures a worker names a type that the server knows, with a parameter
that its Open can do something with. -/
def Configuration.Startable (config : Configuration) : Prop :=
  ∀ entry ∈ config.outputs, 0 < entry.2.workers → entry.2.opens = true

/-- Start-up can get through any such configuration. -/
theorem startup_completes (startable : config.Startable) :
    ∃ s, (dispatchSystem config).Reachable s ∧ Quiet s ∧ s.current = none ∧ s.remaining = [] := by
  suffices fromHere : ∀ n s, (dispatchSystem config).Reachable s → Quiet s → s.current = none →
      s.remaining.length = n →
      ∃ t, (dispatchSystem config).Reachable t ∧ Quiet t ∧ t.current = none ∧ t.remaining = [] from
    fromHere _ _ .init ⟨rfl, rfl, rfl, rfl, rfl, rfl, rfl, nofun⟩ rfl rfl
  intro n
  induction n with
  | zero =>
    intro s reach quiet between count
    exact ⟨s, reach, quiet, between, List.eq_nil_of_length_eq_zero count⟩
  | succ n ih =>
    intro s reach quiet between count
    obtain ⟨entry, member⟩ := List.exists_mem_of_length_pos (by omega : 0 < s.remaining.length)
    have configured := (reachable_dispatchInv reach).startup.configured entry member
    have began := reach.step (dispatchStep_complete (.beginOutput between member) quiet.live quiet.live)
    obtain ⟨t, reach', quiet', between', same⟩ := quiet_endOutput began { quiet with } rfl (startable entry configured)
    refine ih t reach' quiet' between' ?_
    rw [same, List.length_erase_of_mem member, count]
    rfl

/-- Start-up gets through no other configuration. -/
theorem startable_of_started {s : DispatchState} (reach : (dispatchSystem config).Reachable s)
    (between : s.current = none) (began : s.remaining = []) : config.Startable := by
  have inv := (reachable_dispatchInv reach).startup
  rintro ⟨name, out⟩ member works
  have channel : name ∈ s.channels := (inv.mem_channels began).mpr (List.mem_map_of_mem member)
  have count : (s.outputs name).length = out.workers.toNat :=
    inv.finished _ member channel (by rw [between]; nofun)
  have log : s.openedFor name = s.outputs name := by
    rw [inv.openLog name, DispatchState.inHand, between, List.append_nil]
  obtain ⟨writer, opened⟩ := List.exists_mem_of_length_pos (by dsimp only at works; omega : 0 < (s.outputs name).length)
  rw [← log] at opened
  obtain ⟨⟨_, _⟩, listed, rfl⟩ := List.mem_map.mp opened
  obtain ⟨inOpened, same⟩ := List.mem_filter.mp listed
  obtain ⟨out', member', _, known, opens⟩ := inv.kinds _ inOpened
  cases of_decide_eq_true same
  rw [config.unique member member']
  exact OutputConfig.opens_iff.mpr ⟨_, known, opens⟩

theorem startable_of_decoded {s : DispatchState} (reach : (dispatchSystem config).Reachable s) (some : s.decoded ≠ []) :
    config.Startable := by
  obtain ⟨between, began⟩ := (reachable_dispatchInv reach).delivery.serving some
  exact startable_of_started reach between began

/-- After start-up an output has as many waiting workers as its section configures. -/
theorem worker_exists {s : DispatchState} (inv : StartupInv config s) (between : s.current = none)
    (began : s.remaining = []) {entry : String × OutputConfig} (member : entry ∈ config.outputs) (id : Nat) :
    (s.workers (entry.1, id)).isSome ↔ id < entry.2.workers.toNat := by
  have channel : entry.1 ∈ s.channels := (inv.mem_channels began).mpr (List.mem_map_of_mem member)
  rw [inv.workersStarted.started, inv.finished entry member channel (by rw [between]; nofun), between]
  exact ⟨fun both => both.1, fun below => ⟨below, nofun⟩⟩

end Ogrt
