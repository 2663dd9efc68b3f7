import Ogrt.Server.StartupInvariant

namespace Ogrt
open Function

/-- Where each message pointer is. A channel that a forwarding goroutine has served holds
one rendezvous for the message, and a rendezvous is a worker about to call
PersistProcessInfo or a call already made. -/
structure DeliveryInv (s : DispatchState) : Prop where
  serving : s.decoded ≠ [] → s.current = none ∧ s.remaining = []
  heapLength : s.heap.length = s.decoded.length
  forwarderCount : s.forwarders.length = s.decoded.length
  timed : ∀ msg ∈ s.heap, msg.time.isSome
  remainingOnce : ∀ (message : Nat) todo, s.forwarders[message]? = some todo → todo.Nodup
  remainingKnown : ∀ (message : Nat) todo, s.forwarders[message]? = some todo → ∀ name ∈ todo, name ∈ s.channels
  acceptedOnce : (s.accepted.map fun d => (d.message, d.output)).Nodup
  acceptedKnown : ∀ d ∈ s.accepted, d.message < s.forwarders.length
  acceptedIff : ∀ (message : Nat) todo, s.forwarders[message]? = some todo → ∀ name ∈ s.channels,
    (name ∉ todo ↔ ∃ id, ⟨message, name, id⟩ ∈ s.accepted)
  handedOnce : (s.handed.map (·.delivery)).Nodup
  handedAccepted : ∀ h ∈ s.handed, h.delivery ∈ s.accepted
  takenAccepted : ∀ output id writer message, s.workers (output, id) = some (.taken writer message) →
    ⟨message, output, id⟩ ∈ s.accepted ∧ ∀ h ∈ s.handed, h.delivery ≠ ⟨message, output, id⟩
  persistingHanded : ∀ output id writer message, s.workers (output, id) = some (.persisting writer message) →
    ⟨⟨message, output, id⟩, writer⟩ ∈ s.handed
  progress : ∀ d ∈ s.accepted, (∃ h ∈ s.handed, h.delivery = d) ∨
    ∃ writer, s.workers (d.output, d.id) = some (.taken writer d.message)

theorem deliveryInv_init (config : Configuration) : DeliveryInv (dispatchSystem config).init where
  serving := fun some => absurd rfl some
  heapLength := rfl
  forwarderCount := rfl
  timed _ member := absurd member List.not_mem_nil
  remainingOnce := nofun
  remainingKnown := nofun
  acceptedOnce := List.nodup_nil
  acceptedKnown := nofun
  acceptedIff := nofun
  handedOnce := List.nodup_nil
  handedAccepted := nofun
  takenAccepted := nofun
  persistingHanded := nofun
  progress := nofun

/-- While start-up runs no message has been decoded, so nothing has been delivered. -/
theorem DeliveryInv.during_startup {s : DispatchState} (inv : DeliveryInv s)
    (startup : s.current ≠ none ∨ s.remaining ≠ []) :
    s.decoded = [] ∧ s.forwarders = [] ∧ s.accepted = [] := by
  have nothing : s.decoded = [] := by
    by_contra some
    obtain ⟨between, began⟩ := inv.serving some
    rcases startup with loop | rest
    · exact loop between
    · exact rest began
  have noForwarder : s.forwarders = [] := by
    apply List.eq_nil_of_length_eq_zero
    rw [inv.forwarderCount, nothing]
    rfl
  refine ⟨nothing, noForwarder, List.eq_nil_iff_forall_not_mem.mpr fun d member => ?_⟩
  have known := inv.acceptedKnown d member
  rw [noForwarder] at known
  exact absurd known (Nat.not_lt_zero _)

/-- A message that a worker has taken was delivered after start-up. -/
theorem DeliveryInv.serving_of_accepted {s : DispatchState} (inv : DeliveryInv s) {d : Delivery} (accepted : d ∈ s.accepted) :
    s.current = none ∧ s.remaining = [] := by
  by_contra startup
  rw [(inv.during_startup (Decidable.not_and_iff_not_or_not.mp startup)).2.2] at accepted
  exact List.not_mem_nil accepted

/-- A worker that moves between phases without a message in hand leaves deliveries alone. -/
theorem DeliveryInv.moveIdle {s : DispatchState} (inv : DeliveryInv s) {key : String × Nat}
    {next : WorkerPhase} (before : ∀ writer message, s.workers key ≠ some (.taken writer message))
    (notTaken : ∀ writer message, next ≠ .taken writer message)
    (notPersisting : ∀ writer message, next ≠ .persisting writer message) :
    DeliveryInv { s with workers := update s.workers key (some next) } := by
  refine { inv with takenAccepted := ?_, persistingHanded := ?_, progress := ?_ }
  · intro output id writer message found
    rcases update_eq_some found with ⟨_, same⟩ | ⟨_, old⟩
    · exact absurd same.symm (notTaken writer message)
    · exact inv.takenAccepted output id writer message old
  · intro output id writer message found
    rcases update_eq_some found with ⟨_, same⟩ | ⟨_, old⟩
    · exact absurd same.symm (notPersisting writer message)
    · exact inv.persistingHanded output id writer message old
  · intro d member
    rcases inv.progress d member with handed | ⟨writer, taken⟩
    · exact Or.inl handed
    · have other : (d.output, d.id) ≠ key := fun same => before _ _ (same ▸ taken)
      exact Or.inr ⟨writer, by dsimp only; rw [update_of_ne other]; exact taken⟩

theorem getElem?_concat_eq_some {α : Type} {xs : List α} {x y : α} {i : Nat} (found : (xs ++ [x])[i]? = some y) :
    xs[i]? = some y ∨ i = xs.length ∧ y = x := by
  rcases Nat.lt_or_ge i xs.length with old | new
  · rw [List.getElem?_append_left old] at found
    exact Or.inl found
  · rw [List.getElem?_append_right new, List.getElem?_singleton] at found
    split at found
    · exact Or.inr ⟨by omega, (Option.some.inj found).symm⟩
    · cases found

theorem DeliveryInv.decode {s : DispatchState} {msg : ProcessInfo} {order : List String} (inv : DeliveryInv s)
    (between : s.current = none) (began : s.remaining = []) (required : msg.hasRequired)
    (covers : order.Perm s.channels) (distinct : s.channels.Nodup) :
    DeliveryInv { s with
      decoded := s.decoded ++ [msg]
      heap := s.heap ++ [msg]
      forwarders := s.forwarders ++ [order] } := by
  refine { inv with
    serving := fun _ => ⟨between, began⟩
    heapLength := ?_, forwarderCount := ?_, timed := ?_, remainingOnce := ?_, remainingKnown := ?_
    acceptedKnown := ?_, acceptedIff := ?_ }
  · simp only [List.length_append, List.length_singleton, inv.heapLength]
  · simp only [List.length_append, List.length_singleton, inv.forwarderCount]
  · intro m member
    rcases List.mem_append.mp member with old | new
    · exact inv.timed m old
    · cases List.mem_singleton.mp new
      exact ProcessInfo.time_isSome required
  · intro message todo found
    rcases getElem?_concat_eq_some found with old | ⟨_, rfl⟩
    · exact inv.remainingOnce message todo old
    · exact covers.nodup_iff.mpr distinct
  · intro message todo found
    rcases getElem?_concat_eq_some found with old | ⟨_, rfl⟩
    · exact inv.remainingKnown message todo old
    · exact fun name member => covers.mem_iff.mp member
  · intro d member
    have known := inv.acceptedKnown d member
    dsimp only
    rw [List.length_append]
    omega
  · intro message todo found name known
    rcases getElem?_concat_eq_some found with old | ⟨rfl, rfl⟩
    · exact inv.acceptedIff message todo old name known
    · refine iff_of_false (fun absent => absent (covers.mem_iff.mpr known)) ?_
      rintro ⟨id, member⟩
      exact absurd (inv.acceptedKnown _ member) (Nat.lt_irrefl _)

theorem DeliveryInv.accept {s : DispatchState} {message id : Nat} {output : String} {rest : List String}
    {writer : Writer} (inv : DeliveryInv s) (forwarding : s.forwarders[message]? = some (output :: rest))
    (waiting : s.workers (output, id) = some (.idle writer)) :
    DeliveryInv { s with
      forwarders := s.forwarders.set message rest
      workers := update s.workers (output, id) (some (.taken writer message))
      accepted := s.accepted ++ [⟨message, output, id⟩] } := by
  have inside := (List.getElem?_eq_some_iff.mp forwarding).1
  obtain ⟨served, once⟩ := List.nodup_cons.mp (inv.remainingOnce message _ forwarding)
  have known := inv.remainingKnown message _ forwarding output (List.mem_cons_self ..)
  have fresh (other : Nat) : ⟨message, output, other⟩ ∉ s.accepted := fun member =>
    (inv.acceptedIff message _ forwarding output known).mpr ⟨other, member⟩ (List.mem_cons_self ..)
  have cases_of (m : Nat) (todo : List String) (found : (s.forwarders.set message rest)[m]? = some todo) :
      m = message ∧ todo = rest ∨ m ≠ message ∧ s.forwarders[m]? = some todo := by
    by_cases same : m = message
    · subst same
      rw [List.getElem?_set_self inside] at found
      exact Or.inl ⟨rfl, (Option.some.inj found).symm⟩
    · rw [List.getElem?_set_ne (Ne.symm same)] at found
      exact Or.inr ⟨same, found⟩
  refine { inv with
    forwarderCount := (List.length_set ..).trans inv.forwarderCount
    remainingOnce := ?_, remainingKnown := ?_, acceptedOnce := ?_, acceptedKnown := ?_, acceptedIff := ?_
    handedAccepted := fun h member => List.mem_append_left _ (inv.handedAccepted h member)
    takenAccepted := ?_, persistingHanded := ?_, progress := ?_ }
  · intro m todo found
    rcases cases_of m todo found with ⟨_, rfl⟩ | ⟨_, old⟩
    · exact once
    · exact inv.remainingOnce m todo old
  · intro m todo found
    rcases cases_of m todo found with ⟨_, rfl⟩ | ⟨_, old⟩
    · exact fun name member => inv.remainingKnown message _ forwarding name (List.mem_cons_of_mem _ member)
    · exact inv.remainingKnown m todo old
  · rw [List.map_append, List.nodup_append]
    refine ⟨inv.acceptedOnce, List.nodup_singleton _, ?_⟩
    rintro key member other new rfl
    obtain ⟨⟨m, o, i⟩, before, same⟩ := List.mem_map.mp member
    cases List.mem_singleton.mp new
    cases same
    exact fresh i before
  · intro d member
    dsimp only
    rw [List.length_set]
    rcases List.mem_append.mp member with old | new
    · exact inv.acceptedKnown d old
    · cases List.mem_singleton.mp new
      exact inside
  · intro m todo found name channel
    simp only [List.mem_append, List.mem_singleton, Delivery.mk.injEq]
    rcases cases_of m todo found with ⟨rfl, rfl⟩ | ⟨other, old⟩
    · have before := inv.acceptedIff m _ forwarding name channel
      by_cases same : name = output
      · subst same
        exact iff_of_true served ⟨id, Or.inr ⟨rfl, rfl, rfl⟩⟩
      · simp only [List.mem_cons, same, false_or] at before
        simp only [before, same, false_and, and_false, or_false]
    · simp only [inv.acceptedIff m todo old name channel, other, false_and, or_false]
  · intro o i w m found
    rcases update_eq_some found with ⟨same, phase⟩ | ⟨_, old⟩
    · cases same
      cases phase
      refine ⟨List.mem_append_right _ (List.mem_singleton.mpr rfl), fun h member same => ?_⟩
      exact fresh _ (same ▸ inv.handedAccepted h member)
    · obtain ⟨member, apart⟩ := inv.takenAccepted o i w m old
      exact ⟨List.mem_append_left _ member, apart⟩
  · intro o i w m found
    rcases update_eq_some found with ⟨_, phase⟩ | ⟨_, old⟩
    · cases phase
    · exact inv.persistingHanded o i w m old
  · intro d member
    rcases List.mem_append.mp member with old | new
    · rcases inv.progress d old with handed | ⟨w, taken⟩
      · exact Or.inl handed
      · have other : (d.output, d.id) ≠ (output, id) := by
          intro same
          rw [same, waiting] at taken
          cases taken
        exact Or.inr ⟨w, by dsimp only; rw [update_of_ne other]; exact taken⟩
    · cases List.mem_singleton.mp new
      exact Or.inr ⟨writer, update_self ..⟩

theorem touch_heap {kind : WriterKind} {heap touched : List ProcessInfo} {message : Nat}
    (timed : ∀ msg ∈ heap, msg.time.isSome) (done : kind.touch heap message = some touched) :
    touched.length = heap.length ∧ ∀ msg ∈ touched, msg.time.isSome := by
  rcases touch_cases done with ⟨_, rfl⟩ | ⟨_, msg, found, rfl⟩
  · exact ⟨rfl, timed⟩
  · refine ⟨List.length_set, fun m member => ?_⟩
    rcases List.mem_or_eq_of_mem_set member with old | rfl
    · exact timed m old
    · rw [ProcessInfo.inMilliseconds, Option.isSome_map]
      exact timed msg (List.mem_of_getElem? found)

theorem DeliveryInv.persist {s : DispatchState} {output : String} {id message : Nat} {writer : Writer}
    {heap : List ProcessInfo} (inv : DeliveryInv s)
    (holding : s.workers (output, id) = some (.taken writer message))
    (touched : writer.kind.touch s.heap message = some heap) :
    DeliveryInv { s with
      heap := heap
      workers := update s.workers (output, id) (some (.persisting writer message))
      handed := s.handed ++ [⟨⟨message, output, id⟩, writer⟩] } := by
  obtain ⟨length, timed⟩ := touch_heap inv.timed touched
  obtain ⟨accepted, apart⟩ := inv.takenAccepted output id writer message holding
  refine { inv with
    heapLength := length.trans inv.heapLength, timed := timed
    handedOnce := ?_, handedAccepted := ?_, takenAccepted := ?_, persistingHanded := ?_, progress := ?_ }
  · rw [List.map_append, List.nodup_append]
    refine ⟨inv.handedOnce, List.nodup_singleton _, ?_⟩
    rintro key member other new rfl
    obtain ⟨h, before, same⟩ := List.mem_map.mp member
    exact apart h before (same.trans (List.mem_singleton.mp new))
  · intro h member
    rcases List.mem_append.mp member with old | new
    · exact inv.handedAccepted h old
    · cases List.mem_singleton.mp new
      exact accepted
  · intro o i w m found
    rcases update_eq_some found with ⟨_, phase⟩ | ⟨other, old⟩
    · cases phase
    · obtain ⟨member, before⟩ := inv.takenAccepted o i w m old
      refine ⟨member, fun h handed same => ?_⟩
      rcases List.mem_append.mp handed with old | new
      · exact before h old same
      · cases List.mem_singleton.mp new
        cases same
        exact other rfl
  · intro o i w m found
    rcases update_eq_some found with ⟨same, phase⟩ | ⟨_, old⟩
    · cases same
      cases phase
      exact List.mem_append_right _ (List.mem_singleton.mpr rfl)
    · exact List.mem_append_left _ (inv.persistingHanded o i w m old)
  · intro d member
    rcases inv.progress d member with ⟨h, handed, same⟩ | ⟨w, taken⟩
    · exact Or.inl ⟨h, List.mem_append_left _ handed, same⟩
    · by_cases same : (d.output, d.id) = (output, id)
      · rw [same, holding] at taken
        cases taken
        obtain ⟨m, o, i⟩ := d
        cases same
        exact Or.inl ⟨_, List.mem_append_right _ (List.mem_singleton.mpr rfl), rfl⟩
      · exact Or.inr ⟨w, by dsimp only; rw [update_of_ne same]; exact taken⟩

theorem DeliveryInv.step {config : Configuration} {s t : DispatchState} {label : DispatchLabel}
    (inv : DeliveryInv s) (startup : StartupInv config s) (taken : DispatchStep s label t) : DeliveryInv t := by
  cases taken with
  | beginOutput between member =>
    obtain ⟨nothing, noForwarder, _⟩ := inv.during_startup (Or.inr (List.ne_nil_of_mem member))
    have none (message : Nat) (todo : List String) : s.forwarders[message]? ≠ some todo := by
      rw [noForwarder]
      nofun
    exact { inv with
      serving := fun some => absurd nothing some
      remainingKnown := fun message todo found => absurd found (none message todo)
      acceptedIff := fun message todo found => absurd found (none message todo) }
  | openWriter atLoop =>
    have nothing := (inv.during_startup (Or.inl (by rw [atLoop]; nofun))).1
    exact { inv with serving := fun some => absurd nothing some }
  | appendWriter atLoop =>
    have nothing := (inv.during_startup (Or.inl (by rw [atLoop]; nofun))).1
    exact { inv with serving := fun some => absurd nothing some }
  | startWorker atLoop =>
    obtain ⟨nothing, _, noDelivery⟩ := inv.during_startup (Or.inl (by rw [atLoop]; nofun))
    refine { inv.moveIdle (fun writer message taken => ?_) (by simp) (by simp) with
      serving := fun some => absurd nothing some }
    have accepted := (inv.takenAccepted _ _ writer message taken).1
    rw [noDelivery] at accepted
    exact List.not_mem_nil accepted
  | endOutput atLoop =>
    have nothing := (inv.during_startup (Or.inl (by rw [atLoop]; nofun))).1
    exact { inv with serving := fun some => absurd nothing some }
  | lookup starting found => exact inv.moveIdle (by rw [starting]; nofun) (by simp) (by simp)
  | decode between began required covers =>
    have distinct := startup.sections.nodup_iff.mpr config.distinct
    exact inv.decode between began required covers (List.nodup_append.mp distinct).1
  | accept forwarding waiting => exact inv.accept forwarding waiting
  | persist holding touched => exact inv.persist holding touched
  | finish inside found => exact { inv.moveIdle (by rw [inside]; nofun) (by simp) (by simp) with }
  | abort => exact { inv with }

/-- The writer in a handover is the one its worker has looked up. -/
structure HandedOwn (s : DispatchState) : Prop where
  own : ∀ h ∈ s.handed, (s.outputs h.delivery.output)[h.delivery.id]? = some h.writer

theorem HandedOwn.step {config : Configuration} {s t : DispatchState} {label : DispatchLabel}
    (inv : HandedOwn s) (startup : StartupInv config s) (taken : DispatchStep s label t) : HandedOwn t := by
  cases taken with
  | @appendWriter name out i writer atLoop =>
    refine ⟨fun h member => ?_⟩
    have old := inv.own h member
    dsimp only
    by_cases same : h.delivery.output = name
    · rw [← same, update_self, List.getElem?_append_left (List.getElem?_eq_some_iff.mp old).1]
      exact old
    · rw [update_of_ne same]
      exact old
  | @persist output id writer message heap holding touched =>
    refine ⟨fun h member => ?_⟩
    rcases List.mem_append.mp member with old | new
    · exact inv.own h old
    · cases List.mem_singleton.mp new
      exact startup.workersStarted.writers output id _ writer holding rfl
  | beginOutput => exact ⟨inv.own⟩
  | openWriter => exact ⟨inv.own⟩
  | startWorker => exact ⟨inv.own⟩
  | endOutput => exact ⟨inv.own⟩
  | lookup => exact ⟨inv.own⟩
  | decode => exact ⟨inv.own⟩
  | accept => exact ⟨inv.own⟩
  | finish => exact ⟨inv.own⟩
  | abort => exact ⟨inv.own⟩

structure DispatchInv (config : Configuration) (s : DispatchState) : Prop where
  startup : StartupInv config s
  delivery : DeliveryInv s
  handedOwn : HandedOwn s

theorem dispatchInv_init (config : Configuration) : DispatchInv config (dispatchSystem config).init :=
  ⟨startupInv_init config, deliveryInv_init config, ⟨nofun⟩⟩

theorem DispatchInv.step {config : Configuration} {s t : DispatchState} {label : DispatchLabel}
    (inv : DispatchInv config s) (taken : (dispatchSystem config).step s label = some t) :
    DispatchInv config t := by
  have effect := dispatchStep_sound taken
  exact ⟨inv.startup.step effect, inv.delivery.step inv.startup effect, inv.handedOwn.step inv.startup effect⟩

theorem reachable_dispatchInv {config : Configuration} {s : DispatchState}
    (reach : (dispatchSystem config).Reachable s) : DispatchInv config s :=
  reach.invariant (dispatchInv_init config) DispatchInv.step

/-- What the fan-out promises about each output and each message. -/
structure FanOutSound (config : Configuration) (s : DispatchState) : Prop where
  once : ∀ name message,
    s.handed.countP (fun h => h.delivery.output = name ∧ h.delivery.message = message) ≤ 1
  decodedBefore : ∀ h ∈ s.handed, h.delivery.message < s.decoded.length
  ownWriter : ∀ h ∈ s.handed, (s.openedFor h.delivery.output)[h.delivery.id]? = some h.writer
  lookupInRange : ∀ name id, s.workers (name, id) = some .starting → id < (s.outputs name).length
  allServed : ∀ message, s.forwarders[message]? = some [] → ∀ entry ∈ config.outputs,
    s.accepted.countP (fun d => d.message = message ∧ d.output = entry.1) = 1

theorem countP_key_le_one {α β : Type} [DecidableEq β] {key : α → β} {xs : List α} (distinct : (xs.map key).Nodup)
    (k : β) : xs.countP (key · = k) ≤ 1 := by
  induction xs with
  | nil => exact Nat.zero_le _
  | cons x rest ih =>
    obtain ⟨fresh, distinct⟩ := List.nodup_cons.mp distinct
    by_cases same : key x = k
    · have none : rest.countP (key · = k) = 0 := by
        rw [List.countP_eq_zero]
        intro y member equal
        rw [decide_eq_true_eq] at equal
        exact fresh (same ▸ equal ▸ List.mem_map_of_mem member)
      rw [List.countP_cons, none]
      split <;> omega
    · rw [List.countP_cons_of_neg (by simpa using same)]
      exact ih distinct

/-- Two deliveries of one message to one output are one delivery, so it is handed over once. -/
theorem handed_once {s : DispatchState} (inv : DeliveryInv s) :
    (s.handed.map fun h => (h.delivery.message, h.delivery.output)).Nodup := by
  have single (d : Delivery) (member : d ∈ s.handed.map (·.delivery)) : d ∈ s.accepted := by
    obtain ⟨h, handed, rfl⟩ := List.mem_map.mp member
    exact inv.handedAccepted h handed
  have keys := inv.handedOnce.map_on fun d first e second same =>
    List.inj_on_of_nodup_map inv.acceptedOnce (single d first) (single e second) same
  rwa [List.map_map] at keys

theorem fanOutSound_of_inv {config : Configuration} {s : DispatchState} (inv : DispatchInv config s) :
    FanOutSound config s := by
  obtain ⟨startup, delivery, own⟩ := inv
  refine ⟨fun name message => ?_, fun h member => ?_, fun h member => ?_, fun name id starting => ?_, ?_⟩
  · have bound := countP_key_le_one (handed_once delivery) (message, name)
    simpa only [Prod.mk.injEq, and_comm] using bound
  · have known := delivery.acceptedKnown _ (delivery.handedAccepted h member)
    rwa [delivery.forwarderCount] at known
  · have position := own.own h member
    rw [startup.openLog, List.getElem?_append_left (List.getElem?_eq_some_iff.mp position).1]
    exact position
  · exact ((startup.workersStarted.started name id).mp (by rw [starting]; rfl)).1
  · intro message ended entry configured
    have some : s.decoded ≠ [] := by
      intro nothing
      have count := delivery.forwarderCount
      rw [nothing] at count
      rw [List.eq_nil_of_length_eq_zero count] at ended
      cases ended
    have began := (delivery.serving some).2
    have channel : entry.1 ∈ s.channels := (startup.mem_channels began).mpr (List.mem_map_of_mem configured)
    obtain ⟨id, member⟩ := (delivery.acceptedIff message [] ended entry.1 channel).mp List.not_mem_nil
    have bound := countP_key_le_one delivery.acceptedOnce (message, entry.1)
    simp only [Prod.mk.injEq] at bound
    refine le_antisymm bound (List.countP_pos_iff.mpr ⟨_, member, by simp⟩)

/-- No message is handed to an output twice, none that was not decoded, each worker calls
only its own writer, and a forwarding goroutine that has ended has served every output. -/
theorem fanOut_sound (config : Configuration) (s : DispatchState)
    (reach : (dispatchSystem config).Reachable s) : FanOutSound config s :=
  fanOutSound_of_inv (reachable_dispatchInv reach)

/-- One report, two outputs, two workers on the second of them. -/
theorem fanOut_sound_two_outputs :
    ∃ s, (dispatchSystem ⟨[("Splunk", ⟨"JsonOverTcp", ascii "tcp:splunk:18255", 1⟩),
        ("file", ⟨"JsonFile", ascii "/tmp/ogrt_jobs/", 2⟩)], by decide⟩).Reachable s ∧
      s.handed.length = 2 ∧ s.forwarders = [[]] ∧
      FanOutSound ⟨[("Splunk", ⟨"JsonOverTcp", ascii "tcp:splunk:18255", 1⟩),
        ("file", ⟨"JsonFile", ascii "/tmp/ogrt_jobs/", 2⟩)], by decide⟩ s := by
  let splunk : String × OutputConfig := ("Splunk", ⟨"JsonOverTcp", ascii "tcp:splunk:18255", 1⟩)
  let file : String × OutputConfig := ("file", ⟨"JsonFile", ascii "/tmp/ogrt_jobs/", 2⟩)
  let msg : ProcessInfo := ⟨some [0x61], some 7, some 1, some 5, none, some [0x31], none, none, none, [], [], [], []⟩
  let labels : List DispatchLabel := [.beginOutput file,
    .openWriter true, .appendWriter, .startWorker, .openWriter true, .appendWriter, .startWorker, .endOutput,
    .beginOutput splunk, .openWriter true, .appendWriter, .startWorker, .endOutput,
    .lookup "Splunk" 0, .lookup "file" 0, .lookup "file" 1, .decode msg ["file", "Splunk"],
    .accept 0 1, .persist "file" 1, .accept 0 0, .finish "file" 1, .persist "Splunk" 0]
  have ran : ((dispatchSystem ⟨[splunk, file], by decide⟩).run
      (dispatchSystem ⟨[splunk, file], by decide⟩).init labels).map
        (fun s => (s.handed.length, s.forwarders)) = some (2, [[]]) := by decide
  obtain ⟨s, final, observed⟩ := Option.map_eq_some_iff.mp ran
  have reach := StepSystem.reachable_iff_run.mpr ⟨labels, final⟩
  exact ⟨s, reach, (Prod.mk.inj observed).1, (Prod.mk.inj observed).2, fanOut_sound _ s reach⟩

end Ogrt
