import Ogrt.Server.StartupRun
import Mathlib.Logic.Function.Iterate

namespace Ogrt
open Function

variable {config : Configuration}

/-- How often ElasticSearch writers have changed the message. -/
def touches (handed : List Handover) (message : Nat) : Nat :=
  handed.countP fun h => h.delivery.message = message ∧ h.writer.kind = .jsonElasticSearch

theorem touches_concat (handed : List Handover) (h : Handover) (message : Nat) :
    touches (handed ++ [h]) message = touches handed message +
      if h.delivery.message = message ∧ h.writer.kind = .jsonElasticSearch then 1 else 0 := by
  unfold touches
  rw [List.countP_append, List.countP_singleton]
  simp only [decide_eq_true_eq]

/-- A record comes from a handover, and a handover whose worker has left PersistProcessInfo
has its record. -/
structure RecordedInv (s : DispatchState) : Prop where
  fromHandover : ∀ r ∈ s.persisted, r.handover ∈ s.handed
  recorded : ∀ h ∈ s.handed, (∃ r ∈ s.persisted, r.handover = h) ∨
    s.workers (h.delivery.output, h.delivery.id) = some (.persisting h.writer h.delivery.message)

theorem RecordedInv.movePhase {s : DispatchState} (inv : RecordedInv s) {key : String × Nat} {next : WorkerPhase}
    (before : ∀ writer message, s.workers key ≠ some (.persisting writer message)) :
    ∀ h ∈ s.handed, (∃ r ∈ s.persisted, r.handover = h) ∨
      update s.workers key (some next) (h.delivery.output, h.delivery.id) =
        some (.persisting h.writer h.delivery.message) := by
  intro h member
  rcases inv.recorded h member with done | inside
  · exact Or.inl done
  · have other : (h.delivery.output, h.delivery.id) ≠ key := fun same => before _ _ (same ▸ inside)
    exact Or.inr (by rw [update_of_ne other]; exact inside)

theorem RecordedInv.step {s t : DispatchState} {label : DispatchLabel} (inv : RecordedInv s)
    (delivery : DeliveryInv s) (taken : DispatchStep s label t) : RecordedInv t := by
  cases taken with
  | @startWorker name out i atLoop =>
    have noDelivery := (delivery.during_startup (Or.inl (by rw [atLoop]; nofun))).2.2
    refine ⟨inv.fromHandover, fun h member => ?_⟩
    have accepted := delivery.handedAccepted h member
    rw [noDelivery] at accepted
    exact absurd accepted List.not_mem_nil
  | lookup starting found => exact ⟨inv.fromHandover, inv.movePhase (by rw [starting]; nofun)⟩
  | accept forwarding waiting => exact ⟨inv.fromHandover, inv.movePhase (by rw [waiting]; nofun)⟩
  | @persist output id writer message heap holding touched =>
    refine ⟨fun r member => List.mem_append_left _ (inv.fromHandover r member), fun h member => ?_⟩
    rcases List.mem_append.mp member with old | new
    · exact inv.movePhase (by rw [holding]; nofun) h old
    · cases List.mem_singleton.mp new
      exact Or.inr (update_self ..)
  | @finish output id writer message content inside found =>
    have own := delivery.persistingHanded output id writer message inside
    refine ⟨fun r member => ?_, fun h member => ?_⟩
    · rcases List.mem_append.mp member with old | new
      · exact inv.fromHandover r old
      · cases List.mem_singleton.mp new
        exact own
    · rcases inv.recorded h member with ⟨r, done, same⟩ | persisting
      · exact Or.inl ⟨r, List.mem_append_left _ done, same⟩
      · by_cases same : (h.delivery.output, h.delivery.id) = (output, id)
        · rw [same, inside] at persisting
          obtain ⟨⟨m, o, i⟩, w⟩ := h
          cases same
          cases persisting
          exact Or.inl ⟨_, List.mem_append_right _ (List.mem_singleton.mpr rfl), rfl⟩
        · exact Or.inr (by dsimp only; rw [update_of_ne same]; exact persisting)
  | beginOutput => exact { inv with }
  | openWriter => exact { inv with }
  | appendWriter => exact { inv with }
  | endOutput => exact { inv with }
  | decode => exact { inv with }
  | abort => exact { inv with }

/-- The shared message carries one multiplication for each handover to an ElasticSearch
writer, and a record the ones made before it, its own included. -/
structure ContentInv (s : DispatchState) : Prop where
  shared : ∀ (message : Nat) msg, s.decoded[message]? = some msg →
    s.heap[message]? = some (ProcessInfo.inMilliseconds^[touches s.handed message] msg)
  content : ∀ r ∈ s.persisted, ∀ msg, s.decoded[r.handover.delivery.message]? = some msg →
    ∃ n ≤ touches s.handed r.handover.delivery.message,
      (r.handover.writer.kind = .jsonElasticSearch → 1 ≤ n) ∧ r.content = ProcessInfo.inMilliseconds^[n] msg

theorem ContentInv.decode {s : DispatchState} {msg : ProcessInfo} {forwarders : List (List String)}
    (inv : ContentInv s) (recorded : RecordedInv s) (delivery : DeliveryInv s) :
    ContentInv { s with
      decoded := s.decoded ++ [msg]
      heap := s.heap ++ [msg]
      forwarders := forwarders } := by
  have known (h : Handover) (member : h ∈ s.handed) : h.delivery.message < s.decoded.length := by
    rw [← delivery.forwarderCount]
    exact delivery.acceptedKnown _ (delivery.handedAccepted h member)
  refine ⟨fun message m found => ?_, fun r member m found => ?_⟩
  · rcases getElem?_concat_eq_some found with old | ⟨rfl, rfl⟩
    · have inside := (List.getElem?_eq_some_iff.mp old).1
      dsimp only
      rw [List.getElem?_append_left (by rwa [delivery.heapLength])]
      exact inv.shared message m old
    · have untouched : touches s.handed s.decoded.length = 0 := by
        unfold touches
        rw [List.countP_eq_zero]
        intro h member both
        have bound := known h member
        rw [decide_eq_true_eq] at both
        omega
      dsimp only
      rw [untouched, ← delivery.heapLength, List.getElem?_concat_length]
      rfl
  · have bound := known _ (recorded.fromHandover r member)
    rw [List.getElem?_append_left bound] at found
    exact inv.content r member m found

theorem ContentInv.persist {s : DispatchState} {output : String} {id message : Nat} {writer : Writer}
    {heap : List ProcessInfo} (inv : ContentInv s) (touched : writer.kind.touch s.heap message = some heap) :
    ContentInv { s with
      heap := heap
      workers := update s.workers (output, id) (some (.persisting writer message))
      handed := s.handed ++ [⟨⟨message, output, id⟩, writer⟩] } := by
  refine ⟨fun k m found => ?_, fun r member m found => ?_⟩
  · have old := inv.shared k m found
    dsimp only
    rw [touches_concat]
    rcases touch_cases touched with ⟨other, rfl⟩ | ⟨elastic, shown, present, rfl⟩
    · rw [if_neg fun both => other both.2]
      exact old
    · by_cases same : message = k
      · subst same
        rw [if_pos ⟨rfl, elastic⟩, iterate_succ_apply']
        rw [old] at present
        rw [List.getElem?_set_self (List.getElem?_eq_some_iff.mp old).1, Option.some.inj present]
      · rw [if_neg fun both => same both.1, List.getElem?_set_ne same]
        exact old
  · obtain ⟨n, bound, own, content⟩ := inv.content r member m found
    refine ⟨n, ?_, own, content⟩
    dsimp only
    rw [touches_concat]
    exact bound.trans (Nat.le_add_right _ _)

theorem ContentInv.finish {s : DispatchState} {output : String} {id message : Nat} {writer : Writer}
    {content : ProcessInfo} (inv : ContentInv s) (delivery : DeliveryInv s)
    (inside : s.workers (output, id) = some (.persisting writer message))
    (found : s.heap[message]? = some content) :
    ContentInv { s with
      workers := update s.workers (output, id) (some (.idle writer))
      persisted := s.persisted ++ [⟨⟨⟨message, output, id⟩, writer⟩, content⟩] } := by
  refine ⟨inv.shared, fun r member msg decoded => ?_⟩
  rcases List.mem_append.mp member with old | new
  · exact inv.content r old msg decoded
  · cases List.mem_singleton.mp new
    have shared := inv.shared message msg decoded
    rw [found] at shared
    refine ⟨touches s.handed message, le_rfl, fun elastic => ?_, Option.some.inj shared⟩
    exact List.countP_pos_iff.mpr
      ⟨_, delivery.persistingHanded output id writer message inside, decide_eq_true ⟨rfl, elastic⟩⟩

theorem ContentInv.step {s t : DispatchState} {label : DispatchLabel} (inv : ContentInv s)
    (recorded : RecordedInv s) (delivery : DeliveryInv s) (taken : DispatchStep s label t) : ContentInv t := by
  cases taken with
  | decode => exact inv.decode recorded delivery
  | persist _ touched => exact inv.persist touched
  | finish inside found => exact inv.finish delivery inside found
  | beginOutput => exact ⟨inv.shared, inv.content⟩
  | openWriter => exact ⟨inv.shared, inv.content⟩
  | appendWriter => exact ⟨inv.shared, inv.content⟩
  | startWorker => exact ⟨inv.shared, inv.content⟩
  | endOutput => exact ⟨inv.shared, inv.content⟩
  | lookup => exact ⟨inv.shared, inv.content⟩
  | accept => exact ⟨inv.shared, inv.content⟩
  | abort => exact ⟨inv.shared, inv.content⟩

theorem reachable_contentInv {s : DispatchState} (reach : (dispatchSystem config).Reachable s) :
    RecordedInv s ∧ ContentInv s := by
  induction reach with
  | init =>
    refine ⟨⟨fun r member => ?_, fun h member => ?_⟩, ⟨fun message msg decoded => ?_, fun r member => ?_⟩⟩
    · exact absurd member List.not_mem_nil
    · exact absurd member List.not_mem_nil
    · exact absurd decoded (Option.some_ne_none msg).symm
    · exact absurd member List.not_mem_nil
  | step before taken ih =>
    have effect := dispatchStep_sound taken
    have delivery := (reachable_dispatchInv before).delivery
    exact ⟨ih.1.step delivery effect, ih.2.step ih.1 delivery effect⟩

/-- The sections that have a worker. -/
def Configuration.served (config : Configuration) : List (String × OutputConfig) :=
  config.outputs.filter (0 < ·.2.workers)

theorem Configuration.mem_served {entry : String × OutputConfig} :
    entry ∈ config.served ↔ entry ∈ config.outputs ∧ 0 < entry.2.workers := by
  simp only [Configuration.served, List.mem_filter, decide_eq_true_eq]

theorem Configuration.served_name_injective {first second : String × OutputConfig}
    (one : first ∈ config.outputs) (two : second ∈ config.outputs) (same : first.1 = second.1) :
    first = second :=
  List.inj_on_of_nodup_map config.distinct one two same

/-- A writer of an output has the kind of its section, which has a worker. -/
theorem writer_configured {s : DispatchState} (inv : StartupInv config s) {name : String} {id : Nat}
    {writer : Writer} (position : (s.outputs name)[id]? = some writer) :
    ∃ out, (name, out) ∈ config.served ∧ newWriter out.type = some writer.kind := by
  have member : writer ∈ s.openedFor name := by
    rw [inv.openLog]
    exact List.mem_append_left _ (List.mem_of_getElem? position)
  obtain ⟨⟨other, same⟩, logged, rfl⟩ := List.mem_map.mp member
  obtain ⟨opened, named⟩ := List.mem_filter.mp logged
  have equal : other = name := of_decide_eq_true named
  subst equal
  obtain ⟨out, configured, positive, type, _⟩ := inv.kinds _ opened
  exact ⟨out, Configuration.mem_served.mpr ⟨configured, positive⟩, type⟩

/-- What each output records of a message, and that it records it. -/
structure RecordsSound (config : Configuration) (msg : ProcessInfo) (s : DispatchState) : Prop where
  content : ∀ r ∈ s.persisted, s.decoded[r.handover.delivery.message]? = some msg →
    ∀ entry ∈ config.outputs, r.handover.delivery.output = entry.1 →
      ∀ kind, newWriter entry.2.type = some kind → r.content = kind.expected msg
  present : ∀ message, s.decoded[message]? = some msg → s.forwarders[message]? = some [] →
    (∀ key phase, s.workers key = some phase → ∃ writer, phase = .idle writer) →
    ∀ entry ∈ config.outputs, ∃ r ∈ s.persisted,
      r.handover.delivery.message = message ∧ r.handover.delivery.output = entry.1

theorem records_present {s : DispatchState} (reach : (dispatchSystem config).Reachable s) {message : Nat}
    {msg : ProcessInfo} (decoded : s.decoded[message]? = some msg) (ended : s.forwarders[message]? = some [])
    (idle : ∀ key phase, s.workers key = some phase → ∃ writer, phase = .idle writer)
    {entry : String × OutputConfig} (member : entry ∈ config.outputs) :
    ∃ r ∈ s.persisted, r.handover.delivery.message = message ∧ r.handover.delivery.output = entry.1 := by
  have inv := reachable_dispatchInv reach
  have some : s.decoded ≠ [] := by
    intro nothing
    rw [nothing] at decoded
    cases decoded
  have channel : entry.1 ∈ s.channels :=
    (inv.startup.mem_channels (inv.delivery.serving some).2).mpr (List.mem_map_of_mem member)
  obtain ⟨id, accepted⟩ := (inv.delivery.acceptedIff message [] ended entry.1 channel).mp List.not_mem_nil
  rcases inv.delivery.progress _ accepted with ⟨h, handed, same⟩ | ⟨writer, taken⟩
  · rcases (reachable_contentInv reach).1.recorded h handed with ⟨r, done, rfl⟩ | persisting
    · exact ⟨r, done, by rw [same], by rw [same]⟩
    · obtain ⟨_, phase⟩ := idle _ _ persisting
      cases phase
  · obtain ⟨_, phase⟩ := idle _ _ taken
    cases phase

/-- No writer finds in the message what another one has changed: no ElasticSearch output
is served, or one output alone is, or the multiplication leaves this time as it is, or it
leaves it so from the second time on and no other kind of output is served. -/
def Configuration.Undisturbed (config : Configuration) (msg : ProcessInfo) : Prop :=
  (∀ entry ∈ config.served, newWriter entry.2.type ≠ some .jsonElasticSearch) ∨
  (∀ first ∈ config.served, ∀ second ∈ config.served, first = second) ∨
  msg.inMilliseconds = msg ∨
  ((∀ entry ∈ config.served, newWriter entry.2.type = some .jsonElasticSearch) ∧
    msg.inMilliseconds.inMilliseconds = msg.inMilliseconds)

theorem expected_eq_self {kind : WriterKind} (other : kind ≠ .jsonElasticSearch) (msg : ProcessInfo) :
    kind.expected msg = msg := by
  cases kind with
  | jsonElasticSearch => exact absurd rfl other
  | jsonOverTcp => rfl
  | jsonFile => rfl

theorem touches_eq_zero {handed : List Handover} {message : Nat}
    (other : ∀ h ∈ handed, h.delivery.message = message → h.writer.kind ≠ .jsonElasticSearch) :
    touches handed message = 0 := by
  unfold touches
  rw [List.countP_eq_zero]
  intro h member both
  rw [decide_eq_true_eq] at both
  exact other h member both.1 both.2

/-- With one output served, a handover of a message is its only one. -/
theorem handed_unique {s : DispatchState} (inv : DispatchInv config s)
    (single : ∀ first ∈ config.served, ∀ second ∈ config.served, first = second) {h k : Handover}
    (first : h ∈ s.handed) (second : k ∈ s.handed) (same : h.delivery.message = k.delivery.message) : h = k := by
  obtain ⟨out, one, _⟩ := writer_configured inv.startup (inv.handedOwn.own h first)
  obtain ⟨out', two, _⟩ := writer_configured inv.startup (inv.handedOwn.own k second)
  have output : h.delivery.output = k.delivery.output := (Prod.mk.inj (single _ one _ two)).1
  exact List.inj_on_of_nodup_map (handed_once inv.delivery) first second (Prod.ext same output)

theorem touches_le_one {s : DispatchState} (inv : DispatchInv config s)
    (single : ∀ first ∈ config.served, ∀ second ∈ config.served, first = second) {h : Handover}
    (member : h ∈ s.handed) : touches s.handed h.delivery.message ≤ 1 := by
  refine le_trans (List.countP_mono_left fun k handed both => ?_)
    (countP_key_le_one (handed_once inv.delivery) (h.delivery.message, h.delivery.output))
  rw [decide_eq_true_eq] at both ⊢
  rw [handed_unique inv single handed member both.1]

theorem recordsSound_of_undisturbed {s : DispatchState} {msg : ProcessInfo} (condition : config.Undisturbed msg)
    (reach : (dispatchSystem config).Reachable s) : RecordsSound config msg s := by
  refine ⟨fun r member decoded entry configured named kind type => ?_,
    fun message decoded ended idle entry configured => records_present reach decoded ended idle configured⟩
  have inv := reachable_dispatchInv reach
  obtain ⟨recorded, contents⟩ := reachable_contentInv reach
  have handed := recorded.fromHandover r member
  obtain ⟨n, bound, own, content⟩ := contents.content r member msg decoded
  obtain ⟨out, served, ofSection⟩ := writer_configured inv.startup (inv.handedOwn.own _ handed)
  have section_eq : entry = (r.handover.delivery.output, out) :=
    Configuration.served_name_injective configured (Configuration.mem_served.mp served).1 named.symm
  have kind_eq : r.handover.writer.kind = kind := by
    rw [section_eq, ofSection] at type
    exact Option.some.inj type
  rw [content]
  rcases condition with noElastic | single | fixed | ⟨allElastic, stable⟩
  · have zero : touches s.handed r.handover.delivery.message = 0 :=
      touches_eq_zero fun h other _ elastic => by
        obtain ⟨out', served', type'⟩ := writer_configured inv.startup (inv.handedOwn.own h other)
        exact noElastic _ served' (type'.trans (congrArg some elastic))
    have other : kind ≠ .jsonElasticSearch := by
      rw [← kind_eq]
      exact fun elastic => noElastic _ served (ofSection.trans (congrArg some elastic))
    rw [expected_eq_self other, Nat.eq_zero_of_le_zero (bound.trans_eq zero)]
    rfl
  · by_cases elastic : r.handover.writer.kind = .jsonElasticSearch
    · have once : n = 1 := le_antisymm (bound.trans (touches_le_one inv single handed)) (own elastic)
      rw [← kind_eq, elastic, once]
      rfl
    · have zero : touches s.handed r.handover.delivery.message = 0 :=
        touches_eq_zero fun h other same => by
          rw [handed_unique inv single other handed same]
          exact elastic
      rw [← kind_eq, expected_eq_self elastic, Nat.eq_zero_of_le_zero (bound.trans_eq zero)]
      rfl
  · rw [iterate_fixed fixed]
    by_cases elastic : kind = .jsonElasticSearch
    · rw [elastic]
      exact fixed.symm
    · exact (expected_eq_self elastic msg).symm
  · have elastic : r.handover.writer.kind = .jsonElasticSearch := by
      have type' := allElastic _ served
      rw [ofSection] at type'
      exact Option.some.inj type'
    obtain ⟨m, rfl⟩ := Nat.exists_eq_succ_of_ne_zero (Nat.pos_iff_ne_zero.mp (own elastic))
    rw [← kind_eq, elastic, iterate_succ_apply, iterate_fixed stable]
    rfl

/-- A waiting worker can take the message that is offered to it and record it. -/
theorem deliver {s : DispatchState} (message : Nat) {id : Nat} {name : String} {rest : List String} {writer : Writer}
    {msg : ProcessInfo} (reach : (dispatchSystem config).Reachable s) (live : s.aborted = false)
    (forwarding : s.forwarders[message]? = some (name :: rest))
    (waiting : s.workers (name, id) = some (.idle writer)) (found : s.heap[message]? = some msg)
    (timed : msg.time.isSome) :
    ∃ t, (dispatchSystem config).Reachable t ∧ t.aborted = false ∧ t.workers = s.workers ∧
      t.decoded = s.decoded ∧ t.heap = s.heap.set message (writer.kind.expected msg) ∧
      t.forwarders = s.forwarders.set message rest ∧
      ⟨⟨⟨message, name, id⟩, writer⟩, writer.kind.expected msg⟩ ∈ t.persisted := by
  have inside := (List.getElem?_eq_some_iff.mp found).1
  have accepted := reach.step (dispatchStep_complete (.accept forwarding waiting) live live)
  have handed := accepted.step (dispatchStep_complete
    (.persist (update_self ..) (touch_eq writer.kind found timed)) live live)
  have recorded := handed.step (dispatchStep_complete
    (.finish (update_self ..) (List.getElem?_set_self inside)) live live)
  refine ⟨_, recorded, live, ?_, rfl, rfl, rfl, List.mem_append_right _ (List.mem_singleton.mpr rfl)⟩
  dsimp only
  rw [update_idem, update_idem, ← waiting, update_eq_self]

/-- Of two served outputs the second can record what the first has made of the message. -/
theorem second_after_first (startable : config.Startable) {msg : ProcessInfo} (required : msg.hasRequired)
    {first second : String × OutputConfig} (one : first ∈ config.served) (two : second ∈ config.served)
    (apart : first ≠ second) {kind other : WriterKind} (firstKind : newWriter first.2.type = some kind)
    (secondKind : newWriter second.2.type = some other) :
    ∃ s, (dispatchSystem config).Reachable s ∧ ∃ r ∈ s.persisted,
      s.decoded[r.handover.delivery.message]? = some msg ∧ r.handover.delivery.output = second.1 ∧
      r.content = other.expected (kind.expected msg) := by
  obtain ⟨s, reach, quiet, between, began⟩ := startup_completes startable
  have inv := (reachable_dispatchInv reach).startup
  have worker (entry : String × OutputConfig) (served : entry ∈ config.served) (k : WriterKind)
      (type : newWriter entry.2.type = some k) :
      ∃ writer, s.workers (entry.1, 0) = some (.idle writer) ∧ writer.kind = k := by
    obtain ⟨configured, positive⟩ := Configuration.mem_served.mp served
    have exists_ := (worker_exists inv between began configured 0).mpr (by omega)
    obtain ⟨phase, found⟩ := Option.isSome_iff_exists.mp exists_
    obtain ⟨writer, rfl⟩ := quiet.idle _ _ found
    obtain ⟨out, served', type'⟩ := writer_configured inv (inv.workersStarted.writers _ _ _ writer found rfl)
    have same := config.unique configured (Configuration.mem_served.mp served').1
    rw [same, type'] at type
    exact ⟨writer, found, Option.some.inj type⟩
  obtain ⟨writer, waiting, rfl⟩ := worker first one kind firstKind
  obtain ⟨writer', waiting', rfl⟩ := worker second two other secondKind
  have firstChannel : first.1 ∈ s.channels :=
    (inv.mem_channels began).mpr (List.mem_map_of_mem (Configuration.mem_served.mp one).1)
  have secondChannel : second.1 ∈ s.channels.erase first.1 := by
    refine (List.mem_erase_of_ne fun same => apart ?_).mpr
      ((inv.mem_channels began).mpr (List.mem_map_of_mem (Configuration.mem_served.mp two).1))
    exact Configuration.served_name_injective (Configuration.mem_served.mp one).1
      (Configuration.mem_served.mp two).1 same.symm
  have covers : (first.1 :: second.1 :: (s.channels.erase first.1).erase second.1).Perm s.channels :=
    ((List.perm_cons_erase secondChannel).symm.cons _).trans (List.perm_cons_erase firstChannel).symm
  have timed := ProcessInfo.time_isSome required
  have decoded := reach.step (dispatchStep_complete (.decode between began required covers) quiet.live quiet.live)
  simp only [quiet.decoded, quiet.heap, quiet.forwarders, List.nil_append] at decoded
  obtain ⟨t, reachT, live, workers, decodedT, heap, forwarders, _⟩ :=
    deliver 0 decoded quiet.live rfl waiting rfl timed
  have timed' : (writer.kind.expected msg).time.isSome := by
    cases writer.kind with
    | jsonElasticSearch => simpa [WriterKind.expected, ProcessInfo.inMilliseconds] using timed
    | jsonOverTcp => exact timed
    | jsonFile => exact timed
  obtain ⟨u, reachU, _, _, decodedU, _, _, member⟩ :=
    deliver 0 reachT live (by rw [forwarders]; rfl) (by rw [workers]; exact waiting')
      (by rw [heap]; rfl) timed'
  exact ⟨u, reachU, _, member, by rw [decodedU, decodedT]; rfl, rfl, rfl⟩

/-- Without a message there is nothing to record. -/
theorem recordsSound_of_not_startable {s : DispatchState} (unstartable : ¬ config.Startable)
    (reach : (dispatchSystem config).Reachable s) (msg : ProcessInfo) : RecordsSound config msg s := by
  have nothing : s.decoded = [] := by
    by_contra some
    exact unstartable (startable_of_decoded reach some)
  have never (message : Nat) : s.decoded[message]? ≠ some msg := by
    rw [nothing]
    exact nofun
  exact ⟨fun r _ decoded => absurd decoded (never _), fun message decoded => absurd decoded (never message)⟩

/-- The outputs record a message as each of them should, in every run, exactly when none
finds another's change in it, or when start-up never comes to a message. -/
theorem recordsSound_iff (config : Configuration) (msg : ProcessInfo) (required : msg.hasRequired) :
    (∀ s, (dispatchSystem config).Reachable s → RecordsSound config msg s) ↔
      config.Undisturbed msg ∨ ¬ config.Startable := by
  constructor
  · intro sound
    by_cases unstartable : ¬ config.Startable
    · exact Or.inr unstartable
    have startable := not_not.mp unstartable
    refine Or.inl ?_
    have agree (first : String × OutputConfig) (one : first ∈ config.served) (second : String × OutputConfig)
        (two : second ∈ config.served) (apart : first ≠ second) (kind : WriterKind)
        (firstKind : newWriter first.2.type = some kind) (other : WriterKind)
        (secondKind : newWriter second.2.type = some other) :
        other.expected (kind.expected msg) = other.expected msg := by
      obtain ⟨s, reach, r, member, decoded, output, content⟩ :=
        second_after_first startable required one two apart firstKind secondKind
      rw [← content]
      exact (sound s reach).content r member decoded second (Configuration.mem_served.mp two).1 output other secondKind
    by_contra disturbed
    simp only [Configuration.Undisturbed, not_or, not_and, not_forall, not_not] at disturbed
    obtain ⟨⟨elastic, served, type⟩, ⟨first, one, second, two, apart⟩, moves, again⟩ := disturbed
    by_cases all : ∀ entry ∈ config.served, newWriter entry.2.type = some .jsonElasticSearch
    · exact again all (agree first one second two apart _ (all first one) _ (all second two))
    · simp only [not_forall] at all
      obtain ⟨entry, member, notElastic⟩ := all
      obtain ⟨configured, works⟩ := Configuration.mem_served.mp member
      obtain ⟨kind, ofEntry, _⟩ := OutputConfig.opens_iff.mp (startable entry configured works)
      have other : kind ≠ .jsonElasticSearch := fun same => notElastic (same ▸ ofEntry)
      have different : elastic ≠ entry := fun same => notElastic (same ▸ type)
      have equal := agree elastic served entry member different _ type _ ofEntry
      rw [expected_eq_self other, expected_eq_self other] at equal
      exact moves equal
  · rintro (condition | unstartable) s reach
    · exact recordsSound_of_undisturbed condition reach
    · exact recordsSound_of_not_startable unstartable reach msg

theorem recordsSound_iff_two_outputs :
    (∀ s, (dispatchSystem ⟨[("ElasticSearch", ⟨"JsonElasticSearch", ascii "http:localhost:9200:ogrt", 2⟩),
        ("file", ⟨"JsonFile", ascii "/tmp/ogrt_jobs/", 1⟩)], by decide⟩).Reachable s →
      RecordsSound ⟨[("ElasticSearch", ⟨"JsonElasticSearch", ascii "http:localhost:9200:ogrt", 2⟩),
        ("file", ⟨"JsonFile", ascii "/tmp/ogrt_jobs/", 1⟩)], by decide⟩
        ⟨some [0x61], some 7, some 1, some 5, none, some [0x31], none, none, none, [], [], [], []⟩ s) ↔
    Configuration.Undisturbed ⟨[("ElasticSearch", ⟨"JsonElasticSearch", ascii "http:localhost:9200:ogrt", 2⟩),
        ("file", ⟨"JsonFile", ascii "/tmp/ogrt_jobs/", 1⟩)], by decide⟩
        ⟨some [0x61], some 7, some 1, some 5, none, some [0x31], none, none, none, [], [], [], []⟩ ∨
      ¬ Configuration.Startable ⟨[("ElasticSearch", ⟨"JsonElasticSearch", ascii "http:localhost:9200:ogrt", 2⟩),
        ("file", ⟨"JsonFile", ascii "/tmp/ogrt_jobs/", 1⟩)], by decide⟩ :=
  recordsSound_iff _ _ (by decide)

/-- A job file gets the time of its message in milliseconds after ElasticSearch has it. -/
theorem file_records_milliseconds :
    ¬ ∀ config : Configuration, config.Startable → ∀ msg : ProcessInfo, msg.hasRequired →
      ∀ s, (dispatchSystem config).Reachable s → RecordsSound config msg s := by
  intro sound
  let elastic : String × OutputConfig := ("ElasticSearch", ⟨"JsonElasticSearch", ascii "http:localhost:9200:ogrt", 2⟩)
  let file : String × OutputConfig := ("file", ⟨"JsonFile", ascii "/tmp/ogrt_jobs/", 1⟩)
  let msg : ProcessInfo := ⟨some [0x61], some 7, some 1, some 5, none, some [0x31], none, none, none, [], [], [], []⟩
  have startable : Configuration.Startable ⟨[elastic, file], by decide⟩ := by
    unfold Configuration.Startable
    decide
  have required : msg.hasRequired := rfl
  obtain ⟨s, reach, r, member, decoded, output, content⟩ := second_after_first startable required
    (show elastic ∈ _ by decide) (show file ∈ _ by decide) (by decide)
    (show newWriter elastic.2.type = some .jsonElasticSearch by decide)
    (show newWriter file.2.type = some .jsonFile by decide)
  have expected := (sound _ startable msg required s reach).content r member decoded file
    (List.mem_cons_of_mem _ (List.mem_singleton.mpr rfl)) output .jsonFile (by decide)
  rw [content] at expected
  have times : WriterKind.jsonFile.expected (WriterKind.jsonElasticSearch.expected msg) ≠
      WriterKind.jsonFile.expected msg := by decide
  exact times expected

end Ogrt
