import Ogrt.Server.ReceiveRun

namespace Ogrt
open ByteBuffer

variable {maxReceiveBuffer : UInt32}

/-- The bytes are the payload of the datagram with this serial number. -/
def OwnPayload (received : List Datagram) (serial : Nat) (bytes : List UInt8) : Prop :=
  ∃ datagram, received[serial]? = some datagram ∧ payload? datagram = some bytes

/-- What proto.Unmarshal makes of the bytes the goroutines of one datagram passed to it. -/
def ReceiveState.decodedMessages (s : ReceiveState maxReceiveBuffer)
    (unmarshal : List UInt8 → Option ProcessInfo) (serial : Nat) : List ProcessInfo :=
  (s.ended.filter (·.goroutine.serial = serial)).filterMap fun e => e.unmarshalled.bind unmarshal

/-- Each goroutine unmarshalled just the payload of its own datagram, and once all have
run and main still receives, a ProcessInfo datagram has yielded the message its client
packed, once. Of a goroutine that is still waiting when main panics or returns, and dies with
it, `yields` says nothing. -/
structure Faithful (pack : ProcessInfo → List UInt8) (unmarshal : List UInt8 → Option ProcessInfo)
    (s : ReceiveState maxReceiveBuffer) : Prop where
  own : ∀ e ∈ s.ended, ∀ bytes, e.unmarshalled = some bytes →
    OwnPayload s.received e.goroutine.serial bytes
  yields : s.phase = .receiving → s.pending = [] → ∀ serial msg,
    s.received[serial]? = some (frame MessageType.processInfoMsg.value (pack msg)) →
    (pack msg).length + 8 ≤ 65507 → unmarshal (pack msg) = some msg →
    s.decodedMessages unmarshal serial = [msg]

/-- The step leaves every waiting slice as it is, and starts a decoding goroutine only for
a datagram that covers the payload its header claims. -/
def Undisturbed (s : ReceiveState maxReceiveBuffer) : ReceiveLabel → Prop
  | .readFromUDP datagram =>
    ∀ goroutine ∈ s.pending, goroutine.msgType = MessageType.processInfoMsg.value →
      ∀ i, goroutine.data.lo ≤ i → i < goroutine.data.hi → i < datagram.length →
        datagram[i]? = s.packetBuffer.bytes[i]?
  | .readFails => True
  | .decodeHeader =>
    ∀ datagram, s.received.getLast? = some datagram →
      msgTypeField s.packetBuffer.bytes = MessageType.processInfoMsg.value →
      8 ≤ maxReceiveBuffer.toNat →
      (msgLengthField s.packetBuffer.bytes).toNat + 8 ≤ maxReceiveBuffer.toNat →
      (msgLengthField s.packetBuffer.bytes).toNat + 8 ≤ datagram.length
  | .unmarshal _ => True

/-- What has been unmarshalled and what would be unmarshalled next are own payloads. -/
structure SlicesIntact (s : ReceiveState maxReceiveBuffer) : Prop where
  ended : ∀ e ∈ s.ended, ∀ bytes, e.unmarshalled = some bytes →
    OwnPayload s.received e.goroutine.serial bytes
  pending : ∀ goroutine ∈ s.pending, goroutine.msgType = MessageType.processInfoMsg.value →
    OwnPayload s.received goroutine.serial (goroutine.data.read s.packetBuffer.bytes)

theorem OwnPayload.unique {received : List Datagram} {serial : Nat} {bytes other : List UInt8}
    (own : OwnPayload received serial bytes) (same : OwnPayload received serial other) : bytes = other := by
  obtain ⟨datagram, found, payload⟩ := own
  obtain ⟨datagram', found', payload'⟩ := same
  cases Option.some.inj (found.symm.trans found')
  exact Option.some.inj (payload.symm.trans payload')

theorem OwnPayload.later_iff {received later : List Datagram} {serial : Nat} {bytes : List UInt8}
    (inside : serial < received.length) :
    OwnPayload (received ++ later) serial bytes ↔ OwnPayload received serial bytes := by
  rw [OwnPayload, OwnPayload, List.getElem?_append_left inside]

theorem StartedBy.serial_lt {received : List Datagram} {goroutine : DecodeGoroutine}
    (started : StartedBy maxReceiveBuffer received goroutine) : goroutine.serial < received.length := by
  obtain ⟨_, found, _⟩ := started
  exact (List.getElem?_eq_some_iff.mp found).1

/-- Reading a datagram leaves a waiting slice as it was exactly when it repeats the bytes
of the slice that it covers. -/
theorem read_after_readFromUDP {packetBuffer : PacketBuffer maxReceiveBuffer} {datagram : Datagram}
    {data : Window} (inside : data.hi ≤ maxReceiveBuffer.toNat) :
    data.read (readFromUDP packetBuffer datagram).bytes = data.read packetBuffer.bytes ↔
      ∀ i, data.lo ≤ i → i < data.hi → i < datagram.length → datagram[i]? = packetBuffer.bytes[i]? := by
  have size := packetBuffer.size
  rw [Window.read_eq_iff]
  refine forall₃_congr fun i _ upper => ?_
  rw [readFromUDP, overwrite_getElem?]
  by_cases covered : i < datagram.length
  · rw [if_pos ⟨by omega, covered⟩]
    exact ⟨fun same _ => same, fun same => same covered⟩
  · rw [if_neg (fun both => covered both.2)]
    exact ⟨fun _ reaches => absurd reaches covered, fun _ => rfl⟩

theorem intact_readFromUDP {s : ReceiveState maxReceiveBuffer} (inv : Accounted s) (intact : SlicesIntact s)
    (datagram : Datagram) :
    SlicesIntact { s with packetBuffer := readFromUDP s.packetBuffer datagram, phase := .decodingHeader,
                          received := s.received ++ [datagram] } ↔
      Undisturbed s (.readFromUDP datagram) := by
  constructor
  · intro after goroutine waiting decodes
    have earlier := (inv.pendingStarted goroutine waiting).serial_lt
    have before := intact.pending goroutine waiting decodes
    have own := (OwnPayload.later_iff earlier).mp (after.pending goroutine waiting decodes)
    obtain ⟨_, _, inside, _⟩ := inv.pendingStarted goroutine waiting
    exact (read_after_readFromUDP inside).mp (own.unique before)
  · intro undisturbed
    refine ⟨fun e ended bytes passed => ?_, fun goroutine waiting decodes => ?_⟩
    · exact (OwnPayload.later_iff (inv.endedStarted e ended).serial_lt).mpr (intact.ended e ended bytes passed)
    · have earlier := (inv.pendingStarted goroutine waiting).serial_lt
      obtain ⟨_, _, inside, _⟩ := inv.pendingStarted goroutine waiting
      rw [(read_after_readFromUDP inside).mpr (undisturbed goroutine waiting decodes)]
      exact (OwnPayload.later_iff earlier).mpr (intact.pending goroutine waiting decodes)

/-- The slice of a goroutine just started is its own payload exactly when the datagram
covers what the decoded header claims. -/
theorem own_payload_decoded {old : PacketBuffer maxReceiveBuffer} (earlier : List Datagram)
    {datagram : Datagram} {deframed : Deframed}
    (found : decodeHeader (readFromUDP old datagram) = some deframed) :
    OwnPayload (earlier ++ [datagram]) earlier.length
        (deframed.data.read (readFromUDP old datagram).bytes) ↔
      (msgLengthField (readFromUDP old datagram).bytes).toNat + 8 ≤ datagram.length := by
  obtain ⟨header, room, rfl⟩ := decodeHeader_eq_some.mp found
  have position : (earlier ++ [datagram])[earlier.length]? = some datagram := List.getElem?_concat_length
  have ownFields (reaches : 8 ≤ datagram.length) :
      msgLengthField (readFromUDP old datagram).bytes = msgLengthField datagram :=
    (header_fields_overwrite old.bytes datagram (old.size ▸ header) reaches).2
  constructor
  · rintro ⟨datagram', found', payload⟩
    cases Option.some.inj (position.symm.trans found')
    have covers := (payload?_eq_some.mp payload).1
    rwa [ownFields (by omega)]
  · intro covers
    have same := ownFields (by omega)
    rw [same] at covers room
    have shown := receiveIteration_covered old (payload?_eq_some.mpr ⟨covers, rfl⟩) room
    refine ⟨datagram, position, ?_⟩
    rw [same, shown.2]
    exact payload?_eq_some.mpr ⟨covers, rfl⟩

theorem intact_decodeHeader {s : ReceiveState maxReceiveBuffer} {deframed : Deframed} (inv : Accounted s)
    (intact : SlicesIntact s) (decoding : s.phase = .decodingHeader)
    (found : decodeHeader s.packetBuffer = some deframed) :
    SlicesIntact { s with
        phase := .receiving
        pending := s.pending ++ [⟨s.received.length - 1, deframed.msgType, deframed.data⟩] } ↔
      Undisturbed s .decodeHeader := by
  obtain ⟨earlier, datagram, old, split, _, shows⟩ := inv.decoding decoding
  have last : s.received.getLast? = some datagram := by simp [split]
  have position : s.received.length - 1 = earlier.length := by simp [split]
  have own := own_payload_decoded earlier (shows ▸ found)
  rw [← shows, ← split, ← position] at own
  obtain ⟨header, room, shape⟩ := decodeHeader_eq_some.mp found
  have sameType : deframed.msgType = msgTypeField s.packetBuffer.bytes := by rw [shape]
  constructor
  · intro after datagram' last' decodes _ _
    cases Option.some.inj (last.symm.trans last')
    exact own.mp (after.pending _ (List.mem_append_right _ (List.mem_singleton.mpr rfl)) (sameType.trans decodes))
  · intro undisturbed
    refine ⟨intact.ended, fun goroutine waiting decodes => ?_⟩
    rcases List.mem_append.mp waiting with old | new
    · exact intact.pending goroutine old decodes
    · cases List.mem_singleton.mp new
      exact own.mpr (undisturbed datagram last (sameType.symm.trans decodes) header room)

theorem SlicesIntact.execute {s : ReceiveState maxReceiveBuffer} {goroutine : DecodeGoroutine}
    (intact : SlicesIntact s) (member : goroutine ∈ s.pending) :
    SlicesIntact { s with pending := s.pending.erase goroutine,
                          ended := s.ended ++ [goroutine.execute s.packetBuffer] } := by
  refine ⟨fun e ended bytes passed => ?_, fun g waiting => intact.pending g (List.mem_of_mem_erase waiting)⟩
  rcases List.mem_append.mp ended with old | new
  · exact intact.ended e old bytes passed
  · cases List.mem_singleton.mp new
    simp only [DecodeGoroutine.execute, Option.ite_none_right_eq_some, Option.some.injEq] at passed
    obtain ⟨decodes, rfl⟩ := passed
    exact intact.pending goroutine member decodes

/-- One step keeps the slices intact exactly when it is undisturbed. -/
theorem intact_step_iff {s t : ReceiveState maxReceiveBuffer} {label : ReceiveLabel} (inv : Accounted s)
    (intact : SlicesIntact s) (taken : (receiveSystem maxReceiveBuffer).step s label = some t) :
    SlicesIntact t ↔ Undisturbed s label := by
  rcases receiveStep_cases taken with ⟨datagram, rfl, _, rfl⟩ | ⟨rfl, _, rfl⟩ |
    ⟨deframed, rfl, decoding, found, rfl⟩ | ⟨rfl, decoding, panics, rfl⟩ | ⟨goroutine, member, rfl, rfl⟩
  · exact intact_readFromUDP inv intact datagram
  · exact iff_of_true ⟨intact.ended, nofun⟩ trivial
  · exact intact_decodeHeader inv intact decoding found
  · refine iff_of_true ⟨intact.ended, nofun⟩ fun datagram _ decodes header room => ?_
    have completes := decodeHeader_eq_some.mpr ⟨header, room, rfl⟩
    rw [panics] at completes
    cases completes
  · exact iff_of_true (intact.execute member) trivial

theorem filter_eq_singleton {α : Type} {key : α → Nat} {xs : List α} {x : α}
    (distinct : (xs.map key).Nodup) (member : x ∈ xs) : xs.filter (key · = key x) = [x] := by
  induction xs with
  | nil => exact absurd member List.not_mem_nil
  | cons y rest ih =>
    obtain ⟨fresh, distinct⟩ := List.nodup_cons.mp distinct
    rcases List.mem_cons.mp member with rfl | later
    · have none : rest.filter (key · = key x) = [] := by
        simp only [List.filter_eq_nil_iff, decide_eq_true_eq]
        exact fun z inside same => fresh (same ▸ List.mem_map_of_mem inside)
      simp [none]
    · have differ : key y ≠ key x := fun same => fresh (same ▸ List.mem_map_of_mem later)
      simp [differ, ih distinct later]

/-- When every goroutine has run, the one started for a framed message has passed on its
packed form, and no other has the same serial number. -/
theorem faithful_iff {pack : ProcessInfo → List UInt8} {unmarshal : List UInt8 → Option ProcessInfo}
    {s : ReceiveState maxReceiveBuffer} (inv : Accounted s) :
    Faithful pack unmarshal s ↔ ∀ e ∈ s.ended, ∀ bytes, e.unmarshalled = some bytes →
      OwnPayload s.received e.goroutine.serial bytes := by
  refine ⟨Faithful.own, fun own => ⟨own, fun receiving idle serial msg found limit inverse => ?_⟩⟩
  have serials := inv.receiving receiving
  simp only [ReceiveState.serials, idle, List.map_nil, List.nil_append] at serials
  have inside := (List.getElem?_eq_some_iff.mp found).1
  obtain ⟨e, ended, rfl⟩ := List.mem_map.mp (serials.mem_iff.mpr (List.mem_range.mpr inside))
  obtain ⟨datagram, found', _, fields⟩ := inv.endedStarted e ended
  cases Option.some.inj (found.symm.trans found')
  have decodes := (fields (by rw [frame_length]; omega)).1
  rw [msgTypeField_frame] at decodes
  obtain ⟨bytes, passed⟩ := Option.isSome_iff_exists.mp ((inv.handed e ended).mpr decodes)
  obtain ⟨datagram, found', payload⟩ := own e ended bytes passed
  cases Option.some.inj (found.symm.trans found')
  rw [payload?_frame _ (by omega)] at payload
  cases Option.some.inj payload
  have single := filter_eq_singleton (serials.nodup_iff.mpr List.nodup_range) ended
  simp only [ReceiveState.decodedMessages, single, List.filterMap_cons, List.filterMap_nil, passed,
    Option.bind_some, inverse]

theorem Accounted.serials_nodup {s : ReceiveState maxReceiveBuffer} (inv : Accounted s)
    {goroutine : DecodeGoroutine} (member : goroutine ∈ s.pending) : s.serials.Nodup := by
  cases phase : s.phase with
  | receiving => exact (inv.receiving phase).nodup_iff.mpr List.nodup_range
  | decodingHeader =>
    obtain ⟨_, _, _, _, serials, _⟩ := inv.decoding phase
    exact serials.nodup_iff.mpr List.nodup_range
  | panicked =>
    rw [inv.halted (Or.inl phase)] at member
    exact absurd member List.not_mem_nil
  | returned =>
    rw [inv.halted (Or.inr phase)] at member
    exact absurd member List.not_mem_nil

/-- The scheduler may run any waiting goroutine next. -/
theorem receiveStep_unmarshal {s : ReceiveState maxReceiveBuffer} (inv : Accounted s)
    {goroutine : DecodeGoroutine} (member : goroutine ∈ s.pending) :
    (receiveSystem maxReceiveBuffer).step s (.unmarshal goroutine.serial) =
      some { s with pending := s.pending.erase goroutine,
                    ended := s.ended ++ [goroutine.execute s.packetBuffer] } := by
  have distinct := (List.nodup_append.mp (inv.serials_nodup member)).1
  have single := filter_eq_singleton distinct member
  have found : s.pending.find? (·.serial = goroutine.serial) = some goroutine := by
    rw [← List.head?_filter, single]
    rfl
  change receiveStep s (.unmarshal goroutine.serial) = _
  rw [receiveStep, found]
  rfl

/-- Slices are intact exactly when any goroutine that runs next unmarshals its own payload. -/
theorem intact_iff_faithful_next {pack : ProcessInfo → List UInt8}
    {unmarshal : List UInt8 → Option ProcessInfo} {s : ReceiveState maxReceiveBuffer} (inv : Accounted s) :
    SlicesIntact s ↔ ∀ (serials : List Nat) (t : ReceiveState maxReceiveBuffer),
      (receiveSystem maxReceiveBuffer).run s (serials.map .unmarshal) = some t → Faithful pack unmarshal t := by
  constructor
  · intro intact serials t ran
    induction serials generalizing s with
    | nil => cases ran; exact (faithful_iff inv).mpr intact.ended
    | cons serial serials ih =>
      obtain ⟨r, first, rest⟩ := StepSystem.run_cons_eq_some.mp ran
      exact ih (inv.step first) ((intact_step_iff inv intact first).mpr trivial) rest
  · intro faithful
    refine ⟨(faithful [] s rfl).own, fun goroutine waiting decodes => ?_⟩
    have next := receiveStep_unmarshal inv waiting
    have after := faithful [goroutine.serial] _ (StepSystem.run_cons_eq_some.mpr ⟨_, next, rfl⟩)
    refine after.own _ (List.mem_append_right _ (List.mem_singleton.mpr rfl)) _ ?_
    exact if_pos decodes

theorem slicesIntact_init : SlicesIntact (receiveSystem maxReceiveBuffer).init :=
  ⟨nofun, nofun⟩

/-- However main and the goroutines are scheduled, every goroutine unmarshals its own
payload exactly when no step of main disturbs a waiting slice or starts a goroutine for a
datagram shorter than it claims. -/
theorem goroutines_faithful_iff (maxReceiveBuffer : UInt32) (pack : ProcessInfo → List UInt8)
    (unmarshal : List UInt8 → Option ProcessInfo) (labels : List ReceiveLabel) :
    (receiveSystem maxReceiveBuffer).EveryStep Undisturbed (receiveSystem maxReceiveBuffer).init labels ↔
      ∀ (earlier : List ReceiveLabel) (serials : List Nat) (t : ReceiveState maxReceiveBuffer),
        earlier <+: labels → (receiveSystem maxReceiveBuffer).run (receiveSystem maxReceiveBuffer).init
          (earlier ++ serials.map .unmarshal) = some t → Faithful pack unmarshal t := by
  refine (StepSystem.everyStep_iff _ accounted_init slicesIntact_init Accounted.step
    intact_step_iff).trans ?_
  constructor
  · intro intact earlier serials t before ran
    obtain ⟨s, first, rest⟩ := StepSystem.run_append_eq_some.mp ran
    have inv := StepSystem.run_invariant accounted_init Accounted.step first
    exact (intact_iff_faithful_next inv).mp (intact earlier s before first) serials t rest
  · intro faithful earlier s before ran
    have inv := StepSystem.run_invariant accounted_init Accounted.step ran
    exact (intact_iff_faithful_next inv).mpr fun serials t rest =>
      faithful earlier serials t before (StepSystem.run_append_eq_some.mpr ⟨s, ran, rest⟩)

/-- Two processes report before the first goroutine runs: it decodes the second report. -/
theorem goroutine_decodes_later_datagram :
    ¬ ∀ (maxReceiveBuffer : UInt32) (pack : ProcessInfo → List UInt8)
        (unmarshal : List UInt8 → Option ProcessInfo) (labels : List ReceiveLabel)
        (t : ReceiveState maxReceiveBuffer),
      (receiveSystem maxReceiveBuffer).run (receiveSystem maxReceiveBuffer).init labels = some t →
        Faithful pack unmarshal t := by
  intro faithful
  let report (pid : UInt8) := [0xE2, 0x12, 1, 0x61, 0xE8, 0x12, pid, 0xF0, 0x12, 1, 0xF8, 0x12, 5]
  let labels : List ReceiveLabel := [.readFromUDP (frame 12 (report 7)), .decodeHeader,
    .readFromUDP (frame 12 (report 8)), .decodeHeader, .unmarshal 0]
  have ran : ((receiveSystem 64).run (receiveSystem 64).init labels).map
      (fun t => (t.received[0]?, t.ended)) =
        some (some (frame 12 (report 7)), [⟨⟨0, 12, ⟨8, 21⟩⟩, some (report 8)⟩]) := by decide
  obtain ⟨t, final, observed⟩ := Option.map_eq_some_iff.mp ran
  obtain ⟨first, ended⟩ := Prod.mk.inj observed
  have own := (faithful 64 (fun _ => []) (fun _ => none) labels t final).own _
    (ended ▸ List.mem_singleton.mpr rfl) (report 8) rfl
  obtain ⟨datagram, found, payload⟩ := own
  cases Option.some.inj (first.symm.trans found)
  exact absurd payload (by decide)

end Ogrt
