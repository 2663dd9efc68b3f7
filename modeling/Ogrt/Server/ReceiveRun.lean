import Ogrt.Lib.StepSystem
import Ogrt.Framing
import Mathlib.Data.List.Perm.Basic
import Mathlib.Data.List.Nodup

namespace Ogrt
open ByteBuffer

/-- A started goroutine: the message type it captured and its slice of the shared buffer.
The serial number counts the datagrams received before the one that started it. -/
structure DecodeGoroutine where
  serial : Nat
  msgType : Int32
  data : Window
  deriving DecidableEq, Repr

/-- A goroutine that has run, with the bytes it passed to proto.Unmarshal, if any. -/
structure EndedGoroutine where
  goroutine : DecodeGoroutine
  unmarshalled : Option (List UInt8)
  deriving DecidableEq, Repr

inductive MainPhase
  | receiving
  | decodingHeader
  | panicked
  | returned
  deriving DecidableEq, Repr

structure ReceiveState (maxReceiveBuffer : UInt32) where
  packetBuffer : PacketBuffer maxReceiveBuffer
  phase : MainPhase
  received : List Datagram
  pending : List DecodeGoroutine
  ended : List EndedGoroutine

inductive ReceiveLabel
  | readFromUDP (datagram : Datagram)
  | readFails
  | decodeHeader
  | unmarshal (serial : Nat)
  deriving DecidableEq, Repr

variable {maxReceiveBuffer : UInt32}

/-- The goroutine looks at its slice only now, whatever the buffer held when it was started. -/
def DecodeGoroutine.execute (goroutine : DecodeGoroutine) (packetBuffer : PacketBuffer maxReceiveBuffer) :
    EndedGoroutine where
  goroutine := goroutine
  unmarshalled :=
    if goroutine.msgType = MessageType.processInfoMsg.value then
      some (goroutine.data.read packetBuffer.bytes)
    else none

/-- Main and the goroutines take turns. A panic and a return from main both end the
process, and with it the goroutines that have not run. -/
def receiveStep (s : ReceiveState maxReceiveBuffer) : ReceiveLabel → Option (ReceiveState maxReceiveBuffer)
  | .readFromUDP datagram =>
    if s.phase = .receiving then
      some { s with
        packetBuffer := readFromUDP s.packetBuffer datagram
        phase := .decodingHeader
        received := s.received ++ [datagram] }
    else none
  | .readFails =>
    if s.phase = .receiving then some { s with phase := .returned, pending := [] } else none
  | .decodeHeader =>
    if s.phase = .decodingHeader then
      match decodeHeader s.packetBuffer with
      | some deframed =>
        some { s with
          phase := .receiving
          pending := s.pending ++ [⟨s.received.length - 1, deframed.msgType, deframed.data⟩] }
      | none => some { s with phase := .panicked, pending := [] }
    else none
  | .unmarshal serial =>
    (s.pending.find? (·.serial = serial)).map fun goroutine =>
      { s with
        pending := s.pending.erase goroutine
        ended := s.ended ++ [goroutine.execute s.packetBuffer] }

def receiveSystem (maxReceiveBuffer : UInt32) : StepSystem (ReceiveState maxReceiveBuffer) ReceiveLabel where
  init := ⟨makePacketBuffer maxReceiveBuffer, .receiving, [], [], []⟩
  step := receiveStep

/-- Everything one step can do, guards included. -/
theorem receiveStep_cases {s t : ReceiveState maxReceiveBuffer} {label : ReceiveLabel}
    (taken : (receiveSystem maxReceiveBuffer).step s label = some t) :
    (∃ datagram, label = .readFromUDP datagram ∧ s.phase = .receiving ∧
      t = { s with packetBuffer := readFromUDP s.packetBuffer datagram, phase := .decodingHeader,
                   received := s.received ++ [datagram] }) ∨
    (label = .readFails ∧ s.phase = .receiving ∧ t = { s with phase := .returned, pending := [] }) ∨
    (∃ deframed, label = .decodeHeader ∧ s.phase = .decodingHeader ∧
      decodeHeader s.packetBuffer = some deframed ∧
      t = { s with phase := .receiving,
                   pending := s.pending ++ [⟨s.received.length - 1, deframed.msgType, deframed.data⟩] }) ∨
    (label = .decodeHeader ∧ s.phase = .decodingHeader ∧ decodeHeader s.packetBuffer = none ∧
      t = { s with phase := .panicked, pending := [] }) ∨
    (∃ goroutine ∈ s.pending, label = .unmarshal goroutine.serial ∧
      t = { s with pending := s.pending.erase goroutine,
                   ended := s.ended ++ [goroutine.execute s.packetBuffer] }) := by
  change receiveStep s label = some t at taken
  cases label with
  | readFromUDP datagram =>
    simp only [receiveStep, Option.ite_none_right_eq_some, Option.some.injEq] at taken
    exact Or.inl ⟨datagram, rfl, taken.1, taken.2.symm⟩
  | readFails =>
    simp only [receiveStep, Option.ite_none_right_eq_some, Option.some.injEq] at taken
    exact Or.inr (Or.inl ⟨rfl, taken.1, taken.2.symm⟩)
  | decodeHeader =>
    simp only [receiveStep, Option.ite_none_right_eq_some] at taken
    obtain ⟨decoding, taken⟩ := taken
    split at taken
    · rename_i deframed found
      exact Or.inr (Or.inr (Or.inl ⟨deframed, rfl, decoding, found, (Option.some.inj taken).symm⟩))
    · rename_i panics
      exact Or.inr (Or.inr (Or.inr (Or.inl ⟨rfl, decoding, panics, (Option.some.inj taken).symm⟩)))
  | unmarshal serial =>
    obtain ⟨goroutine, found, rfl⟩ := Option.map_eq_some_iff.mp taken
    have same : goroutine.serial = serial := by simpa only [decide_eq_true_eq] using List.find?_some found
    exact Or.inr (Or.inr (Or.inr (Or.inr ⟨goroutine, List.mem_of_find?_eq_some found, by rw [same], rfl⟩)))

/-- A goroutine belongs to a received datagram, and where that datagram reaches past the
header, type and slice are the ones it asks for. -/
def StartedBy (maxReceiveBuffer : UInt32) (received : List Datagram) (goroutine : DecodeGoroutine) : Prop :=
  ∃ datagram, received[goroutine.serial]? = some datagram ∧ goroutine.data.hi ≤ maxReceiveBuffer.toNat ∧
    (8 ≤ datagram.length → goroutine.msgType = msgTypeField datagram ∧
      goroutine.data = ⟨8, (msgLengthField datagram).toNat + 8⟩)

def ReceiveState.serials (s : ReceiveState maxReceiveBuffer) : List Nat :=
  s.pending.map (·.serial) ++ s.ended.map (·.goroutine.serial)

/-- Each datagram whose header has been decoded has one goroutine, waiting or ended. -/
structure Accounted (s : ReceiveState maxReceiveBuffer) : Prop where
  receiving : s.phase = .receiving → s.serials.Perm (List.range s.received.length)
  decoding : s.phase = .decodingHeader → ∃ earlier datagram old,
    s.received = earlier ++ [datagram] ∧ s.serials.Perm (List.range earlier.length) ∧
      s.packetBuffer = readFromUDP old datagram
  halted : s.phase = .panicked ∨ s.phase = .returned → s.pending = []
  pendingStarted : ∀ goroutine ∈ s.pending, StartedBy maxReceiveBuffer s.received goroutine
  endedStarted : ∀ e ∈ s.ended, StartedBy maxReceiveBuffer s.received e.goroutine
  handed : ∀ e ∈ s.ended, e.unmarshalled.isSome ↔ e.goroutine.msgType = MessageType.processInfoMsg.value

theorem StartedBy.later {received later : List Datagram} {goroutine : DecodeGoroutine}
    (started : StartedBy maxReceiveBuffer received goroutine) :
    StartedBy maxReceiveBuffer (received ++ later) goroutine := by
  obtain ⟨datagram, found, rest⟩ := started
  have inside := (List.getElem?_eq_some_iff.mp found).1
  exact ⟨datagram, by rw [List.getElem?_append_left inside, found], rest⟩

/-- The goroutine that a decoded header starts belongs to the datagram just read. -/
theorem startedBy_decoded {old : PacketBuffer maxReceiveBuffer} (earlier : List Datagram)
    {datagram : Datagram} {deframed : Deframed}
    (found : decodeHeader (readFromUDP old datagram) = some deframed) :
    StartedBy maxReceiveBuffer (earlier ++ [datagram])
      ⟨earlier.length, deframed.msgType, deframed.data⟩ := by
  obtain ⟨header, room, rfl⟩ := decodeHeader_eq_some.mp found
  refine ⟨datagram, List.getElem?_concat_length, room, ?_⟩
  intro reaches
  have own := header_fields_overwrite old.bytes datagram (old.size ▸ header) reaches
  exact ⟨own.1, by rw [readFromUDP, own.2]⟩

theorem accounted_init : Accounted (receiveSystem maxReceiveBuffer).init where
  receiving := fun _ => List.Perm.refl _
  decoding := nofun
  halted := nofun
  pendingStarted := nofun
  endedStarted := nofun
  handed := nofun

/-- Running a goroutine moves its serial number from the waiting to the ended ones. -/
theorem serials_execute {s : ReceiveState maxReceiveBuffer} {goroutine : DecodeGoroutine}
    (member : goroutine ∈ s.pending) :
    ({ s with pending := s.pending.erase goroutine,
              ended := s.ended ++ [goroutine.execute s.packetBuffer] } : ReceiveState _).serials.Perm s.serials := by
  have waiting := ((List.perm_cons_erase member).map (·.serial)).symm
  simp only [ReceiveState.serials, List.map_append, List.map_cons, List.map_nil, ← List.append_assoc]
  refine List.perm_append_comm.trans ?_
  exact waiting.append_right _

theorem Accounted.step {s t : ReceiveState maxReceiveBuffer} {label : ReceiveLabel} (inv : Accounted s)
    (taken : (receiveSystem maxReceiveBuffer).step s label = some t) : Accounted t := by
  rcases receiveStep_cases taken with ⟨datagram, rfl, receiving, rfl⟩ | ⟨rfl, receiving, rfl⟩ |
    ⟨deframed, rfl, decoding, found, rfl⟩ | ⟨rfl, decoding, panics, rfl⟩ | ⟨goroutine, member, rfl, rfl⟩
  · exact {
      receiving := nofun
      decoding := fun _ => ⟨s.received, datagram, s.packetBuffer, rfl, inv.receiving receiving, rfl⟩
      halted := nofun
      pendingStarted := fun g waiting => (inv.pendingStarted g waiting).later
      endedStarted := fun e ended => (inv.endedStarted e ended).later
      handed := inv.handed }
  · exact { inv with
      receiving := nofun
      decoding := nofun
      halted := fun _ => rfl
      pendingStarted := nofun }
  · obtain ⟨earlier, datagram, old, split, serials, shows⟩ := inv.decoding decoding
    have position : s.received.length - 1 = earlier.length := by simp [split]
    have started := startedBy_decoded earlier (shows ▸ found)
    refine { inv with receiving := fun _ => ?_, decoding := nofun, halted := nofun, pendingStarted := ?_ }
    · have count : s.received.length = earlier.length + 1 := by simp [split]
      have extended : (s.serials ++ [earlier.length]).Perm (List.range s.received.length) := by
        rw [count, List.range_succ]
        exact serials.append_right _
      refine List.Perm.trans ?_ extended
      simp only [ReceiveState.serials, position, List.map_append, List.map_cons, List.map_nil, List.append_assoc]
      exact List.perm_append_comm.append_left _
    · intro g waiting
      rcases List.mem_append.mp waiting with old | new
      · exact inv.pendingStarted g old
      · rw [List.mem_singleton.mp new, position, split]
        exact started
  · exact { inv with
      receiving := nofun
      decoding := nofun
      halted := fun _ => rfl
      pendingStarted := nofun }
  · have serials := serials_execute member
    refine {
      receiving := fun receiving => serials.trans (inv.receiving receiving)
      decoding := fun decoding => ?_
      halted := fun stopped => by rw [inv.halted stopped] at member; exact absurd member List.not_mem_nil
      pendingStarted := fun g waiting => inv.pendingStarted g (List.mem_of_mem_erase waiting)
      endedStarted := ?_
      handed := ?_ }
    · obtain ⟨earlier, datagram, old, split, before, shows⟩ := inv.decoding decoding
      exact ⟨earlier, datagram, old, split, serials.trans before, shows⟩
    · intro e ended
      rcases List.mem_append.mp ended with old | new
      · exact inv.endedStarted e old
      · rw [List.mem_singleton.mp new]
        exact inv.pendingStarted goroutine member
    · intro e ended
      rcases List.mem_append.mp ended with old | new
      · exact inv.handed e old
      · rw [List.mem_singleton.mp new, DecodeGoroutine.execute]
        split <;> simp_all

end Ogrt
