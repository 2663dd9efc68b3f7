import Ogrt.Server.SharedBuffer
import Ogrt.Server.SharedMessage
import Ogrt.Wire.ClientMessage

namespace Ogrt

/-- The clients and the server: main with its decoding goroutines beside the workers of the
outputs. `sent` keeps every call that has come to send. -/
structure ServiceState (protobuf : Protobuf) (maxReceiveBuffer : UInt32) where
  sent : List (ClientCall protobuf)
  receive : ReceiveState maxReceiveBuffer
  dispatch : DispatchState

/-- A goroutine that has decoded a message ranges over the channels in some order. -/
inductive ServiceLabel (protobuf : Protobuf)
  | send (call : ClientCall protobuf)
  | receive (label : ReceiveLabel)
  | unmarshal (serial : Nat) (order : List String)
  | dispatch (label : DispatchLabel)

variable {protobuf : Protobuf} {maxReceiveBuffer : UInt32}

/-- The network may lose, repeat and reorder datagrams, but brings none that no client sent. -/
def ServiceState.Carried (s : ServiceState protobuf maxReceiveBuffer) (datagram : Datagram) : Prop :=
  datagram.length ≤ udpLimit ∧ ∃ call ∈ s.sent, call.datagram = datagram

instance (s : ServiceState protobuf maxReceiveBuffer) (datagram : Datagram) : Decidable (s.Carried datagram) :=
  inferInstanceAs (Decidable (_ ∧ ∃ call ∈ s.sent, call.datagram = datagram))

/-- The server process has neither ended nor panicked. -/
def ServiceState.Running (s : ServiceState protobuf maxReceiveBuffer) : Prop :=
  s.dispatch.aborted = false ∧ s.receive.phase ≠ .panicked ∧ s.receive.phase ≠ .returned

instance (s : ServiceState protobuf maxReceiveBuffer) : Decidable s.Running := inferInstanceAs (Decidable (_ ∧ _ ∧ _))

/-- Main comes to its loop when every output has been instantiated. -/
def ServiceState.Listening (s : ServiceState protobuf maxReceiveBuffer) : Prop :=
  s.dispatch.current = none ∧ s.dispatch.remaining = []

instance (s : ServiceState protobuf maxReceiveBuffer) : Decidable s.Listening := inferInstanceAs (Decidable (_ ∧ _))

/-- The steps of main. -/
def ServiceState.Admits (s : ServiceState protobuf maxReceiveBuffer) : ReceiveLabel → Prop
  | .readFromUDP datagram => s.Carried datagram
  | .readFails => True
  | .decodeHeader => True
  | .unmarshal _ => False

instance (s : ServiceState protobuf maxReceiveBuffer) (label : ReceiveLabel) : Decidable (s.Admits label) :=
  match label with
  | .readFromUDP datagram => inferInstanceAs (Decidable (s.Carried datagram))
  | .readFails => inferInstanceAs (Decidable True)
  | .decodeHeader => inferInstanceAs (Decidable True)
  | .unmarshal _ => inferInstanceAs (Decidable False)

def DispatchLabel.decodes : DispatchLabel → Bool
  | .decode _ _ => true
  | _ => false

/-- What a goroutine that has run decoded. -/
def EndedGoroutine.report (protobuf : Protobuf) (e : EndedGoroutine) : Option ProcessInfo :=
  e.unmarshalled.bind protobuf.unmarshal

def serviceStep (s : ServiceState protobuf maxReceiveBuffer) :
    ServiceLabel protobuf → Option (ServiceState protobuf maxReceiveBuffer)
  | .send call => some { s with sent := s.sent ++ [call] }
  | .receive label =>
    if s.Running ∧ s.Listening ∧ s.Admits label then
      (receiveStep s.receive label).map fun receive => { s with receive }
    else none
  | .unmarshal serial order =>
    if s.Running then
      (s.receive.pending.find? (·.serial = serial)).bind fun goroutine =>
        let ended := goroutine.execute s.receive.packetBuffer
        let receive :=
          { s.receive with
            pending := s.receive.pending.erase goroutine
            ended := s.receive.ended ++ [ended] }
        match ended.report protobuf with
        | some msg => (dispatchStep s.dispatch (.decode msg order)).map fun dispatch => { s with receive, dispatch }
        | none => some { s with receive }
    else none
  | .dispatch label =>
    if s.Running ∧ label.decodes = false then
      (dispatchStep s.dispatch label).map fun dispatch => { s with dispatch }
    else none

def serviceSystem (protobuf : Protobuf) (maxReceiveBuffer : UInt32) (config : Configuration) :
    StepSystem (ServiceState protobuf maxReceiveBuffer) (ServiceLabel protobuf) where
  init := ⟨[], (receiveSystem maxReceiveBuffer).init, (dispatchSystem config).init⟩
  step := serviceStep

/-- Each step by the part of the service that takes it. -/
inductive ServiceStep (config : Configuration) (s : ServiceState protobuf maxReceiveBuffer) :
    ServiceLabel protobuf → ServiceState protobuf maxReceiveBuffer → Prop
  | send {call} : ServiceStep config s (.send call) { s with sent := s.sent ++ [call] }
  | receive {label receive} : s.Admits label → (receiveSystem maxReceiveBuffer).step s.receive label = some receive →
      ServiceStep config s (.receive label) { s with receive }
  | ignore {serial order goroutine receive} :
      (receiveSystem maxReceiveBuffer).step s.receive (.unmarshal serial) = some receive →
      receive.received = s.receive.received →
      receive.ended = s.receive.ended ++ [goroutine] → goroutine.report protobuf = none →
      ServiceStep config s (.unmarshal serial order) { s with receive }
  | decode {serial order goroutine receive msg dispatch} :
      (receiveSystem maxReceiveBuffer).step s.receive (.unmarshal serial) = some receive →
      receive.received = s.receive.received →
      receive.ended = s.receive.ended ++ [goroutine] → goroutine.report protobuf = some msg →
      (dispatchSystem config).step s.dispatch (.decode msg order) = some dispatch →
      ServiceStep config s (.unmarshal serial order) { s with receive, dispatch }
  | dispatch {label dispatch} : label.decodes = false → (dispatchSystem config).step s.dispatch label = some dispatch →
      ServiceStep config s (.dispatch label) { s with dispatch }

variable {config : Configuration}

theorem serviceStep_sound {s t : ServiceState protobuf maxReceiveBuffer} {label : ServiceLabel protobuf}
    (taken : (serviceSystem protobuf maxReceiveBuffer config).step s label = some t) : ServiceStep config s label t := by
  change serviceStep s label = some t at taken
  cases label with
  | send call =>
    cases taken
    exact .send
  | receive label =>
    simp only [serviceStep, Option.ite_none_right_eq_some] at taken
    obtain ⟨⟨_, _, admitted⟩, taken⟩ := taken
    obtain ⟨receive, step, rfl⟩ := Option.map_eq_some_iff.mp taken
    exact .receive admitted step
  | unmarshal serial order =>
    simp only [serviceStep, Option.ite_none_right_eq_some] at taken
    obtain ⟨_, taken⟩ := taken
    obtain ⟨goroutine, found, taken⟩ := Option.bind_eq_some_iff.mp taken
    have step : (receiveSystem maxReceiveBuffer).step s.receive (.unmarshal serial) =
        some { s.receive with
          pending := s.receive.pending.erase goroutine
          ended := s.receive.ended ++ [goroutine.execute s.receive.packetBuffer] } := by
      change receiveStep s.receive (.unmarshal serial) = _
      rw [receiveStep, found]
      rfl
    split at taken
    · rename_i msg decoded
      obtain ⟨dispatch, forwards, rfl⟩ := Option.map_eq_some_iff.mp taken
      exact .decode step rfl rfl decoded forwards
    · rename_i nothing
      cases taken
      exact .ignore step rfl rfl nothing
  | dispatch label =>
    simp only [serviceStep, Option.ite_none_right_eq_some] at taken
    obtain ⟨⟨_, other⟩, taken⟩ := taken
    obtain ⟨dispatch, step, rfl⟩ := Option.map_eq_some_iff.mp taken
    exact .dispatch other step

/-- The call that a label sends. -/
def ServiceLabel.sends : ServiceLabel protobuf → Option (ClientCall protobuf)
  | .send call => some call
  | _ => none

theorem sent_step {s t : ServiceState protobuf maxReceiveBuffer} {label : ServiceLabel protobuf}
    (taken : (serviceSystem protobuf maxReceiveBuffer config).step s label = some t) : t.sent = s.sent ++ label.sends.toList := by
  cases serviceStep_sound taken with
  | send => rfl
  | receive => exact (List.append_nil _).symm
  | ignore => exact (List.append_nil _).symm
  | decode => exact (List.append_nil _).symm
  | dispatch => exact (List.append_nil _).symm

theorem sent_run {s t : ServiceState protobuf maxReceiveBuffer} {labels : List (ServiceLabel protobuf)}
    (ran : (serviceSystem protobuf maxReceiveBuffer config).run s labels = some t) :
    t.sent = s.sent ++ labels.filterMap ServiceLabel.sends := by
  induction labels generalizing s with
  | nil =>
    cases ran
    exact (List.append_nil _).symm
  | cons label rest ih =>
    obtain ⟨r, first, later⟩ := StepSystem.run_cons_eq_some.mp ran
    rw [ih later, sent_step first, List.append_assoc, List.filterMap_cons]
    cases label.sends with
    | none => rfl
    | some call => rfl

/-- Only a decoding goroutine adds to the decoded messages. -/
theorem decoded_unchanged {s t : DispatchState} {label : DispatchLabel} (other : label.decodes = false)
    (taken : (dispatchSystem config).step s label = some t) : t.decoded = s.decoded := by
  cases dispatchStep_sound taken with
  | decode => cases other
  | beginOutput => rfl
  | openWriter => rfl
  | appendWriter => rfl
  | startWorker => rfl
  | endOutput => rfl
  | lookup => rfl
  | accept => rfl
  | persist => rfl
  | finish => rfl
  | abort => rfl

theorem decoded_decode {s t : DispatchState} {msg : ProcessInfo} {order : List String}
    (taken : (dispatchSystem config).step s (.decode msg order) = some t) : t.decoded = s.decoded ++ [msg] := by
  change dispatchStep s (.decode msg order) = some t at taken
  unfold dispatchStep at taken
  split at taken
  · cases taken
  · simp only [Option.ite_none_right_eq_some, Option.some.injEq] at taken
    rw [← taken.2]

theorem dispatch_reachable {s : ServiceState protobuf maxReceiveBuffer} {labels : List (ServiceLabel protobuf)}
    (ran : (serviceSystem protobuf maxReceiveBuffer config).run (serviceSystem protobuf maxReceiveBuffer config).init labels =
      some s) : (dispatchSystem config).Reachable s.dispatch := by
  refine @StepSystem.run_invariant _ _ _ (fun s : ServiceState protobuf maxReceiveBuffer =>
    (dispatchSystem config).Reachable s.dispatch) _ _ _ .init (fun {s t label} reach taken => ?_) ran
  cases serviceStep_sound taken with
  | send => exact reach
  | receive => exact reach
  | ignore => exact reach
  | decode _ _ _ _ forwards => exact reach.step forwards
  | dispatch _ step => exact reach.step step

/-- No datagram that is read changes the bytes that a waiting goroutine has still to decode. -/
def ServiceState.Undisturbed (s : ServiceState protobuf maxReceiveBuffer) : ServiceLabel protobuf → Prop
  | .receive (.readFromUDP datagram) => Ogrt.Undisturbed s.receive (.readFromUDP datagram)
  | _ => True

instance (s : ServiceState protobuf maxReceiveBuffer) (label : ServiceLabel protobuf) : Decidable (s.Undisturbed label) :=
  match label with
  | .receive (.readFromUDP datagram) =>
    inferInstanceAs (Decidable (∀ goroutine ∈ s.receive.pending,
      goroutine.msgType = MessageType.processInfoMsg.value → ∀ i, goroutine.data.lo ≤ i → i < goroutine.data.hi →
        i < datagram.length → datagram[i]? = s.receive.packetBuffer.bytes[i]?))
  | .receive .readFails => inferInstanceAs (Decidable True)
  | .receive .decodeHeader => inferInstanceAs (Decidable True)
  | .receive (.unmarshal _) => inferInstanceAs (Decidable True)
  | .send _ => inferInstanceAs (Decidable True)
  | .unmarshal _ _ => inferInstanceAs (Decidable True)
  | .dispatch _ => inferInstanceAs (Decidable True)

/-- Every goroutine has decoded its own datagram, and every datagram is one that a client sent. -/
structure ServiceInv (config : Configuration) (s : ServiceState protobuf maxReceiveBuffer) : Prop where
  accounted : Accounted s.receive
  intact : SlicesIntact s.receive
  dispatched : (dispatchSystem config).Reachable s.dispatch
  carried : ∀ datagram ∈ s.receive.received, s.Carried datagram
  decoded : s.dispatch.decoded = s.receive.ended.filterMap (EndedGoroutine.report protobuf)

theorem serviceInv_init : ServiceInv config (serviceSystem protobuf maxReceiveBuffer config).init where
  accounted := accounted_init
  intact := slicesIntact_init
  dispatched := .init
  carried _ member := absurd member List.not_mem_nil
  decoded := rfl

theorem ServiceState.Carried.frame_eq {s : ServiceState protobuf maxReceiveBuffer} {datagram : Datagram}
    (carried : s.Carried datagram) :
    ∃ call ∈ s.sent, datagram = frame MessageType.processInfoMsg.value (protobuf.pack call.message) ∧
      (protobuf.pack call.message).length + 8 ≤ udpLimit := by
  obtain ⟨short, call, member, rfl⟩ := carried
  exact ⟨call, member, call.datagram_eq short⟩

/-- The header of a datagram that a client sent claims no more than the datagram has. -/
theorem undisturbed_decodeHeader {s : ServiceState protobuf maxReceiveBuffer} (inv : ServiceInv config s)
    (decoding : s.receive.phase = .decodingHeader) : Ogrt.Undisturbed s.receive .decodeHeader := by
  intro datagram last _ header room
  obtain ⟨earlier, datagram', old, split, _, shows⟩ := inv.accounted.decoding decoding
  have same : datagram' = datagram := by
    rw [split, List.getLast?_concat] at last
    exact Option.some.inj last
  subst same
  have member : datagram' ∈ s.receive.received := split ▸ List.mem_append_right _ (List.mem_singleton.mpr rfl)
  obtain ⟨call, _, framed, small⟩ := (inv.carried _ member).frame_eq
  have limit : udpLimit = 65507 := rfl
  have length : datagram'.length = (protobuf.pack call.message).length + 8 := by rw [framed, frame_length]
  have own := (header_fields_overwrite old.bytes datagram' (old.size ▸ header) (by omega)).2
  have claimed := msgLengthField_frame MessageType.processInfoMsg.value
    (show (protobuf.pack call.message).length < 2 ^ 32 by omega)
  rw [shows, readFromUDP_bytes, own, framed, claimed, frame_length]

theorem decodeHeader_phase {s t : ReceiveState maxReceiveBuffer}
    (taken : (receiveSystem maxReceiveBuffer).step s .decodeHeader = some t) : s.phase = .decodingHeader := by
  rcases receiveStep_cases taken with ⟨_, label, _⟩ | ⟨label, _⟩ | ⟨_, _, decoding, _⟩ | ⟨_, decoding, _⟩ |
    ⟨_, _, label, _⟩
  · cases label
  · cases label
  · exact decoding
  · exact decoding
  · cases label

/-- A step of main reads at most one datagram, which the network has carried, and runs no goroutine. -/
theorem receive_read {s : ServiceState protobuf maxReceiveBuffer} {t : ReceiveState maxReceiveBuffer} {label : ReceiveLabel}
    (admitted : s.Admits label) (taken : (receiveSystem maxReceiveBuffer).step s.receive label = some t) :
    (∀ datagram ∈ t.received, datagram ∈ s.receive.received ∨ s.Carried datagram) ∧ t.ended = s.receive.ended := by
  rcases receiveStep_cases taken with ⟨read, rfl, _, rfl⟩ | ⟨rfl, _, rfl⟩ | ⟨_, rfl, _, _, rfl⟩ | ⟨rfl, _, _, rfl⟩ |
    ⟨_, _, rfl, rfl⟩
  · refine ⟨fun datagram member => ?_, rfl⟩
    rcases List.mem_append.mp member with old | new
    · exact Or.inl old
    · rw [List.mem_singleton.mp new]
      exact Or.inr admitted
  · exact ⟨fun _ => Or.inl, rfl⟩
  · exact ⟨fun _ => Or.inl, rfl⟩
  · exact ⟨fun _ => Or.inl, rfl⟩
  · exact admitted.elim

theorem ServiceInv.step {s t : ServiceState protobuf maxReceiveBuffer} {label : ServiceLabel protobuf}
    (inv : ServiceInv config s) (undisturbed : s.Undisturbed label)
    (taken : (serviceSystem protobuf maxReceiveBuffer config).step s label = some t) : ServiceInv config t := by
  cases serviceStep_sound taken with
  | send =>
    refine { inv with carried := fun datagram member => ?_ }
    obtain ⟨short, call, sent, same⟩ := inv.carried datagram member
    exact ⟨short, call, List.mem_append_left _ sent, same⟩
  | @receive label receive admitted step =>
    have quiet : Ogrt.Undisturbed s.receive label := by
      cases label with
      | readFromUDP datagram => exact undisturbed
      | readFails => trivial
      | decodeHeader => exact undisturbed_decodeHeader inv (decodeHeader_phase step)
      | unmarshal serial => exact admitted.elim
    have read := receive_read admitted step
    exact { inv with
      accounted := inv.accounted.step step
      intact := (intact_step_iff inv.accounted inv.intact step).mpr quiet
      carried := fun datagram member => (read.1 datagram member).elim (inv.carried datagram) id
      decoded := by rw [read.2]; exact inv.decoded }
  | @ignore serial order goroutine receive step received ended nothing =>
    exact { inv with
      accounted := inv.accounted.step step
      intact := (intact_step_iff inv.accounted inv.intact step).mpr trivial
      carried := fun datagram member => inv.carried datagram (received ▸ member)
      decoded := by
        rw [ended, List.filterMap_append, ← inv.decoded]
        simp [nothing] }
  | @decode serial order goroutine receive msg dispatch step received ended report forwards =>
    exact {
      accounted := inv.accounted.step step
      intact := (intact_step_iff inv.accounted inv.intact step).mpr trivial
      dispatched := inv.dispatched.step forwards
      carried := fun datagram member => inv.carried datagram (received ▸ member)
      decoded := by
        rw [ended, List.filterMap_append, ← inv.decoded, decoded_decode forwards]
        simp [report] }
  | dispatch other step =>
    exact { inv with
      dispatched := inv.dispatched.step step
      decoded := (decoded_unchanged other step).trans inv.decoded }

end Ogrt
