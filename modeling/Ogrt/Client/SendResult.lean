import Ogrt.Client.HookDecision

namespace Ogrt
open Checked

/-- What ogrt_send_processinfo has got from send, and what it returns itself. -/
structure SendReturn where
  datagram : Datagram
  sent : Int
  returned : Bool

/-- ogrt_send_processinfo with the result of send, the bytes that it has accepted or -1. The
result is dropped. -/
def ogrtSendProcessinfoReturn (options : CompileOptions) (process : HostProcess) (pid parentPid : Int32)
    (o : SendOutcomes) (send : Datagram → Int) : Except Failure SendReturn := do
  let sending ← ogrtSendProcessinfo options process pid parentPid o
  .ok ⟨sending.datagram, send sending.datagram, true⟩

/-- The end of the hook: its failure branch, or the close of the socket. -/
def afterSending (globals : HookGlobals) (calls : List SystemCall) (answer : SendReturn) : HookResult :=
  if ¬ answer.returned then
    ⟨1, { globals with active := false }, calls ++ [.send globals.daemonSocket answer.datagram answer.sent]⟩
  else ⟨0, globals, calls ++ [.send globals.daemonSocket answer.datagram answer.sent, .close globals.daemonSocket]⟩

/-- The hook from getaddrinfo on, with what ogrt_send_processinfo returns to it. -/
def connectAndSendAnswered (options : CompileOptions) (process : HostProcess) (o : HookOutcomes) (ogrt_log_level : Nat)
    (globals : HookGlobals) : Except Failure HookResult :=
  match o.getaddrinfo with
  | none => .ok ⟨1, { globals with active := false }, []⟩
  | some servinfo =>
    let (globals, calls, connected) := connectLoop globals servinfo
    if connected then do
      let _ ← loggedBinpath ogrt_log_level o.logBinpath
      let answer ← ogrtSendProcessinfoReturn options process globals.pid globals.parentPid o.sending o.send
      .ok (afterSending globals (.getaddrinfo :: calls ++ [.freeaddrinfo]) answer)
    else .ok ⟨1, { globals with active := false }, .getaddrinfo :: calls⟩

/-- send has accepted the header and the whole message. -/
def SendReturn.Accepted (answer : SendReturn) (o : SendOutcomes) : Prop := answer.sent = (o.packed.length : Int) + 8

/-- The function returns true exactly for a message that has left, and the hook takes its
failure branch exactly for one that has not. -/
structure SendReturn.Truthful (answer : SendReturn) (o : SendOutcomes) (globals : HookGlobals) : Prop where
  success : answer.returned = true ↔ answer.Accepted o
  failure : (afterSending globals [] answer).returned = 1 ↔ ¬ answer.Accepted o

variable {options : CompileOptions} {process : HostProcess} {pid parentPid : Int32} {o : SendOutcomes}

theorem ogrtSendProcessinfoReturn_eq_ok {send : Datagram → Int} {answer : SendReturn} :
    ogrtSendProcessinfoReturn options process pid parentPid o send = .ok answer ↔
      ∃ sending, ogrtSendProcessinfo options process pid parentPid o = .ok sending ∧
        answer = ⟨sending.datagram, send sending.datagram, true⟩ := by
  unfold ogrtSendProcessinfoReturn
  rw [bind_eq_ok]
  refine exists_congr fun sending => and_congr_right fun _ => ?_
  exact ⟨fun same => (Except.ok.inj same).symm, fun same => congrArg Except.ok same.symm⟩

theorem packAndSend_length {datagram : Datagram} (sent : packAndSend process o = .ok datagram) :
    datagram.length = sizeT (Int32.ofNat o.packed.length + 4 + 4) := by
  unfold packAndSend at sent
  split at sent
  · cases sent
  · rename_i malloc _
    dsimp only at sent
    split at sent
    · cases sent
      have size : (sendSerialized process.host malloc MessageType.processInfoMsg.value o.packed).1.buffer.length =
          sizeT (Int32.ofNat o.packed.length + 4 + 4) := by
        simp only [sendSerialized, ogrtPrepareSendbuffer, ByteBuffer.store_length]
        exact (malloc _).property
      exact List.length_take_of_le size.ge
    · cases sent

/-- What is passed to send has the length of the header and the message. -/
theorem ogrtSendProcessinfo_length {sending : Sending} (small : o.packed.length + 8 < 2 ^ 31)
    (gathered : ogrtSendProcessinfo options process pid parentPid o = .ok sending) :
    sending.datagram.length = o.packed.length + 8 := by
  obtain ⟨_, parts⟩ := ogrtSendProcessinfo_gathered gathered
  exact (packAndSend_length parts.datagram).trans (totalLength_eq small)

/-- The failure branch is never taken, whatever send returns. -/
theorem connectAndSendAnswered_eq (options : CompileOptions) (process : HostProcess) (o : HookOutcomes)
    (level : Nat) (globals : HookGlobals) :
    connectAndSendAnswered options process o level globals = connectAndSend options process o level globals := by
  unfold connectAndSendAnswered connectAndSend
  cases o.getaddrinfo with
  | none => rfl
  | some servinfo =>
    dsimp only
    split
    · refine congrArg _ (funext fun _ => ?_)
      unfold ogrtSendProcessinfoReturn
      rw [bind_assoc]
      refine congrArg _ (funext fun sending => ?_)
      refine congrArg Except.ok ?_
      unfold afterSending
      rw [if_neg (not_not_intro rfl), List.append_assoc]
      rfl
    · rfl

/-- Success means sent only where send accepts the whole frame. -/
theorem success_means_sent_iff (options : CompileOptions) (process : HostProcess) (globals : HookGlobals)
    (o : SendOutcomes) (send : Datagram → Int) :
    (∀ answer, ogrtSendProcessinfoReturn options process globals.pid globals.parentPid o send = .ok answer →
      answer.Truthful o globals) ↔
    ∀ sending, ogrtSendProcessinfo options process globals.pid globals.parentPid o = .ok sending →
      send sending.datagram = (o.packed.length : Int) + 8 := by
  constructor
  · intro truthful sending gathered
    exact (truthful _ (ogrtSendProcessinfoReturn_eq_ok.mpr ⟨sending, gathered, rfl⟩)).success.mp rfl
  · intro accepts answer returned
    obtain ⟨sending, gathered, rfl⟩ := ogrtSendProcessinfoReturn_eq_ok.mp returned
    have accepted := accepts sending gathered
    refine ⟨iff_of_true rfl accepted, iff_of_false (fun failed => ?_) (not_not_intro accepted)⟩
    have closed : (0 : Int32) = 1 := failed
    exact absurd closed (by decide)

/-- A UDP socket takes a datagram of up to 65507 bytes as a whole and no other. -/
def sendDatagram (datagram : Datagram) : Int := if datagram.length ≤ 65507 then datagram.length else -1

/-- A message of 65500 bytes that could be gathered. -/
def longMessage : SendOutcomes := { binpathRead.sending with packed := List.replicate 65500 0 }

/-- The frame is one byte too long for UDP. Nothing is sent and the function returns true. -/
theorem long_message_reported_sent :
    ¬ ∀ (options : CompileOptions) (process : HostProcess) (globals : HookGlobals) (o : SendOutcomes)
        (send : Datagram → Int) (answer : SendReturn),
      ogrtSendProcessinfoReturn options process globals.pid globals.parentPid o send = .ok answer →
        answer.Truthful o globals := by
  intro truthful
  have count : longMessage.packed.length = 65500 := List.length_replicate
  have safe : SendSafe bashFiltered watchedProgram longMessage :=
    { bashFiltered_sendSafe with
      environment := ⟨nofun, nofun⟩
      sendbuffer := rfl
      size := bufferFits_of_lt (by omega) }
  obtain ⟨sending, gathered⟩ := ogrtSendProcessinfo_succeeds.mpr safe
  have size := @ogrtSendProcessinfo_length _ _ 7 1 _ sending (by omega) gathered
  have answered := truthful bashFiltered watchedProgram ⟨true, 3, 7, 1⟩ longMessage sendDatagram _
    (ogrtSendProcessinfoReturn_eq_ok.mpr ⟨sending, gathered, rfl⟩)
  have accepted : sendDatagram sending.datagram = (longMessage.packed.length : Int) + 8 := answered.success.mp rfl
  unfold sendDatagram at accepted
  rw [if_neg (by omega), count] at accepted
  omega

end Ogrt
