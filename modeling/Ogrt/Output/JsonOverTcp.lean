import Ogrt.Lib.DelimitedStream
import Ogrt.Lib.JsonLine
import Ogrt.Lib.Strtok
import Ogrt.Output.JobInfoJson

namespace Ogrt
open JsonText

def lineBreak : UInt8 := 0x0A

/-- The parts of a parameter between its colons. No result is the panic at another number of them. -/
def paramSplit (wanted : Nat) (params : GoString) : Option (List GoString) :=
  let param_split := params.splitOn 0x3A
  if param_split.length ≠ wanted then none else some param_split

/-- What net.Dial is called with. -/
structure Dial where
  network : GoString
  address : GoString
  deriving DecidableEq, Repr

/-- Open of a JsonOverTcpOutput, up to net.Dial. -/
def jsonOverTcpOpen (params : GoString) : Option Dial :=
  (paramSplit 3 params).map fun part => ⟨part.getD 0 [], part.getD 1 [] ++ ascii ":" ++ part.getD 2 []⟩

/-- The URL for elastic.NewClient and the index. -/
def jsonElasticSearchOpen (params : GoString) : Option (GoString × GoString) :=
  (paramSplit 4 params).map fun part =>
    (part.getD 0 [] ++ ascii "://" ++ part.getD 1 [] ++ ascii ":" ++ part.getD 2 [], part.getD 3 [])

/-- A parameter is taken apart if it joins the wanted number of parts by colons, and into these. -/
theorem paramSplit_eq_some {wanted : Nat} {params : GoString} {parts : List GoString} :
    paramSplit wanted params = some parts ↔ parts.length = wanted ∧ parts ≠ [] ∧ (∀ part ∈ parts, 0x3A ∉ part) ∧
      params = [0x3A].intercalate parts := by
  unfold paramSplit
  dsimp only
  constructor
  · intro split
    obtain ⟨count, same⟩ := Option.ite_none_left_eq_some.mp split
    cases same
    exact ⟨not_not.mp count, List.splitOn_ne_nil _ _, Strtok.not_mem_of_mem_splitOn 0x3A params,
      (List.intercalate_splitOn 0x3A).symm⟩
  · rintro ⟨count, some, plain, rfl⟩
    rw [List.splitOn_intercalate 0x3A plain some, if_neg (not_not.mpr count)]

/-- encoding/json on the message of an output. A text has no line break in it. -/
structure LineCodec where
  marshal : ProcessInfo → List UInt8
  unmarshal : List UInt8 → Option ProcessInfo
  unmarshal_marshal : ∀ msg, unmarshal (marshal msg) = some msg.toValidUtf8
  oneLine : ∀ msg, lineBreak ∉ marshal msg

/-- What a call of Write does: it takes all bytes, or it fails behind some of them. -/
inductive WriteOutcome
  | writes
  | fails (n : Nat)
  deriving DecidableEq, Repr

/-- A json.Encoder with its error kept and the bytes that its connection has taken. -/
structure JsonEncoder where
  err : Bool
  written : List UInt8
  deriving DecidableEq, Repr

def newEncoder : JsonEncoder := ⟨false, []⟩

/-- Encode of a json.Encoder: nothing is written once a write has failed. -/
def JsonEncoder.encode (enc : JsonEncoder) (codec : LineCodec) (msg : ProcessInfo) (o : WriteOutcome) : JsonEncoder :=
  if enc.err then enc
  else
    let b := codec.marshal msg ++ [lineBreak]
    match o with
    | .writes => ⟨false, enc.written ++ b⟩
    | .fails n => ⟨true, enc.written ++ b.take n⟩

/-- PersistProcessInfo of a JsonOverTcpOutput logs the error of Encode and goes on. -/
def jsonOverTcpPersist (codec : LineCodec) (encoder : JsonEncoder) (call : ProcessInfo × WriteOutcome) : JsonEncoder :=
  encoder.encode codec call.1 call.2

/-- The connection after the calls of PersistProcessInfo. -/
def connectionAfter (codec : LineCodec) (calls : List (ProcessInfo × WriteOutcome)) : JsonEncoder :=
  calls.foldl (jsonOverTcpPersist codec) newEncoder

/-- A receiver that takes each complete line for a message. -/
def readLines (codec : LineCodec) (got : List UInt8) : List (Option ProcessInfo) :=
  (DelimitedStream.complete lineBreak got).map codec.unmarshal

variable {codec : LineCodec}

/-- The messages one a line. -/
def linesOf (codec : LineCodec) (msgs : List ProcessInfo) : List UInt8 :=
  DelimitedStream.write lineBreak (msgs.map codec.marshal)

/-- The connection has taken a part of the lines, and all of them if no write has failed. -/
structure JsonEncoder.Carries (enc : JsonEncoder) (codec : LineCodec) (msgs : List ProcessInfo) : Prop where
  part : enc.written <+: linesOf codec msgs
  whole : enc.err = false → enc.written = linesOf codec msgs

theorem linesOf_concat (msgs : List ProcessInfo) (msg : ProcessInfo) :
    linesOf codec (msgs ++ [msg]) = linesOf codec msgs ++ (codec.marshal msg ++ [lineBreak]) := by
  rw [linesOf, List.map_append, List.map_singleton, DelimitedStream.write_concat]
  rfl

/-- A write that fails leaves a part of its line behind, and no line after it. -/
theorem JsonEncoder.Carries.encode {enc : JsonEncoder} {msgs : List ProcessInfo} (carries : enc.Carries codec msgs)
    (msg : ProcessInfo) (o : WriteOutcome) : (enc.encode codec msg o).Carries codec (msgs ++ [msg]) := by
  unfold JsonEncoder.encode
  split
  · rename_i failed
    refine ⟨?_, fun well => absurd (well.symm.trans failed) Bool.false_ne_true⟩
    rw [linesOf_concat]
    exact carries.part.trans (List.prefix_append _ _)
  · rename_i well
    have written := carries.whole (Bool.eq_false_iff.mpr well)
    dsimp only
    cases o with
    | writes =>
      have whole : enc.written ++ (codec.marshal msg ++ [lineBreak]) = linesOf codec (msgs ++ [msg]) := by
        rw [linesOf_concat, written]
      refine ⟨?_, fun _ => whole⟩
      dsimp only
      rw [whole]
    | fails n =>
      refine ⟨?_, fun well => absurd well.symm Bool.false_ne_true⟩
      rw [linesOf_concat, written]
      exact (List.prefix_append_right_inj _).mpr (List.take_prefix _ _)

theorem JsonEncoder.Carries.calls {enc : JsonEncoder} {msgs : List ProcessInfo} (carries : enc.Carries codec msgs)
    (calls : List (ProcessInfo × WriteOutcome)) :
    (calls.foldl (jsonOverTcpPersist codec) enc).Carries codec (msgs ++ calls.map Prod.fst) := by
  induction calls generalizing enc msgs with
  | nil =>
    rw [List.map_nil, List.append_nil]
    exact carries
  | cons call rest ih =>
    have next := ih (carries.encode call.1 call.2)
    rw [List.append_assoc] at next
    exact next

theorem connectionAfter_carries (calls : List (ProcessInfo × WriteOutcome)) :
    (connectionAfter codec calls).Carries codec (calls.map Prod.fst) :=
  @JsonEncoder.Carries.calls codec newEncoder [] ⟨List.prefix_rfl, fun _ => rfl⟩ calls

/-- Without a failing write there is no error. -/
theorem connectionAfter_well {calls : List (ProcessInfo × WriteOutcome)} (well : ∀ call ∈ calls, call.2 = .writes) :
    (connectionAfter codec calls).err = false := by
  have keep (enc : JsonEncoder) (start : enc.err = false) : (calls.foldl (jsonOverTcpPersist codec) enc).err = false := by
    induction calls generalizing enc with
    | nil => exact start
    | cons call rest ih =>
      obtain ⟨here, later⟩ := List.forall_mem_cons.mp well
      refine ih later _ ?_
      rw [jsonOverTcpPersist, JsonEncoder.encode, if_neg (by rw [start]; exact Bool.false_ne_true), here]
  exact keep newEncoder rfl

theorem clean_lines (msgs : List ProcessInfo) : ∀ text ∈ msgs.map codec.marshal, lineBreak ∉ text := by
  intro text member
  obtain ⟨msg, _, rfl⟩ := List.mem_map.mp member
  exact codec.oneLine msg

theorem unmarshal_marshalled (msgs : List ProcessInfo) :
    (msgs.map codec.marshal).map codec.unmarshal = msgs.map fun msg => some msg.toValidUtf8 := by
  rw [List.map_map]
  exact List.map_congr_left fun msg _ => codec.unmarshal_marshal msg

/-- What comes over a connection are the first messages, each as it was handed over. -/
theorem readLines_prefix {calls : List (ProcessInfo × WriteOutcome)} {got : List UInt8}
    (part : got <+: (connectionAfter codec calls).written) :
    ∃ k, readLines codec got = ((calls.take k).map fun call => some call.1.toValidUtf8) := by
  have carries := @connectionAfter_carries codec calls
  obtain ⟨k, _, texts, _, _⟩ := DelimitedStream.complete_prefix (clean_lines _) (part.trans carries.part)
  refine ⟨k, ?_⟩
  rw [readLines, texts, ← List.map_take, unmarshal_marshalled, List.map_take, List.map_map, List.map_take]
  rfl

/-- All of them come if no write fails and nothing is under way any more. -/
theorem readLines_whole {calls : List (ProcessInfo × WriteOutcome)} (well : ∀ call ∈ calls, call.2 = .writes) :
    readLines codec (connectionAfter codec calls).written = calls.map fun call => some call.1.toValidUtf8 := by
  have carries := @connectionAfter_carries codec calls
  rw [readLines, carries.whole (connectionAfter_well well), linesOf, DelimitedStream.complete_write (clean_lines _),
    unmarshal_marshalled, List.map_map]
  rfl

/-- The compact text with the members in the order of the struct, on one line. -/
def goLine : LineCodec where
  marshal msg := msg.toValidUtf8.encode.print
  unmarshal text := ((parse text).bind ProcessInfo.decode).map ProcessInfo.toValidUtf8
  unmarshal_marshal msg := by
    have object (n : Int) : msg.toValidUtf8.encode ≠ .number n := by
      unfold ProcessInfo.encode
      exact Json.noConfusion
    rw [parse_print object, Option.bind_some, ProcessInfo.decode_encode, Option.map_some, ProcessInfo.toValidUtf8_idem]
  oneLine msg member := absurd (visible_print _ lineBreak member) (by decide)

end Ogrt
