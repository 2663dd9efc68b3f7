import Ogrt.Lib.Utf8

namespace Ogrt

/-- Go and C strings are byte strings; nothing makes them valid UTF-8. -/
abbrev GoString := List UInt8

abbrev Datagram := List UInt8

def ascii (s : String) : List UInt8 := s.toList.map fun c => UInt8.ofNat c.toNat

inductive MessageType
  | jobStartMsg
  | jobEndMsg
  | processInfoMsg
  | sharedObjectMsg
  | forkMsg
  | execveMsg
  deriving DecidableEq, Repr

def MessageType.value : MessageType → Int32
  | .jobStartMsg => 10
  | .jobEndMsg => 11
  | .processInfoMsg => 12
  | .sharedObjectMsg => 13
  | .forkMsg => 14
  | .execveMsg => 15

structure SharedObject where
  path : Option GoString
  signature : Option GoString
  deriving DecidableEq, Repr

structure Module where
  name : Option GoString
  deriving DecidableEq, Repr

/-- The generated message struct; every scalar field is a pointer that may be nil. -/
structure ProcessInfo where
  binpath : Option GoString
  pid : Option Int32
  parentPid : Option Int32
  time : Option Int64
  signature : Option GoString
  jobId : Option GoString
  username : Option GoString
  hostname : Option GoString
  cmdline : Option GoString
  environmentVariables : List GoString
  arguments : List GoString
  sharedObjects : List SharedObject
  loadedModules : List Module
  deriving DecidableEq, Repr

structure JobInfo where
  jobId : Option GoString
  processes : List ProcessInfo
  deriving DecidableEq, Repr

/-- The check proto.Unmarshal makes before it accepts a message: no required field is missing. -/
def ProcessInfo.hasRequired (msg : ProcessInfo) : Bool :=
  msg.binpath.isSome && msg.pid.isSome && msg.parentPid.isSome && msg.time.isSome &&
    msg.sharedObjects.all (·.path.isSome) && msg.loadedModules.all (·.name.isSome)

theorem ProcessInfo.time_isSome {msg : ProcessInfo} (required : msg.hasRequired) : msg.time.isSome := by
  simp only [ProcessInfo.hasRequired, Bool.and_eq_true] at required
  exact required.1.1.2

def SharedObject.strings (so : SharedObject) : List GoString := so.path.toList ++ so.signature.toList

def Module.strings (module : Module) : List GoString := module.name.toList

def ProcessInfo.strings (msg : ProcessInfo) : List GoString :=
  msg.binpath.toList ++ msg.signature.toList ++ msg.jobId.toList ++ msg.username.toList ++ msg.hostname.toList ++
    msg.cmdline.toList ++ msg.environmentVariables ++ msg.arguments ++
    msg.sharedObjects.flatMap SharedObject.strings ++ msg.loadedModules.flatMap Module.strings

/-- Protobuf asks for valid UTF-8 in the strings of a message. -/
def ProcessInfo.HasUtf8 (msg : ProcessInfo) : Prop := ∀ text ∈ msg.strings, Utf8.Valid text

instance (msg : ProcessInfo) : Decidable msg.HasUtf8 := inferInstanceAs (Decidable (∀ text ∈ msg.strings, _))

def ProcessInfo.getJobId (msg : ProcessInfo) : GoString := msg.jobId.getD []

end Ogrt
