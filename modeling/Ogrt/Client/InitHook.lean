import Ogrt.Client.ReadSo
import Ogrt.Client.SendBuffer
import Ogrt.Lib.Checked

namespace Ogrt
open BigEndian ByteBuffer Checked

/-- The ways in which the hook can fail to return to the host program unharmed. -/
inductive Failure
  | nullDereference
  | nullString
  | unsetPointer
  | outsideBuffer
  | endlessWalk
  deriving DecidableEq, Repr

/-- The choices of config.h: what the arrays of the LIST macros hold and what the LENGTH macros
say of them. A LENGTH of zero stands for macros that are not defined. -/
structure CompileOptions where
  envJobid : GoString
  filterRegexps : List GoString
  filterRegexpsLength : Nat
  sendUsername : Bool
  sendHostname : Bool
  sendCmdline : Bool
  sendLoadedmodules : Bool
  sendEnvironment : Bool
  environmentWhitelist : List GoString
  environmentWhitelistLength : Nat
  deriving DecidableEq, Repr

/-- What a loop up to a LENGTH reads. Behind the array there is no pointer that was set. -/
def arrayReads (array : List GoString) (length : Nat) : List (Option GoString) := (List.range length).map (array[·]?)

def CompileOptions.regexps (options : CompileOptions) : List (Option GoString) :=
  arrayReads options.filterRegexps options.filterRegexpsLength

def CompileOptions.whitelist (options : CompileOptions) : List (Option GoString) :=
  arrayReads options.environmentWhitelist options.environmentWhitelistLength

/-- The host program with the loaded objects in the order of dl_iterate_phdr. An int32_t
counts them. -/
structure HostProcess where
  host : ByteOrder
  memory : Memory
  pid : Int32
  parentPid : Int32
  environ : List GoString
  objects : List DlPhdrInfo
  counted : objects.length < 2 ^ 31

def getenv (environ : List GoString) (name : GoString) : Option GoString :=
  environ.findSome? fun entry =>
    if (name ++ ascii "=").isPrefixOf entry then some (entry.drop (name.length + 1)) else none

def ogrtEnvEnabled (environ : List GoString) (envVariable : GoString) : Bool :=
  match getenv environ envVariable with
  | some env_var => env_var = ascii "yes" ∨ env_var = ascii "true" ∨ env_var = ascii "1"
  | none => false

def pathMax : Nat := 4096

/-- What malloc hands out for a size, or NULL. -/
abbrev Block (size : Nat) := {block : List UInt8 // block.length = size}

/-- What readlink or read has put into a buffer of PATH_MAX bytes. -/
abbrev Bytes := {bytes : List UInt8 // bytes.length ≤ pathMax}

/-- The string at the start of a buffer. -/
def cString (buffer : List UInt8) : GoString := buffer.takeWhile (· ≠ 0)

def strdup (succeeds : Bool) (text : GoString) : Option GoString := if succeeds then some text else none

/-- NULL and -1 are none, here and below. -/
structure BinpathOutcome where
  malloc : Option (Block pathMax)
  readlink : Option Bytes

def ogrtGetBinpath (o : BinpathOutcome) : Except Failure (Option GoString) :=
  match o.malloc with
  | none => .ok none
  | some bin_path =>
    match o.readlink with
    | none => .ok none
    | some link => do
      let terminated ← orFail .outsideBuffer (storeWithin (store bin_path.val 0 link.val) link.val.length [0])
      .ok (some (cString terminated))

structure CmdlineOutcome where
  malloc : Option (Block pathMax)
  opens : Bool
  read : Option Bytes

/-- The loop over the bytes before the last one that was read. -/
def nulsToSpaces (cmdline : List UInt8) (count : Int) : List UInt8 :=
  (cmdline.take count.toNat).map (fun c => if c = 0 then 0x20 else c) ++ cmdline.drop count.toNat

/-- A read from the descriptor of a failed open fails as well. -/
def ogrtGetCmdline (o : CmdlineOutcome) : Except Failure (Option GoString) :=
  match o.malloc with
  | none => .ok none
  | some cmdline => do
    let (cmdline, nbytesread) : List UInt8 × Int :=
      match if o.opens then o.read else none with
      | some bytes => (store cmdline.val 0 bytes.val, bytes.val.length)
      | none => (cmdline.val, -1)
    let terminated ← orFail .outsideBuffer (storeWithin (nulsToSpaces cmdline (nbytesread - 1)) nbytesread [0])
    .ok (some (cString terminated))

structure NameOutcome where
  malloc : Bool
  realpath : Option GoString
  strdup : Bool

def ogrtNormalizePath (o : NameOutcome) : Option GoString := if o.malloc then o.realpath else none

def soName (info : DlPhdrInfo) (o : NameOutcome) : Option GoString :=
  if 0 < info.name.length then ogrtNormalizePath o else strdup o.strdup info.name

/-- Both enumerations list the same objects. The block of so_infos has room for one more. -/
def ogrtGetLoadedSo (process : HostProcess) (malloc : Bool) (names : Nat → NameOutcome) :
    Except Failure (List LoadedObject) :=
  if malloc then
    mapAt (fun index info =>
      if index < process.objects.length + 1 then
        orFail .endlessWalk (handleProgramHeader process.host process.memory (soName info (names index)) info)
      else .error .outsideBuffer) 0 process.objects
  else .error .nullDereference

structure ModuleOutcomes where
  countString : Bool
  loadedModules : Bool
  moduleString : Bool
  modules : Nat → Bool
  names : Nat → Bool

/-- The tokens that strtok finds between colons. -/
def tokens (text : GoString) : List GoString := (text.splitOn 0x3A).filter (· ≠ [])

/-- An OGRT__Module takes as many bytes as four pointers. A scan by strtok cannot start on NULL. -/
def ogrtLoadedModules (moduleEnv : Option GoString) (o : ModuleOutcomes) : Except Failure (List (Option GoString)) :=
  match moduleEnv with
  | none => .ok []
  | some module_env =>
    if ¬ o.countString then .error .nullString
    else
      let moduleCount := (tokens module_env).length
      if 0 < moduleCount then
        if ¬ o.moduleString then .error .nullString
        else
          mapAt (fun index token =>
            if ¬ o.loadedModules then .error .nullDereference
            else if 4 * moduleCount ≤ index then .error .outsideBuffer
            -- ogrt__module__init writes through the pointer
            else if ¬ o.modules index then .error .nullDereference
            else .ok (strdup (o.names index) token)) 0 (tokens module_env)
      else .ok []

/-- The whitelisted variables with `count` of them stored; no text is a pointer that a failed
asprintf has left as it was. The last store is the terminating NULL. -/
def whitelistedEnvironment (environ : List GoString) (asprintf : Nat → Bool) (capacity : Nat) :
    Nat → Nat → List (Option GoString) → Except Failure (List (Option GoString))
  | _, count, [] => if count < capacity then .ok [] else .error .outsideBuffer
  | _, _, none :: _ => .error .unsetPointer
  | i, count, some name :: rest =>
    match getenv environ name with
    | none => whitelistedEnvironment environ asprintf capacity (i + 1) count rest
    | some env =>
      if count < capacity then
        (whitelistedEnvironment environ asprintf capacity (i + 1) (count + 1) rest).map
          ((if asprintf i then some (name ++ ascii "=" ++ env) else none) :: ·)
      else .error .outsideBuffer

/-- OGRT__ProcessInfo with its strings by their texts and the signatures by their addresses.
`sharedObjects` are the entries of the pointer array that are set. -/
structure ClientProcessInfo where
  binpath : Option GoString
  pid : Int32
  parentPid : Int32
  time : Int64
  signature : Option Nat
  jobId : GoString
  username : Option GoString
  hostname : Option GoString
  cmdline : Option GoString
  environmentVariables : List (Option GoString)
  nSharedObjects : Nat
  sharedObjects : List LoadedObject
  loadedModules : List (Option GoString)

/-- Packing goes through every pointer of the repeated fields. A scalar string may be NULL. -/
def ClientProcessInfo.readPointers (msg : ClientProcessInfo) : Except Failure Unit :=
  if msg.environmentVariables.all Option.isSome ∧ msg.nSharedObjects ≤ msg.sharedObjects.length then .ok ()
  else .error .unsetPointer

/-- `packed` is what protobuf-c makes of the message, `time` what clock_gettime leaves. -/
structure SendOutcomes where
  infos : Bool
  names : Nat → NameOutcome
  time : Int64
  binpath : BinpathOutcome
  modules : ModuleOutcomes
  cmdline : CmdlineOutcome
  getpwuid : Option GoString
  usernameCopy : Bool
  gethostname : Option GoString
  hostnameCopy : Bool
  asprintf : Nat → Bool
  packed : List UInt8
  sendbuffer : Option Malloc

def ogrtGetUsername (o : SendOutcomes) : Option GoString := o.getpwuid.bind (strdup o.usernameCopy)

def ogrtGetHostname (o : SendOutcomes) : Option GoString := o.gethostname.bind (strdup o.hostnameCopy)

def loadedModules (options : CompileOptions) (process : HostProcess) (o : SendOutcomes) :
    Except Failure (List (Option GoString)) :=
  if options.sendLoadedmodules then ogrtLoadedModules (getenv process.environ (ascii "LOADEDMODULES")) o.modules
  else .ok []

def sentCmdline (options : CompileOptions) (o : SendOutcomes) : Except Failure (Option GoString) :=
  if options.sendCmdline then ogrtGetCmdline o.cmdline else .ok none

def sentEnvironment (options : CompileOptions) (process : HostProcess) (o : SendOutcomes) :
    Except Failure (List (Option GoString)) :=
  if options.sendEnvironment then
    if options.environmentWhitelistLength = 0 then .ok (process.environ.map some)
    else whitelistedEnvironment process.environ o.asprintf (options.environmentWhitelistLength + 1) 0 0
      options.whitelist
  else .ok []

/-- The header is stored and the message packed into the new buffer, which is passed to send. -/
def packAndSend (process : HostProcess) (o : SendOutcomes) : Except Failure Datagram :=
  match o.sendbuffer with
  | none => .error .nullDereference
  | some malloc =>
    let (sendbuffer, datagram) := sendSerialized process.host malloc MessageType.processInfoMsg.value o.packed
    if sendbuffer.payload + o.packed.length ≤ sendbuffer.buffer.length then .ok datagram else .error .outsideBuffer

/-- What ogrt_send_processinfo passes to send. It returns true whatever send returns. -/
structure Sending where
  message : ClientProcessInfo
  datagram : Datagram

def ogrtSendProcessinfo (options : CompileOptions) (process : HostProcess) (pid parentPid : Int32) (o : SendOutcomes) :
    Except Failure Sending := do
  let so_infos ← ogrtGetLoadedSo process o.infos o.names
  let binpath ← ogrtGetBinpath o.binpath
  let loaded_modules ← loadedModules options process o
  let cmdline ← sentCmdline options o
  let environment ← sentEnvironment options process o
  let msg : ClientProcessInfo :=
    { binpath := binpath
      pid := pid
      parentPid := parentPid
      time := o.time
      signature := so_infos.head?.bind (·.signature)
      jobId := (getenv process.environ options.envJobid).getD (ascii "UNKNOWN")
      username := if options.sendUsername then some ((ogrtGetUsername o).getD (ascii "UNKNOWN")) else none
      hostname := if options.sendHostname then some ((ogrtGetHostname o).getD (ascii "UNKNOWN")) else none
      cmdline := cmdline
      environmentVariables := environment
      -- a size_t takes the int32_t
      nSharedObjects := (((so_infos.length : Int) - 2) % 2 ^ 64).toNat
      sharedObjects := so_infos.drop 2
      loadedModules := loaded_modules }
  msg.readPointers
  let datagram ← packAndSend process o
  .ok ⟨msg, datagram⟩

structure HookGlobals where
  active : Bool
  daemonSocket : Int
  pid : Int32
  parentPid : Int32
  deriving DecidableEq, Repr

/-- What socket and connect do for one resolved address. -/
structure AddressOutcome where
  socket : Option Nat
  connect : Bool
  deriving DecidableEq, Repr

/-- The calls that hand out or take back a resource, in their order, and send with its result.
Of the others those that fail are left out. -/
inductive SystemCall
  | getaddrinfo
  | freeaddrinfo
  | socket (fd : Nat)
  | close (fd : Int)
  | send (fd : Int) (datagram : Datagram) (result : Int)
  deriving DecidableEq, Repr

/-- The loop over the resolved addresses. The last result says whether it was left by break. -/
def connectLoop (globals : HookGlobals) : List AddressOutcome → HookGlobals × List SystemCall × Bool
  | [] => (globals, [], false)
  | p :: rest =>
    match p.socket with
    | none => connectLoop { globals with daemonSocket := -1, active := false } rest
    | some fd =>
      if p.connect then ({ globals with daemonSocket := fd }, [.socket fd], true)
      else
        let (globals, calls, connected) := connectLoop { globals with daemonSocket := fd, active := false } rest
        (globals, .socket fd :: .close fd :: calls, connected)

/-- Failure of regcomp is false, as is a regexec without a match. `send` is the number of bytes
that are accepted, or -1. -/
structure HookOutcomes where
  gethostname : Bool
  regcomp : Nat → GoString → Bool
  filterBinpath : Nat → BinpathOutcome
  regexec : Nat → GoString → GoString → Bool
  getaddrinfo : Option (List AddressOutcome)
  logBinpath : BinpathOutcome
  sending : SendOutcomes
  send : Datagram → Int

/-- The loop over the filter expressions: whether the hook goes on after it. -/
def filterLoop (o : HookOutcomes) : Nat → List (Option GoString) → Except Failure Bool
  | _, [] => .ok true
  | _, none :: _ => .error .unsetPointer
  | i, some regexp :: rest =>
    if o.regcomp i regexp then do
      let binpath ← ogrtGetBinpath (o.filterBinpath i)
      let path ← orFail .nullString binpath
      if o.regexec i regexp path then .ok false else filterLoop o (i + 1) rest
    else .ok false

def ogrtLogInfo : Nat := 4
def ogrtLogNothing : Nat := 0

/-- The arguments of a log message are evaluated only if its level is logged. NULL is printed. -/
def loggedBinpath (ogrt_log_level : Nat) (o : BinpathOutcome) : Except Failure (Option GoString) :=
  if ogrtLogInfo ≤ ogrt_log_level then ogrtGetBinpath o else .ok none

structure HookResult where
  returned : Int32
  globals : HookGlobals
  calls : List SystemCall

/-- The hook from getaddrinfo on. -/
def connectAndSend (options : CompileOptions) (process : HostProcess) (o : HookOutcomes) (ogrt_log_level : Nat)
    (globals : HookGlobals) : Except Failure HookResult :=
  match o.getaddrinfo with
  | none => .ok ⟨1, { globals with active := false }, []⟩
  | some servinfo =>
    let (globals, calls, connected) := connectLoop globals servinfo
    if connected then do
      let _ ← loggedBinpath ogrt_log_level o.logBinpath
      let sending ← ogrtSendProcessinfo options process globals.pid globals.parentPid o.sending
      .ok ⟨0, globals, .getaddrinfo :: calls ++
        [.freeaddrinfo, .send globals.daemonSocket sending.datagram (o.send sending.datagram), .close globals.daemonSocket]⟩
    else .ok ⟨1, { globals with active := false }, .getaddrinfo :: calls⟩

/-- A loop that prints each entry with %s. -/
def printList (entries : List (Option GoString)) : Except Failure Unit :=
  if entries.all Option.isSome then .ok () else .error .unsetPointer

/-- The lists that OGRT_DEBUG_INFO prints. -/
def debugInfo (options : CompileOptions) (environ : List GoString) : Except Failure Unit :=
  if ogrtEnvEnabled environ (ascii "OGRT_DEBUG_INFO") then do
    printList options.regexps
    if options.sendEnvironment then printList options.whitelist else .ok ()
  else .ok ()

def ogrtPreloadInitHook (options : CompileOptions) (process : HostProcess) (o : HookOutcomes) (globals : HookGlobals) :
    Except Failure HookResult := do
  let enabled := fun envVariable => ogrtEnvEnabled process.environ (ascii envVariable)
  let ogrt_log_level := if enabled "OGRT_SILENT" ∨ enabled "OGRT_SCHLEICHFAHRT" then ogrtLogNothing else ogrtLogInfo
  debugInfo options process.environ
  let globals := { globals with active := globals.active ∨ enabled "OGRT_ACTIVE" }
  if globals.active ∧ globals.daemonSocket < 0 then
    let globals := { globals with pid := process.pid, parentPid := process.parentPid }
    let inactive := { globals with active := false }
    if o.gethostname then do
      let passed ← filterLoop o 0 options.regexps
      if passed then connectAndSend options process o ogrt_log_level globals else .ok ⟨1, inactive, []⟩
    else .ok ⟨1, inactive, []⟩
  else .ok ⟨0, globals, [.close globals.daemonSocket]⟩

end Ogrt
