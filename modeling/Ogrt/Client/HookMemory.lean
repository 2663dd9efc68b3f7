import Ogrt.Client.HookRuns
import Ogrt.Client.SentMessage
import Ogrt.Lib.ResourceTrace

namespace Ogrt
open ResourceTrace

/-- What a call of the hook acquires apart from its sockets: blocks of memory, and the
descriptor of the file that the command line is read from. -/
inductive HookResource
  | regex (i : Nat)
  | filterBinpath (i : Nat)
  | addressList
  | logBinpath
  | soInfos
  | soName (index : Nat)
  | binpath
  | countString
  | loadedModules
  | moduleString
  | ogrtModule (index : Nat)
  | moduleName (index : Nat)
  | cmdline
  | cmdlineFile
  | username
  | hostname
  | environment (index : Nat)
  | sendbuffer
  deriving DecidableEq, Repr

abbrev HookTrace := List (Event HookResource)

/-- What a call hands out that may fail, and what is done through a pointer that may be NULL. -/
def acquires (succeeds : Bool) (r : HookResource) : HookTrace := if succeeds then [.acquire r] else []
def uses (set : Bool) (r : HookResource) : HookTrace := if set then [.use r] else []
def frees (set : Bool) (r : HookResource) : HookTrace := if set then [.release r] else []

/-- ogrt_get_binpath returns a pointer. -/
def BinpathOutcome.set (o : BinpathOutcome) : Bool := o.malloc.isSome && o.readlink.isSome

def ogrtGetBinpathTrace (r : HookResource) (o : BinpathOutcome) : HookTrace :=
  if o.malloc.isSome then
    .acquire r :: .use r :: if o.readlink.isSome then [.use r] else [.release r]
  else []

/-- No close follows the open. -/
def ogrtGetCmdlineTrace (o : CmdlineOutcome) : HookTrace :=
  if o.malloc.isSome then
    .acquire .cmdline :: (acquires o.opens .cmdlineFile ++ uses o.opens .cmdlineFile) ++ [.use .cmdline]
  else []

def soNameTrace (r : HookResource) (info : DlPhdrInfo) (o : NameOutcome) : HookTrace :=
  if 0 < info.name.length then
    if o.malloc then .acquire r :: .use r :: frees o.realpath.isNone r else []
  else acquires o.strdup r

def handleProgramHeaderTrace (names : Nat → NameOutcome) (index : Nat) (info : DlPhdrInfo) : HookTrace :=
  soNameTrace (.soName index) info (names index) ++ [.use .soInfos]

def ogrtGetLoadedSoTrace (process : HostProcess) (malloc : Bool) (names : Nat → NameOutcome) : HookTrace :=
  acquires malloc .soInfos ++ .use .soInfos :: loopAt (handleProgramHeaderTrace names) 0 process.objects

/-- The turn of the loop over the tokens that stores one module. -/
def moduleTurn (o : ModuleOutcomes) (index : Nat) (_ : GoString) : HookTrace :=
  acquires (o.modules index) (.ogrtModule index) ++ [.use .loadedModules, .use (.ogrtModule index)] ++
    acquires (o.names index) (.moduleName index) ++ [.use .moduleString]

def ogrtLoadedModulesTrace (moduleEnv : Option GoString) (o : ModuleOutcomes) : HookTrace :=
  if moduleEnv.isSome then
    acquires o.countString .countString ++ [.use .countString, .release .countString] ++
      if 0 < (moduleTokens moduleEnv).length then
        acquires o.loadedModules .loadedModules ++ acquires o.moduleString .moduleString ++ .use .moduleString ::
          loopAt (moduleTurn o) 0 (moduleTokens moduleEnv) ++ [.release .moduleString]
      else []
  else []

/-- The elements of the whitelist that the loop over it reads. -/
def CompileOptions.whitelisted (options : CompileOptions) : List GoString :=
  options.environmentWhitelist.take options.environmentWhitelistLength

/-- The variables that are copied for the message. -/
def whitelistedVariables (options : CompileOptions) (process : HostProcess) : List GoString :=
  if options.sendEnvironment then options.whitelisted.filter fun name => (getenv process.environ name).isSome else []

/-- The loop over the whitelist with `count` variables stored. -/
def whitelistTrace (environ : List GoString) (asprintf : Nat → Bool) : Nat → Nat → List GoString → HookTrace
  | _, _, [] => []
  | i, count, name :: rest =>
    if (getenv environ name).isSome then
      acquires (asprintf i) (.environment count) ++ whitelistTrace environ asprintf (i + 1) (count + 1) rest
    else whitelistTrace environ asprintf (i + 1) count rest

def packName (names : Nat → NameOutcome) (index : Nat) (info : DlPhdrInfo) : HookTrace :=
  uses (soName info (names index)).isSome (.soName index)

def packModule (o : ModuleOutcomes) (index : Nat) (_ : GoString) : HookTrace :=
  [.use .loadedModules, .use (.ogrtModule index)] ++ uses (o.names index) (.moduleName index)

def packVariable (index : Nat) (_ : GoString) : HookTrace := [.use (.environment index)]

/-- The pointers of the message that packing goes through, for the size and for the bytes. -/
def packTrace (options : CompileOptions) (process : HostProcess) (o : SendOutcomes) : HookTrace :=
  uses o.binpath.set .binpath ++ .use .soInfos :: loopAt (packName o.names) 2 (process.objects.drop 2) ++
    loopAt (packModule o.modules) 0 (moduleTokens (sentModules options process)) ++
    uses (options.sendCmdline && o.cmdline.malloc.isSome) .cmdline ++
    uses (options.sendUsername && (ogrtGetUsername o).isSome) .username ++
    uses (options.sendHostname && (ogrtGetHostname o).isSome) .hostname ++
    loopAt packVariable 0 (whitelistedVariables options process)

def freeName (names : Nat → NameOutcome) (index : Nat) (info : DlPhdrInfo) : HookTrace :=
  .use .soInfos :: frees (soName info (names index)).isSome (.soName index)

def freeModule (o : ModuleOutcomes) (index : Nat) (_ : GoString) : HookTrace :=
  [.use .loadedModules, .use (.ogrtModule index)] ++ frees (o.names index) (.moduleName index) ++
    [.use .loadedModules, .release (.ogrtModule index)]

/-- A pointer is freed whether or not asprintf has set it. -/
def freeVariable (index : Nat) (_ : GoString) : HookTrace := [.release (.environment index)]

/-- The end of ogrt_send_processinfo. -/
def freeTrace (options : CompileOptions) (process : HostProcess) (o : SendOutcomes) : HookTrace :=
  frees o.binpath.set .binpath ++ loopAt (freeName o.names) 0 process.objects ++
    [.release .soInfos, .release .sendbuffer] ++
    (if 0 < (moduleTokens (sentModules options process)).length then
      loopAt (freeModule o.modules) 0 (moduleTokens (sentModules options process)) ++ [.release .loadedModules]
    else []) ++
    frees (options.sendUsername && (ogrtGetUsername o).isSome) .username ++
    frees (options.sendHostname && (ogrtGetHostname o).isSome) .hostname ++
    frees (options.sendCmdline && o.cmdline.malloc.isSome) .cmdline ++
    loopAt freeVariable 0 (whitelistedVariables options process)

/-- ogrt_send_processinfo up to the message. -/
def gatherTrace (options : CompileOptions) (process : HostProcess) (o : SendOutcomes) : HookTrace :=
  ogrtGetLoadedSoTrace process o.infos o.names ++
    ogrtGetBinpathTrace .binpath o.binpath ++
    ogrtLoadedModulesTrace (sentModules options process) o.modules ++
    (if options.sendCmdline then ogrtGetCmdlineTrace o.cmdline else []) ++
    acquires (options.sendUsername && (ogrtGetUsername o).isSome) .username ++
    acquires (options.sendHostname && (ogrtGetHostname o).isSome) .hostname ++
    if options.sendEnvironment then whitelistTrace process.environ o.asprintf 0 0 options.whitelisted else []

/-- The header is stored in the new buffer, the message packed into it and the buffer sent. -/
def ogrtSendProcessinfoTrace (options : CompileOptions) (process : HostProcess) (o : SendOutcomes) : HookTrace :=
  gatherTrace options process o ++
    packTrace options process o ++
    acquires o.sendbuffer.isSome .sendbuffer ++ [.use .sendbuffer] ++
    packTrace options process o ++ [.use .sendbuffer] ++
    [.use .sendbuffer] ++
    freeTrace options process o

/-- The filter loop compiles each expression into the same regex_t and frees none. -/
def filterTrace (o : HookOutcomes) : Nat → List (Option GoString) → HookTrace
  | _, [] => []
  | _, none :: _ => []
  | i, some regexp :: rest =>
    if o.regcomp i regexp then
      .acquire (.regex i) :: ogrtGetBinpathTrace (.filterBinpath i) (o.filterBinpath i) ++
        [.use (.regex i), .use (.filterBinpath i)] ++
        if filterLoop o i [some regexp] = .ok true then filterTrace o (i + 1) rest else []
    else []

/-- The hook from getaddrinfo on. The list is freed behind the check that an address connects. -/
def connectAndSendTrace (options : CompileOptions) (process : HostProcess) (o : HookOutcomes) (ogrt_log_level : Nat) :
    HookTrace :=
  o.getaddrinfo.elim [] fun servinfo =>
    .acquire .addressList :: .use .addressList ::
      if (firstConnected servinfo).isSome then
        .release .addressList ::
          (if ogrtLogInfo ≤ ogrt_log_level then ogrtGetBinpathTrace .logBinpath o.logBinpath else []) ++
          ogrtSendProcessinfoTrace options process o.sending
      else []

/-- What a call of ogrt_preload_init_hook acquires, uses and releases. -/
def ogrtPreloadInitHookTrace (options : CompileOptions) (process : HostProcess) (o : HookOutcomes) (globals : HookGlobals) :
    HookTrace :=
  let enabled := fun envVariable => ogrtEnvEnabled process.environ (ascii envVariable)
  let ogrt_log_level := if enabled "OGRT_SILENT" ∨ enabled "OGRT_SCHLEICHFAHRT" then ogrtLogNothing else ogrtLogInfo
  let active := globals.active ∨ enabled "OGRT_ACTIVE"
  if active ∧ globals.daemonSocket < 0 then
    if o.gethostname then
      filterTrace o 0 options.regexps ++
        if filterLoop o 0 options.regexps = .ok true then connectAndSendTrace options process o ogrt_log_level else []
    else []
  else []

end Ogrt
