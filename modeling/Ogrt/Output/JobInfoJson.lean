import Ogrt.Lib.JsonValue
import Ogrt.Protocol

namespace Ogrt
open JsonText Utf8

def SharedObject.toValidUtf8 (so : SharedObject) : SharedObject :=
  ⟨so.path.map Utf8.toValidUtf8, so.signature.map Utf8.toValidUtf8⟩

def Module.toValidUtf8 (module : Module) : Module := ⟨module.name.map Utf8.toValidUtf8⟩

/-- The message as JSON carries it: json.Marshal coerces each string to valid UTF-8. -/
def ProcessInfo.toValidUtf8 (msg : ProcessInfo) : ProcessInfo where
  binpath := msg.binpath.map Utf8.toValidUtf8
  pid := msg.pid
  parentPid := msg.parentPid
  time := msg.time
  signature := msg.signature.map Utf8.toValidUtf8
  jobId := msg.jobId.map Utf8.toValidUtf8
  username := msg.username.map Utf8.toValidUtf8
  hostname := msg.hostname.map Utf8.toValidUtf8
  cmdline := msg.cmdline.map Utf8.toValidUtf8
  environmentVariables := msg.environmentVariables.map Utf8.toValidUtf8
  arguments := msg.arguments.map Utf8.toValidUtf8
  sharedObjects := msg.sharedObjects.map SharedObject.toValidUtf8
  loadedModules := msg.loadedModules.map Module.toValidUtf8

def JobInfo.toValidUtf8 (job : JobInfo) : JobInfo :=
  ⟨job.jobId.map Utf8.toValidUtf8, job.processes.map ProcessInfo.toValidUtf8⟩

theorem map_eq_self {α : Type} {f : α → α} {xs : List α} (fixed : ∀ x ∈ xs, f x = x) : xs.map f = xs :=
  (List.map_congr_left fixed).trans (List.map_id xs)

theorem option_map_eq_self {α : Type} {f : α → α} {x : Option α} (fixed : ∀ a ∈ x.toList, f a = a) :
    x.map f = x := by
  cases x with
  | none => rfl
  | some a => exact congrArg some (fixed a (by simp))

theorem SharedObject.toValidUtf8_eq_self {so : SharedObject} (valid : ∀ s ∈ so.strings, Valid s) :
    so.toValidUtf8 = so := by
  unfold SharedObject.toValidUtf8
  simp only [strings, List.mem_append, or_imp, forall_and] at valid
  rw [option_map_eq_self fun s member => Utf8.toValidUtf8_eq_self (valid.1 s member),
    option_map_eq_self fun s member => Utf8.toValidUtf8_eq_self (valid.2 s member)]

theorem Module.toValidUtf8_eq_self {module : Module} (valid : ∀ s ∈ module.strings, Valid s) :
    module.toValidUtf8 = module := by
  unfold Module.toValidUtf8
  rw [option_map_eq_self fun s member => Utf8.toValidUtf8_eq_self (valid s member)]

/-- JSON carries a message of valid strings as it is. -/
theorem ProcessInfo.toValidUtf8_eq_self {msg : ProcessInfo} (valid : ∀ s ∈ msg.strings, Valid s) :
    msg.toValidUtf8 = msg := by
  simp only [strings, List.mem_append, or_imp, forall_and] at valid
  obtain ⟨⟨⟨⟨⟨⟨⟨⟨⟨binpath, signature⟩, jobId⟩, username⟩, hostname⟩, cmdline⟩, environment⟩, arguments⟩, objects⟩,
    modules⟩ := valid
  have string {x : Option GoString} (fixed : ∀ s ∈ x.toList, Valid s) : x.map Utf8.toValidUtf8 = x :=
    option_map_eq_self fun s member => Utf8.toValidUtf8_eq_self (fixed s member)
  have strings {xs : List GoString} (fixed : ∀ s ∈ xs, Valid s) : xs.map Utf8.toValidUtf8 = xs :=
    map_eq_self fun s member => Utf8.toValidUtf8_eq_self (fixed s member)
  have sharedObjects : msg.sharedObjects.map SharedObject.toValidUtf8 = msg.sharedObjects :=
    map_eq_self fun so member => SharedObject.toValidUtf8_eq_self fun s inside =>
      objects s (List.mem_flatMap.mpr ⟨so, member, inside⟩)
  have loadedModules : msg.loadedModules.map Module.toValidUtf8 = msg.loadedModules :=
    map_eq_self fun module member => Module.toValidUtf8_eq_self fun s inside =>
      modules s (List.mem_flatMap.mpr ⟨module, member, inside⟩)
  unfold ProcessInfo.toValidUtf8
  rw [string binpath, string signature, string jobId, string username, string hostname, string cmdline,
    strings environment, strings arguments, sharedObjects, loadedModules]

theorem map_idem {α : Type} {f : α → α} (idem : ∀ x, f (f x) = f x) (xs : List α) : (xs.map f).map f = xs.map f := by
  rw [List.map_map]
  exact List.map_congr_left fun x _ => idem x

theorem option_map_idem {α : Type} {f : α → α} (idem : ∀ x, f (f x) = f x) (x : Option α) :
    (x.map f).map f = x.map f := by
  cases x with
  | none => rfl
  | some x => exact congrArg some (idem x)

@[simp] theorem SharedObject.toValidUtf8_idem (so : SharedObject) :
    so.toValidUtf8.toValidUtf8 = so.toValidUtf8 := by
  simp only [SharedObject.toValidUtf8, option_map_idem Utf8.toValidUtf8_idem]

@[simp] theorem Module.toValidUtf8_idem (module : Module) :
    module.toValidUtf8.toValidUtf8 = module.toValidUtf8 := by
  simp only [Module.toValidUtf8, option_map_idem Utf8.toValidUtf8_idem]

@[simp] theorem ProcessInfo.toValidUtf8_idem (msg : ProcessInfo) :
    msg.toValidUtf8.toValidUtf8 = msg.toValidUtf8 := by
  simp only [ProcessInfo.toValidUtf8, option_map_idem Utf8.toValidUtf8_idem, map_idem Utf8.toValidUtf8_idem,
    map_idem SharedObject.toValidUtf8_idem, map_idem Module.toValidUtf8_idem]

@[simp] theorem JobInfo.toValidUtf8_idem (job : JobInfo) : job.toValidUtf8.toValidUtf8 = job.toValidUtf8 := by
  simp only [JobInfo.toValidUtf8, option_map_idem Utf8.toValidUtf8_idem, map_idem ProcessInfo.toValidUtf8_idem]

/-- encoding/json on JobInfo. What is marshalled is read back with its strings coerced, what
is read holds valid strings, and a text cut short is not read. -/
structure JsonCodec where
  marshal : JobInfo → List UInt8
  unmarshal : List UInt8 → Option JobInfo
  unmarshal_marshal : ∀ job, unmarshal (marshal job) = some job.toValidUtf8
  unmarshal_valid : ∀ text job, unmarshal text = some job → job.toValidUtf8 = job
  unmarshal_short : ∀ job text, text <+: marshal job → text ≠ marshal job → unmarshal text = none
  marshal_ne_nil : ∀ job, marshal job ≠ []

/-! The text that json.Marshal writes, by the tags of the generated structs. -/

/-- A slice with omitempty. -/
def omitEmpty (items : List Json) : Option Json := if items.isEmpty then none else some (.array items)

def SharedObject.fields (so : SharedObject) : List (List UInt8 × Option Json) :=
  [(ascii "path", so.path.map .string), (ascii "signature", so.signature.map .string)]

def SharedObject.encode (so : SharedObject) : Json := .object (present so.fields)

def Module.fields (module : Module) : List (List UInt8 × Option Json) := [(ascii "name", module.name.map .string)]

def Module.encode (module : Module) : Json := .object (present module.fields)

def ProcessInfo.fields (msg : ProcessInfo) : List (List UInt8 × Option Json) :=
  [(ascii "binpath", msg.binpath.map .string),
    (ascii "pid", msg.pid.map fun n => .number n.toInt),
    (ascii "parent_pid", msg.parentPid.map fun n => .number n.toInt),
    (ascii "time", msg.time.map fun n => .number n.toInt),
    (ascii "signature", msg.signature.map .string),
    (ascii "job_id", msg.jobId.map .string),
    (ascii "username", msg.username.map .string),
    (ascii "hostname", msg.hostname.map .string),
    (ascii "cmdline", msg.cmdline.map .string),
    (ascii "environment_variables", omitEmpty (msg.environmentVariables.map .string)),
    (ascii "arguments", omitEmpty (msg.arguments.map .string)),
    (ascii "shared_objects", omitEmpty (msg.sharedObjects.map SharedObject.encode)),
    (ascii "loaded_modules", omitEmpty (msg.loadedModules.map Module.encode))]

def ProcessInfo.encode (msg : ProcessInfo) : Json := .object (present msg.fields)

def JobInfo.fields (job : JobInfo) : List (List UInt8 × Option Json) :=
  [(ascii "job_id", job.jobId.map .string),
    (ascii "processes", omitEmpty (job.processes.map ProcessInfo.encode))]

def JobInfo.encode (job : JobInfo) : Json := .object (present job.fields)

/-- A pointer field: an absent member leaves it nil, a value of another type is an error. -/
def pointerField {α : Type} (decode : Json → Option α) (members : List (List UInt8 × Json)) (key : String) :
    Option (Option α) :=
  match members.lookup (ascii key) with
  | none => some none
  | some v => (decode v).map some

def sliceField {α : Type} (decode : Json → Option α) (members : List (List UInt8 × Json)) (key : String) :
    Option (List α) :=
  match members.lookup (ascii key) with
  | none => some []
  | some (.array items) => items.mapM decode
  | some _ => none

def decodeString : Json → Option (List UInt8)
  | .string text => some text
  | _ => none

def decodeInt32 : Json → Option Int32
  | .number n => if (Int32.ofInt n).toInt = n then some (Int32.ofInt n) else none
  | _ => none

def decodeInt64 : Json → Option Int64
  | .number n => if (Int64.ofInt n).toInt = n then some (Int64.ofInt n) else none
  | _ => none

def SharedObject.decode : Json → Option SharedObject
  | .object members => do
    let path ← pointerField decodeString members "path"
    let signature ← pointerField decodeString members "signature"
    return ⟨path, signature⟩
  | _ => none

def Module.decode : Json → Option Module
  | .object members => do
    let name ← pointerField decodeString members "name"
    return ⟨name⟩
  | _ => none

def ProcessInfo.decode : Json → Option ProcessInfo
  | .object members => do
    let binpath ← pointerField decodeString members "binpath"
    let pid ← pointerField decodeInt32 members "pid"
    let parentPid ← pointerField decodeInt32 members "parent_pid"
    let time ← pointerField decodeInt64 members "time"
    let signature ← pointerField decodeString members "signature"
    let jobId ← pointerField decodeString members "job_id"
    let username ← pointerField decodeString members "username"
    let hostname ← pointerField decodeString members "hostname"
    let cmdline ← pointerField decodeString members "cmdline"
    let environmentVariables ← sliceField decodeString members "environment_variables"
    let arguments ← sliceField decodeString members "arguments"
    let sharedObjects ← sliceField SharedObject.decode members "shared_objects"
    let loadedModules ← sliceField Module.decode members "loaded_modules"
    return ⟨binpath, pid, parentPid, time, signature, jobId, username, hostname, cmdline, environmentVariables,
      arguments, sharedObjects, loadedModules⟩
  | _ => none

def JobInfo.decode : Json → Option JobInfo
  | .object members => do
    let jobId ← pointerField decodeString members "job_id"
    let processes ← sliceField ProcessInfo.decode members "processes"
    return ⟨jobId, processes⟩
  | _ => none

theorem pointerField_present {α : Type} {decode : Json → Option α} {encode : α → Json}
    (inverse : ∀ x, decode (encode x) = some x) {fields : List (List UInt8 × Option Json)}
    (distinct : (fields.map Prod.fst).Nodup) {key : String} {value : Option α}
    (member : (ascii key, value.map encode) ∈ fields) :
    pointerField decode (present fields) key = some value := by
  unfold pointerField
  rw [lookup_present distinct member]
  cases value with
  | none => rfl
  | some x => simp only [Option.map_some, inverse]

theorem sliceField_present {α : Type} {decode : Json → Option α} {encode : α → Json}
    (inverse : ∀ x, decode (encode x) = some x) {fields : List (List UInt8 × Option Json)}
    (distinct : (fields.map Prod.fst).Nodup) {key : String} {items : List α}
    (member : (ascii key, omitEmpty (items.map encode)) ∈ fields) :
    sliceField decode (present fields) key = some items := by
  unfold sliceField
  rw [lookup_present distinct member]
  cases items with
  | nil => rfl
  | cons x rest =>
    have each : decode ∘ encode = fun x => (pure x : Option α) := funext inverse
    simp only [omitEmpty, List.map_cons, List.isEmpty_cons, Bool.false_eq_true, if_false]
    rw [← List.map_cons, List.mapM_map, each, List.mapM_pure, List.map_id']
    rfl

theorem decodeInt32_number (n : Int32) : decodeInt32 (.number n.toInt) = some n := by
  unfold decodeInt32
  dsimp only
  rw [Int32.ofInt_toInt, if_pos rfl]

theorem decodeInt64_number (n : Int64) : decodeInt64 (.number n.toInt) = some n := by
  unfold decodeInt64
  dsimp only
  rw [Int64.ofInt_toInt, if_pos rfl]

theorem decodeString_string (text : List UInt8) : decodeString (.string text) = some text := rfl

theorem SharedObject.decode_encode (so : SharedObject) : SharedObject.decode so.encode = some so := by
  have distinct : (so.fields.map Prod.fst).Nodup := by
    change [ascii "path", ascii "signature"].Nodup
    decide
  have path : pointerField decodeString (present so.fields) "path" = some so.path :=
    pointerField_present decodeString_string distinct (by simp [SharedObject.fields])
  have signature : pointerField decodeString (present so.fields) "signature" = some so.signature :=
    pointerField_present decodeString_string distinct (by simp [SharedObject.fields])
  unfold SharedObject.encode SharedObject.decode
  dsimp only
  rw [path, signature]
  rfl

theorem Module.decode_encode (module : Module) : Module.decode module.encode = some module := by
  have name : pointerField decodeString (present module.fields) "name" = some module.name :=
    pointerField_present decodeString_string (by simp [Module.fields]) (by simp [Module.fields])
  unfold Module.encode Module.decode
  dsimp only
  rw [name]
  rfl

theorem ProcessInfo.distinct_fields (msg : ProcessInfo) : (msg.fields.map Prod.fst).Nodup := by
  change [ascii "binpath", ascii "pid", ascii "parent_pid", ascii "time", ascii "signature", ascii "job_id",
    ascii "username", ascii "hostname", ascii "cmdline", ascii "environment_variables", ascii "arguments",
    ascii "shared_objects", ascii "loaded_modules"].Nodup
  decide

theorem ProcessInfo.stringField {msg : ProcessInfo} {key : String} {value : Option GoString}
    (member : (ascii key, value.map .string) ∈ msg.fields) :
    pointerField decodeString (present msg.fields) key = some value :=
  pointerField_present decodeString_string msg.distinct_fields member

theorem ProcessInfo.stringsField {msg : ProcessInfo} {key : String} {items : List GoString}
    (member : (ascii key, omitEmpty (items.map .string)) ∈ msg.fields) :
    sliceField decodeString (present msg.fields) key = some items :=
  sliceField_present decodeString_string msg.distinct_fields member

theorem ProcessInfo.decode_encode (msg : ProcessInfo) : ProcessInfo.decode msg.encode = some msg := by
  have binpath : pointerField decodeString (present msg.fields) "binpath" = some msg.binpath :=
    stringField (by simp [fields])
  have pid : pointerField decodeInt32 (present msg.fields) "pid" = some msg.pid :=
    pointerField_present decodeInt32_number msg.distinct_fields (by simp [fields])
  have parentPid : pointerField decodeInt32 (present msg.fields) "parent_pid" = some msg.parentPid :=
    pointerField_present decodeInt32_number msg.distinct_fields (by simp [fields])
  have time : pointerField decodeInt64 (present msg.fields) "time" = some msg.time :=
    pointerField_present decodeInt64_number msg.distinct_fields (by simp [fields])
  have signature : pointerField decodeString (present msg.fields) "signature" = some msg.signature :=
    stringField (by simp [fields])
  have jobId : pointerField decodeString (present msg.fields) "job_id" = some msg.jobId :=
    stringField (by simp [fields])
  have username : pointerField decodeString (present msg.fields) "username" = some msg.username :=
    stringField (by simp [fields])
  have hostname : pointerField decodeString (present msg.fields) "hostname" = some msg.hostname :=
    stringField (by simp [fields])
  have cmdline : pointerField decodeString (present msg.fields) "cmdline" = some msg.cmdline :=
    stringField (by simp [fields])
  have environmentVariables :
      sliceField decodeString (present msg.fields) "environment_variables" = some msg.environmentVariables :=
    stringsField (by simp [fields])
  have arguments : sliceField decodeString (present msg.fields) "arguments" = some msg.arguments :=
    stringsField (by simp [fields])
  have sharedObjects : sliceField SharedObject.decode (present msg.fields) "shared_objects" =
      some msg.sharedObjects :=
    sliceField_present SharedObject.decode_encode msg.distinct_fields (by simp [fields])
  have loadedModules : sliceField Module.decode (present msg.fields) "loaded_modules" = some msg.loadedModules :=
    sliceField_present Module.decode_encode msg.distinct_fields (by simp [fields])
  unfold ProcessInfo.encode ProcessInfo.decode
  dsimp only
  rw [binpath, pid, parentPid, time, signature, jobId, username, hostname, cmdline, environmentVariables,
    arguments, sharedObjects, loadedModules]
  rfl

theorem JobInfo.decode_encode (job : JobInfo) : JobInfo.decode job.encode = some job := by
  have distinct : (job.fields.map Prod.fst).Nodup := by
    change [ascii "job_id", ascii "processes"].Nodup
    decide
  have jobId : pointerField decodeString (present job.fields) "job_id" = some job.jobId :=
    pointerField_present decodeString_string distinct (by simp [JobInfo.fields])
  have processes : sliceField ProcessInfo.decode (present job.fields) "processes" = some job.processes :=
    sliceField_present ProcessInfo.decode_encode distinct (by simp [JobInfo.fields])
  unfold JobInfo.encode JobInfo.decode
  dsimp only
  rw [jobId, processes]
  rfl

theorem JobInfo.encode_ne_number (job : JobInfo) (n : Int) : job.encode ≠ .number n := by
  unfold JobInfo.encode
  exact Json.noConfusion

/-- The compact text with the members in the order of the struct. Of the texts that
json.Unmarshal accepts, the reader takes those without white space and with integers only. -/
def goJson : JsonCodec where
  marshal job := job.toValidUtf8.encode.print
  unmarshal text := ((parse text).bind JobInfo.decode).map JobInfo.toValidUtf8
  unmarshal_marshal job := by
    rw [parse_print (JobInfo.encode_ne_number _), Option.bind_some, JobInfo.decode_encode, Option.map_some, JobInfo.toValidUtf8_idem]
  unmarshal_valid text job read := by
    obtain ⟨decoded, _, rfl⟩ := Option.map_eq_some_iff.mp read
    exact decoded.toValidUtf8_idem
  unmarshal_short job text before shorter := by
    rw [parse_short (JobInfo.encode_ne_number _) before shorter]
    rfl
  marshal_ne_nil job := by
    obtain ⟨c, rest, shape, _⟩ := print_starts job.toValidUtf8.encode
    rw [shape]
    exact List.cons_ne_nil _ _

end Ogrt
