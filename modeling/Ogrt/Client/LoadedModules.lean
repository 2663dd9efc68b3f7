import Ogrt.Client.InitHook
import Ogrt.Lib.Heap
import Ogrt.Lib.Strtok

namespace Ogrt
open Function Strtok

/-- The blocks that the code about LOADEDMODULES uses. Modules and names are pointed to by the
address of their block. -/
inductive ModuleCell
  | text (bytes : List UInt8)
  | module (name : Option Nat)
  | modules (slots : List (Option Nat))

def isColon (c : UInt8) : Bool := c == 0x3A

/-- A place in a block of text. -/
abbrev CharPointer := Nat × Nat

/-- The heap, and the place that strtok remembers between its calls. -/
structure ModuleState where
  heap : Heap ModuleCell
  saved : CharPointer

namespace ModuleState

def text (s : ModuleState) (block : Nat) : Option (List UInt8) :=
  match s.heap.cells block with
  | some (.text bytes) => some bytes
  | _ => none

def slots (s : ModuleState) (block : Nat) : Option (List (Option Nat)) :=
  match s.heap.cells block with
  | some (.modules slots) => some slots
  | _ => none

def name (s : ModuleState) (block : Nat) : Option Nat :=
  match s.heap.cells block with
  | some (.module name) => name
  | _ => none

/-- The string at a pointer. No result, here and below, is an access that faults. -/
def stringAt (s : ModuleState) (pointer : CharPointer) : Option GoString :=
  (s.text pointer.1).bind fun bytes =>
    if 0 ∈ bytes.drop pointer.2 then some (cString (bytes.drop pointer.2)) else none

def malloc (s : ModuleState) (content : ModuleCell) : Nat × ModuleState := (s.heap.next, ⟨s.heap.alloc content, s.saved⟩)

def store (s : ModuleState) (block : Nat) (content : ModuleCell) : Option ModuleState :=
  (s.heap.store block content).map (⟨·, s.saved⟩)

def free (s : ModuleState) (block : Nat) : Option ModuleState := (s.heap.free block).map (⟨·, s.saved⟩)

def strdup (s : ModuleState) (pointer : CharPointer) : Option (Nat × ModuleState) :=
  (s.stringAt pointer).map fun string => s.malloc (.text (string ++ [0]))

/-- strtok(string, ":"); NULL for the string goes on where the last call has stopped. -/
def strtok (s : ModuleState) (string : Option CharPointer) : Option (Option CharPointer × ModuleState) := do
  let (block, start) := string.getD s.saved
  let buffer ← s.text block
  let result ← Strtok.strtok isColon buffer start
  let heap ← s.heap.store block (.text result.buffer)
  some (result.token.map (block, ·), ⟨heap, block, result.saved⟩)

/-- loaded_modules[index] = module -/
def setSlot (s : ModuleState) (loaded_modules index module : Nat) : Option ModuleState := do
  let slots ← s.slots loaded_modules
  if index < slots.length then s.store loaded_modules (.modules (slots.set index (some module))) else none

def getSlot (s : ModuleState) (loaded_modules index : Nat) : Option Nat := do
  let slots ← s.slots loaded_modules
  slots[index]?.join

end ModuleState

/-- while(count_token) -/
def countLoop : Nat → ModuleState → Option CharPointer → Nat → Option (Nat × ModuleState)
  | _, s, none, module_count => some (module_count, s)
  | 0, _, some _, _ => none
  | turns + 1, s, some _, module_count => do
    let (count_token, s) ← s.strtok none
    countLoop turns s count_token (module_count + 1)

/-- for (module_count=0; module_token; module_count++) -/
def fillLoop (loaded_modules : Nat) : Nat → ModuleState → Option CharPointer → Nat → Option (Nat × ModuleState)
  | _, s, none, module_count => some (module_count, s)
  | 0, _, some _, _ => none
  | turns + 1, s, some module_token, module_count => do
    -- ogrt__module__init leaves the name unset
    let (module, s) := s.malloc (.module none)
    let s ← s.setSlot loaded_modules module_count module
    let (name, s) ← s.strdup module_token
    let target ← s.getSlot loaded_modules module_count
    let s ← s.store target (.module (some name))
    let (module_token, s) ← s.strtok none
    fillLoop loaded_modules turns s module_token (module_count + 1)

/-- n_loaded_modules and loaded_modules of the message. -/
structure ModuleFields where
  nLoadedModules : Nat
  loadedModules : Option Nat

/-- The first pass, over a copy of its own. -/
def countModules (turns : Nat) (s : ModuleState) (module_env : CharPointer) : Option (Nat × ModuleState) := do
  let (count_string, s) ← s.strdup module_env
  let (count_token, s) ← s.strtok (some (count_string, 0))
  let (module_count, s) ← countLoop turns s count_token 0
  let s ← s.free count_string
  some (module_count, s)

/-- The second pass. An OGRT__Module takes as many bytes as four pointers. -/
def fillModules (turns : Nat) (s : ModuleState) (module_env : CharPointer) (module_count : Nat) :
    Option (ModuleFields × ModuleState) := do
  let (loaded_modules, s) := s.malloc (.modules (List.replicate (4 * module_count) none))
  let (module_string, s) ← s.strdup module_env
  let (module_token, s) ← s.strtok (some (module_string, 0))
  let (module_count, s) ← fillLoop loaded_modules turns s module_token 0
  let s ← s.free module_string
  some (⟨module_count, if 0 < module_count then some loaded_modules else none⟩, s)

/-- Each turn of a loop uses up a character of the string, so its length bounds the turns. -/
def gatherModules (s : ModuleState) (module_env : Option CharPointer) : Option (ModuleFields × ModuleState) :=
  match module_env with
  | none => some (⟨0, none⟩, s)
  | some module_env => do
    let turns := (← s.stringAt module_env).length
    let (module_count, s) ← countModules turns s module_env
    if 0 < module_count then fillModules turns s module_env module_count else some (⟨0, none⟩, s)

/-- The cleanup loop from an index on. -/
def freeLoop (loaded_modules : Nat) : Nat → ModuleState → Nat → Option ModuleState
  | 0, s, _ => some s
  | turns + 1, s, i => do
    let module ← s.getSlot loaded_modules i
    let name ← s.name module
    let s ← s.free name
    let s ← s.free module
    freeLoop loaded_modules turns s (i + 1)

def freeModules (msg : ModuleFields) (s : ModuleState) : Option ModuleState :=
  if 0 < msg.nLoadedModules then do
    let loaded_modules ← msg.loadedModules
    let s ← freeLoop loaded_modules msg.nLoadedModules s 0
    s.free loaded_modules
  else some s

/-- The name that packing reads through the pointer at an index of the array. -/
def moduleName (s : ModuleState) (msg : ModuleFields) (i : Nat) : Option GoString := do
  let module ← s.getSlot (← msg.loadedModules) i
  s.stringAt (← s.name module, 0)

/-- What getenv returns for LOADEDMODULES: nothing, or a pointer to a string. -/
inductive EnvString (s : ModuleState) : Option CharPointer → Option GoString → Prop
  | unset : EnvString s none none
  | set {block offset bytes text} : s.heap.cells block = some (.text bytes) → StringAt bytes offset text →
      EnvString s (some (block, offset)) (some text)

variable {s t : ModuleState} {block : Nat}

namespace ModuleState

theorem text_eq {bytes : List UInt8} (cell : s.heap.cells block = some (.text bytes)) : s.text block = some bytes := by
  rw [text, cell]

theorem slots_eq {slots : List (Option Nat)} (cell : s.heap.cells block = some (.modules slots)) :
    s.slots block = some slots := by
  rw [ModuleState.slots, cell]

theorem name_eq {name : Option Nat} (cell : s.heap.cells block = some (.module name)) : s.name block = name := by
  rw [ModuleState.name, cell]

theorem stringAt_eq {bytes : List UInt8} {offset : Nat} {string : GoString}
    (cell : s.heap.cells block = some (.text bytes)) (found : StringAt bytes offset string) :
    s.stringAt (block, offset) = some string := by
  obtain ⟨before, after, rfl, rfl, plain⟩ := found
  have nonzero : ∀ c ∈ string, decide (c ≠ 0) = true := by
    intro c member
    exact decide_eq_true fun nul => plain (nul ▸ member)
  have cut : cString (string ++ 0 :: after) = string := by
    rw [cString, List.takeWhile_append_of_pos nonzero]
    exact List.append_nil string
  rw [stringAt, text_eq cell, Option.bind_some, List.drop_left, cut,
    if_pos (List.mem_append_right _ (List.mem_cons_self ..))]

/-- A copy is a new block with the string and its NUL. -/
theorem strdup_eq {pointer : CharPointer} {string : GoString} (found : s.stringAt pointer = some string) :
    s.strdup pointer = some (s.heap.next, ⟨s.heap.alloc (.text (string ++ [0])), s.saved⟩) := by
  rw [strdup, found]
  rfl

end ModuleState

/-- Only the text of one block is different. -/
structure Scanned (s t : ModuleState) (block : Nat) : Prop where
  next : t.heap.next = s.heap.next
  others : ∀ p, p ≠ block → t.heap.cells p = s.heap.cells p
  text : ∃ buffer, t.heap.cells block = some (.text buffer)

theorem Scanned.trans {r : ModuleState} (first : Scanned r s block) (second : Scanned s t block) : Scanned r t block :=
  ⟨second.next.trans first.next, fun p other => (second.others p other).trans (first.others p other), second.text⟩

/-- A call of strtok has found the first of these tokens and left the others for the next calls. -/
inductive Waiting (s : ModuleState) (block : Nat) : Option CharPointer → List GoString → Prop
  | done {buffer} : s.heap.cells block = some (.text buffer) → Waiting s block none []
  | token {buffer index start token rest} : s.heap.cells block = some (.text buffer) → StringAt buffer index token →
      s.saved = (block, start) → Rest buffer start rest →
      Waiting s block (some (block, index)) (token :: pieces isColon rest)

/-- A call of strtok finds the first token that is left. -/
theorem strtok_waits {string : Option CharPointer} {start : Nat} {buffer rest : List UInt8}
    (begins : string.getD s.saved = (block, start)) (cell : s.heap.cells block = some (.text buffer))
    (left : Rest buffer start rest) :
    ∃ token t, s.strtok string = some (token, t) ∧ Waiting t block token (pieces isColon rest) ∧ Scanned s t block := by
  have noNul : isColon 0 = false := rfl
  cases found : pieces isColon rest with
  | nil =>
    obtain ⟨saved, result⟩ := left.none noNul found
    obtain ⟨heap, stored, next, cells⟩ := Heap.store_spec cell (.text buffer)
    have here : heap.cells block = some (.text buffer) := by rw [cells, update_self]
    refine ⟨none, ⟨heap, block, saved⟩, ?_, .done here, next, fun p other => ?_, buffer, here⟩
    · simp only [ModuleState.strtok, begins, ModuleState.text_eq cell, result, stored, Option.bind_eq_bind,
        Option.bind_some, Option.map_none]
    · dsimp only
      rw [cells, update_of_ne other]
  | cons token more =>
    obtain ⟨index, buffer', saved, rest', result, string, next', rfl, _⟩ := left.token found
    obtain ⟨heap, stored, next, cells⟩ := Heap.store_spec cell (.text buffer')
    have here : heap.cells block = some (.text buffer') := by rw [cells, update_self]
    refine ⟨some (block, index), ⟨heap, block, saved⟩, ?_, .token here string rfl next', next, fun p other => ?_, buffer', here⟩
    · simp only [ModuleState.strtok, begins, ModuleState.text_eq cell, result, stored, Option.bind_eq_bind,
        Option.bind_some, Option.map_some]
    · dsimp only
      rw [cells, update_of_ne other]

/-- The first pass counts the tokens and writes to the copy alone. -/
theorem countLoop_counts {turns module_count : Nat} {token : Option CharPointer} {tokens : List GoString}
    (waiting : Waiting s block token tokens) (enough : tokens.length ≤ turns) :
    ∃ t, countLoop turns s token module_count = some (module_count + tokens.length, t) ∧ Scanned s t block := by
  induction tokens generalizing s turns module_count token with
  | nil =>
    cases waiting with
    | done cell => exact ⟨s, by cases turns <;> rfl, rfl, fun _ _ => rfl, _, cell⟩
  | cons first more ih =>
    cases waiting with
    | @token buffer index start _ rest cell _ stopped left =>
      rw [List.length_cons] at enough
      obtain ⟨turns, rfl⟩ := Nat.exists_eq_succ_of_ne_zero (show turns ≠ 0 by omega)
      obtain ⟨next, s', called, waiting', scanned⟩ := @strtok_waits s block none start buffer rest stopped cell left
      obtain ⟨t, counted, scanned'⟩ := ih waiting' (Nat.le_of_succ_le_succ enough)
      refine ⟨t, ?_, scanned.trans scanned'⟩
      rw [countLoop, called, List.length_cons]
      show countLoop turns s' next (module_count + 1) = _
      rw [counted]
      congr 2
      omega

/-- The modules that were made so far, two blocks for each of them from `base` on, with the
slots of the array set to them. The other blocks are as they were. -/
structure Filling (old : Nat → Option ModuleCell) (s : ModuleState) (array copy base capacity : Nat) (done : List GoString) :
    Prop where
  next : s.heap.next = base + 2 * done.length
  slots : ∃ slots, s.heap.cells array = some (.modules slots) ∧ slots.length = capacity ∧
    ∀ j < done.length, slots[j]? = some (some (base + 2 * j))
  modules : ∀ j name, done[j]? = some name → s.heap.cells (base + 2 * j) = some (.module (some (base + 2 * j + 1))) ∧
    s.heap.cells (base + 2 * j + 1) = some (.text (name ++ [0]))
  others : ∀ p < base, p ≠ array → p ≠ copy → s.heap.cells p = old p

variable {old : Nat → Option ModuleCell} {array copy base capacity : Nat} {done : List GoString}

theorem ModuleState.getSlot_eq {slots : List (Option Nat)} {index module : Nat}
    (cell : s.heap.cells array = some (.modules slots)) (set : slots[index]? = some (some module)) :
    s.getSlot array index = some module := by
  rw [ModuleState.getSlot, ModuleState.slots_eq cell]
  show slots[index]?.join = _
  rw [set]
  rfl

theorem ModuleState.setSlot_eq {slots : List (Option Nat)} {index : Nat} (cell : s.heap.cells array = some (.modules slots))
    (inside : index < slots.length) (module : Nat) :
    ∃ heap, s.setSlot array index module = some ⟨heap, s.saved⟩ ∧ heap.next = s.heap.next ∧
      heap.cells = update s.heap.cells array (some (.modules (slots.set index (some module)))) := by
  obtain ⟨heap, stored, next, cells⟩ := Heap.store_spec cell (.modules (slots.set index (some module)))
  refine ⟨heap, ?_, next, cells⟩
  simp only [ModuleState.setSlot, ModuleState.slots_eq cell, ModuleState.store, Option.bind_eq_bind, Option.bind_some,
    inside, if_true, stored, Option.map_some]

/-- One module more, in the two blocks behind those of the others. -/
theorem Filling.append {token : GoString} (filling : Filling old s array copy base capacity done) (inArray : array < base)
    (inCopy : copy < base) (room : done.length < capacity) (next : t.heap.next = s.heap.next + 2)
    (stored : ∀ slots, s.heap.cells array = some (.modules slots) →
      t.heap.cells array = some (.modules (slots.set done.length (some s.heap.next))))
    (module : t.heap.cells s.heap.next = some (.module (some (s.heap.next + 1))))
    (name : t.heap.cells (s.heap.next + 1) = some (.text (token ++ [0])))
    (others : ∀ p < s.heap.next, p ≠ array → p ≠ copy → t.heap.cells p = s.heap.cells p) :
    Filling old t array copy base capacity (done ++ [token]) := by
  obtain ⟨slots, cell, size, set⟩ := filling.slots
  have top := filling.next
  have count : (done ++ [token]).length = done.length + 1 := List.length_append
  refine ⟨by omega, ⟨_, stored slots cell, ?_, fun j inside => ?_⟩, fun j name' found => ?_,
    fun p before notArray notCopy => ?_⟩
  · rw [List.length_set, size]
  · by_cases last : j = done.length
    · rw [last, List.getElem?_set_self (by omega), top]
    · rw [List.getElem?_set_ne (Ne.symm last)]
      exact set j (by omega)
  · by_cases before : j < done.length
    · rw [List.getElem?_append_left before] at found
      rw [others _ (by omega) (by omega) (by omega), others _ (by omega) (by omega) (by omega)]
      exact filling.modules j name' found
    · obtain ⟨inside, _⟩ := List.getElem?_eq_some_iff.mp found
      have last : j = done.length := by omega
      rw [last, List.getElem?_append_right (Nat.le_refl _), Nat.sub_self] at found
      cases found
      rw [last, ← top]
      exact ⟨module, name⟩
  · rw [others p (by omega) notArray notCopy]
    exact filling.others p before notArray notCopy

/-- One turn makes the module of its token. -/
theorem fillLoop_turn {turns index : Nat} {token : GoString} {more : List GoString}
    (filling : Filling old s array copy base capacity done) (inArray : array < base) (inCopy : copy < base)
    (apart : copy ≠ array) (waiting : Waiting s copy (some (copy, index)) (token :: more))
    (room : done.length < capacity) :
    ∃ next t, fillLoop array (turns + 1) s (some (copy, index)) done.length =
        fillLoop array turns t next (done.length + 1) ∧ Waiting t copy next more ∧
      Filling old t array copy base capacity (done ++ [token]) := by
  obtain ⟨slots, cell, size, set⟩ := filling.slots
  have module := filling.next
  cases waiting with
  | @token buffer _ start _ rest text string stopped left =>
    -- malloc of the module and the store of its pointer
    have below : array < s.heap.next := by omega
    have cell1 : (s.heap.alloc (.module none)).cells array = some (.modules slots) := by rw [Heap.alloc_below below, cell]
    obtain ⟨heap2, pointed, next2, cells2⟩ := @ModuleState.setSlot_eq ⟨s.heap.alloc (.module none), s.saved⟩ array slots
      done.length cell1 (by omega) s.heap.next
    -- the copy of the token
    dsimp only at next2 cells2
    rw [Heap.alloc_next] at next2
    have text2 : heap2.cells copy = some (.text buffer) := by
      rw [cells2, update_of_ne apart, Heap.alloc_below (by omega), text]
    have copied := ModuleState.strdup_eq (@ModuleState.stringAt_eq ⟨heap2, s.saved⟩ copy buffer index token text2 string)
    dsimp only at copied
    -- the store of its pointer in the module
    have slots3 : (heap2.alloc (.text (token ++ [0]))).cells array =
        some (.modules (slots.set done.length (some s.heap.next))) := by
      rw [Heap.alloc_below (by omega), cells2, update_self]
    have got : (ModuleState.mk (heap2.alloc (.text (token ++ [0]))) s.saved).getSlot array done.length =
        some s.heap.next :=
      @ModuleState.getSlot_eq ⟨heap2.alloc (.text (token ++ [0])), s.saved⟩ array _ done.length _ slots3 (by rw [List.getElem?_set_self (by omega)])
    have module3 : (heap2.alloc (.text (token ++ [0]))).cells s.heap.next = some (.module none) := by
      rw [Heap.alloc_below (by omega), cells2, update_of_ne (by omega), Heap.alloc_self]
    obtain ⟨heap4, stored4, next4, cells4⟩ := Heap.store_spec module3 (.module (some heap2.next))
    have named : (ModuleState.mk (heap2.alloc (.text (token ++ [0]))) s.saved).store s.heap.next
        (.module (some heap2.next)) = some ⟨heap4, s.saved⟩ := by
      rw [ModuleState.store, stored4]
      rfl
    rw [Heap.alloc_next] at next4
    have other4 (p : Nat) (notArray : p ≠ array) (before : p < s.heap.next) : heap4.cells p = s.heap.cells p := by
      rw [cells4, update_of_ne (by omega), Heap.alloc_below (by omega), cells2, update_of_ne notArray,
        Heap.alloc_below before]
    have text4 : heap4.cells copy = some (.text buffer) := by rw [other4 copy apart (by omega), text]
    have array4 : heap4.cells array = some (.modules (slots.set done.length (some s.heap.next))) := by
      rw [cells4, update_of_ne (by omega), slots3]
    have module4 : heap4.cells s.heap.next = some (.module (some (s.heap.next + 1))) := by
      rw [cells4, update_self, next2]
    have name4 : heap4.cells (s.heap.next + 1) = some (.text (token ++ [0])) := by
      rw [cells4, update_of_ne (by omega), ← next2, Heap.alloc_self]
    obtain ⟨next, t, called, waiting, scanned⟩ := @strtok_waits ⟨heap4, s.saved⟩ copy none start buffer rest stopped text4 left
    refine ⟨next, t, ?_, waiting, ?_⟩
    · simp only [fillLoop, ModuleState.malloc, pointed, copied, got, named, called, Option.bind_eq_bind, Option.bind_some]
    · have kept (p : Nat) (notCopy : p ≠ copy) : t.heap.cells p = heap4.cells p := scanned.others p notCopy
      have total : t.heap.next = heap4.next := scanned.next
      refine filling.append inArray inCopy room (by omega) (fun slots' cell' => ?_) ?_ ?_ fun p before notArray notCopy => ?_
      · cases Option.some.inj (cell.symm.trans cell')
        exact (kept array apart.symm).trans array4
      · exact (kept _ (by omega)).trans module4
      · exact (kept _ (by omega)).trans name4
      · exact (kept p notCopy).trans (other4 p notArray before)

/-- The second pass makes a module of each token, in their order. -/
theorem fillLoop_fills {turns : Nat} {token : Option CharPointer} {tokens : List GoString}
    (filling : Filling old s array copy base capacity done) (inArray : array < base) (inCopy : copy < base)
    (apart : copy ≠ array) (waiting : Waiting s copy token tokens) (room : done.length + tokens.length ≤ capacity)
    (enough : tokens.length ≤ turns) :
    ∃ t, fillLoop array turns s token done.length = some (done.length + tokens.length, t) ∧
      Filling old t array copy base capacity (done ++ tokens) ∧ ∃ buffer, t.heap.cells copy = some (.text buffer) := by
  induction tokens generalizing s turns token done with
  | nil =>
    cases waiting with
    | done cell =>
      rw [List.append_nil]
      exact ⟨s, by cases turns <;> rfl, filling, _, cell⟩
  | cons first more ih =>
    rw [List.length_cons] at enough room
    obtain ⟨turns, rfl⟩ := Nat.exists_eq_succ_of_ne_zero (show turns ≠ 0 by omega)
    obtain ⟨index, rfl⟩ : ∃ index, token = some (copy, index) := by
      cases waiting
      exact ⟨_, rfl⟩
    obtain ⟨next, s', turn, waiting', filling'⟩ := @fillLoop_turn s old array copy base capacity done turns index first more
      filling inArray inCopy apart waiting (by omega)
    have count : (done ++ [first]).length = done.length + 1 := List.length_append
    obtain ⟨t, filled, filling'', text⟩ := @ih s' (done ++ [first]) turns next filling' waiting' (by omega) (by omega)
    rw [List.append_assoc] at filling''
    rw [count] at filled
    refine ⟨t, ?_, filling'', text⟩
    rw [turn, filled, List.length_cons]
    congr 2
    omega

theorem ModuleState.free_eq {content : ModuleCell} (cell : s.heap.cells block = some content) :
    ∃ t, s.free block = some t ∧ t.heap.next = s.heap.next ∧ t.heap.cells = update s.heap.cells block none := by
  obtain ⟨heap, freed, next, cells⟩ := Heap.free_spec cell
  exact ⟨⟨heap, s.saved⟩, by rw [ModuleState.free, freed]; rfl, next, cells⟩

/-- The cleanup loop takes the two blocks of each module away and no others. -/
theorem freeLoop_frees {slots : List (Option Nat)} {turns i : Nat} (cell : s.heap.cells array = some (.modules slots))
    (inArray : array < base) (each : ∀ j, i ≤ j → j < i + turns → slots[j]? = some (some (base + 2 * j)) ∧
      s.heap.cells (base + 2 * j) = some (.module (some (base + 2 * j + 1))) ∧
      (s.heap.cells (base + 2 * j + 1)).isSome) :
    ∃ t, freeLoop array turns s i = some t ∧
      ∀ p, t.heap.cells p = if base + 2 * i ≤ p ∧ p < base + 2 * (i + turns) then none else s.heap.cells p := by
  induction turns generalizing s i with
  | zero =>
    refine ⟨s, rfl, fun p => ?_⟩
    rw [if_neg (by omega)]
  | succ turns ih =>
    obtain ⟨slot, module, text⟩ := each i (Nat.le_refl i) (by omega)
    obtain ⟨content, text⟩ := Option.isSome_iff_exists.mp text
    obtain ⟨s1, freed1, _, cells1⟩ := ModuleState.free_eq text
    have module1 : s1.heap.cells (base + 2 * i) = some (.module (some (base + 2 * i + 1))) := by
      rw [cells1, update_of_ne (by omega), module]
    obtain ⟨s2, freed2, _, cells2⟩ := ModuleState.free_eq module1
    have kept (p : Nat) (other : p ≠ base + 2 * i) (other' : p ≠ base + 2 * i + 1) :
        s2.heap.cells p = s.heap.cells p := by
      rw [cells2, update_of_ne other, cells1, update_of_ne other']
    obtain ⟨t, rest, cells⟩ := @ih s2 (i + 1) (by rw [kept _ (by omega) (by omega), cell]) fun j after before => by
      rw [kept _ (by omega) (by omega), kept _ (by omega) (by omega)]
      exact each j (by omega) (by omega)
    refine ⟨t, ?_, fun p => ?_⟩
    · simp only [freeLoop, ModuleState.getSlot_eq cell slot, ModuleState.name_eq module, freed1, freed2,
        Option.bind_eq_bind, Option.bind_some, rest]
    · rw [cells]
      by_cases here : p = base + 2 * i ∨ p = base + 2 * i + 1
      · rw [if_pos (show base + 2 * i ≤ p ∧ p < base + 2 * (i + (turns + 1)) by omega), if_neg (by omega)]
        rcases here with rfl | rfl
        · rw [cells2, update_self]
        · rw [cells2, update_of_ne (by omega), cells1, update_self]
      · rw [kept p (by omega) (by omega)]
        have same : (base + 2 * (i + 1) ≤ p ∧ p < base + 2 * (i + 1 + turns)) ↔
            (base + 2 * i ≤ p ∧ p < base + 2 * (i + (turns + 1))) := by omega
        simp only [same]

theorem rest_of_string {text : GoString} (plain : 0 ∉ text) : Rest (text ++ [0]) 0 text := ⟨[], rfl, rfl, plain⟩

theorem pieces_isColon (text : GoString) : pieces isColon text = tokens text := by
  rw [tokens, List.splitOn_eq_splitOnP]
  rfl

variable {offset : Nat} {bytes : List UInt8} {string : GoString}

/-- The first pass counts the tokens and leaves the heap as it was. -/
theorem countModules_counts (cell : s.heap.cells block = some (.text bytes)) (found : StringAt bytes offset string) :
    ∃ t, countModules string.length s (block, offset) = some ((tokens string).length, t) ∧
      t.heap.cells = s.heap.cells ∧ s.heap.next ≤ t.heap.next := by
  have plain := found.noNul
  have copied := ModuleState.strdup_eq (ModuleState.stringAt_eq cell found)
  obtain ⟨token, s2, called, waiting, scanned⟩ := @strtok_waits ⟨s.heap.alloc (.text (string ++ [0])), s.saved⟩
    s.heap.next (some (s.heap.next, 0)) 0 _ _ rfl (Heap.alloc_self ..) (rest_of_string plain)
  obtain ⟨s3, counted, scanned'⟩ := @countLoop_counts s2 s.heap.next string.length 0 token _ waiting
    (rest_of_string plain).pieces_length
  obtain ⟨buffer, text⟩ := scanned'.text
  obtain ⟨s4, freed, next, cells⟩ := ModuleState.free_eq text
  have whole := scanned.trans scanned'
  refine ⟨s4, ?_, funext fun p => ?_, ?_⟩
  · rw [← pieces_isColon]
    simp only [countModules, copied, called, counted, freed, Option.bind_eq_bind, Option.bind_some, Nat.zero_add]
  · rw [cells]
    by_cases copy : p = s.heap.next
    · rw [copy, update_self, s.heap.fresh _ (Nat.le_refl _)]
    · rw [update_of_ne copy, whole.others p copy]
      exact Heap.alloc_of_ne copy
  · rw [next, whole.next]
    exact Nat.le_succ _

/-- Freeing the copy does not touch the modules. -/
theorem Filling.free (filling : Filling old s array copy base capacity done) (inCopy : copy < base)
    (apart : copy ≠ array) (next : t.heap.next = s.heap.next) (cells : t.heap.cells = update s.heap.cells copy none) :
    Filling old t array copy base capacity done := by
  obtain ⟨slots, cell, size, set⟩ := filling.slots
  have kept (p : Nat) (other : p ≠ copy) : t.heap.cells p = s.heap.cells p := by rw [cells, update_of_ne other]
  refine ⟨next.trans filling.next, ⟨slots, (kept array apart.symm).trans cell, size, set⟩, fun j name found => ?_,
    fun p before notArray notCopy => (kept p notCopy).trans (filling.others p before notArray notCopy)⟩
  rw [kept _ (by omega), kept _ (by omega)]
  exact filling.modules j name found

/-- The second pass makes its array, one module for each token, and nothing else that stays. -/
theorem fillModules_fills (cell : s.heap.cells block = some (.text bytes)) (found : StringAt bytes offset string)
    (nonempty : tokens string ≠ []) :
    ∃ t, fillModules string.length s (block, offset) (tokens string).length =
        some (⟨(tokens string).length, some s.heap.next⟩, t) ∧
      Filling s.heap.cells t s.heap.next (s.heap.next + 1) (s.heap.next + 2) (4 * (tokens string).length) (tokens string) ∧
      t.heap.cells (s.heap.next + 1) = none := by
  have plain := found.noNul
  have below : block < s.heap.next := Heap.lt_next (by rw [cell]; rfl)
  have positive := List.length_pos_iff.mpr nonempty
  obtain ⟨s1, allocated⟩ : ∃ s1, s1 = ModuleState.mk
      (s.heap.alloc (.modules (List.replicate (4 * (tokens string).length) none))) s.saved := ⟨_, rfl⟩
  have next1 : s1.heap.next = s.heap.next + 1 := by rw [allocated, Heap.alloc_next]
  have cell1 : s1.heap.cells block = some (.text bytes) := by rw [allocated, Heap.alloc_below below, cell]
  have copied := ModuleState.strdup_eq (ModuleState.stringAt_eq cell1 found)
  obtain ⟨token, s2, called, waiting, scanned⟩ := @strtok_waits ⟨s1.heap.alloc (.text (string ++ [0])), s1.saved⟩
    s1.heap.next (some (s1.heap.next, 0)) 0 _ _ rfl (Heap.alloc_self ..) (rest_of_string plain)
  have start : Filling s.heap.cells s2 s.heap.next s1.heap.next (s.heap.next + 2) (4 * (tokens string).length) [] := by
    refine ⟨?_, ⟨List.replicate (4 * (tokens string).length) none, ?_, List.length_replicate, nofun⟩, nofun,
      fun p before notArray notCopy => ?_⟩
    · rw [scanned.next, Heap.alloc_next, next1]
      rfl
    · rw [scanned.others _ (by omega), Heap.alloc_below (by omega), allocated, Heap.alloc_self]
    · rw [scanned.others p notCopy, Heap.alloc_of_ne notCopy, allocated, Heap.alloc_of_ne notArray]
  rw [pieces_isColon] at waiting
  have few : (tokens string).length ≤ string.length := by
    rw [← pieces_isColon]
    exact (rest_of_string plain).pieces_length
  obtain ⟨s3, filled, filling, buffer, text⟩ := fillLoop_fills start (by omega) (by omega) (by omega) waiting
    (by rw [List.length_nil]; omega) few
  rw [List.length_nil, Nat.zero_add] at filled
  rw [List.nil_append] at filling
  obtain ⟨s4, freed, next, cells⟩ := ModuleState.free_eq text
  refine ⟨s4, ?_, ?_, ?_⟩
  · simp only [fillModules, ModuleState.malloc, ← allocated, copied, called, filled, freed, Option.bind_eq_bind,
      Option.bind_some, positive, if_true]
  · rw [← next1]
    exact filling.free (by omega) (by omega) next cells
  · rw [← next1, cells, update_self]

/-- The cleanup takes away the modules and their array. -/
theorem freeModules_frees (filling : Filling old t array (array + 1) (array + 2) capacity done) (nonempty : done ≠ [])
    (copy : t.heap.cells (array + 1) = none) (fresh : ∀ p, array ≤ p → old p = none) :
    ∃ u, freeModules ⟨done.length, some array⟩ t = some u ∧ u.heap.cells = old := by
  have positive := List.length_pos_iff.mpr nonempty
  have total := filling.next
  obtain ⟨slots, cell, _, each⟩ := filling.slots
  obtain ⟨u, freed, cells⟩ := @freeLoop_frees t array (array + 2) slots done.length 0 cell (by omega)
    fun j _ before => by
      have name := List.getElem?_eq_getElem (show j < done.length by omega)
      obtain ⟨module, text⟩ := filling.modules j _ name
      exact ⟨each j (by omega), module, by rw [text]; rfl⟩
  have stays : u.heap.cells array = some (.modules slots) := by
    rw [cells, if_neg (by omega), cell]
  obtain ⟨v, last, _, cells'⟩ := ModuleState.free_eq stays
  refine ⟨v, ?_, funext fun p => ?_⟩
  · simp only [freeModules, positive, if_true, freed, last, Option.bind_eq_bind, Option.bind_some]
  · rw [cells']
    by_cases first : p = array
    · rw [first, update_self, fresh _ (Nat.le_refl _)]
    · rw [update_of_ne first, cells]
      split
      · rw [fresh p (by omega)]
      · by_cases before : p < array
        · exact filling.others p (by omega) (by omega) (by omega)
        · rw [fresh p (by omega)]
          by_cases second : p = array + 1
          · rw [second, copy]
          · exact t.heap.fresh p (by omega)

/-- The first pass counts as many pieces as the message has modules. The second one is made over
that many, and is left out where there are none. -/
def PassesAgree (s : ModuleState) (module_env : Option CharPointer) (msg : ModuleFields) (t : ModuleState) : Prop :=
  ∀ pointer, module_env = some pointer → ∃ turns counted,
    countModules turns s pointer = some (msg.nLoadedModules, counted) ∧
      (0 < msg.nLoadedModules → fillModules turns counted pointer msg.nLoadedModules = some (msg, t))

/-- The message gets the tokens of LOADEDMODULES in their order, as many as either pass finds, no
other block changes, and the cleanup frees what was created and nothing else. -/
theorem loaded_modules_are_tokens (s : ModuleState) (module_env : Option CharPointer) (value : Option GoString)
    (set : EnvString s module_env value) :
    ∃ msg t, gatherModules s module_env = some (msg, t) ∧
      msg.nLoadedModules = ((value.map tokens).getD []).length ∧ PassesAgree s module_env msg t ∧
      (∀ i < msg.nLoadedModules, moduleName t msg i = ((value.map tokens).getD [])[i]?) ∧
      (∀ p < s.heap.next, t.heap.cells p = s.heap.cells p) ∧
      ∃ u, freeModules msg t = some u ∧ u.heap.cells = s.heap.cells := by
  cases set with
  | unset => exact ⟨⟨0, none⟩, s, rfl, rfl, nofun, nofun, fun _ _ => rfl, s, rfl, rfl⟩
  | @set block offset bytes string cell found =>
    obtain ⟨s1, counted, cells1, next1⟩ := countModules_counts cell found
    have read := ModuleState.stringAt_eq cell found
    show ∃ msg t, _ ∧ msg.nLoadedModules = (tokens string).length ∧ PassesAgree s _ msg t ∧
      (∀ i < msg.nLoadedModules, moduleName t msg i = (tokens string)[i]?) ∧ _
    by_cases nonempty : tokens string = []
    · have none_counted : PassesAgree s (some (block, offset)) ⟨0, none⟩ s1 := by
        rintro _ ⟨⟩
        rw [nonempty] at counted
        exact ⟨_, _, counted, nofun⟩
      refine ⟨⟨0, none⟩, s1, ?_, ?_, none_counted, nofun, fun p _ => by rw [cells1], s1, rfl, cells1⟩
      · simp only [gatherModules, read, counted, nonempty, Option.bind_eq_bind, Option.bind_some, List.length_nil,
          Nat.lt_irrefl, if_false]
      · rw [nonempty]
        rfl
    · have positive := List.length_pos_iff.mpr nonempty
      have cell1 : s1.heap.cells block = some (.text bytes) := by rw [cells1, cell]
      obtain ⟨t, filled, filling, copy⟩ := fillModules_fills cell1 found nonempty
      obtain ⟨slots, array, _, each⟩ := filling.slots
      have old (p : Nat) (before : p < s1.heap.next) : t.heap.cells p = s.heap.cells p := by
        rw [filling.others p (by omega) (by omega) (by omega), cells1]
      have both : PassesAgree s (some (block, offset)) ⟨(tokens string).length, some s1.heap.next⟩ t := by
        rintro _ ⟨⟩
        exact ⟨_, _, counted, fun _ => filled⟩
      refine ⟨⟨(tokens string).length, some s1.heap.next⟩, t, ?_, rfl, both, fun i inside => ?_,
        fun p before => old p (by omega), ?_⟩
      · simp only [gatherModules, read, counted, positive, Option.bind_eq_bind, Option.bind_some, if_true, filled]
      · have name := List.getElem?_eq_getElem (show i < (tokens string).length from inside)
        obtain ⟨module, text⟩ := filling.modules i _ name
        have noNul : 0 ∉ (tokens string)[i] :=
          (rest_of_string found.noNul).noNul (by rw [pieces_isColon]; exact List.getElem_mem inside)
        rw [name, moduleName]
        simp only [ModuleState.getSlot_eq array (each i inside), ModuleState.name_eq module, Option.bind_eq_bind,
          Option.bind_some]
        exact ModuleState.stringAt_eq text ⟨[], [], rfl, rfl, noNul⟩
      · obtain ⟨u, freed, cells⟩ := freeModules_frees filling nonempty copy s1.heap.fresh
        exact ⟨u, freed, cells.trans cells1⟩

/-- A process whose environment holds one string. -/
def modulesSet : ModuleState :=
  ⟨(Heap.mk (fun _ => none) 0 fun _ _ => rfl).alloc (.text (ascii "LOADEDMODULES=:gcc::mpi:" ++ [0])), 0, 0⟩

theorem loaded_modules_are_tokens_gcc_mpi :
    ∃ msg t, gatherModules modulesSet (some (0, 14)) = some (msg, t) ∧ msg.nLoadedModules = 2 ∧
      moduleName t msg 0 = some (ascii "gcc") ∧ moduleName t msg 1 = some (ascii "mpi") := by
  have set : EnvString modulesSet (some (0, 14)) (some (ascii ":gcc::mpi:")) :=
    .set rfl ⟨ascii "LOADEDMODULES=", [], by decide, by decide, by decide⟩
  obtain ⟨msg, t, gathered, count, _, names, _⟩ := loaded_modules_are_tokens modulesSet (some (0, 14)) _ set
  have two : msg.nLoadedModules = 2 := count
  exact ⟨msg, t, gathered, two, names 0 (by omega), names 1 (by omega)⟩

/-- Where no allocation fails this is what the hook takes for the loaded modules. -/
theorem ogrtLoadedModules_tokens (value : Option GoString) {o : ModuleOutcomes} (countString : o.countString = true)
    (moduleString : o.moduleString = true) (loadedModules : o.loadedModules = true) (modules : ∀ i, o.modules i = true)
    (names : ∀ i, o.names i = true) :
    ogrtLoadedModules value o = .ok (((value.map tokens).getD []).map some) := by
  cases value with
  | none => rfl
  | some string =>
    have turns (list : List GoString) (i : Nat) (inside : i + list.length ≤ 4 * (tokens string).length) :
        Checked.mapAt (fun index token =>
          if ¬ o.loadedModules then (.error .nullDereference : Except Failure (Option GoString))
          else if 4 * (tokens string).length ≤ index then .error .outsideBuffer
          else if ¬ o.modules index then .error .nullDereference
          else .ok (Ogrt.strdup (o.names index) token)) i list = .ok (list.map some) := by
      induction list generalizing i with
      | nil => rfl
      | cons token rest ih =>
        rw [List.length_cons] at inside
        rw [Checked.mapAt, if_neg (not_not_intro loadedModules), if_neg (by omega), if_neg (not_not_intro (modules i)),
          Ogrt.strdup, if_pos (names i)]
        dsimp only
        rw [ih (i + 1) (by omega)]
        rfl
    show ogrtLoadedModules (some string) o = .ok ((tokens string).map some)
    rw [ogrtLoadedModules, if_neg (not_not_intro countString)]
    dsimp only
    by_cases nonempty : 0 < (tokens string).length
    · rw [if_pos nonempty, if_neg (not_not_intro moduleString)]
      exact turns (tokens string) 0 (by omega)
    · rw [if_neg nonempty, List.eq_nil_of_length_eq_zero (show (tokens string).length = 0 by omega)]
      rfl

end Ogrt
