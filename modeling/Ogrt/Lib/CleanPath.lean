import Ogrt.Lib.Strtok
import Mathlib.Data.List.Basic

/-! Slash-separated path names as byte strings, cleaned and joined as in Go's package path. -/

namespace CleanPath

def slash : UInt8 := 0x2F
def dot : List UInt8 := [0x2E]
def dotDot : List UInt8 := [0x2E, 0x2E]

/-- The elements kept so far, the last one first. An inner `..` removes the element before
it, one at the start of a rooted path is dropped. -/
def keepElement (rooted : Bool) (kept : List (List UInt8)) (element : List UInt8) : List (List UInt8) :=
  if element = [] ∨ element = dot then kept
  else if element = dotDot then
    match kept with
    | [] => if rooted then [] else [dotDot]
    | last :: before => if last = dotDot then dotDot :: kept else before
  else element :: kept

def rooted (name : List UInt8) : Bool := name.head? = some slash

def cleanElements (name : List UInt8) : List (List UInt8) :=
  ((name.splitOn slash).foldl (keepElement (rooted name)) []).reverse

/-- The shortest name that is equivalent by its spelling alone. -/
def clean (name : List UInt8) : List UInt8 :=
  if rooted name then slash :: [slash].intercalate (cleanElements name)
  else if cleanElements name = [] then dot
  else [slash].intercalate (cleanElements name)

/-- Empty elements are ignored; with nothing else the result is empty. -/
def join (directory name : List UInt8) : List UInt8 :=
  if directory ≠ [] then clean (directory ++ slash :: name)
  else if name ≠ [] then clean name
  else []

/-- "/tmp/j/" and "a/../1" -/
example : join [0x2F, 0x74, 0x6D, 0x70, 0x2F, 0x6A, 0x2F] [0x61, 0x2F, 0x2E, 0x2E, 0x2F, 0x31] =
    [0x2F, 0x74, 0x6D, 0x70, 0x2F, 0x6A, 0x2F, 0x31] := by decide

/-- A name that a directory can have an entry under. -/
structure IsName (name : List UInt8) : Prop where
  nonempty : name ≠ []
  notDot : name ≠ dot
  notDotDot : name ≠ dotDot
  noSlash : slash ∉ name

instance (name : List UInt8) : Decidable (IsName name) :=
  decidable_of_iff (name ≠ [] ∧ name ≠ dot ∧ name ≠ dotDot ∧ slash ∉ name)
    ⟨fun ⟨a, b, c, d⟩ => ⟨a, b, c, d⟩, fun ⟨a, b, c, d⟩ => ⟨a, b, c, d⟩⟩

/-- Where a path leads by its spelling: from the root or the working directory so many levels
up, and then down along the names, the last one first. -/
structure Place where
  rooted : Bool
  ups : Nat
  names : List (List UInt8)
  top : rooted = true → ups = 0
  isName : ∀ name ∈ names, IsName name

namespace Place

@[ext] theorem ext {p q : Place} (rooted : p.rooted = q.rooted) (ups : p.ups = q.ups) (names : p.names = q.names) :
    p = q := by
  cases p
  cases q
  cases rooted
  cases ups
  cases names
  rfl

/-- The root, or the working directory. -/
def start (rooted : Bool) : Place := ⟨rooted, 0, [], fun _ => rfl, nofun⟩

def push (p : Place) (name : List UInt8) (isName : IsName name) : Place :=
  ⟨p.rooted, p.ups, name :: p.names, p.top, List.forall_mem_cons.mpr ⟨isName, p.isName⟩⟩

/-- One level up; the root is its own parent. -/
def parent (p : Place) : Place where
  rooted := p.rooted
  ups := if p.names = [] ∧ p.rooted = false then p.ups + 1 else p.ups
  names := p.names.tail
  top top := by rw [if_neg (by simp [top]), p.top top]
  isName name member := p.isName name (List.mem_of_mem_tail member)

def visit (p : Place) (element : List UInt8) : Place :=
  if isName : IsName element then p.push element isName
  else if element = dotDot then p.parent
  else p

/-- The elements of the shortest path there, the last one first. -/
def stack (p : Place) : List (List UInt8) := p.names ++ List.replicate p.ups dotDot

/-- The shortest path there. -/
def render (p : Place) : List UInt8 :=
  if p.rooted then slash :: [slash].intercalate p.stack.reverse
  else if p.stack = [] then dot
  else [slash].intercalate p.stack.reverse

/-- From a place on along a relative path that leads to `q`. -/
def follow (p q : Place) : Place where
  rooted := p.rooted
  ups := if p.rooted then 0 else p.ups + (q.ups - p.names.length)
  names := q.names ++ p.names.drop q.ups
  top top := if_pos top
  isName name member := (List.mem_append.mp member).elim (q.isName name) fun own =>
    p.isName name (List.mem_of_mem_drop own)

end Place

def place (name : List UInt8) : Place := (name.splitOn slash).foldl Place.visit (.start (rooted name))

/-- Where a name leads behind the slash of a directory: slashes at its start are ignored. -/
def relative (name : List UInt8) : Place := (name.splitOn slash).foldl Place.visit (.start false)

namespace Place

@[simp] theorem push_names (p : Place) (name : List UInt8) (isName : IsName name) :
    (p.push name isName).names = name :: p.names := rfl

@[simp] theorem push_ups (p : Place) (name : List UInt8) (isName : IsName name) : (p.push name isName).ups = p.ups := rfl

@[simp] theorem push_rooted (p : Place) (name : List UInt8) (isName : IsName name) :
    (p.push name isName).rooted = p.rooted := rfl

@[simp] theorem follow_names (p q : Place) : (p.follow q).names = q.names ++ p.names.drop q.ups := rfl

@[simp] theorem follow_ups (p q : Place) :
    (p.follow q).ups = if p.rooted then 0 else p.ups + (q.ups - p.names.length) := rfl

theorem visit_name {p : Place} {element : List UInt8} (isName : IsName element) :
    p.visit element = p.push element isName := dif_pos isName

theorem visit_dotDot (p : Place) : p.visit dotDot = p.parent := by
  rw [visit, dif_neg fun isName => isName.notDotDot rfl, if_pos rfl]

theorem visit_same {p : Place} {element : List UInt8} (same : element = [] ∨ element = dot) : p.visit element = p := by
  have noName : ¬ IsName element := fun isName => same.elim isName.nonempty isName.notDot
  rw [visit, dif_neg noName, if_neg]
  rintro rfl
  rcases same with same | same <;> cases same

@[simp] theorem visit_rooted (p : Place) (element : List UInt8) : (p.visit element).rooted = p.rooted := by
  unfold visit
  split
  · rfl
  · split <;> rfl

/-- What is kept of an element is what visiting it does to the stack. -/
theorem keepElement_stack (p : Place) {element : List UInt8} (noSlash : slash ∉ element) :
    keepElement p.rooted p.stack element = (p.visit element).stack := by
  unfold keepElement
  split
  · rename_i same
    rw [visit_same same]
  · rename_i other
    split
    · rename_i up
      rw [up, visit_dotDot]
      obtain ⟨rooted, ups, names, top, isName⟩ := p
      cases names with
      | cons last before =>
        have notUp : last ≠ dotDot := (isName last List.mem_cons_self).notDotDot
        simp [stack, parent, notUp]
      | nil =>
        cases rooted with
        | true => simp [stack, parent, top rfl]
        | false => cases ups <;> simp [stack, parent, List.replicate_succ]
    · rename_i notUp
      rw [not_or] at other
      rw [visit_name ⟨other.1, other.2, notUp, noSlash⟩]
      rfl

theorem foldl_visit_rooted (p : Place) (elements : List (List UInt8)) :
    (elements.foldl visit p).rooted = p.rooted := by
  induction elements generalizing p with
  | nil => rfl
  | cons element rest ih => rw [List.foldl_cons, ih, visit_rooted]

theorem foldl_keepElement (p : Place) {elements : List (List UInt8)} (noSlash : ∀ element ∈ elements, slash ∉ element) :
    elements.foldl (keepElement p.rooted) p.stack = (elements.foldl visit p).stack := by
  induction elements generalizing p with
  | nil => rfl
  | cons element rest ih =>
    obtain ⟨here, behind⟩ := List.forall_mem_cons.mp noSlash
    rw [List.foldl_cons, List.foldl_cons, keepElement_stack p here, ← visit_rooted p element, ih _ behind]

/-- Walking along a relative path is following where it leads. -/
theorem visit_follow (p : Place) {q : Place} (fromHere : q.rooted = false) (element : List UInt8) :
    (p.follow q).visit element = p.follow (q.visit element) := by
  by_cases isName : IsName element
  · rw [visit_name isName, visit_name isName]
    rfl
  · by_cases up : element = dotDot
    · rw [up, visit_dotDot, visit_dotDot]
      obtain ⟨rooted, ups, names, top, _⟩ := p
      obtain ⟨_, climbs, below, _, _⟩ := q
      cases fromHere
      cases below with
      | cons last before => ext1 <;> simp [parent, follow]
      | nil =>
        ext1
        · rfl
        · cases rooted with
          | true => simp [parent, follow]
          | false =>
            simp only [parent, follow, List.nil_append, List.drop_eq_nil_iff, and_true, Bool.false_eq_true, if_false,
              if_true]
            split <;> omega
        · simp [parent, follow]
    · rw [visit, dif_neg isName, if_neg up, visit, dif_neg isName, if_neg up]

theorem follow_start (p : Place) : p.follow (start false) = p := by
  ext1
  · rfl
  · cases top : p.rooted with
    | true => simp [follow, top, p.top top]
    | false => simp [follow, top, start]
  · rfl

theorem foldl_visit_follow (p : Place) {q : Place} (fromHere : q.rooted = false) (elements : List (List UInt8)) :
    elements.foldl visit (p.follow q) = p.follow (elements.foldl visit q) := by
  induction elements generalizing q with
  | nil => rfl
  | cons element rest ih => rw [List.foldl_cons, List.foldl_cons, visit_follow p fromHere, ih ((visit_rooted ..).trans fromHere)]

theorem mem_stack {p : Place} {element : List UInt8} (member : element ∈ p.stack) : element ≠ [] ∧ slash ∉ element := by
  rcases List.mem_append.mp member with name | up
  · exact ⟨(p.isName _ name).nonempty, (p.isName _ name).noSlash⟩
  · rw [List.eq_of_mem_replicate up]
    decide

/-- The elements of the shortest path lead back to the place. -/
theorem foldr_visit_stack (p : Place) : p.stack.foldr (fun element q => q.visit element) (start p.rooted) = p := by
  obtain ⟨rooted, ups, names, top, isName⟩ := p
  have climbed : (List.replicate ups dotDot).foldr (fun element q => q.visit element) (start rooted) =
      ⟨rooted, ups, [], top, nofun⟩ := by
    cases rooted with
    | true =>
      cases top rfl
      rfl
    | false =>
      induction ups with
      | zero => rfl
      | succ ups ih =>
        rw [List.replicate_succ, List.foldr_cons, ih nofun, visit_dotDot]
        rfl
  rw [stack, List.foldr_append, climbed]
  clear climbed
  induction names with
  | nil => rfl
  | cons name rest ih =>
    rw [List.foldr_cons, ih fun other member => isName other (List.mem_cons_of_mem _ member),
      visit_name (isName name List.mem_cons_self)]
    rfl

theorem foldl_visit_stack (p : Place) : p.stack.reverse.foldl visit (start p.rooted) = p := by
  rw [List.foldl_reverse, foldr_visit_stack]

end Place
open Place

theorem place_rooted (name : List UInt8) : (place name).rooted = rooted name := foldl_visit_rooted ..

theorem cleanElements_eq (name : List UInt8) : cleanElements name = (place name).stack.reverse :=
  congrArg List.reverse (foldl_keepElement (.start (rooted name)) (Strtok.not_mem_of_mem_splitOn slash name))

theorem clean_eq_render (name : List UInt8) : clean name = (place name).render := by
  rw [clean, render, place_rooted, cleanElements_eq]
  simp only [List.reverse_eq_nil_iff]

theorem splitOn_stack {p : Place} (some : p.stack ≠ []) :
    ([slash].intercalate p.stack.reverse).splitOn slash = p.stack.reverse :=
  List.splitOn_intercalate slash (fun _ member => (mem_stack (List.mem_reverse.mp member)).2)
    (mt List.reverse_eq_nil_iff.mp some)

/-- A relative path does not begin with a slash. -/
theorem not_rooted_of_stack {p : Place} (some : p.stack ≠ []) :
    rooted ([slash].intercalate p.stack.reverse) = false := by
  refine decide_eq_false fun starts => ?_
  obtain ⟨rest, text⟩ := List.head?_eq_some_iff.mp starts
  have split := splitOn_stack some
  rw [text, List.splitOn_cons_eq_if_modifyHead, if_pos (beq_self_eq_true slash)] at split
  have empty : [] ∈ p.stack.reverse := split ▸ List.mem_cons_self
  exact (mem_stack (List.mem_reverse.mp empty)).1 rfl

/-- The shortest path to a place leads there. -/
theorem place_render (p : Place) : place p.render = p := by
  unfold render
  split
  · rename_i top
    rw [place, rooted, List.head?_cons, decide_eq_true rfl, List.splitOn_cons_eq_if_modifyHead,
      if_pos (beq_self_eq_true slash), List.foldl_cons, visit_same (Or.inl rfl), ← top]
    by_cases some : p.stack = []
    · have same := foldl_visit_stack p
      rw [some] at same ⊢
      exact same
    · rw [splitOn_stack some, foldl_visit_stack]
  · rename_i top
    rw [Bool.not_eq_true] at top
    split
    · rename_i empty
      have same := foldl_visit_stack p
      rw [empty, top] at same
      exact same
    · rename_i some
      rw [place, not_rooted_of_stack some, splitOn_stack some, ← top, foldl_visit_stack]

theorem place_append {directory : List UInt8} (nonempty : directory ≠ []) (name : List UInt8) :
    place (directory ++ slash :: name) = (place directory).follow (relative name) := by
  have same : rooted (directory ++ slash :: name) = rooted directory := by
    rw [rooted, List.head?_append_of_ne_nil _ nonempty]
    rfl
  rw [place, same, List.splitOn_append_cons_self, List.foldl_append, ← place]
  calc (name.splitOn slash).foldl visit (place directory)
      = (name.splitOn slash).foldl visit ((place directory).follow (.start false)) := by rw [follow_start]
    _ = (place directory).follow (relative name) := foldl_visit_follow _ rfl _

/-- Joining is following, spelled as short as can be. -/
theorem join_eq_render {directory : List UInt8} (nonempty : directory ≠ []) (name : List UInt8) :
    join directory name = ((place directory).follow (relative name)).render := by
  rw [join, if_pos nonempty, clean_eq_render, place_append nonempty]

theorem place_join {directory : List UInt8} (nonempty : directory ≠ []) (name : List UInt8) :
    place (join directory name) = (place directory).follow (relative name) := by
  rw [join_eq_render nonempty, place_render]

/-- Following ends at an entry of the place exactly when the way goes up and back down the
same names, or not up at all, and then on to the entry. -/
theorem follow_eq_push_iff {p q : Place} {name : List UInt8} {isName : IsName name} :
    p.follow q = p.push name isName ↔
      q.names = name :: p.names.take q.ups ∧ (p.rooted = true ∨ q.ups ≤ p.names.length) := by
  have names : (p.follow q).names = (p.push name isName).names ↔ q.names = name :: p.names.take q.ups := by
    have whole : name :: p.names = (name :: p.names.take q.ups) ++ p.names.drop q.ups := by
      rw [List.cons_append, List.take_append_drop]
    rw [push_names, follow_names, whole]
    exact List.append_left_inj _
  have ups : (p.follow q).ups = (p.push name isName).ups ↔ p.rooted = true ∨ q.ups ≤ p.names.length := by
    rw [push_ups, follow_ups]
    cases top : p.rooted with
    | true => simp [p.top top]
    | false =>
      simp only [Bool.false_eq_true, if_false, false_or]
      omega
  constructor
  · intro same
    exact ⟨names.mp (congrArg Place.names same), ups.mp (congrArg Place.ups same)⟩
  · rintro ⟨own, level⟩
    exact Place.ext rfl (ups.mpr level) (names.mpr own)

/-- A name leads to the entry that it names. -/
theorem relative_isName {name : List UInt8} (isName : IsName name) : relative name = (start false).push name isName := by
  rw [relative, List.splitOn_eq_singleton isName.noSlash, List.foldl_cons, List.foldl_nil, visit_name isName]

end CleanPath
