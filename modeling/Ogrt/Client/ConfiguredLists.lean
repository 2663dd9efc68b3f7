import Mathlib.Data.List.Dedup
import Ogrt.Client.InitHook
import Ogrt.Lib.CLiteralList
import Ogrt.Lib.Strtok

/-! The lists of the configure step, and the arrays that the client is compiled with. -/

namespace Ogrt
open CInitializer CStringLiteral

inductive MacroName
  | ogrtMsgSendEnvironmentWhitelist
  | ogrtMsgSendEnvironmentWhitelistLength
  | ogrtFilterRegexps
  | ogrtFilterRegexpsList
  | ogrtFilterRegexpsListLength
  deriving DecidableEq, Repr

/-- conf.define with quote=False writes a text as it is. -/
inductive MacroValue
  | text (t : GoString)
  | number (n : Nat)
  deriving DecidableEq, Repr

inductive ListOption
  | msgEnvironmentWhitelist
  | filterRegexps
  deriving DecidableEq, Repr

/-- A set is iterated in an order of its own. -/
def SetOrder (pieces order : List GoString) : Prop := order.Perm pieces.dedup

instance (pieces order : List GoString) : Decidable (SetOrder pieces order) :=
  inferInstanceAs (Decidable (order.Perm pieces.dedup))

/-- ', '.join("\"%s\"" % str(e) for e in the set if e) -/
def joinPieces (order : List GoString) : GoString := literalList (order.filter (· ≠ []))

def joinedLength (joined : GoString) : Nat := if joined = [] then 0 else (joined.splitOn comma).length

def defineList (list length : MacroName) (order : List GoString) : List (MacroName × MacroValue) :=
  if joinedLength (joinPieces order) > 0 then
    [(list, .text (joinPieces order)), (length, .number (joinedLength (joinPieces order)))]
  else []

def configureWhitelist (order : List GoString) : List (MacroName × MacroValue) :=
  defineList .ogrtMsgSendEnvironmentWhitelist .ogrtMsgSendEnvironmentWhitelistLength order

def configureFilterRegexps (order : List GoString) : List (MacroName × MacroValue) :=
  (.ogrtFilterRegexps, .number (if joinedLength (joinPieces order) > 0 then 1 else 0)) ::
    defineList .ogrtFilterRegexpsList .ogrtFilterRegexpsListLength order

def ListOption.configure : ListOption → List GoString → List (MacroName × MacroValue)
  | .msgEnvironmentWhitelist => configureWhitelist
  | .filterRegexps => configureFilterRegexps

def ListOption.listMacro : ListOption → MacroName
  | .msgEnvironmentWhitelist => .ogrtMsgSendEnvironmentWhitelist
  | .filterRegexps => .ogrtFilterRegexpsList

def ListOption.lengthMacro : ListOption → MacroName
  | .msgEnvironmentWhitelist => .ogrtMsgSendEnvironmentWhitelistLength
  | .filterRegexps => .ogrtFilterRegexpsListLength

/-- char *whitelist[] and char *regexps[], between the braces the list macro. -/
def compiledArray (option : ListOption) (defines : List (MacroName × MacroValue)) : Option (List GoString) :=
  match defines.lookup option.listMacro with
  | some (.text t) => translate t
  | _ => none

def compiledLength (option : ListOption) (defines : List (MacroName × MacroValue)) : Option Nat :=
  match defines.lookup option.lengthMacro with
  | some (.number n) => some n
  | _ => none

/-- The entries that a loop reads in this many turns from i on. -/
def visitEntries (array : List GoString) : Nat → Nat → Except Failure (List GoString)
  | _, 0 => .ok []
  | i, turns + 1 =>
    match array[i]? with
    | some entry => (visitEntries array (i + 1) turns).map (entry :: ·)
    | none => .error .outsideBuffer

/-- The distinct pieces of an option value that are not empty. -/
def optionPieces (value : GoString) : List GoString := (value.splitOn comma).dedup.filter (· ≠ [])

/-- The array has an element for each piece, and the loop over the length visits them all. -/
structure ArrayIntact (option : ListOption) (defines : List (MacroName × MacroValue)) (pieces array : List GoString) :
    Prop where
  compiled : compiledArray option defines = some array
  length : compiledLength option defines = some array.length
  visited : visitEntries array 0 array.length = .ok array
  pieces : array.Perm pieces

def ListIntact (option : ListOption) (value : GoString) (defines : List (MacroName × MacroValue)) : Prop :=
  if optionPieces value = [] then defines.lookup option.lengthMacro = none
  else ∃ array, ArrayIntact option defines (optionPieces value) array

theorem visitEntries_drop {array : List GoString} {i turns : Nat} (all : i + turns = array.length) :
    visitEntries array i turns = .ok (array.drop i) := by
  induction turns generalizing i with
  | zero =>
    rw [visitEntries, List.drop_eq_nil_of_le (by omega)]
  | succ turns ih =>
    have inside : i < array.length := by omega
    rw [visitEntries, List.getElem?_eq_getElem inside, List.drop_eq_getElem_cons inside]
    dsimp only
    rw [ih (by omega)]
    rfl

theorem plain_empty : Plain [] :=
  ⟨List.not_mem_nil, List.not_mem_nil, List.not_mem_nil, noTrigraph_short (show 0 < 3 by omega)⟩

theorem mem_optionPieces {value piece : GoString} :
    piece ∈ optionPieces value ↔ piece ∈ value.splitOn comma ∧ piece ≠ [] := by
  rw [optionPieces, List.mem_filter, List.mem_dedup, decide_eq_true_eq]

theorem plain_pieces_iff {value : GoString} :
    (∀ piece ∈ value.splitOn comma, Plain piece) ↔ ∀ piece ∈ optionPieces value, Plain piece := by
  constructor
  · intro plain piece member
    exact plain piece (mem_optionPieces.mp member).1
  · intro plain piece member
    by_cases empty : piece = []
    · exact empty ▸ plain_empty
    · exact plain piece (mem_optionPieces.mpr ⟨member, empty⟩)

theorem joinedLength_literalList {pieces : List GoString} (filled : pieces ≠ [])
    (noComma : ∀ piece ∈ pieces, comma ∉ piece) : joinedLength (literalList pieces) = pieces.length := by
  have size := literalList_length filled
  have one := List.length_pos_iff.mpr filled
  have text : literalList pieces ≠ [] := by
    intro empty
    rw [empty, List.length_nil] at size
    omega
  rw [joinedLength, if_neg text, literalList_splitOn_length filled noComma]

/-- Both macros of a list are there when a piece is, and neither otherwise. -/
theorem lookup_configure (option : ListOption) (order : List GoString) :
    (joinedLength (joinPieces order) > 0 →
      (option.configure order).lookup option.listMacro = some (.text (joinPieces order)) ∧
      (option.configure order).lookup option.lengthMacro = some (.number (joinedLength (joinPieces order)))) ∧
    (¬ joinedLength (joinPieces order) > 0 → (option.configure order).lookup option.lengthMacro = none) := by
  constructor
  · intro filled
    cases option with
    | msgEnvironmentWhitelist =>
      rw [ListOption.configure, configureWhitelist, defineList, if_pos filled]
      exact ⟨rfl, rfl⟩
    | filterRegexps =>
      rw [ListOption.configure, configureFilterRegexps, defineList, if_pos filled, if_pos filled]
      exact ⟨rfl, rfl⟩
  · intro empty
    cases option with
    | msgEnvironmentWhitelist =>
      rw [ListOption.configure, configureWhitelist, defineList, if_neg empty]
      rfl
    | filterRegexps =>
      rw [ListOption.configure, configureFilterRegexps, defineList, if_neg empty, if_neg empty]
      rfl

/-- Where there is a piece, the list is intact exactly when the compiler reads the pieces back. -/
theorem arrayIntact_iff (option : ListOption) {order pieces array : List GoString} (filled : order.filter (· ≠ []) ≠ [])
    (noComma : ∀ piece ∈ order.filter (· ≠ []), comma ∉ piece) (same : (order.filter (· ≠ [])).Perm pieces) :
    ArrayIntact option (option.configure order) pieces array ↔
      translate (joinPieces order) = some array ∧ array.Perm pieces := by
  have length : joinedLength (joinPieces order) = (order.filter (· ≠ [])).length :=
    joinedLength_literalList filled noComma
  have emitted := (lookup_configure option order).1 (by rw [length]; exact List.length_pos_iff.mpr filled)
  have compiled : compiledArray option (option.configure order) = translate (joinPieces order) := by
    rw [compiledArray, emitted.1]
  have counted : compiledLength option (option.configure order) = some pieces.length := by
    rw [compiledLength, emitted.2]
    exact congrArg some (length.trans same.length_eq)
  constructor
  · rintro ⟨read, _, _, order⟩
    exact ⟨compiled.symm.trans read, order⟩
  · rintro ⟨read, order⟩
    refine ⟨compiled.trans read, ?_, visitEntries_drop (Nat.zero_add _), order⟩
    rw [counted, order.length_eq]

end Ogrt
