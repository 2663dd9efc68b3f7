import Ogrt.Lib.CStringLiteral

/-! An initialiser of string literals: its tokens, and the elements of the array that it makes. -/

namespace CInitializer
open CStringLiteral

def quote : UInt8 := 0x22
def comma : UInt8 := 0x2C
def slash : UInt8 := 0x2F
def star : UInt8 := 0x2A
def space : UInt8 := 0x20

/-- A literal is kept by its spelling between the quotes. A comment counts as a space. -/
inductive Token
  | literal (body : List UInt8)
  | comma
  | blank (c : UInt8)
  deriving DecidableEq, Repr

inductive LexMode
  | top
  | slash
  | lineComment
  | blockComment
  | star
  | literal (body : List UInt8)
  | escaped (body : List UInt8)
  deriving DecidableEq, Repr

def isBlank (c : UInt8) : Bool := c = space ∨ c = 0x09 ∨ c = 0x0B ∨ c = 0x0C

/-- The tokens up to the end of the line. No result is a text that is not made of literals and
commas alone. -/
def lex : LexMode → List UInt8 → Option (List Token)
  | .top, [] => some []
  | .lineComment, [] => some [.blank space]
  | _, [] => none
  | .top, c :: rest =>
    if c = newline then some []
    else if c = quote then lex (.literal []) rest
    else if c = comma then (lex .top rest).map (.comma :: ·)
    else if isBlank c then (lex .top rest).map (.blank c :: ·)
    else if c = slash then lex .slash rest
    else none
  | .slash, c :: rest =>
    if c = star then lex .blockComment rest else if c = slash then lex .lineComment rest else none
  | .lineComment, c :: rest => if c = newline then some [.blank space] else lex .lineComment rest
  | .blockComment, c :: rest => if c = star then lex .star rest else lex .blockComment rest
  | .star, c :: rest =>
    if c = slash then (lex .top rest).map (.blank space :: ·)
    else if c = star then lex .star rest
    else lex .blockComment rest
  | .literal body, c :: rest =>
    if c = quote then (lex .top rest).map (.literal body :: ·)
    else if c = backslash then lex (.escaped body) rest
    else if c = newline then none
    else lex (.literal (body ++ [c])) rest
  | .escaped body, c :: rest => if c = newline then none else lex (.literal (body ++ [backslash, c])) rest

/-- Literals next to each other make one element; a comma may stand behind the last one. -/
def elements : Option (List UInt8) → List Token → Option (List (List UInt8))
  | none, [] => some []
  | some element, [] => some [element]
  | element, .blank _ :: rest => elements element rest
  | element, .literal body :: rest =>
    match decode body with
    | some text => elements (some (element.getD [] ++ text)) rest
    | none => none
  | some element, .comma :: rest => (elements none rest).map (element :: ·)
  | none, .comma :: _ => none

/-- The array that the compiler makes of a text up to the end of its line. -/
def translate (text : List UInt8) : Option (List (List UInt8)) :=
  match lex .top (spliceLines (replaceTrigraphs text)) with
  | some tokens => elements none tokens
  | none => none

def Token.spelling : Token → List UInt8
  | .literal body => quote :: (body ++ [quote])
  | .comma => [CInitializer.comma]
  | .blank c => [c]

def spell (tokens : List Token) : List UInt8 := tokens.flatMap Token.spelling

/-- The turns of the lexer that gets to the end. -/
inductive Lexed : LexMode → List UInt8 → List Token → Prop
  | done : Lexed .top [] []
  | endLine {rest} : Lexed .top (newline :: rest) []
  | quote {rest tokens} : Lexed (.literal []) rest tokens → Lexed .top (quote :: rest) tokens
  | comma {rest tokens} : Lexed .top rest tokens → Lexed .top (comma :: rest) (.comma :: tokens)
  | blank {c rest tokens} : isBlank c = true → Lexed .top rest tokens → Lexed .top (c :: rest) (.blank c :: tokens)
  | slash {rest tokens} : Lexed .slash rest tokens → Lexed .top (slash :: rest) tokens
  | openBlock {rest tokens} : Lexed .blockComment rest tokens → Lexed .slash (star :: rest) tokens
  | openLine {rest tokens} : Lexed .lineComment rest tokens → Lexed .slash (CInitializer.slash :: rest) tokens
  | lineDone : Lexed .lineComment [] [.blank space]
  | lineEnd {rest} : Lexed .lineComment (newline :: rest) [.blank space]
  | lineNext {c rest tokens} : Lexed .lineComment rest tokens → Lexed .lineComment (c :: rest) tokens
  | blockStar {rest tokens} : Lexed .star rest tokens → Lexed .blockComment (star :: rest) tokens
  | blockNext {c rest tokens} : Lexed .blockComment rest tokens → Lexed .blockComment (c :: rest) tokens
  | starSlash {rest tokens} : Lexed .top rest tokens →
      Lexed .star (CInitializer.slash :: rest) (.blank space :: tokens)
  | starStar {rest tokens} : Lexed .star rest tokens → Lexed .star (star :: rest) tokens
  | starNext {c rest tokens} : Lexed .blockComment rest tokens → Lexed .star (c :: rest) tokens
  | close {body rest tokens} : Lexed .top rest tokens →
      Lexed (.literal body) (CInitializer.quote :: rest) (.literal body :: tokens)
  | escape {body rest tokens} : Lexed (.escaped body) rest tokens → Lexed (.literal body) (backslash :: rest) tokens
  | character {body c rest tokens} : c ≠ CInitializer.quote → c ≠ newline →
      Lexed (.literal (body ++ [c])) rest tokens → Lexed (.literal body) (c :: rest) tokens
  | escaped {body c rest tokens} : c ≠ newline → Lexed (.literal (body ++ [backslash, c])) rest tokens →
      Lexed (.escaped body) (c :: rest) tokens

theorem lexed_of_lex {mode : LexMode} {text : List UInt8} {tokens : List Token} (lexed : lex mode text = some tokens) :
    Lexed mode text tokens := by
  induction text generalizing mode tokens with
  | nil =>
    cases mode with
    | top => cases lexed; exact .done
    | lineComment => cases lexed; exact .lineDone
    | _ => cases lexed
  | cons c rest ih =>
    cases mode with
    | top =>
      rw [lex] at lexed
      split at lexed
      · rename_i isNewline
        cases lexed
        exact isNewline ▸ .endLine
      · split at lexed
        · rename_i isQuote
          exact isQuote ▸ .quote (ih lexed)
        · split at lexed
          · rename_i isComma
            obtain ⟨later, behind, rfl⟩ := Option.map_eq_some_iff.mp lexed
            exact isComma ▸ .comma (ih behind)
          · split at lexed
            · rename_i blank
              obtain ⟨later, behind, rfl⟩ := Option.map_eq_some_iff.mp lexed
              exact .blank blank (ih behind)
            · split at lexed
              · rename_i isSlash
                exact isSlash ▸ .slash (ih lexed)
              · cases lexed
    | slash =>
      rw [lex] at lexed
      split at lexed
      · rename_i isStar
        exact isStar ▸ .openBlock (ih lexed)
      · split at lexed
        · rename_i isSlash
          exact isSlash ▸ .openLine (ih lexed)
        · cases lexed
    | lineComment =>
      rw [lex] at lexed
      split at lexed
      · rename_i isNewline
        cases lexed
        exact isNewline ▸ .lineEnd
      · exact .lineNext (ih lexed)
    | blockComment =>
      rw [lex] at lexed
      split at lexed
      · rename_i isStar
        exact isStar ▸ .blockStar (ih lexed)
      · exact .blockNext (ih lexed)
    | star =>
      rw [lex] at lexed
      split at lexed
      · rename_i isSlash
        obtain ⟨later, behind, rfl⟩ := Option.map_eq_some_iff.mp lexed
        exact isSlash ▸ .starSlash (ih behind)
      · split at lexed
        · rename_i isStar
          exact isStar ▸ .starStar (ih lexed)
        · exact .starNext (ih lexed)
    | literal body =>
      rw [lex] at lexed
      split at lexed
      · rename_i isQuote
        obtain ⟨later, behind, rfl⟩ := Option.map_eq_some_iff.mp lexed
        exact isQuote ▸ .close (ih behind)
      · rename_i notQuote
        split at lexed
        · rename_i isBackslash
          exact isBackslash ▸ .escape (ih lexed)
        · split at lexed
          · cases lexed
          · rename_i notNewline
            exact .character notQuote notNewline (ih lexed)
    | escaped body =>
      rw [lex] at lexed
      split at lexed
      · cases lexed
      · rename_i notNewline
        exact .escaped notNewline (ih lexed)

/-- What was read of a token that is not complete; of a comment only its first two characters. -/
def LexMode.pending : LexMode → List UInt8
  | .top => []
  | .slash => [CInitializer.slash]
  | .lineComment => [CInitializer.slash, CInitializer.slash]
  | .blockComment => [CInitializer.slash, CInitializer.star]
  | .star => [CInitializer.slash, CInitializer.star]
  | .literal body => quote :: body
  | .escaped body => quote :: (body ++ [backslash])

/-- The tokens are spelled by the text as a whole, or they need less than it. -/
def Covers (tokens : List Token) (text : List UInt8) : Prop :=
  (spell tokens).length < text.length ∨ spell tokens = text

theorem Covers.cons {token : Token} {tokens : List Token} {text : List UInt8} (covers : Covers tokens text) :
    Covers (token :: tokens) (token.spelling ++ text) := by
  rw [Covers, spell, List.flatMap_cons]
  rcases covers with less | same
  · left
    rw [List.length_append, List.length_append]
    exact Nat.add_lt_add_left less _
  · exact Or.inr (congrArg (token.spelling ++ ·) same)

theorem Covers.longer {tokens : List Token} {text longer : List UInt8} (covers : Covers tokens text)
    (more : text.length < longer.length) : Covers tokens longer := by
  rcases covers with less | rfl
  · exact Or.inl (Nat.lt_trans less more)
  · exact Or.inl more

theorem Lexed.covers {mode : LexMode} {text : List UInt8} {tokens : List Token} (lexed : Lexed mode text tokens) :
    Covers tokens (mode.pending ++ text) := by
  induction lexed with
  | done => exact Or.inr rfl
  | endLine => exact Or.inl (Nat.succ_pos _)
  | quote _ ih => exact ih
  | comma _ ih => exact ih.cons
  | blank _ _ ih => exact ih.cons
  | slash _ ih => exact ih
  | openBlock _ ih => exact ih
  | openLine _ ih => exact ih
  | lineDone => exact Or.inl (Nat.lt_succ_self 1)
  | @lineEnd rest => exact Or.inl (by show 1 < rest.length + 1 + 1 + 1; omega)
  | lineNext _ ih => exact ih.longer (Nat.lt_succ_self _)
  | blockStar _ ih => exact ih.longer (Nat.lt_succ_self _)
  | blockNext _ ih => exact ih.longer (Nat.lt_succ_self _)
  | @starSlash rest _ _ ih => exact ih.cons.longer (by show rest.length + 1 < rest.length + 1 + 1 + 1; omega)
  | starStar _ ih => exact ih.longer (Nat.lt_succ_self _)
  | starNext _ ih => exact ih.longer (Nat.lt_succ_self _)
  | @close body rest tokens _ ih =>
    have covers := @Covers.cons (.literal body) _ _ ih
    simpa only [Token.spelling, LexMode.pending, List.cons_append, List.append_assoc, List.nil_append] using covers
  | escape _ ih => simpa only [LexMode.pending, List.cons_append, List.append_assoc, List.nil_append] using ih
  | character _ _ _ ih => simpa only [LexMode.pending, List.cons_append, List.append_assoc, List.nil_append] using ih
  | escaped _ _ ih => simpa only [LexMode.pending, List.cons_append, List.append_assoc, List.nil_append] using ih

def Token.body : Token → List UInt8
  | .literal body => body
  | _ => []

def Token.isLiteral : Token → Bool
  | .literal _ => true
  | _ => false

def Token.isComma : Token → Bool
  | .comma => true
  | _ => false

def Token.isBlank : Token → Bool
  | .blank _ => true
  | _ => false

/-- The spellings between the quotes, one behind the other. -/
def bodies (tokens : List Token) : List UInt8 := tokens.flatMap Token.body

theorem spell_length (tokens : List Token) : (spell tokens).length =
    (bodies tokens).length + 2 * tokens.countP Token.isLiteral + tokens.countP Token.isComma + tokens.countP Token.isBlank := by
  induction tokens with
  | nil => rfl
  | cons token rest ih =>
    rw [spell] at ih ⊢
    rw [List.flatMap_cons, List.length_append, ih, bodies, bodies, List.flatMap_cons, List.length_append,
      List.countP_cons, List.countP_cons, List.countP_cons]
    cases token with
    | literal body =>
      simp only [Token.spelling, Token.body, Token.isLiteral, Token.isComma, Token.isBlank, List.length_cons,
        List.length_append, List.length_nil, if_true, Bool.false_eq_true, if_false]
      omega
    | comma =>
      simp only [Token.spelling, Token.body, Token.isLiteral, Token.isComma, Token.isBlank, List.length_cons,
        List.length_nil, if_true, Bool.false_eq_true, if_false]
      omega
    | blank c =>
      simp only [Token.spelling, Token.body, Token.isLiteral, Token.isComma, Token.isBlank, List.length_cons,
        List.length_nil, if_true, Bool.false_eq_true, if_false]
      omega

/-- A quote stands in a literal only behind a backslash, and a newline nowhere. -/
def Token.Clean : Token → Prop
  | .literal body => (backslash ∉ body → quote ∉ body) ∧ newline ∉ body
  | .comma => True
  | .blank c => CInitializer.isBlank c = true

/-- What was read of a literal. -/
def LexMode.Clean : LexMode → Prop
  | .literal body => (backslash ∉ body → quote ∉ body) ∧ newline ∉ body
  | .escaped body => newline ∉ body
  | _ => True

theorem Lexed.clean {mode : LexMode} {text : List UInt8} {tokens : List Token} (lexed : Lexed mode text tokens)
    (clean : mode.Clean) : ∀ token ∈ tokens, token.Clean := by
  induction lexed with
  | done => exact fun _ member => absurd member List.not_mem_nil
  | endLine => exact fun _ member => absurd member List.not_mem_nil
  | quote _ ih => exact ih ⟨fun _ => List.not_mem_nil, List.not_mem_nil⟩
  | comma _ ih => exact List.forall_mem_cons.mpr ⟨trivial, ih trivial⟩
  | blank blank _ ih => exact List.forall_mem_cons.mpr ⟨blank, ih trivial⟩
  | lineDone => exact fun token member => List.mem_singleton.mp member ▸ rfl
  | lineEnd => exact fun token member => List.mem_singleton.mp member ▸ rfl
  | starSlash _ ih => exact List.forall_mem_cons.mpr ⟨rfl, ih trivial⟩
  | close _ ih => exact List.forall_mem_cons.mpr ⟨clean, ih trivial⟩
  | escape _ ih => exact ih clean.2
  | character notQuote notNewline _ ih =>
    refine ih ⟨fun plain => ?_, ?_⟩
    · rw [List.mem_append, List.mem_singleton, not_or] at plain ⊢
      exact ⟨clean.1 plain.1, Ne.symm notQuote⟩
    · rw [List.mem_append, List.mem_singleton, not_or]
      exact ⟨clean.2, Ne.symm notNewline⟩
  | escaped notNewline _ ih =>
    refine ih ⟨fun plain => ?_, ?_⟩
    · exact absurd (List.mem_append_right _ (List.mem_cons_self ..)) plain
    · rw [List.mem_append, List.mem_pair, not_or, not_or]
      exact ⟨clean, by decide, Ne.symm notNewline⟩
  | _ => rename_i ih; exact ih trivial

/-- Each comma has a space behind it. -/
def CommaSpaced : List UInt8 → Prop
  | [] => True
  | c :: rest => (c = comma → rest.head? = some space) ∧ CommaSpaced rest

/-- Where each comma of the text has a space behind it there are as many blanks as commas. -/
theorem Lexed.blanks {mode : LexMode} {text : List UInt8} {tokens : List Token} (lexed : Lexed mode text tokens)
    (spaced : CommaSpaced text) : tokens.countP Token.isComma ≤ tokens.countP Token.isBlank ∧
      (mode = .top → text.head? = some space → tokens.countP Token.isComma + 1 ≤ tokens.countP Token.isBlank) := by
  have starts {c d : UInt8} {rest : List UInt8} (head : (c :: rest).head? = some d) : c = d := Option.some.inj head
  induction lexed with
  | done => exact ⟨Nat.le_refl 0, fun _ => nofun⟩
  | endLine => exact ⟨Nat.le_refl 0, fun _ head => absurd (starts head) (by decide)⟩
  | quote _ ih => exact ⟨(ih spaced.2).1, fun _ head => absurd (starts head) (by decide)⟩
  | comma _ ih =>
    have more := (ih spaced.2).2 rfl (spaced.1 rfl)
    refine ⟨?_, fun _ head => absurd (starts head) (by decide)⟩
    rw [List.countP_cons_of_pos rfl, List.countP_cons_of_neg (by decide)]
    exact more
  | @blank c _ _ _ _ ih =>
    have few := (ih spaced.2).1
    rw [List.countP_cons_of_neg (show ¬ Token.isComma (.blank c) = true from Bool.false_ne_true),
      List.countP_cons_of_pos (show Token.isBlank (.blank c) = true from rfl)]
    exact ⟨Nat.le_trans few (Nat.le_succ _), fun _ _ => Nat.succ_le_succ few⟩
  | slash _ ih => exact ⟨(ih spaced.2).1, fun _ head => absurd (starts head) (by decide)⟩
  | starSlash _ ih =>
    rw [List.countP_cons_of_neg (by decide), List.countP_cons_of_pos rfl]
    exact ⟨Nat.le_trans (ih spaced.2).1 (Nat.le_succ _), nofun⟩
  | @close body _ _ _ ih =>
    rw [List.countP_cons_of_neg (show ¬ Token.isComma (.literal body) = true from Bool.false_ne_true),
      List.countP_cons_of_neg (show ¬ Token.isBlank (.literal body) = true from Bool.false_ne_true)]
    exact ⟨(ih spaced.2).1, nofun⟩
  | lineDone => exact ⟨Nat.zero_le 1, nofun⟩
  | lineEnd => exact ⟨Nat.zero_le 1, nofun⟩
  | _ => rename_i ih; exact ⟨(ih spaced.2).1, nofun⟩

def Token.NoBackslash : Token → Prop
  | .literal body => backslash ∉ body
  | _ => True

/-- The elements have no more characters than their literals are spelled with, and there are no
more of them than literals, and than commas and one. -/
theorem elements_bounds {element : Option (List UInt8)} {tokens : List Token} {made : List (List UInt8)}
    (built : elements element tokens = some made) :
    made.flatten.length ≤ (element.getD []).length + (bodies tokens).length ∧
      made.length ≤ tokens.countP Token.isLiteral + (if element.isSome then 1 else 0) ∧
      made.length ≤ tokens.countP Token.isComma + 1 ∧
      (made.flatten.length = (element.getD []).length + (bodies tokens).length →
        ∀ token ∈ tokens, token.NoBackslash) := by
  induction tokens generalizing element made with
  | nil =>
    cases element with
    | none =>
      cases built
      exact ⟨Nat.zero_le _, Nat.zero_le _, Nat.zero_le _, fun _ _ member => absurd member List.not_mem_nil⟩
    | some element =>
      cases built
      rw [List.flatten_singleton]
      exact ⟨Nat.le_refl _, Nat.le_refl _, Nat.le_refl _, fun _ _ member => absurd member List.not_mem_nil⟩
  | cons token rest ih =>
    have split : (bodies (token :: rest)).length = token.body.length + (bodies rest).length := by
      rw [bodies, List.flatMap_cons, List.length_append]
      rfl
    rw [split, List.countP_cons, List.countP_cons, List.forall_mem_cons]
    cases token with
    | blank c =>
      have same : elements element rest = some made := by
        rw [← built]
        cases element <;> rfl
      have ⟨few, literals, commas, plain⟩ := ih same
      simp only [Token.body, Token.isLiteral, Token.isComma, Bool.false_eq_true, if_false]
      refine ⟨by omega, literals, commas, fun total => ⟨trivial, plain (by omega)⟩⟩
    | literal spelled =>
      have step : elements element (.literal spelled :: rest) =
          match decode spelled with
          | some text => elements (some (element.getD [] ++ text)) rest
          | none => none := by
        cases element <;> rfl
      rw [step] at built
      cases decoded : decode spelled with
      | none =>
        rw [decoded] at built
        cases built
      | some text =>
        rw [decoded] at built
        have ⟨few, literals, commas, plain⟩ := ih built
        have short := decode_length decoded
        rw [Option.getD_some, List.length_append] at few plain
        rw [Option.isSome_some, if_pos rfl] at literals
        simp only [Token.body, Token.isLiteral, Token.isComma, Bool.false_eq_true, if_false, if_true]
        refine ⟨by omega, by omega, commas, fun total => ⟨?_, plain (by omega)⟩⟩
        exact noBackslash_of_decode_length decoded (by omega)
    | comma =>
      cases element with
      | none => cases built
      | some element =>
        obtain ⟨later, behind, rfl⟩ := Option.map_eq_some_iff.mp built
        have ⟨few, literals, commas, plain⟩ := ih behind
        rw [Option.getD_none, List.length_nil] at few plain
        rw [List.flatten_cons, List.length_append, List.length_cons]
        simp only [Token.body, Token.isLiteral, Token.isComma, Bool.false_eq_true, if_false, if_true,
          Option.getD_some, Option.isSome_some, Option.isSome_none] at *
        refine ⟨by omega, by omega, by omega, fun total => ⟨trivial, plain (by omega)⟩⟩

theorem trigraph_ne_comma {c r : UInt8} (replaced : trigraph c = some r) : r ≠ comma := by
  rintro rfl
  unfold trigraph at replaced
  repeat' split at replaced
  all_goals revert replaced; decide

theorem replaceTrigraphs_commaSpaced {text : List UInt8} (spaced : CommaSpaced text) :
    CommaSpaced (replaceTrigraphs text) ∧
      (text.head? = some space → (replaceTrigraphs text).head? = some space) := by
  induction text using replaceTrigraphs.induct with
  | case1 a b c rest both r replaced ih =>
    rw [replaceTrigraphs, if_pos both, replaced]
    refine ⟨⟨fun isComma => absurd isComma (trigraph_ne_comma replaced), (ih spaced.2.2.2).1⟩, fun head => ?_⟩
    rw [both.1] at head
    exact absurd (Option.some.inj head) (by decide)
  | case2 a b c rest both replaced ih =>
    rw [replaceTrigraphs, if_pos both, replaced]
    exact ⟨⟨fun isComma => (ih spaced.2).2 (spaced.1 isComma), (ih spaced.2).1⟩, fun head => head⟩
  | case3 a b c rest other ih =>
    rw [replaceTrigraphs, if_neg other]
    exact ⟨⟨fun isComma => (ih spaced.2).2 (spaced.1 isComma), (ih spaced.2).1⟩, fun head => head⟩
  | case4 text short =>
    rw [replaceTrigraphs_short short]
    exact ⟨spaced, fun head => head⟩

theorem spliceLines_commaSpaced {text : List UInt8} (spaced : CommaSpaced text) :
    CommaSpaced (spliceLines text) ∧ (text.head? = some space → (spliceLines text).head? = some space) := by
  induction text using spliceLines.induct with
  | case1 a b rest both ih =>
    rw [spliceLines, if_pos both]
    refine ⟨(ih spaced.2.2).1, fun head => ?_⟩
    rw [both.1] at head
    exact absurd (Option.some.inj head) (by decide)
  | case2 a b rest other ih =>
    rw [spliceLines, if_neg other]
    exact ⟨⟨fun isComma => (ih spaced.2).2 (spaced.1 isComma), (ih spaced.2).1⟩, fun head => head⟩
  | case3 text short =>
    rw [spliceLines_short short]
    exact ⟨spaced, fun head => head⟩

theorem spelling_plain {token : Token} (clean : token.Clean) (plain : token.NoBackslash) :
    backslash ∉ token.spelling ∧ newline ∉ token.spelling ∧
      token.spelling.count quote = if token.isLiteral then 2 else 0 := by
  cases token with
  | literal body =>
    have quotes := List.count_eq_zero.mpr (clean.1 plain)
    simp only [Token.spelling, List.mem_cons, List.mem_append, not_or, List.count_cons_self,
      List.count_append, List.count_nil, quotes, Token.isLiteral, if_true]
    exact ⟨⟨by decide, plain, by decide⟩, ⟨by decide, clean.2, by decide⟩, trivial⟩
  | comma => decide
  | blank c =>
    have apart : ∀ d, isBlank d = false → d ∉ Token.spelling (.blank c) := by
      intro d black member
      rw [Token.spelling, List.mem_singleton] at member
      have white : isBlank c = true := clean
      rw [← member, black] at white
      cases white
    exact ⟨apart _ (by decide), apart _ (by decide), List.count_eq_zero.mpr (apart _ (by decide))⟩

theorem spell_plain {tokens : List Token} (clean : ∀ token ∈ tokens, token.Clean)
    (plain : ∀ token ∈ tokens, token.NoBackslash) : backslash ∉ spell tokens ∧ newline ∉ spell tokens ∧
      (spell tokens).count quote = 2 * tokens.countP Token.isLiteral := by
  induction tokens with
  | nil => exact ⟨List.not_mem_nil, List.not_mem_nil, rfl⟩
  | cons token rest ih =>
    rw [List.forall_mem_cons] at clean plain
    have ⟨noBackslash, noNewline, quotes⟩ := spelling_plain clean.1 plain.1
    have ⟨noneBehind, lineBehind, quotesBehind⟩ := ih clean.2 plain.2
    rw [spell] at noneBehind lineBehind quotesBehind ⊢
    rw [List.flatMap_cons, List.mem_append, List.mem_append, not_or, not_or, List.count_append, quotes, quotesBehind,
      List.countP_cons]
    refine ⟨⟨noBackslash, noneBehind⟩, ⟨noNewline, lineBehind⟩, ?_⟩
    split <;> omega

/-- A text of commas with a space behind each that is no longer than its elements need hides
nothing: no trigraph, no escape sequence, no end of the line, and two quotes an element. -/
theorem translate_tight {text : List UInt8} {made : List (List UInt8)} (spaced : CommaSpaced text)
    (translated : translate text = some made) (tight : text.length + 2 = made.flatten.length + 4 * made.length) :
    NoTrigraph text ∧ backslash ∉ text ∧ newline ∉ text ∧ text.count quote = 2 * made.length := by
  rw [translate] at translated
  split at translated
  · rename_i tokens lexed
    have turns := lexed_of_lex lexed
    have spacedPhases := (spliceLines_commaSpaced (replaceTrigraphs_commaSpaced spaced).1).1
    have ⟨characters, literals, commas, plain⟩ := elements_bounds translated
    have ⟨blanks, _⟩ := turns.blanks spacedPhases
    have spelled := spell_length tokens
    have ⟨first, noTrigraph⟩ := replaceTrigraphs_length text
    have ⟨second, spliced⟩ := spliceLines_length (replaceTrigraphs text)
    rw [Option.getD_none, List.length_nil] at characters plain
    rw [if_neg (by decide)] at literals
    have covers : Covers tokens (spliceLines (replaceTrigraphs text)) := turns.covers
    have needed : text.length ≤ (spell tokens).length := by omega
    rcases covers with less | same
    · omega
    · have whole := congrArg List.length same
      have none := noTrigraph (by omega)
      rw [spliced (by omega), replaceTrigraphs_eq none] at same
      have clean := turns.clean trivial
      have result := spell_plain clean (plain (by omega))
      rw [same] at result
      refine ⟨none, result.1, result.2.1, ?_⟩
      have all : tokens.countP Token.isLiteral = made.length := by omega
      rw [result.2.2, all]
  · cases translated

end CInitializer
