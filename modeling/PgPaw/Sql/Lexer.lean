/-
# PostgreSQL's lexer

The lexical structure of PostgreSQL's SQL, as a transducer over characters: identifiers and
keywords, quoted identifiers, the five kinds of string and their continuation over a line end,
dollar quoting, numbers, parameters, operators, comments.  Each mode is what the lexer has read
of an open lexeme.

A lexeme is a kind and a text, and a token is a function of the two.  PostgreSQL refuses some
lexemes when it reads their text (a number with letters after it, an unknown escape); they are
lexemes here.  A text with an open string, quoted identifier or block comment has no lexemes.

Three rules look at more than one character.  A string goes on after a gap with a line end in it.
An operator ends where a comment starts in it, and a `+` or `-` at its end is one of its own
unless the operator has a character that no operator of standard SQL has.  A `$` that starts no
dollar quote is a lexeme of its own.
-/
import PgPaw.Lib.Transducer
import Mathlib.Data.List.DropRight

namespace PgPaw.Sql.Lexer

/-! ## 1. Characters -/

/-- What the lexer tells apart. -/
inductive CharClass
  | space (newline : Bool)
  /-- `ident_start`: a letter, `_`, or anything outside ASCII. -/
  | letter
  | digit
  | dollar
  | quote
  | doubleQuote
  | dot
  | colon
  | operator
  | other
  deriving DecidableEq

/-- The class of a character. -/
def charClass (c : Char) : CharClass :=
  if c = '\n' ∨ c = '\r' then .space true
  else if c = ' ' ∨ c = '\t' ∨ c.toNat = 0xB ∨ c.toNat = 0xC then .space false
  else if c.isAlpha ∨ c = '_' ∨ 0x80 ≤ c.toNat then .letter
  else if c.isDigit then .digit
  else if c = '$' then .dollar
  else if c = '\'' then .quote
  else if c = '"' then .doubleQuote
  else if c = '.' then .dot
  else if c = ':' then .colon
  else if ['~', '!', '@', '#', '^', '&', '|', '`', '?', '+', '-', '*', '/', '%', '<', '>',
    '='].contains c then .operator
  else .other

/-! ## 2. Lexemes -/

/-- The kinds of string constant. -/
inductive StringStyle
  | standard
  | escape
  | bit
  | hex
  | unicode
  deriving DecidableEq, Repr

/-- The kinds of lexeme. -/
inductive LexKind
  /-- An identifier or a keyword. -/
  | word
  /-- The `N` of a national character string. -/
  | nchar
  /-- An identifier in double quotes, `U&` before them or not. -/
  | delimited (unicode : Bool)
  | string (style : StringStyle)
  | dollarString
  | number
  | param
  | operator
  | punct
  deriving DecidableEq, Repr

/-- A lexeme. -/
structure Lexeme where
  kind : LexKind
  text : List Char
  deriving DecidableEq, Repr

/-- The semicolon. -/
def semicolon : Lexeme := ⟨.punct, [';']⟩

/-- The operator characters that no operator of standard SQL has. -/
def notStandard (c : Char) : Bool := ['~', '!', '@', '#', '^', '&', '|', '`', '?', '%'].contains c

/-- The lexemes of a run of operator characters. -/
def operatorLexemes : List Char → List Lexeme
  | [] => []
  | c :: cs =>
    if (c :: cs).any notStandard then [⟨.operator, c :: cs⟩]
    else
      let kept := cs.rdropWhile fun c => c == '+' || c == '-'
      ⟨.operator, c :: kept⟩ :: (cs.drop kept.length).map fun sign => ⟨.operator, [sign]⟩

/-! ## 3. Modes -/

/-- What the lexer has read of an open lexeme. -/
inductive Mode
  | between
  | word (text : List Char)
  /-- `U&`, which a quote of either kind may follow. -/
  | unicodeMark (u : List Char)
  | number (text : List Char)
  /-- An integer and a dot. -/
  | numberDot (digits : List Char)
  | param (digits : List Char)
  /-- `$` and what may be the tag of a dollar quote. -/
  | dollar (tag : List Char)
  /-- In a dollar quote; `since` is what follows its last `$`. -/
  | dollarBody (tag text : List Char) (since : Option (List Char))
  | string (style : StringStyle) (text : List Char)
  /-- After a backslash in a string with escapes. -/
  | escape (text : List Char)
  /-- After a quote that ends a string, or is the first of two. -/
  | stringEnd (style : StringStyle) (text : List Char)
  /-- In the gap after a string. -/
  | stringGap (style : StringStyle) (text : List Char) (newline : Bool)
  | stringDash (style : StringStyle) (text : List Char)
  | stringComment (style : StringStyle) (text : List Char)
  | delimited (unicode : Bool) (text : List Char)
  | delimitedEnd (unicode : Bool) (text : List Char)
  | operator (text : List Char)
  | dot
  | colon
  | lineComment
  | blockComment (depth : Nat) (last : Option Char)
  deriving DecidableEq

/-- The lexemes the end of the text makes of what is open. -/
def finish : Mode → Option (List Lexeme)
  | .between | .lineComment => some []
  | .word text => some [⟨.word, text⟩]
  | .unicodeMark u => some [⟨.word, u⟩, ⟨.operator, ['&']⟩]
  | .number text => some [⟨.number, text⟩]
  | .numberDot digits => some [⟨.number, digits ++ ['.']⟩]
  | .param digits => some [⟨.param, digits⟩]
  | .dollar [] => some [⟨.punct, ['$']⟩]
  | .dollar tag => some [⟨.punct, ['$']⟩, ⟨.word, tag⟩]
  | .stringEnd style text | .stringGap style text _ | .stringComment style text =>
    some [⟨.string style, text⟩]
  | .stringDash style text => some [⟨.string style, text⟩, ⟨.operator, ['-']⟩]
  | .delimitedEnd unicode text => some [⟨.delimited unicode, text⟩]
  | .operator text => some (operatorLexemes text)
  | .dot => some [⟨.punct, ['.']⟩]
  | .colon => some [⟨.punct, [':']⟩]
  | .dollarBody .. | .string .. | .escape _ | .delimited .. | .blockComment .. => none

/-! ## 4. Steps -/

/-- What a step gives. -/
abbrev Step := Mode × List Lexeme

/-- Lexemes before those of a step. -/
def Step.after (lexemes : List Lexeme) (next : Step) : Step := (next.1, lexemes ++ next.2)

/-- A character where nothing is open. -/
def stepBetween (c : Char) : Step :=
  match charClass c with
  | .space _ => (.between, [])
  | .letter => (.word [c], [])
  | .digit => (.number [c], [])
  | .dollar => (.dollar [], [])
  | .quote => (.string .standard [], [])
  | .doubleQuote => (.delimited false [], [])
  | .dot => (.dot, [])
  | .colon => (.colon, [])
  | .operator => (.operator [c], [])
  | .other => (.between, [⟨.punct, [c]⟩])

/-- The open lexemes end before the character. -/
def endBefore (lexemes : List Lexeme) (c : Char) : Step := (stepBetween c).after lexemes

/-- A quote after a word: a prefix of a string, or a string of its own. -/
def stepQuote : List Char → Step
  | ['e'] | ['E'] => (.string .escape [], [])
  | ['b'] | ['B'] => (.string .bit [], [])
  | ['x'] | ['X'] => (.string .hex [], [])
  | ['n'] => (.string .standard [], [⟨.nchar, ['n']⟩])
  | ['N'] => (.string .standard [], [⟨.nchar, ['N']⟩])
  | text => (.string .standard [], [⟨.word, text⟩])

def stepWord (text : List Char) (c : Char) : Step :=
  match charClass c with
  | .letter | .digit | .dollar => (.word (text ++ [c]), [])
  | .quote => stepQuote text
  | .operator =>
    if c = '&' ∧ (text = ['u'] ∨ text = ['U']) then (.unicodeMark text, [])
    else endBefore [⟨.word, text⟩] c
  | _ => endBefore [⟨.word, text⟩] c

def stepOperator (text : List Char) (c : Char) : Step :=
  match charClass c with
  | .operator =>
    if text.getLast? = some '-' ∧ c = '-' then (.lineComment, operatorLexemes text.dropLast)
    else if text.getLast? = some '/' ∧ c = '*' then
      (.blockComment 1 none, operatorLexemes text.dropLast)
    else (.operator (text ++ [c]), [])
  | _ => endBefore (operatorLexemes text) c

/-- The exponent's letter has just been read. -/
def exponentOpen (text : List Char) : Bool :=
  (text.getLast? == some 'e' || text.getLast? == some 'E') &&
    text.dropLast.all fun c => c.isDigit || c == '_' || c == '.'

def stepNumber (text : List Char) (c : Char) : Step :=
  match charClass c with
  | .letter | .digit => (.number (text ++ [c]), [])
  | .dot =>
    if text.all fun c => c.isDigit || c == '_' then (.numberDot text, [])
    else endBefore [⟨.number, text⟩] c
  | .operator =>
    if (c = '+' ∨ c = '-') ∧ exponentOpen text then (.number (text ++ [c]), [])
    else endBefore [⟨.number, text⟩] c
  | _ => endBefore [⟨.number, text⟩] c

def stepDollar (tag : List Char) (c : Char) : Step :=
  match tag, charClass c with
  | tag, .letter => (.dollar (tag ++ [c]), [])
  | tag, .dollar => (.dollarBody tag [] none, [])
  | [], .digit => (.param [c], [])
  | [], _ => endBefore [⟨.punct, ['$']⟩] c
  | tag, .digit => (.dollar (tag ++ [c]), [])
  -- no dollar quote: the `$` is a lexeme, and the tag is the word after it
  | tag, _ => (stepWord tag c).after [⟨.punct, ['$']⟩]

def stepDollarBody (tag text : List Char) (since : Option (List Char)) (c : Char) : Step :=
  if c = '$' then
    if since = some tag then
      (.between, [⟨.dollarString, text.take (text.length - (tag.length + 1))⟩])
    else (.dollarBody tag (text ++ [c]) (some []), [])
  else (.dollarBody tag (text ++ [c]) (since.map (· ++ [c])), [])

/-- After a string, once the next character is not a second quote. -/
def stepGap (style : StringStyle) (text : List Char) (newline : Bool) (c : Char) : Step :=
  match charClass c with
  | .space newline' => (.stringGap style text (newline || newline'), [])
  | .quote => if newline then (.string style text, []) else endBefore [⟨.string style, text⟩] c
  | .operator =>
    if c = '-' then (.stringDash style text, []) else endBefore [⟨.string style, text⟩] c
  | _ => endBefore [⟨.string style, text⟩] c

def stepStringEnd (style : StringStyle) (text : List Char) (c : Char) : Step :=
  -- two quotes are one, except in a string of bits
  if c = '\'' ∧ style ≠ .bit ∧ style ≠ .hex then (.string style (text ++ [c]), [])
  else stepGap style text false c

def stepBlockComment (depth : Nat) (last : Option Char) (c : Char) : Step :=
  if last = some '/' ∧ c = '*' then (.blockComment (depth + 1) none, [])
  else if last = some '*' ∧ c = '/' then
    if depth ≤ 1 then (.between, []) else (.blockComment (depth - 1) none, [])
  else (.blockComment depth (some c), [])

/-- A character. -/
def step : Mode → Char → Step
  | .between, c => stepBetween c
  | .word text, c => stepWord text c
  | .unicodeMark u, c =>
    if c = '\'' then (.string .unicode [], [])
    else if c = '"' then (.delimited true [], [])
    else (stepOperator ['&'] c).after [⟨.word, u⟩]
  | .number text, c => stepNumber text c
  | .numberDot digits, c => match charClass c with
    -- `1..2` is an integer, two dots and an integer
    | .dot => (.between, [⟨.number, digits⟩, ⟨.punct, ['.', '.']⟩])
    | .letter | .digit => (.number (digits ++ ['.', c]), [])
    | _ => endBefore [⟨.number, digits ++ ['.']⟩] c
  | .param digits, c => match charClass c with
    | .letter | .digit => (.param (digits ++ [c]), [])
    | _ => endBefore [⟨.param, digits⟩] c
  | .dollar tag, c => stepDollar tag c
  | .dollarBody tag text since, c => stepDollarBody tag text since c
  | .string style text, c =>
    if c = '\'' then (.stringEnd style text, [])
    else if style = .escape ∧ c = '\\' then (.escape text, [])
    else (.string style (text ++ [c]), [])
  | .escape text, c => (.string .escape (text ++ ['\\', c]), [])
  | .stringEnd style text, c => stepStringEnd style text c
  | .stringGap style text newline, c => stepGap style text newline c
  | .stringDash style text, c =>
    if c = '-' then (.stringComment style text, [])
    else (stepOperator ['-'] c).after [⟨.string style, text⟩]
  | .stringComment style text, c =>
    if charClass c = .space true then (.stringGap style text true, [])
    else (.stringComment style text, [])
  | .delimited unicode text, c =>
    if c = '"' then (.delimitedEnd unicode text, []) else (.delimited unicode (text ++ [c]), [])
  | .delimitedEnd unicode text, c =>
    if c = '"' then (.delimited unicode (text ++ [c]), [])
    else endBefore [⟨.delimited unicode, text⟩] c
  | .operator text, c => stepOperator text c
  | .dot, c => match charClass c with
    | .dot => (.between, [⟨.punct, ['.', '.']⟩])
    | .digit => (.number ['.', c], [])
    | _ => endBefore [⟨.punct, ['.']⟩] c
  | .colon, c =>
    if c = ':' then (.between, [⟨.punct, [':', ':']⟩])
    else if c = '=' then (.between, [⟨.punct, [':', '=']⟩])
    else endBefore [⟨.punct, [':']⟩] c
  | .lineComment, c => if charClass c = .space true then (.between, []) else (.lineComment, [])
  | .blockComment depth last, c => stepBlockComment depth last c

/-- In a comment that the end of the line ends. -/
def isComment : Mode → Bool
  | .lineComment | .stringComment .. => true
  | _ => false

end Lexer

/-- The lexer. -/
def lexer : Transducer Lexer.Mode Char Lexer.Lexeme where
  start := .between
  step := Lexer.step
  finish := Lexer.finish

/-- The lexemes of a text, if it has any. -/
def lex (sql : String) : Option (List Lexer.Lexeme) := lexer.output sql.toList

-- a comment in the gap between two parts of a string; the sign at the end of an operator; tags
example : (lex "x <=-1 'a' -- c\n 'b' $t$ $$ $t$;").map (List.map Lexer.Lexeme.text) =
    some [['x'], ['<', '='], ['-'], ['1'], ['a', 'b'], [' ', '$', '$', ' '], [';']] := by
  decide +kernel

namespace Lexer

/-! ## 5. What a step does to the open lexemes -/

/-- White space, letters and the characters of no other class. -/
def CharClass.isPlain : CharClass → Bool
  | .space _ | .letter | .other => true
  | _ => false

/-- No mode asks for one of these by itself. -/
theorem plain_ne {c : Char} (h : (charClass c).isPlain = true) :
    c ≠ '\'' ∧ c ≠ '"' ∧ c ≠ '-' ∧ c ≠ ':' ∧ c ≠ '=' := by
  have hne (d : Char) (hd : (charClass d).isPlain = false) : c ≠ d := by
    rintro rfl
    rw [h] at hd
    cases hd
  exact ⟨hne _ (by decide), hne _ (by decide), hne _ (by decide), hne _ (by decide),
    hne _ (by decide)⟩

theorem stepOperator_of_plain {c : Char} (h : (charClass c).isPlain = true) (text : List Char) :
    stepOperator text c = endBefore (operatorLexemes text) c := by
  unfold stepOperator
  cases hclass : charClass c with
  | operator =>
    rw [hclass] at h
    cases h
  | _ => rfl

section Steps

variable {m : Mode} {c : Char} {f : List Lexeme}

/-- Before white space and the characters of no other class every lexeme ends, but for a string
before white space, which may go on after it. -/
theorem step_plain (hclass : (∃ newline, charClass c = .space newline) ∨ charClass c = .other)
    (hf : finish m = some f) (hm : isComment m = false) : step m c = endBefore f c ∨
      ∃ style text newline newline', charClass c = .space newline ∧
        step m c = (.stringGap style text newline', []) ∧ f = [⟨.string style, text⟩] := by
  have hplain : (charClass c).isPlain = true := by
    rcases hclass with ⟨newline, hclass⟩ | hclass <;> rw [hclass] <;> rfl
  obtain ⟨hquote, hdouble, hdash, hcolon, hequal⟩ := plain_ne hplain
  have hword (text : List Char) : stepWord text c = endBefore [⟨.word, text⟩] c := by
    rcases hclass with ⟨newline, hclass⟩ | hclass <;> simp only [stepWord, hclass]
  have hnumber (text : List Char) : stepNumber text c = endBefore [⟨.number, text⟩] c := by
    rcases hclass with ⟨newline, hclass⟩ | hclass <;> simp only [stepNumber, hclass]
  have hoperator := stepOperator_of_plain hplain
  -- a gap is where the two kinds of character differ
  have hgap (style : StringStyle) (text : List Char) (newline : Bool) :
      stepGap style text newline c = endBefore [⟨.string style, text⟩] c ∨
        ∃ style' text' newline' newline'', charClass c = .space newline' ∧
          stepGap style text newline c = (.stringGap style' text' newline'', []) ∧
            [(⟨.string style, text⟩ : Lexeme)] = [⟨.string style', text'⟩] := by
    rcases hclass with ⟨newline', hclass⟩ | hclass
    · right
      exact ⟨style, text, newline', newline || newline', hclass, by simp [stepGap, hclass], rfl⟩
    · left
      simp [stepGap, hclass]
  cases m with
  | lineComment => cases hm
  | stringComment style text => cases hm
  | stringEnd style text =>
    cases hf
    have hstep : step (.stringEnd style text) c = stepGap style text false c := by
      simp [step, stepStringEnd, hquote]
    rw [hstep]
    exact hgap style text false
  | stringGap style text newline =>
    cases hf
    exact hgap style text newline
  | dollar tag =>
    left
    cases tag with
    | nil =>
      cases hf
      rcases hclass with ⟨newline, hclass⟩ | hclass <;> simp [step, stepDollar, hclass]
    | cons d tag =>
      cases hf
      rcases hclass with ⟨newline, hclass⟩ | hclass <;>
        simp [step, stepDollar, hclass, hword, endBefore, Step.after]
  | _ =>
    left
    cases hf <;> rcases hclass with ⟨newline, hclass⟩ | hclass <;>
      simp [step, hclass, hword, hnumber, hoperator, hquote, hdouble, hdash, hcolon, hequal,
        endBefore, Step.after, operatorLexemes]

/-- A character of no other class breaks off any lexeme. -/
theorem step_other (hclass : charClass c = .other) (hf : finish m = some f)
    (hm : isComment m = false) : step m c = (.between, f ++ [⟨.punct, [c]⟩]) := by
  have hbetween : stepBetween c = (.between, [⟨.punct, [c]⟩]) := by rw [stepBetween, hclass]
  rcases step_plain (Or.inr hclass) hf hm with hstep | ⟨_, _, _, _, hspace, -⟩
  · rw [hstep, endBefore, hbetween, Step.after]
  · rw [hclass] at hspace
    cases hspace

/-- White space ends a lexeme, but for a string, which may go on after it. -/
theorem step_space {newline : Bool} (hclass : charClass c = .space newline)
    (hf : finish m = some f) (hm : isComment m = false) : step m c = (.between, f) ∨
      ∃ style text newline', step m c = (.stringGap style text newline', []) ∧
        f = [⟨.string style, text⟩] := by
  have hbetween : stepBetween c = (.between, []) := by rw [stepBetween, hclass]
  rcases step_plain (Or.inl ⟨newline, hclass⟩) hf hm with
    hstep | ⟨style, text, -, newline', -, hstep, hopen⟩
  · left
    rw [hstep, endBefore, hbetween, Step.after, List.append_nil]
  · right
    exact ⟨style, text, newline', hstep, hopen⟩

/-- The end of a line ends a comment, and what was open before it stays open. -/
theorem step_comment_newline (hclass : charClass c = .space true) (hf : finish m = some f)
    (hm : isComment m = true) : finish (step m c).1 = some f ∧ (step m c).2 = [] := by
  cases m with
  | lineComment => simpa [step, hclass, finish] using hf
  | stringComment style text => simpa [step, hclass, finish] using hf
  | _ => cases hm

/-- The number of characters in the lexemes, the semicolons left out. -/
def weight : List Lexeme → Nat
  | [] => 0
  | lexeme :: lexemes =>
    (if lexeme = semicolon then 0 else lexeme.text.length) + weight lexemes

@[simp] theorem weight_nil : weight [] = 0 := rfl

@[simp] theorem weight_cons (lexeme : Lexeme) (lexemes : List Lexeme) :
    weight (lexeme :: lexemes) =
      (if lexeme = semicolon then 0 else lexeme.text.length) + weight lexemes := rfl

@[simp] theorem weight_append (as bs : List Lexeme) :
    weight (as ++ bs) = weight as + weight bs := by
  induction as with
  | nil => rw [List.nil_append, weight_nil, Nat.zero_add]
  | cons lexeme as ih => rw [List.cons_append, weight_cons, ih, weight_cons, Nat.add_assoc]

/-- A letter goes to an open lexeme or to a new one. -/
theorem step_letter (hclass : charClass c = .letter) (hf : finish m = some f)
    (hm : isComment m = false) : ∃ f', finish (step m c).1 = some f' ∧
      weight ((step m c).2 ++ f') = weight f + 1 ∧ isComment (step m c).1 = false := by
  have hbetween : stepBetween c = (.word [c], []) := by rw [stepBetween, hclass]
  have hend (lexemes : List Lexeme) : endBefore lexemes c = (.word [c], lexemes) := by
    rw [endBefore, hbetween, Step.after, List.append_nil]
  have hplain : (charClass c).isPlain = true := by rw [hclass]; rfl
  obtain ⟨hquote, hdouble, hdash, hcolon, hequal⟩ := plain_ne hplain
  have hoperator := stepOperator_of_plain hplain
  cases m with
  | lineComment => cases hm
  | stringComment style text => cases hm
  | dollar tag =>
    cases tag with
    | nil =>
      cases hf
      simp [step, stepDollar, hclass, finish, isComment, semicolon]
    | cons d tag =>
      cases hf
      simp [step, stepDollar, hclass, finish, isComment, semicolon]
      omega
  | _ =>
    cases hf <;> simp [step, stepWord, stepNumber, stepStringEnd, stepGap, hclass, hoperator, hend,
      hbetween, hquote, hdouble, hdash, hcolon, hequal, Step.after, operatorLexemes, finish,
      isComment, semicolon]

/-- A comment swallows the rest of its line. -/
theorem step_comment (hm : isComment m = true) (hclass : charClass c ≠ .space true) :
    step m c = (m, []) := by
  cases m with
  | lineComment => simp [step, hclass]
  | stringComment style text => simp [step, hclass]
  | _ => cases hm

/-- What stays open at the end of a text is closed by a few characters only. -/
theorem finish_step_none (hm : finish m = none) (hquote : c ≠ '\'') (hdouble : c ≠ '"')
    (hdollar : c ≠ '$') (hslash : c ≠ '/') : finish (step m c).1 = none := by
  cases m with
  | dollarBody tag text since => simp [step, stepDollarBody, hdollar, finish]
  | string style text =>
    by_cases h : style = .escape ∧ c = '\\' <;> simp [step, hquote, h, finish]
  | escape text => rfl
  | delimited unicode text => simp [step, hdouble, finish]
  | blockComment depth last =>
    by_cases h : last = some '/' ∧ c = '*' <;> simp [step, stepBlockComment, hslash, h, finish]
  | dollar tag => cases tag <;> cases hm
  | _ => cases hm

end Steps

end Lexer

end PgPaw.Sql
