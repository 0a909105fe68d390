/-
# The commands of a script

PostgreSQL takes a text apart into commands at its semicolons.  A semicolon in brackets belongs
to the command it is in (the actions of a rule), and so does one in the body of a routine, which
goes from `BEGIN ATOMIC` to its `END`.  Letter case, white space and comments are gone with the
lexemes.

A command is destructive when it drops a table, empties one, or drops a column of one.  In an
`ALTER TABLE` the word `COLUMN` is optional: an action that starts with `DROP` drops a column
unless it drops a constraint.

A transaction is begun and ended by commands of their own.
-/
import PgPaw.Text
import PgPaw.Sql.Lexer

namespace PgPaw.Sql.Script

open Lexer

/-! ## 1. Words and brackets -/

/-- The word that PostgreSQL looks up among its keywords. -/
def keyword (l : Lexeme) : Option String :=
  if l.kind = .word then some (String.ofList (l.text.map Char.toLower)) else none

/-- The words are the first lexemes. -/
def startsWith (words : List String) (lexemes : List Lexeme) : Bool :=
  (words.map some).isPrefixOf (lexemes.map keyword)

/-- What follows the words, if they are there. -/
def skip (words : List String) (lexemes : List Lexeme) : List Lexeme :=
  if startsWith words lexemes then lexemes.drop words.length else lexemes

/-- The words are sought in the lexemes of a front that is long enough. -/
theorem startsWith_append {words : List String} {front : List Lexeme}
    (hlen : words.length ≤ front.length) (rest : List Lexeme) :
    startsWith words (front ++ rest) = startsWith words front := by
  have hlen' : (words.map some).length ≤ (front.map keyword).length := by simpa using hlen
  rw [startsWith, startsWith, List.map_append, Bool.eq_iff_iff, List.isPrefixOf_iff_prefix,
    List.isPrefixOf_iff_prefix]
  constructor
  · intro h
    exact List.prefix_of_prefix_length_le h (List.prefix_append _ _) hlen'
  · intro h
    exact h.trans (List.prefix_append _ _)

/-- A lexeme that is another word. -/
theorem startsWith_of_ne {word : String} {l : Lexeme} (h : keyword l ≠ some word)
    (words : List String) (lexemes : List Lexeme) :
    startsWith (word :: words) (l :: lexemes) = false := by
  have hne : (some word == keyword l) = false := by
    rw [beq_eq_false_iff_ne]
    exact h.symm
  simp only [startsWith, List.map_cons, List.isPrefixOf, hne, Bool.false_and]

/-- The lexemes of words. -/
def words (texts : List String) : List Lexeme := texts.map fun text => ⟨.word, text.toList⟩

theorem keyword_words (texts : List String) :
    (words texts).map keyword = (texts.map toAsciiLowercase).map some := by
  rw [words, List.map_map, List.map_map]
  rfl

theorem startsWith_words {expected texts : List String}
    (h : texts.map toAsciiLowercase = expected) (rest : List Lexeme) :
    startsWith expected (words texts ++ rest) = true := by
  rw [startsWith, List.map_append, keyword_words, h, List.isPrefixOf_iff_prefix]
  exact List.prefix_append _ _

@[simp] theorem length_words (texts : List String) : (words texts).length = texts.length :=
  List.length_map ..

def comma : Lexeme := ⟨.punct, [',']⟩

def dot : Lexeme := ⟨.punct, ['.']⟩

def isOpening (l : Lexeme) : Bool := l == ⟨.punct, ['(']⟩ || l == ⟨.punct, ['[']⟩

def isClosing (l : Lexeme) : Bool := l == ⟨.punct, [')']⟩ || l == ⟨.punct, [']']⟩

/-- What is open at a lexeme. -/
structure Nesting where
  brackets : Nat
  /-- The body of a routine, and the `CASE`s in it. -/
  body : Nat
  /-- The last lexeme was `BEGIN`. -/
  begun : Bool
  deriving DecidableEq, Repr

namespace Nesting

def top : Nesting := ⟨0, 0, false⟩

def isTop (n : Nesting) : Bool := n.brackets == 0 && n.body == 0

/-- What is open after a lexeme. -/
def after (n : Nesting) (l : Lexeme) : Nesting where
  brackets :=
    if isOpening l then n.brackets + 1 else if isClosing l then n.brackets - 1 else n.brackets
  body :=
    if keyword l = some "atomic" ∧ n.begun ∨ keyword l = some "case" ∧ 0 < n.body then n.body + 1
    else if keyword l = some "end" then n.body - 1
    else n.body
  begun := keyword l == some "begin"

end Nesting

/-- The lexemes between the separators that are in nothing else. -/
def splitTop (separator : Lexeme) : Nesting → List Lexeme → List (List Lexeme)
  | _, [] => [[]]
  | n, l :: lexemes =>
    if n.isTop && l == separator then [] :: splitTop separator .top lexemes
    else (splitTop separator (n.after l) lexemes).modifyHead (l :: ·)

/-- Lexemes without a semicolon, after which nothing is open. -/
def Closed (lexemes : List Lexeme) : Prop :=
  semicolon ∉ lexemes ∧ lexemes.foldl Nesting.after .top = .top

theorem Closed.append {as bs : List Lexeme} (has : Closed as) (hbs : Closed bs) :
    Closed (as ++ bs) := by
  refine ⟨fun h => ?_, by rw [List.foldl_append, has.2, hbs.2]⟩
  rcases List.mem_append.mp h with h | h
  · exact has.1 h
  · exact hbs.1 h

/-- A lexeme that is no word does not open anything, nor does a word unless it is one of four. -/
theorem closed_singleton {l : Lexeme} (hpunct : l.kind ≠ .punct)
    (hword : keyword l ∉ [some "atomic", some "case", some "end", some "begin"]) :
    Closed [l] := by
  simp only [List.mem_cons, List.not_mem_nil, or_false, not_or] at hword
  obtain ⟨hatomic, hcase, hend, hbegin⟩ := hword
  have hne (text : List Char) : l ≠ ⟨.punct, text⟩ := fun h => hpunct (congrArg Lexeme.kind h)
  have hopening : isOpening l = false := by simp [isOpening, hne]
  have hclosing : isClosing l = false := by simp [isClosing, hne]
  refine ⟨fun h => hne _ (List.mem_singleton.mp h).symm, ?_⟩
  simp [Nesting.after, Nesting.top, hopening, hclosing, hatomic, hcase, hend, hbegin]

/-- Up to a semicolon nothing is split. -/
theorem splitTop_semicolon {command : List Lexeme} {n : Nesting} (hnone : semicolon ∉ command)
    (htop : (command.foldl Nesting.after n).isTop = true) (rest : List Lexeme) :
    splitTop semicolon n (command ++ semicolon :: rest) =
      command :: splitTop semicolon .top rest := by
  induction command generalizing n with
  | nil =>
    rw [List.foldl_nil] at htop
    simp [splitTop, htop]
  | cons l command ih =>
    have hl : (l == semicolon) = false := by
      rw [beq_eq_false_iff_ne]
      exact fun h => hnone (h ▸ List.mem_cons_self)
    have hrest := ih (n := n.after l) (fun h => hnone (List.mem_cons_of_mem _ h)) htop
    rw [List.cons_append, splitTop, hl, Bool.and_false, if_neg (by decide), hrest]
    rfl

/-- **A script is taken apart into the commands it was put together from.** -/
theorem splitTop_script {script : List (List Lexeme)}
    (h : ∀ c ∈ script, semicolon ∉ c ∧ (c.foldl Nesting.after .top).isTop = true) :
    splitTop semicolon .top (script.flatMap (· ++ [semicolon])) = script ++ [[]] := by
  induction script with
  | nil => rfl
  | cons c script ih =>
    obtain ⟨hnone, hopen⟩ := h c List.mem_cons_self
    have hrest := ih fun d hd => h d (List.mem_cons_of_mem _ hd)
    rw [List.flatMap_cons, List.append_assoc, List.singleton_append,
      splitTop_semicolon hnone hopen, hrest, List.cons_append]

/-- The lexemes that are not in brackets. -/
def outside : Nesting → List Lexeme → List Lexeme
  | _, [] => []
  | n, l :: lexemes =>
    if n.brackets = 0 then l :: outside (n.after l) lexemes else outside (n.after l) lexemes

/-! ## 2. Commands -/

/-- A command, with its comments and its white space gone. -/
abbrev Command := List Lexeme

/-- The commands of a text; one with an open string or comment has none. -/
def commands (sql : String) : List Command :=
  match lex sql with
  | some lexemes => (splitTop semicolon .top lexemes).filter fun s => !s.isEmpty
  | none => []

namespace Command

def dropsTable (s : Command) : Bool := startsWith ["drop", "table"] s

def truncates (s : Command) : Bool := startsWith ["truncate"] s

def altersTable (s : Command) : Bool := startsWith ["alter", "table"] s

/-- What follows a name, which may be qualified. -/
def afterName : List Lexeme → List Lexeme
  | _ :: l :: lexemes => if l = dot then afterName lexemes else l :: lexemes
  | _ => []

/-- The lexemes of the actions of an `ALTER TABLE`. -/
def afterTable (s : Command) : List Lexeme :=
  let named := skip ["only"] (skip ["if", "exists"] (s.drop 2))
  let rest := match named with
    | l :: lexemes => if isOpening l then (afterName lexemes).drop 1 else afterName named
    | [] => []
  -- `t *` is the table with its descendants
  if rest.head? = some ⟨.operator, ['*']⟩ then rest.drop 1 else rest

/-- The actions of an `ALTER TABLE`. -/
def actions (s : Command) : List (List Lexeme) := splitTop comma .top s.afterTable

/-- An action that drops a column.  `CONSTRAINT` is reserved, so it is no column's name. -/
def dropsColumn (action : List Lexeme) : Bool :=
  startsWith ["drop"] action && !startsWith ["drop", "constraint"] action

/-- **The command is destructive.** -/
def isDestructive (s : Command) : Bool :=
  s.dropsTable || s.truncates || s.altersTable && s.actions.any dropsColumn

/-! ## 3. Commands that begin and end transactions -/

def begins (s : Command) : Bool := startsWith ["begin"] s || startsWith ["start", "transaction"] s

def commits (s : Command) : Bool :=
  startsWith ["end"] s || startsWith ["commit"] s && !startsWith ["commit", "prepared"] s

/-- A rollback to a savepoint ends no transaction. -/
def rollsBack (s : Command) : Bool :=
  startsWith ["abort"] s || startsWith ["rollback"] s && !startsWith ["rollback", "prepared"] s &&
    !startsWith ["to"] (skip ["work"] (skip ["transaction"] (s.drop 1)))

/-- `AND CHAIN`. -/
def chains (s : Command) : Bool := startsWith ["chain", "and"] s.reverse

end Command

-- no `COLUMN`, a comment between the words, a semicolon in a rule; constraints are no columns
example : (commands "alter table only s.t *\n ADD x int, dRoP c; DROP /* ; */ TABLE t;").map
    Command.isDestructive = [true, true] := by decide +kernel

example : (commands "CREATE RULE r AS ON DELETE TO t DO (SELECT 1; SELECT 2);
    ALTER TABLE t DROP CONSTRAINT c; SELECT 'drop table t';").map Command.isDestructive =
      [false, false, false] := by decide +kernel

example : (commands "Begin; COMMIT and chain; ROLLBACK work TO s; rollback; END").map (fun s =>
    (s.begins, s.commits, s.rollsBack, s.chains)) =
      [(true, false, false, false), (false, true, false, true), (false, false, false, false),
        (false, false, true, false), (false, true, false, false)] := by decide +kernel

end PgPaw.Sql.Script
