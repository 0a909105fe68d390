/-
# What the quoting of `rows.rs` contains

`begin_scoped` puts a role, the claims of a token and the headers of a request into the texts of
statements that the database's owner runs.  They are quoted by doubling the quotes in them, and
PostgreSQL's lexer undoes that: whatever is quoted is read as one lexeme, whose value it is, and
the lexeme ends where the text ends (`serverLex_sqlLiteral`, `serverLex_sqlIdent`).

So the statements of `begin_scoped` are four settings, each of a fixed front and one value.
Two kinds of text do not get as far: one with a NUL cannot be sent, and an identifier of no
characters is refused.
-/
import PgPaw.Capability.Sql
import PgPaw.Sql.Lexer

namespace PgPaw

open Sql.Lexer

/-! ## 1. The lexer on quoted text -/

/-- A quoted identifier of no characters. -/
def isEmptyIdent (lexeme : Lexeme) : Bool :=
  lexeme.kind == .delimited false && lexeme.text.isEmpty

/-- What the server reads of a text. -/
def serverLex (sql : String) : Option (List Lexeme) :=
  if sql.toList.contains '\x00' then none
  else (Sql.lex sql).filter fun lexemes => !lexemes.any isEmptyIdent

/-- A text between quotes, doubled. -/
def doubled (quote : Char) (text : List Char) : List Char :=
  text.flatMap fun c => if c == quote then [c, c] else [c]

@[simp] theorem doubled_nil (quote : Char) : doubled quote [] = [] := rfl

theorem doubled_cons_self (quote : Char) (text : List Char) :
    doubled quote (quote :: text) = quote :: quote :: doubled quote text := by
  simp [doubled]

theorem doubled_cons_of_ne {quote c : Char} (hc : c ≠ quote) (text : List Char) :
    doubled quote (c :: text) = c :: doubled quote text := by
  simp [doubled, hc]

theorem toList_quoted (quote : Char) (value : String) :
    (quoted quote value).toList = quote :: (doubled quote value.toList ++ [quote]) := by
  rw [quoted, String.toList_ofList]
  rfl

theorem mem_doubled {quote c : Char} {text : List Char} : c ∈ doubled quote text ↔ c ∈ text := by
  induction text with
  | nil => rfl
  | cons d text ih =>
    by_cases hd : d = quote
    · rw [hd, doubled_cons_self]
      simp [ih]
    · rw [doubled_cons_of_ne hd]
      simp [ih]

/-- **Doubling is undone**: a mode that reads a quoted text, and the one after a quote in it,
have the text in hand when they have read it doubled. -/
theorem run_doubled {quote : Char} {inside closed : List Char → Mode}
    (hclose : ∀ text, step (inside text) quote = (closed text, []))
    (hreopen : ∀ text, step (closed text) quote = (inside (text ++ [quote]), []))
    (hgo : ∀ text c, c ≠ quote → step (inside text) c = (inside (text ++ [c]), []))
    (value text : List Char) :
    Sql.lexer.run (inside text) (doubled quote value) = (inside (text ++ value), []) := by
  induction value generalizing text with
  | nil =>
    rw [List.append_nil]
    rfl
  | cons c value ih =>
    have hrest : Sql.lexer.run (inside (text ++ [c])) (doubled quote value) =
        (inside (text ++ c :: value), []) := by
      rw [ih, List.append_assoc, List.singleton_append]
    by_cases hc : c = quote
    · subst hc
      have hone : Sql.lexer.step (inside text) c = (closed text, []) := hclose text
      have htwo : Sql.lexer.step (closed text) c = (inside (text ++ [c]), []) := hreopen text
      rw [doubled_cons_self, Transducer.run_cons, hone, Transducer.run_cons, htwo, hrest]
      rfl
    · have hone : Sql.lexer.step (inside text) c = (inside (text ++ [c]), []) := hgo text c hc
      rw [doubled_cons_of_ne hc, Transducer.run_cons, hone, hrest]
      rfl

/-- And a quoted text is read as one lexeme, to the end. -/
theorem output_quoted {quote : Char} (inside closed : List Char → Mode) {kind : LexKind}
    (hopen : stepBetween quote = (inside [], []))
    (hclose : ∀ text, step (inside text) quote = (closed text, []))
    (hreopen : ∀ text, step (closed text) quote = (inside (text ++ [quote]), []))
    (hgo : ∀ text c, c ≠ quote → step (inside text) c = (inside (text ++ [c]), []))
    (hfinish : ∀ text, finish (closed text) = some [⟨kind, text⟩]) (value : String) :
    Sql.lexer.output (quoted quote value).toList = some [⟨kind, value.toList⟩] := by
  have hstart : Sql.lexer.step Sql.lexer.start quote = (inside [], []) := hopen
  have hend : Sql.lexer.step (inside value.toList) quote = (closed value.toList, []) := hclose _
  have hbody := run_doubled hclose hreopen hgo value.toList []
  rw [List.nil_append] at hbody
  rw [toList_quoted, Transducer.output, Transducer.outputFrom, Transducer.run_cons, hstart,
    Transducer.run_append, hbody, Transducer.run_cons, hend]
  simp [Sql.lexer, hfinish]

theorem output_sqlLiteral (value : String) :
    Sql.lexer.output (sqlLiteral value).toList = some [⟨.string .standard, value.toList⟩] :=
  output_quoted (.string .standard) (.stringEnd .standard) rfl (fun _ => rfl) (fun _ => rfl)
    (fun text c hc => by simp [step, hc]) (fun _ => rfl) value

theorem output_sqlIdent (value : String) :
    Sql.lexer.output (sqlIdent value).toList = some [⟨.delimited false, value.toList⟩] :=
  output_quoted (.delimited false) (.delimitedEnd false) rfl (fun _ => rfl) (fun _ => rfl)
    (fun text c hc => by simp [step, hc]) (fun _ => rfl) value

theorem serverLex_quoted {quote : Char} {value : String} {lexeme : Lexeme}
    (hquote : '\x00' ≠ quote) (hvalue : '\x00' ∉ value.toList)
    (hlex : Sql.lexer.output (quoted quote value).toList = some [lexeme])
    (hlexeme : isEmptyIdent lexeme = false) : serverLex (quoted quote value) = some [lexeme] := by
  have hmem : '\x00' ∉ (quoted quote value).toList := by
    rw [toList_quoted, List.mem_cons, List.mem_append, List.mem_singleton, mem_doubled]
    simp only [hquote, hvalue, or_self, not_false_eq_true]
  have hnul : (quoted quote value).toList.contains '\x00' = false :=
    Bool.eq_false_iff.mpr fun h => hmem (List.contains_iff_mem.mp h)
  unfold serverLex Sql.lex
  rw [hnul, hlex]
  simp [hlexeme]

/-- **A literal contains its value.** -/
theorem serverLex_sqlLiteral {value : String} (hvalue : '\x00' ∉ value.toList) :
    serverLex (sqlLiteral value) = some [⟨.string .standard, value.toList⟩] :=
  serverLex_quoted (by decide) hvalue (output_sqlLiteral value) rfl

/-- **And so does an identifier**, but for the empty one. -/
theorem serverLex_sqlIdent {value : String} (hvalue : '\x00' ∉ value.toList) (hne : value ≠ "") :
    serverLex (sqlIdent value) = some [⟨.delimited false, value.toList⟩] := by
  refine serverLex_quoted (by decide) hvalue (output_sqlIdent value) ?_
  have hlist : value.toList ≠ [] := fun h => hne (String.toList_eq_nil_iff.mp h)
  simpa [isEmptyIdent] using hlist

/-! ## 2. The statements of `begin_scoped` -/

/-- What `begin_scoped` sets. -/
inductive Setting
  | timeout
  | claims (json : String)
  | headers (json : String)
  | role (name : String)
  deriving DecidableEq, Repr

namespace Setting

/-- The text before the value. -/
def front : Setting → String
  | timeout => "SET LOCAL statement_timeout = "
  | claims _ => "SET LOCAL request.jwt.claims = "
  | headers _ => "SET LOCAL request.headers = "
  | role _ => "SET LOCAL ROLE "

/-- The value. -/
def value : Setting → String
  | timeout => decimal SQL_DEADLINE_SECS ++ "s"
  | claims json => json
  | headers json => json
  | role name => name

/-- The value as it is written. -/
def written : Setting → String
  | role name => sqlIdent name
  | setting => sqlLiteral setting.value

/-- The statement. -/
def text (setting : Setting) : String := setting.front ++ setting.written

/-- A word. -/
def wordLexeme (text : String) : Lexeme := ⟨.word, text.toList⟩

/-- The lexemes before the value. -/
def frontLexemes : Setting → List Lexeme
  | timeout => [wordLexeme "SET", wordLexeme "LOCAL", wordLexeme "statement_timeout",
      ⟨.operator, ['=']⟩]
  | claims _ => [wordLexeme "SET", wordLexeme "LOCAL", wordLexeme "request", ⟨.punct, ['.']⟩,
      wordLexeme "jwt", ⟨.punct, ['.']⟩, wordLexeme "claims", ⟨.operator, ['=']⟩]
  | headers _ => [wordLexeme "SET", wordLexeme "LOCAL", wordLexeme "request", ⟨.punct, ['.']⟩,
      wordLexeme "headers", ⟨.operator, ['=']⟩]
  | role _ => [wordLexeme "SET", wordLexeme "LOCAL", wordLexeme "ROLE"]

/-- The kind of the value's lexeme. -/
def kind : Setting → LexKind
  | role _ => .delimited false
  | _ => .string .standard

/-- The value's lexeme. -/
def valueLexeme (setting : Setting) : Lexeme := ⟨setting.kind, setting.value.toList⟩

theorem run_front (setting : Setting) :
    Sql.lexer.run Sql.lexer.start setting.front.toList = (.between, setting.frontLexemes) := by
  cases setting <;> simp only [front, frontLexemes, wordLexeme, String.reduceToList] <;>
    decide +kernel

theorem output_written (setting : Setting) :
    Sql.lexer.output setting.written.toList = some [setting.valueLexeme] := by
  cases setting with
  | role name => exact output_sqlIdent name
  | _ => exact output_sqlLiteral _

/-- **A setting is its front and one value**, whatever the value is. -/
theorem lex_text (setting : Setting) :
    Sql.lex setting.text = some (setting.frontLexemes ++ [setting.valueLexeme]) := by
  have hfront := setting.run_front
  have hstart : Sql.lexer.state setting.front.toList = Sql.lexer.start := by
    rw [Transducer.state, hfront]
    rfl
  rw [Sql.lex, text, String.toList_append, Transducer.output_append_of_restart hstart,
    output_written, hfront]
  rfl

/-- A value that does not get to the server, or is refused there. -/
def refused (setting : Setting) : Bool :=
  setting.value.toList.contains '\x00' || isEmptyIdent setting.valueLexeme

theorem contains_text (setting : Setting) :
    setting.text.toList.contains '\x00' = setting.value.toList.contains '\x00' := by
  have hfront : '\x00' ∉ setting.front.toList := by
    cases setting <;> simp only [front, String.reduceToList] <;> decide
  have hquoted (quote : Char) (hquote : '\x00' ≠ quote) (value : String) :
      '\x00' ∈ (quoted quote value).toList ↔ '\x00' ∈ value.toList := by
    rw [toList_quoted, List.mem_cons, List.mem_append, List.mem_singleton, mem_doubled]
    simp only [hquote, false_or, or_false]
  have hwritten : '\x00' ∈ setting.written.toList ↔ '\x00' ∈ setting.value.toList := by
    cases setting with
    | role name => exact hquoted '"' (by decide) name
    | _ => exact hquoted '\'' (by decide) _
  rw [Bool.eq_iff_iff, List.contains_iff_mem, List.contains_iff_mem, text, String.toList_append,
    List.mem_append, hwritten, or_iff_right hfront]

theorem any_frontLexemes (setting : Setting) : setting.frontLexemes.any isEmptyIdent = false := by
  cases setting <;> rfl

/-- What the server reads of a setting. -/
theorem serverLex_text (setting : Setting) : serverLex setting.text =
    if setting.refused then none
    else some (setting.frontLexemes ++ [setting.valueLexeme]) := by
  unfold serverLex refused
  rw [contains_text, lex_text]
  cases setting.value.toList.contains '\x00' with
  | true => rfl
  | false =>
    simp only [Option.filter_some, List.any_append, any_frontLexemes, List.any_cons, List.any_nil,
      Bool.false_or, Bool.or_false, Bool.false_eq_true, if_false]
    cases isEmptyIdent setting.valueLexeme <;> rfl

/-- The settings of a call. -/
def all (role claims headers : Option String) : List Setting :=
  .timeout :: (claims.map .claims).toList ++ .headers (headers.getD "\x7b\x7d") ::
    (role.map .role).toList

/-- The operation that makes a setting. -/
def query (setting : Setting) : DbOp := .txQuery setting.text []

end Setting

theorem issues_discard (op : DbOp) : Program.Issues (discard (Db.perform op)) [op] := by
  intro script
  cases script with
  | nil => exact ⟨List.nil_prefix, fun _ h => by cases h⟩
  | cons await script =>
    obtain ⟨performed, reply⟩ := await
    cases reply with
    | none => exact ⟨List.prefix_refl _, fun _ h => by cases h⟩
    | some reply => cases reply <;> exact ⟨List.prefix_refl _, fun _ _ => rfl⟩

/-- `begin_scoped` begins a transaction and makes its settings, one by one. -/
theorem issues_beginScoped (role claims headers : Option String) :
    Program.Issues (SqlOperations.beginScoped role claims headers)
      (.transaction :: (Setting.all role claims headers).map Setting.query) := by
  have htimeout : Setting.timeout.text =
      "SET LOCAL statement_timeout = '" ++ decimal SQL_DEADLINE_SECS ++ "s'" := by
    decide +kernel
  have hheaders := issues_discard (Setting.headers (headers.getD "\x7b\x7d")).query
  refine Program.Issues.bind (issues_discard .transaction) ?_
  intro _
  rw [← htimeout]
  refine Program.Issues.bind (issues_discard Setting.timeout.query) ?_
  intro _
  cases role with
  | none =>
    have hlast := hheaders.bind fun _ => Program.Issues.pure ()
    cases claims with
    | none => exact Program.Issues.bind (Program.Issues.pure ()) fun _ => hlast
    | some claims =>
      exact Program.Issues.bind (issues_discard (Setting.claims claims).query) fun _ => hlast
  | some role =>
    have hlast := hheaders.bind fun _ => issues_discard (Setting.role role).query
    cases claims with
    | none => exact Program.Issues.bind (Program.Issues.pure ()) fun _ => hlast
    | some claims =>
      exact Program.Issues.bind (issues_discard (Setting.claims claims).query) fun _ => hlast

/-- **Quoting contains every text.**  A literal is one string and an identifier one quoted
identifier, to the end of the text and with the value that was quoted.  So each statement of
`begin_scoped` is its front and the value; the two kinds of value that do not get as far as
that make the server read nothing at all. -/
theorem quoting_contains :
    (∀ value : String, '\x00' ∉ value.toList →
      serverLex (sqlLiteral value) = some [⟨.string .standard, value.toList⟩]) ∧
    (∀ value : String, '\x00' ∉ value.toList → value ≠ "" →
      serverLex (sqlIdent value) = some [⟨.delimited false, value.toList⟩]) ∧
    ∀ (role claims headers : Option String) (script : List (Program.Await DbReply)),
      ((SqlOperations.beginScoped role claims headers).run.play script).2.map Prod.fst <+:
        .transaction :: (Setting.all role claims headers).map Setting.query ∧
      ∀ setting ∈ Setting.all role claims headers, serverLex setting.text =
        if setting.refused then none
        else some (setting.frontLexemes ++ [setting.valueLexeme]) := by
  refine ⟨fun value hvalue => serverLex_sqlLiteral hvalue,
    fun value hvalue hne => serverLex_sqlIdent hvalue hne, ?_⟩
  intro role claims headers script
  refine ⟨(issues_beginScoped role claims headers script).1, ?_⟩
  intro setting _
  exact setting.serverLex_text

-- a role that tries to leave its quotes, and claims that end in one
example : serverLex (Setting.role "a\"; RESET ROLE; --").text =
    some [Setting.wordLexeme "SET", Setting.wordLexeme "LOCAL", Setting.wordLexeme "ROLE",
      ⟨.delimited false, "a\"; RESET ROLE; --".toList⟩] := by decide +kernel

end PgPaw
