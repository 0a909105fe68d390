/-
# The texts a statement is wrapped in

Five functions put the text of an accepted statement into a statement of the server's own:
`wrap_json` and the probe of `ensure_unique_columns` for a read, and the three shapes of
`run_sql_as`.  Three of them take the text as it is.  The other two cut off the white space at
its end, and then the semicolons at the end of what is left.

Whether PostgreSQL reads the wrapper, the statement and the wrapper again in the result is a
question about its lexer, which sees one text (`Wrapper.keeps_iff`).
-/
import PgPaw.Capability.Classify
import PgPaw.Capability.Prepare
import PgPaw.Capability.Sql
import PgPaw.Sql.LexTail

namespace PgPaw

open Sql Sql.Lexer

/-! ## 1. The wrappers -/

/-- What wraps a statement. -/
inductive Wrapper
  /-- `wrap_json`. -/
  | json
  /-- The probe of `ensure_unique_columns`. -/
  | probe
  /-- The shapes of `run_sql_as`. -/
  | select
  | returning
  | count
  deriving DecidableEq

namespace Wrapper

/-- The text that is run. -/
def wrap : Wrapper → String → String
  | json => wrapJson
  | probe => probeColumns
  | select => SqlOperations.selectWrapped
  | returning => SqlOperations.returningWrapped
  | count => countWrapped

/-- What stands before the statement. -/
def before : Wrapper → String
  | json => "select coalesce(jsonb_agg(to_jsonb(_t)), '[]'::jsonb)::text as j from ("
  | probe => "select * from ("
  | select => "WITH _pgpaw_q AS ("
  | returning | count => "WITH _pgpaw_dml AS ("

/-- What stands after it. -/
def after : Wrapper → String
  | json => ") _t"
  | probe => ") _pgpaw_cols limit 1"
  | select => "), " ++
    "_pgpaw_rows AS ( " ++
      "SELECT to_jsonb(_pgpaw_q) AS r, " ++
        "(SELECT count(*) FROM json_object_keys(row_to_json(_pgpaw_q))) AS total, " ++
        "(SELECT count(*) FROM jsonb_object_keys(to_jsonb(_pgpaw_q))) AS distinct_keys " ++
      "FROM _pgpaw_q) " ++
    "SELECT coalesce(jsonb_agg(r), '[]'::jsonb)::text AS j, " ++
      "coalesce(bool_or(total <> distinct_keys), false) AS duplicated " ++
    "FROM _pgpaw_rows"
  | returning => ") " ++
    "select coalesce(jsonb_agg(to_jsonb(_t)), '[]'::jsonb)::text as j " ++
    "from _pgpaw_dml _t"
  | count => " RETURNING 1) " ++
    "SELECT count(*)::int8 AS _pgpaw_affected FROM _pgpaw_dml"

/-- The end of the text is cut off. -/
def trims : Wrapper → Bool
  | returning | count => true
  | json | probe | select => false

/-- What stands in between. -/
def inner (self : Wrapper) (sql : String) : String := if self.trims then trimStatement sql else sql

/-- The three parts. -/
theorem wrap_eq (self : Wrapper) (sql : String) :
    self.wrap sql = self.before ++ self.inner sql ++ self.after := by
  cases self with
  | json => rfl
  | probe => rfl
  | select =>
    show SqlOperations.selectWrapped sql = select.before ++ sql ++ select.after
    unfold SqlOperations.selectWrapped before after
    repeat rw [String.append_assoc]
  | returning =>
    show SqlOperations.returningWrapped sql =
      returning.before ++ trimStatement sql ++ returning.after
    unfold SqlOperations.returningWrapped before after
    repeat rw [String.append_assoc]
  | count =>
    show countWrapped sql = count.before ++ trimStatement sql ++ count.after
    unfold countWrapped before after
    repeat rw [String.append_assoc]

end Wrapper

/-- The wrapper of a shape; a statement of any other shape is run as it is. -/
def ValidatedSql.wrapper (validated : ValidatedSql) : Option Wrapper :=
  if validated.command == "SELECT" then some .select
  else if validated.returnsRows then some .returning
  else if validated.needsCountWrap then some .count
  else none

/-- `run_sql_as` runs a statement in the wrapper of its shape. -/
theorem statementText_eq (validated : ValidatedSql) (sql : String) :
    SqlOperations.statementText validated sql = (validated.wrapper.map (·.wrap sql)).getD sql := by
  unfold SqlOperations.statementText ValidatedSql.wrapper
  split
  · rfl
  split
  · rfl
  split
  · rfl
  · rfl

namespace Wrapper

/-! ## 2. What the wrappers' own texts are to the lexer -/

/-- Nothing is open where the statement starts. -/
theorem state_before (self : Wrapper) : lexer.state self.before.toList = lexer.start := by
  show _ = Mode.between
  cases self <;> simp only [before, String.reduceToList] <;> decide +kernel

/-- What stands after it is on one line, starts with a parenthesis or with a space and a letter,
and has lexemes. -/
theorem after_eq (self : Wrapper) :
    (self.after.toList.all fun c => decide (charClass c ≠ .space true)) = true ∧
    (self.after.toList = ')' :: self.after.toList.tail ∨
      self.after.toList = ' ' :: 'R' :: self.after.toList.tail.tail) ∧
    (lex self.after).any (fun after => decide (0 < weight after)) = true := by
  unfold lex
  cases self <;> simp only [after, String.toList_append, String.reduceToList] <;> decide +kernel

theorem lex_before (self : Wrapper) :
    lex self.before = some (lexer.run lexer.start self.before.toList).2 :=
  Transducer.output_eq_some.mpr ⟨[], by rw [state_before]; rfl, List.append_nil _⟩

theorem lex_after (self : Wrapper) :
    ∃ after, lex self.after = some after ∧ 0 < weight after := by
  have h := self.after_eq.2.2
  cases hlex : lex self.after with
  | none =>
    rw [hlex] at h
    cases h
  | some after =>
    rw [hlex] at h
    exact ⟨after, rfl, of_decide_eq_true h⟩

/-- What stands after the statement breaks off what is open, but for a comment. -/
theorem breaks_after (self : Wrapper) {m : Mode} {f : List Lexeme} (hf : finish m = some f)
    (hm : isComment m = false) : lexer.Breaks m self.after.toList := by
  rcases self.after_eq.2.1 with hparen | hspace
  · rw [hparen]
    exact (breaks_other (by decide) hf hm).append _
  · rw [hspace]
    exact (breaks_space_letter ⟨false, by decide⟩ (by decide) hf hm).append _

/-! ## 3. The wrapped text -/

section Lexed

variable {self : Wrapper} {sql : String} {lexemes after : List Lexeme}

/-- The wrapped text, as the lexer reads it. -/
theorem lex_wrap (self : Wrapper) (sql : String) : lex (self.wrap sql) =
    (lexer.output ((self.inner sql).toList ++ self.after.toList)).map
      ((lexer.run lexer.start self.before.toList).2 ++ ·) := by
  rw [lex, wrap_eq, String.toList_append, String.toList_append, List.append_assoc]
  exact Transducer.output_append_of_restart self.state_before _

/-- **A text that does not end inside a comment is read as on its own**, and the wrapper around
it. -/
theorem lex_wrap_of_complete (h : lex (self.inner sql) = some lexemes)
    (hcomment : endsInComment (self.inner sql).toList = false)
    (hafter : lex self.after = some after) : lex (self.wrap sql) =
      some ((lexer.run lexer.start self.before.toList).2 ++ lexemes ++ after) := by
  obtain ⟨f, hf, -⟩ := Transducer.output_eq_some.mp h
  have hbreaks := self.breaks_after hf hcomment
  rw [lex_wrap, Transducer.output_append_of_breaks h hbreaks]
  show Option.map _ (Option.map _ (lex self.after)) = _
  rw [hafter, List.append_assoc]
  rfl

/-- A comment swallows what the wrapper puts after the text. -/
theorem lex_wrap_of_comment (h : lex (self.inner sql) = some lexemes)
    (hcomment : endsInComment (self.inner sql).toList = true) :
    lex (self.wrap sql) = some ((lexer.run lexer.start self.before.toList).2 ++ lexemes) := by
  have hline := List.all_eq_true.mp self.after_eq.1
  have hswallows := swallows_comment hcomment fun c hc => of_decide_eq_true (hline c hc)
  rw [lex_wrap, Transducer.output_append_of_swallows hswallows]
  show Option.map _ (lex (self.inner sql)) = _
  rw [h]
  rfl

end Lexed

/-! ## 4. What is cut off -/

/-- The white space cut off at the end of the text. -/
def blank (self : Wrapper) (sql : String) : List Char :=
  if self.trims then sql.toList.rtakeWhile isWhitespace else []

/-- The semicolons cut off before it. -/
def semicolons (self : Wrapper) (sql : String) : List Char :=
  if self.trims then (sql.toList.rdropWhile isWhitespace).rtakeWhile (· == ';') else []

theorem inner_append (self : Wrapper) (sql : String) :
    sql.toList = (self.inner sql).toList ++ self.semicolons sql ++ self.blank sql := by
  unfold inner semicolons blank
  cases self.trims with
  | false => simp
  | true =>
    simp only [if_true, trimStatement, String.toList_ofList]
    rw [List.rdropWhile_append_rtakeWhile, List.rdropWhile_append_rtakeWhile]

theorem eq_of_mem_semicolons {self : Wrapper} {sql : String} {c : Char}
    (h : c ∈ self.semicolons sql) : c = ';' := by
  unfold semicolons at h
  split at h
  · simpa using List.mem_rtakeWhile_imp h
  · cases h

theorem isWhitespace_of_mem_blank {self : Wrapper} {sql : String} {c : Char}
    (h : c ∈ self.blank sql) : isWhitespace c = true := by
  unfold blank at h
  split at h
  · exact List.mem_rtakeWhile_imp h
  · cases h

theorem isTrimmed_of_mem {self : Wrapper} {sql : String} :
    ∀ c ∈ self.semicolons sql ++ self.blank sql, IsTrimmed c := by
  intro c hc
  rcases List.mem_append.mp hc with hc | hc
  · exact Or.inl (eq_of_mem_semicolons hc)
  · exact Or.inr (isWhitespace_of_mem_blank hc)

section Cut

variable {self : Wrapper} {sql : String} {lexemes : List Lexeme}

/-- What is cut off closes nothing. -/
theorem lex_none (h : lex (self.inner sql) = none) : lex sql = none := by
  rw [lex, self.inner_append sql, List.append_assoc]
  exact output_tail_none isTrimmed_of_mem h

/-- And has no character that was in the lexemes. -/
theorem weight_le (h : lex (self.inner sql) = some lexemes) :
    ∃ statement, lex sql = some statement ∧ weight lexemes ≤ weight statement := by
  rw [lex, self.inner_append sql, List.append_assoc]
  exact weight_le_tail isTrimmed_of_mem h

/-- ASCII white space makes no difference, and the semicolons add themselves. -/
theorem lex_of_ascii (h : lex (self.inner sql) = some lexemes)
    (hcomment : endsInComment (self.inner sql).toList = false)
    (hascii : ∀ c ∈ self.blank sql, c.toNat < 0x80) :
    lex sql = some (lexemes ++ (self.semicolons sql).map fun _ => semicolon) := by
  obtain ⟨hout, hcomment'⟩ :=
    output_semicolons (fun c => eq_of_mem_semicolons (c := c)) h hcomment
  rw [lex, self.inner_append sql]
  refine output_blank (fun c hc => ?_) hout hcomment'
  rcases charClass_of_isWhitespace (isWhitespace_of_mem_blank hc) with ⟨-, hclass⟩ | ⟨hlarge, -⟩
  · exact hclass
  · exact absurd (hascii c hc) (Nat.not_lt.mpr hlarge)

/-- Any other white space was a character of a lexeme. -/
theorem weight_lt (h : lex (self.inner sql) = some lexemes)
    (hcomment : endsInComment (self.inner sql).toList = false)
    (hwide : ∃ c ∈ self.blank sql, 0x80 ≤ c.toNat) :
    ∃ statement, lex sql = some statement ∧ weight lexemes < weight statement := by
  obtain ⟨hout, hcomment'⟩ :=
    output_semicolons (fun c => eq_of_mem_semicolons (c := c)) h hcomment
  rw [lex, self.inner_append sql]
  obtain ⟨statement, hstatement, hlt⟩ :=
    weight_lt_tail (fun c => isWhitespace_of_mem_blank) hwide hout hcomment'
  rw [weight_append] at hlt
  exact ⟨statement, hstatement, by omega⟩

end Cut

/-! ## 5. When the statement is kept -/

/-- The wrapped text is, to the lexer, the wrapper's first part, the statement without the
semicolons around it, and the wrapper's second part. -/
def Keeps (self : Wrapper) (sql : String) : Prop :=
  ∃ before statement after, lex self.before = some before ∧ lex sql = some statement ∧
    lex self.after = some after ∧
      lex (self.wrap sql) = some (before ++ statementLexemes statement ++ after)

/-- A text that ends neither inside a string or a comment nor with a semicolon, and does not
start with one. -/
def Bare (text : String) : Prop :=
  endsInComment text.toList = false ∧ ∃ lexemes, lex text = some lexemes ∧
    lexemes.head? ≠ some semicolon ∧ lexemes.getLast? ≠ some semicolon

/-- A comment at the end of the text takes the wrapper's second part away. -/
theorem Keeps.notComment {self : Wrapper} {sql : String} (h : self.Keeps sql) :
    endsInComment (self.inner sql).toList = false := by
  obtain ⟨before, statement, after, hbefore, hstatement, hafter, hwrap⟩ := h
  obtain ⟨after', hafter', hpos⟩ := self.lex_after
  rw [hafter] at hafter'
  cases hafter'
  rw [lex_before] at hbefore
  cases hbefore
  cases hcomment : endsInComment (self.inner sql).toList with
  | false => rfl
  | true =>
    cases hinner : lex (self.inner sql) with
    | none =>
      rw [lex_none hinner] at hstatement
      cases hstatement
    | some lexemes =>
      obtain ⟨statement', hstatement', hle⟩ := weight_le hinner
      rw [hstatement] at hstatement'
      cases hstatement'
      rw [lex_wrap_of_comment hinner hcomment, Option.some.injEq] at hwrap
      have hweight := congrArg weight hwrap
      simp only [weight_append, weight_statementLexemes] at hweight
      omega

/-- The text the wrapper puts in is the statement, to the lexer. -/
theorem Keeps.lex_inner {self : Wrapper} {sql : String} (h : self.Keeps sql) :
    ∃ statement, lex sql = some statement ∧
      lex (self.inner sql) = some (statementLexemes statement) := by
  have hcomment := h.notComment
  obtain ⟨before, statement, after, hbefore, hstatement, hafter, hwrap⟩ := h
  rw [lex_before] at hbefore
  cases hbefore
  refine ⟨statement, hstatement, ?_⟩
  cases hinner : lex (self.inner sql) with
  | none =>
    rw [lex_none hinner] at hstatement
    cases hstatement
  | some lexemes =>
    rw [lex_wrap_of_complete hinner hcomment hafter, Option.some.injEq, List.append_assoc,
      List.append_assoc, List.append_cancel_left_eq, List.append_cancel_right_eq] at hwrap
    rw [hwrap]

/-- Only ASCII white space was cut off. -/
theorem Keeps.ascii {self : Wrapper} {sql : String} (h : self.Keeps sql) :
    ∀ c ∈ self.blank sql, c.toNat < 0x80 := by
  intro c hc
  by_contra hlarge
  obtain ⟨statement, hstatement, hinner⟩ := h.lex_inner
  obtain ⟨statement', hstatement', hlt⟩ :=
    weight_lt hinner h.notComment ⟨c, hc, Nat.le_of_not_lt hlarge⟩
  rw [hstatement] at hstatement'
  cases hstatement'
  rw [weight_statementLexemes] at hlt
  omega

/-- And no semicolon is left. -/
theorem Keeps.bare {self : Wrapper} {sql : String} (h : self.Keeps sql) :
    Bare (self.inner sql) := by
  obtain ⟨statement, hstatement, hinner⟩ := h.lex_inner
  have hsql := lex_of_ascii hinner h.notComment h.ascii
  rw [hstatement, Option.some.injEq] at hsql
  have hself : statementLexemes (statementLexemes statement) = statementLexemes statement := by
    conv_rhs => rw [hsql, statementLexemes_append]
  exact ⟨h.notComment, _, hinner, statementLexemes_eq_self.mp hself⟩

/-- **A wrapper keeps the statement exactly when** the text it puts in does not end inside a
comment and has no semicolon at its start or its end, and the white space it cut off is ASCII. -/
theorem keeps_iff (self : Wrapper) (sql : String) :
    self.Keeps sql ↔ Bare (self.inner sql) ∧ ∀ c ∈ self.blank sql, c.toNat < 0x80 := by
  constructor
  · intro h
    exact ⟨h.bare, h.ascii⟩
  · rintro ⟨⟨hcomment, lexemes, hinner, hends⟩, hascii⟩
    obtain ⟨after, hafter, -⟩ := self.lex_after
    refine ⟨_, _, after, self.lex_before, lex_of_ascii hinner hcomment hascii, hafter, ?_⟩
    rw [lex_wrap_of_complete hinner hcomment hafter, statementLexemes_append,
      statementLexemes_eq_self.mpr hends]

/-! ## 6. A comment and a semicolon -/

/-- A read with a comment after it. -/
def commentedSql : String := "SELECT * FROM users -- all"

def commentedCrates : Crates :=
  { usersCrates with parseSql := fun text =>
      if text = commentedSql then some [.query (selectAll [bareIdent "users"] none)] else none }

/-- The parser on one statement. -/
def statementCrates (sql : String) (statement : SqlStatement) : SqlCrates where
  parse text := if text = sql then .ok [statement] else .error ""
  toUppercase := id
  fromStr := fun _ => none

/-- **A comment swallows the wrapper**, whether the text is taken as it is or trimmed, and a
semicolon stays in a text that is taken as it is. -/
theorem comment_swallows_wrapper :
    (ReadClassifier.new ["users"]).classify commentedCrates commentedSql [] =
        .ok ⟨10303469848723843506, ["users"], [], commentedSql, []⟩ ∧
      ¬ json.Keeps commentedSql ∧ ¬ probe.Keeps commentedSql ∧
    validateOneStatement (statementCrates "DELETE FROM users -- all" (.delete none))
        "DELETE FROM users -- all" 1000 = .ok ⟨"DELETE", false, true⟩ ∧
      ¬ count.Keeps "DELETE FROM users -- all" ∧
    validateOneStatement
        (statementCrates "SELECT * FROM users;" (.query (selectAll [bareIdent "users"] none)))
        "SELECT * FROM users;" 1000 = .ok ⟨"SELECT", true, false⟩ ∧
      ¬ select.Keeps "SELECT * FROM users;" := by
  refine ⟨by rfl, fun h => ?_, fun h => ?_, by rfl, fun h => ?_, by rfl, fun h => ?_⟩
  · exact absurd h.notComment (by decide +kernel)
  · exact absurd h.notComment (by decide +kernel)
  · exact absurd h.notComment (by decide +kernel)
  · obtain ⟨-, lexemes, hlexemes, -, hlast⟩ := h.bare
    have hsemicolon : (lex (select.inner "SELECT * FROM users;")).map List.getLast? =
        some (some semicolon) := by decide +kernel
    rw [hlexemes, Option.map_some, Option.some.injEq] at hsemicolon
    exact hlast hsemicolon

end Wrapper

end PgPaw
