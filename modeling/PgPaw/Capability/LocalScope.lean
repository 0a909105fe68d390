/-
# The scope that `begin_scoped` sets up

What PostgreSQL makes of the statements of `begin_scoped`: settings for the length of the
transaction, read off their lexemes, and a role.  It keeps as much of a role's name as fits in a
`name`, and it takes the role `none` to mean no role at all, also between quotes, so that what
follows runs as the user of the session (`LocalScope.runsAs`).

`session` follows the operations of a program and what was answered to them, and
`obeys_beginScoped` says where `begin_scoped` leads.
-/
import PgPaw.Capability.Quoting
import PgPaw.Lib.Contract
import PgPaw.Sql.Script

namespace PgPaw

open Sql.Lexer Sql.Script Program

/-! ## 1. What the server reads -/

/-- A role's name as the server keeps it. -/
def truncatedName (name : String) : String :=
  String.ofList (clip NAME_BYTES name.toList)

theorem truncatedName_of_le {name : String} (h : nameBytes name.toList ≤ NAME_BYTES) :
    truncatedName name = name := by
  rw [truncatedName, clip_of_le h, String.ofList_toList]

/-- What `SET LOCAL` sets. -/
inductive Assignment
  | role (name : String)
  | setting (name value : String)
  deriving DecidableEq, Repr

/-- The name of a setting, part by part, and its value. -/
def settingOf : List Lexeme → Option (String × String)
  | [⟨.word, name⟩, ⟨.operator, ['=']⟩, ⟨.string .standard, value⟩] =>
    some (String.ofList name, String.ofList value)
  | ⟨.word, name⟩ :: ⟨.punct, ['.']⟩ :: rest =>
    (settingOf rest).map fun setting => (String.ofList name ++ "." ++ setting.1, setting.2)
  | _ => none

/-- `SET LOCAL`, of a quoted role or of a setting with a string. -/
def Assignment.ofLexemes (lexemes : List Lexeme) : Option Assignment :=
  if startsWith ["set", "local", "role"] lexemes then
    match lexemes.drop 3 with
    | [⟨.delimited false, name⟩] => some (.role (truncatedName (String.ofList name)))
    | _ => none
  else if startsWith ["set", "local"] lexemes then
    (settingOf (lexemes.drop 2)).map fun setting => .setting setting.1 setting.2
  else none

/-- What the server makes of a text, if it is a `SET LOCAL`. -/
def Assignment.read (sql : String) : Option Assignment :=
  (serverLex sql).bind Assignment.ofLexemes

/-- What a setting of `begin_scoped` is meant to set. -/
def Setting.assignment : Setting → Assignment
  | .timeout => .setting "statement_timeout" (decimal SQL_DEADLINE_SECS ++ "s")
  | .claims json => .setting "request.jwt.claims" json
  | .headers json => .setting "request.headers" json
  | .role name => .role (truncatedName name)

theorem Setting.three_le_frontLexemes (setting : Setting) : 3 ≤ setting.frontLexemes.length := by
  cases setting <;> simp [Setting.frontLexemes]

/-- The words of a `SET LOCAL` are in front of the value. -/
theorem startsWith_setting {words : List String} (hlen : words.length ≤ 3) (setting : Setting) :
    startsWith words (setting.frontLexemes ++ [setting.valueLexeme]) =
      startsWith words setting.frontLexemes :=
  startsWith_append (hlen.trans setting.three_le_frontLexemes) _

theorem startsWith_role (setting : Setting) :
    startsWith ["set", "local", "role"] (setting.frontLexemes ++ [setting.valueLexeme]) =
      (setting.kind == .delimited false) := by
  rw [startsWith_setting (by decide)]
  cases setting <;> rfl

theorem startsWith_local (setting : Setting) :
    startsWith ["set", "local"] (setting.frontLexemes ++ [setting.valueLexeme]) = true := by
  rw [startsWith_setting (by decide)]
  cases setting <;> rfl

theorem ofLexemes_setting (setting : Setting) :
    Assignment.ofLexemes (setting.frontLexemes ++ [setting.valueLexeme]) =
      some setting.assignment := by
  rw [Assignment.ofLexemes, startsWith_role, startsWith_local]
  cases setting with
  | role name =>
    simp [Setting.frontLexemes, Setting.valueLexeme, Setting.kind, Setting.value,
      Setting.assignment]
  | timeout | claims json | headers json =>
    simp [Setting.frontLexemes, Setting.valueLexeme, Setting.kind, Setting.value,
      Setting.assignment, Setting.wordLexeme, settingOf]

/-- **The server reads what is meant**, or nothing. -/
theorem read_text (setting : Setting) : Assignment.read setting.text =
    if setting.refused then none else some setting.assignment := by
  rw [Assignment.read, setting.serverLex_text]
  cases setting.refused with
  | true => rfl
  | false => exact ofLexemes_setting setting

/-! ## 2. The session of a transaction -/

/-- What is set for the length of a transaction. -/
structure LocalScope where
  role : Option String
  settings : String → Option String

namespace LocalScope

/-- Of a transaction that has just begun. -/
def fresh : LocalScope := ⟨none, fun _ => none⟩

def assign (scope : LocalScope) : Assignment → LocalScope
  | .role name => { scope with role := some name }
  | .setting name value =>
    { scope with settings := Function.update scope.settings name (some value) }

/-- The role that statements run as.  The name `none` takes the role back, between quotes or
not. -/
def runsAs (owner : String) (scope : LocalScope) : String :=
  match scope.role with
  | none => owner
  | some name => if name = "none" then owner else name

/-- **What `begin_scoped` is called for**, and nothing else. -/
structure IsFor (role claims headers : Option String) (scope : LocalScope) : Prop where
  role : scope.role = role.map truncatedName
  timeout : scope.settings "statement_timeout" = some (decimal SQL_DEADLINE_SECS ++ "s")
  claims : scope.settings "request.jwt.claims" = claims
  headers : scope.settings "request.headers" = some (headers.getD "\x7b\x7d")
  others : ∀ name, name ∉ ["statement_timeout", "request.jwt.claims", "request.headers"] →
    scope.settings name = none

/-- The settings, one after the other. -/
def assignAll (scope : LocalScope) (settings : List Setting) : LocalScope :=
  settings.foldl (fun scope setting => scope.assign setting.assignment) scope

theorem isFor_assignAll (role claims headers : Option String) :
    (fresh.assignAll (Setting.all role claims headers)).IsFor role claims headers := by
  constructor <;> cases role <;> cases claims <;>
    simp +contextual [assignAll, Setting.all, Setting.assignment, assign, fresh,
      Function.update]

/-- The role that `begin_scoped` ends in. -/
theorem IsFor.runsAs {owner role : String} {claims headers : Option String} {scope : LocalScope}
    (h : scope.IsFor (some role) claims headers) : scope.runsAs owner =
      if truncatedName role = "none" then owner else truncatedName role := by
  rw [LocalScope.runsAs, h.role]
  rfl

end LocalScope

/-- What an operation makes of the session, when it is answered. -/
def sessionAfter (session : Option LocalScope) (e : DbOp × Await DbReply) : Option LocalScope :=
  match e.1, e.2.reply with
  | .transaction, some (.ok _) => some .fresh
  | .txQuery text _, some (.ok _) =>
    session.map fun scope => (Assignment.read text).elim scope scope.assign
  | .commit, _ | .rollback, _ => none
  | _, _ => session

/-- The transaction that is open after these operations, and what is set for it. -/
def session (trace : Trace DbOp DbReply) : Option LocalScope := trace.foldl sessionAfter none

/-- The role that an operation runs as, after others. -/
def runsAs (owner : String) (before : Trace DbOp DbReply) : DbOp → String
  | .query .. => owner
  | _ => (session before).elim owner (·.runsAs owner)

/-- The server has read what it answers: it reads no text that has no lexemes, and finds no role
of a name that is too long. -/
def ServerReads (op : DbOp) (await : Await DbReply) : Prop :=
  (∃ rows, await.reply = some (.ok rows)) → match op with
    | .txQuery text _ => (serverLex text).isSome
    | .query text params => text = SqlOperations.ownerRolesText →
        ∀ role, params = [.string role] → nameBytes role.toList ≤ NAME_BYTES
    | _ => True

/-- **A setting that is answered is made.** -/
theorem sessionAfter_setting {setting : Setting} {await : Await DbReply} {rows : List DbRow}
    (hreply : await.reply = some (.ok rows)) (hread : ServerReads setting.query await)
    (scope : LocalScope) : sessionAfter (some scope) (setting.query, await) =
      some (scope.assign setting.assignment) := by
  have hsome : (serverLex setting.text).isSome := hread ⟨rows, hreply⟩
  have hassigned : Assignment.read setting.text = some setting.assignment := by
    rw [setting.serverLex_text] at hsome
    rw [read_text]
    cases hrefused : setting.refused with
    | true => simp [hrefused] at hsome
    | false => rfl
  simp only [sessionAfter, Setting.query, hreply, Option.map_some, hassigned, Option.elim_some]

section Begun

variable {c : Contract DbOp DbReply} {trace : Trace DbOp DbReply}

/-- The settings are made, one by one. -/
theorem foldl_settings (hc : ∀ op await, c.relies op await → ServerReads op await)
    {settings : List Setting} (hran : c.Ran (settings.map Setting.query) trace)
    (scope : LocalScope) :
    trace.foldl sessionAfter (some scope) = some (scope.assignAll settings) := by
  induction settings generalizing trace scope with
  | nil => rw [Contract.ran_nil.mp hran]; rfl
  | cons setting settings ih =>
    obtain ⟨⟨_, await⟩, rest, rfl, rfl, -⟩ := List.map_eq_cons_iff.mp hran.ops
    obtain ⟨-, ⟨rows, hreply⟩, hrely, hrest⟩ := Contract.ran_cons.mp hran
    rw [List.foldl_cons, sessionAfter_setting hreply (hc _ _ hrely)]
    exact ih hrest _

/-- **What is open when `begin_scoped` has come so far.** -/
theorem session_of_begun (hc : ∀ op await, c.relies op await → ServerReads op await)
    {start : Trace DbOp DbReply} {settings : List Setting}
    (hran : c.RanFrom start (.transaction :: settings.map Setting.query) trace) :
    session trace = some (LocalScope.fresh.assignAll settings) := by
  obtain ⟨begun, rfl, hbegun⟩ := hran
  obtain ⟨⟨_, await⟩, rest, rfl, rfl, -⟩ := List.map_eq_cons_iff.mp hbegun.ops
  obtain ⟨-, hanswered, -, hrest⟩ := Contract.ran_cons.mp hbegun
  obtain ⟨rows, hreply⟩ : ∃ rows, await.reply = some (.ok rows) := hanswered
  have hfresh (session : Option LocalScope) :
      sessionAfter session (DbOp.transaction, await) = some .fresh := by
    simp only [sessionAfter, hreply]
  rw [session, List.foldl_append, List.foldl_cons, hfresh]
  exact foldl_settings hc hrest _

end Begun

/-! ## 3. `begin_scoped` -/

theorem beginScoped_eq (role claims headers : Option String) :
    SqlOperations.beginScoped role claims headers =
      Contract.requestAll
        (.transaction :: (Setting.all role claims headers).map Setting.query) := by
  have htimeout : Setting.timeout.text =
      "SET LOCAL statement_timeout = '" ++ decimal SQL_DEADLINE_SECS ++ "s'" := by
    decide +kernel
  unfold SqlOperations.beginScoped
  rw [← htimeout]
  cases role with
  | none => cases claims <;> rfl
  | some role =>
    -- the last one is not gone on from
    have hlast : discard (Db.perform (.txQuery ("SET LOCAL ROLE " ++ sqlIdent role) [])) =
        Contract.requestAll [(Setting.role role).query] := (Contract.bind_pure_unit _).symm
    simp only [hlast]
    cases claims <;> rfl

/-- **Where `begin_scoped` leads.**  Between its begin and its end the transaction has some of
the settings, and at the end all of them. -/
theorem obeys_beginScoped {c : Contract DbOp DbReply} {β : Type} {start : Trace DbOp DbReply}
    {role claims headers : Option String}
    {post : Except CacheError β → Trace DbOp DbReply → Prop}
    (hc : ∀ op await, c.relies op await → ServerReads op await)
    (hbegin : c.allows start .transaction)
    (hset : ∀ done setting rest, Setting.all role claims headers = done ++ setting :: rest →
      ∀ before, c.RanFrom start (.transaction :: done.map Setting.query) before →
        (∃ scope, session before = some scope) → c.allows before setting.query)
    (herror : ∀ done op rest, .transaction :: (Setting.all role claims headers).map Setting.query =
      done ++ op :: rest → ∀ e trace, c.FailedFrom start done op e trace → post (.error e) trace) :
    c.Obeys (· = start) (SqlOperations.beginScoped role claims headers).run
      (Contract.goingOn (fun _ => c.RanFrom start
        (.transaction :: (Setting.all role claims headers).map Setting.query)) post) := by
  rw [beginScoped_eq]
  refine Contract.Obeys.weaken (Contract.obeys_requestAll ?_ herror)
    (fun _ h => Contract.ranFrom_nil.mpr h) fun _ _ h => h
  rintro done op rest hall before hran
  cases done with
  | nil =>
    obtain ⟨rfl, -⟩ := List.cons.inj hall
    rw [Contract.ranFrom_nil.mp hran]
    exact hbegin
  | cons first done =>
    obtain ⟨rfl, hrest⟩ := List.cons.inj hall
    obtain ⟨settings, later, hsettings, rfl, hlater⟩ := List.map_eq_append_iff.mp hrest
    obtain ⟨setting, more, rfl, rfl, -⟩ := List.map_eq_cons_iff.mp hlater
    exact hset settings setting more hsettings before hran ⟨_, session_of_begun hc hran⟩

/-- A block whose result is gone on with, whichever it is. -/
theorem obeys_attempt {c : Contract DbOp DbReply} {α β : Type} {pre : Trace DbOp DbReply → Prop}
    {middle : Except CacheError α → Trace DbOp DbReply → Prop}
    {post : Except CacheError β → Trace DbOp DbReply → Prop} {block : Db α}
    (h : c.Obeys pre block.run middle) :
    c.Obeys pre (Db.attempt block).run (Contract.goingOn middle post) :=
  Contract.Obeys.bind h fun _ => Contract.Obeys.done fun _ h => h

theorem obeys_orError {c : Contract DbOp DbReply} {α β : Type} {pre : Trace DbOp DbReply → Prop}
    {middle : α → Trace DbOp DbReply → Prop}
    {post : Except CacheError β → Trace DbOp DbReply → Prop}
    {result : Except CacheError α} (hmiddle : ∀ a, result = .ok a → ∀ t, pre t → middle a t)
    (herror : ∀ e, result = .error e → ∀ t, pre t → post (.error e) t) :
    c.Obeys pre (Db.orError result).run (Contract.goingOn middle post) := by
  refine Contract.Obeys.done fun t ht => ?_
  cases result with
  | ok a => exact hmiddle a rfl t ht
  | error e => exact herror e rfl t ht

end PgPaw
