/-
# Names, relations and triggers

What PostgreSQL makes of the commands that put a statement trigger on a table.

A name without quotes is folded to lower case, and any name is cut off after 63 bytes, between two
characters.  A relation of a bare name is the one in the first schema of the search path that has
a relation of the name, whatever kind of relation it is; temporary relations and the catalog of
the system are in front of that path.

Of the commands, the form with bare names is here.  A function is one of no arguments that
returns a trigger; it is put into the schema that is searched for it.
-/
import PgPaw.Text
import PgPaw.Lib.Transaction
import PgPaw.Sql.Script

namespace PgPaw.Sql.Catalog

open Lexer Script

/-! ## 1. Names -/

/-- A name that the catalog can hold. -/
structure Identifier where
  text : String
  nonempty : text ≠ ""
  noNul : '\x00' ∉ text.toList
  short : nameBytes text.toList ≤ NAME_BYTES
  deriving DecidableEq

theorem toLower_of_ge {c : Char} (h : 128 ≤ c.toNat) : c.toLower = c := by
  refine dif_neg fun ⟨_, hle⟩ => ?_
  have hle' : c.toNat ≤ 90 := hle
  omega

/-- Letter case is a matter of ASCII. -/
theorem forall_toLower {P : Char → Char → Prop} (hascii : ∀ n < 128, P (Char.ofNat n)
    (Char.ofNat n).toLower) (hsame : ∀ c, P c c) (c : Char) : P c c.toLower := by
  rcases Nat.lt_or_ge c.toNat 128 with h | h
  · have hc := hascii c.toNat h
    rwa [Char.ofNat_toNat] at hc
  · rw [toLower_of_ge h]
    exact hsame c

theorem utf8Size_toLower (c : Char) : c.toLower.utf8Size = c.utf8Size :=
  forall_toLower (P := fun c d => d.utf8Size = c.utf8Size) (by decide +kernel) (fun _ => rfl) c

theorem toLower_eq_nul (c : Char) : c.toLower = '\x00' → c = '\x00' :=
  forall_toLower (P := fun c d => d = '\x00' → c = '\x00') (by decide +kernel) (fun _ h => h) c

theorem nameBytes_map_toLower (text : List Char) :
    nameBytes (text.map Char.toLower) = nameBytes text := by
  induction text with
  | nil => rfl
  | cons c text ih => rw [List.map_cons, nameBytes_cons, nameBytes_cons, ih, utf8Size_toLower]

/-- The name in lower case. -/
def Identifier.lower (i : Identifier) : Identifier where
  text := toAsciiLowercase i.text
  nonempty h := by
    have hlist := congrArg String.toList h
    simp only [toAsciiLowercase, String.toList_ofList, String.toList_empty, List.map_eq_nil_iff,
      String.toList_eq_nil_iff] at hlist
    exact i.nonempty hlist
  noNul h := by
    rw [toAsciiLowercase, String.toList_ofList] at h
    obtain ⟨c, hc, hnul⟩ := List.mem_map.mp h
    rw [toLower_eq_nul c hnul] at hc
    exact i.noNul hc
  short := by
    rw [toAsciiLowercase, String.toList_ofList, nameBytes_map_toLower]
    exact i.short

/-! ## 2. Relations -/

inductive RelKind
  | table
  | partitioned
  | foreign
  | view
  /-- An index, a sequence, a materialized view or a composite type. -/
  | other
  deriving DecidableEq, Repr

structure Relation where
  schema : String
  name : Identifier
  kind : RelKind
  deriving DecidableEq

namespace Relation

/-- The relation has a row in `pg_tables`. -/
def isTable (r : Relation) : Bool := r.kind == .table || r.kind == .partitioned

/-- A statement trigger for `INSERT`, `UPDATE`, `DELETE` and `TRUNCATE` can be put on the
relation: a view is not truncated, and a table of the system is not to be changed. -/
def takesTrigger (r : Relation) : Bool :=
  (r.isTable || r.kind == .foreign) && r.schema != "pg_catalog"

end Relation

/-- The relations of a database, and where a bare name is looked up. -/
structure Relations where
  all : List Relation
  unique : ∀ r ∈ all, ∀ s ∈ all, r.schema = s.schema → r.name = s.name → r = s
  /-- The schemas that are searched, in this order. -/
  path : List String

/-- The relation that a bare name stands for. -/
def Relations.resolve (rels : Relations) (name : String) : Option Relation :=
  rels.path.findSome? fun schema =>
    rels.all.find? fun r => r.schema == schema && r.name.text == name

theorem Relations.resolve_name {rels : Relations} {name : String} {r : Relation}
    (h : rels.resolve name = some r) : r.name.text = name := by
  obtain ⟨schema, -, hfind⟩ := List.exists_of_findSome?_eq_some h
  have hr := List.find?_some hfind
  rw [Bool.and_eq_true, beq_iff_eq, beq_iff_eq] at hr
  exact hr.2

/-! ## 3. Commands -/

/-- A command on the triggers of a database. -/
inductive Ddl
  | createFunction (name : String) (body : List Char)
  | dropTrigger (name relation : String)
  | createTrigger (name relation function : String)
  deriving DecidableEq, Repr

/-- The name that a lexeme is.  (Of the words that are keywords some are no names.) -/
def nameOf (l : Lexeme) : Option String :=
  match l.kind with
  | .word => some (String.ofList (clip NAME_BYTES (l.text.map Char.toLower)))
  | .delimited false => some (String.ofList (clip NAME_BYTES l.text))
  | _ => none

def takeName : List Lexeme → Option (String × List Lexeme)
  | [] => none
  | l :: lexemes => (nameOf l).map fun name => (name, lexemes)

/-- The words, and what follows them. -/
def expect (words : List String) (lexemes : List Lexeme) : Option (List Lexeme) :=
  if startsWith words lexemes then some (lexemes.drop words.length) else none

/-- The brackets of a function of no arguments. -/
def brackets : List Lexeme := [⟨.punct, ['(']⟩, ⟨.punct, [')']⟩]

def parseFunction (s : List Lexeme) : Option Ddl := do
  let (name, s) ← takeName s
  let s ← if s.take 2 = brackets then some (s.drop 2) else none
  match ← expect ["returns", "trigger", "language", "plpgsql", "as"] s with
  | [⟨.dollarString, body⟩] => some (.createFunction name body)
  | _ => none

def parseDrop (s : List Lexeme) : Option Ddl := do
  let (name, s) ← takeName s
  let (relation, s) ← takeName (← expect ["on"] s)
  if s = [] then some (.dropTrigger name relation) else none

def parseTrigger (s : List Lexeme) : Option Ddl := do
  let (name, s) ← takeName s
  let (relation, s) ← takeName (← expect
    ["after", "insert", "or", "update", "or", "delete", "or", "truncate", "on"] s)
  let (function, s) ← takeName (← expect
    ["for", "each", "statement", "execute", "function"] s)
  if s = brackets then some (.createTrigger name relation function) else none

def parseWork (s : Command) : Option Ddl :=
  if startsWith ["create", "trigger"] s then parseTrigger (s.drop 2)
  else if startsWith ["drop", "trigger", "if", "exists"] s then parseDrop (s.drop 4)
  else if startsWith ["create", "or", "replace", "function"] s then parseFunction (s.drop 4)
  else none

/-- The command that lexemes are. -/
def parse (s : Command) : Option (Transaction.Command Ddl) :=
  if s.begins then some .begin
  else if s.commits then some (.commit s.chains)
  else if s.rollsBack then some (.rollback s.chains)
  else (parseWork s).map .work

section Parse

variable {table function : Lexeme} {name relation : String}

theorem expect_words {expected texts : List String}
    (h : texts.map toAsciiLowercase = expected) (rest : List Lexeme) :
    expect expected (words texts ++ rest) = some rest := by
  have hlen : expected.length = (words texts).length := by simp [← h]
  rw [expect, if_pos (startsWith_words h rest), hlen, List.drop_left]

theorem takeName_cons (h : nameOf function = some name) (rest : List Lexeme) :
    takeName (function :: rest) = some (name, rest) := by
  rw [takeName, h]
  rfl

/-- A command that is none of a transaction. -/
theorem parse_of_head {text : String} {texts : List String} {rest : List Lexeme} {work : Ddl}
    (h : toAsciiLowercase text ∉ ["begin", "start", "end", "commit", "abort", "rollback"])
    (hwork : parseWork (words (text :: texts) ++ rest) = some work) :
    parse (words (text :: texts) ++ rest) = some (.work work) := by
  have hne (word : String) (hword : toAsciiLowercase text ≠ word) (more : List String) :
      startsWith (word :: more) (words (text :: texts) ++ rest) = false := by
    have hkeyword : keyword ⟨.word, text.toList⟩ = some (toAsciiLowercase text) := rfl
    exact startsWith_of_ne (by rwa [hkeyword, Ne, Option.some.injEq]) _ _
  simp only [List.mem_cons, List.not_mem_nil, or_false, not_or] at h
  obtain ⟨hbegin, hstart, hend, hcommit, habort, hrollback⟩ := h
  simp [parse, Command.begins, Command.commits, Command.rollsBack, hne _ hbegin, hne _ hstart,
    hne _ hend, hne _ hcommit, hne _ habort, hne _ hrollback, hwork]

theorem parse_function (hname : nameOf function = some name) (body : List Char) :
    parse (words ["CREATE", "OR", "REPLACE", "FUNCTION"] ++ function :: (brackets ++
      words ["RETURNS", "trigger", "LANGUAGE", "plpgsql", "AS"] ++ [⟨.dollarString, body⟩])) =
      some (.work (.createFunction name body)) := by
  refine parse_of_head (by decide) ?_
  generalize hrest : function :: (brackets ++
    words ["RETURNS", "trigger", "LANGUAGE", "plpgsql", "AS"] ++ [⟨.dollarString, body⟩]) = rest
  have hother (expected : List String) (hlen : expected.length ≤ 4) :
      startsWith expected (words ["CREATE", "OR", "REPLACE", "FUNCTION"] ++ rest) =
        startsWith expected (words ["CREATE", "OR", "REPLACE", "FUNCTION"]) :=
    startsWith_append hlen rest
  have htrigger : startsWith ["create", "trigger"]
      (words ["CREATE", "OR", "REPLACE", "FUNCTION"] ++ rest) = false := by
    rw [hother _ (by decide)]
    decide +kernel
  have hdrop : startsWith ["drop", "trigger", "if", "exists"]
      (words ["CREATE", "OR", "REPLACE", "FUNCTION"] ++ rest) = false := by
    rw [hother _ (by decide)]
    decide +kernel
  have hfunction : startsWith ["create", "or", "replace", "function"]
      (words ["CREATE", "OR", "REPLACE", "FUNCTION"] ++ rest) = true :=
    startsWith_words (by decide) rest
  have hparse : parseFunction rest = some (.createFunction name body) := by
    have hreturns : expect ["returns", "trigger", "language", "plpgsql", "as"]
        (words ["RETURNS", "trigger", "LANGUAGE", "plpgsql", "AS"] ++ [⟨.dollarString, body⟩]) =
          some [⟨.dollarString, body⟩] := expect_words (by decide) _
    simp [parseFunction, ← hrest, takeName_cons hname, brackets, hreturns]
  rw [parseWork, htrigger, hdrop, hfunction, ← hparse]
  rfl

theorem parse_drop (hname : nameOf function = some name)
    (hrelation : nameOf table = some relation) :
    parse (words ["DROP", "TRIGGER", "IF", "EXISTS"] ++ function :: (words ["ON"] ++ [table])) =
      some (.work (.dropTrigger name relation)) := by
  refine parse_of_head (by decide) ?_
  generalize hrest : function :: (words ["ON"] ++ [table]) = rest
  have htrigger : startsWith ["create", "trigger"]
      (words ["DROP", "TRIGGER", "IF", "EXISTS"] ++ rest) = false :=
    startsWith_of_ne (by decide) _ _
  have hdrop : startsWith ["drop", "trigger", "if", "exists"]
      (words ["DROP", "TRIGGER", "IF", "EXISTS"] ++ rest) = true :=
    startsWith_words (by decide) rest
  have hparse : parseDrop rest = some (.dropTrigger name relation) := by
    have hon : expect ["on"] (words ["ON"] ++ [table]) = some [table] :=
      expect_words (by decide) _
    simp [parseDrop, ← hrest, takeName_cons hname, hon, takeName_cons hrelation]
  rw [parseWork, htrigger, hdrop, ← hparse]
  rfl

theorem parse_trigger (hname : nameOf function = some name)
    (hrelation : nameOf table = some relation) :
    parse (words ["CREATE", "TRIGGER"] ++ function :: (words ["AFTER", "INSERT", "OR", "UPDATE",
      "OR", "DELETE", "OR", "TRUNCATE", "ON"] ++ table :: (words ["FOR", "EACH", "STATEMENT",
        "EXECUTE", "FUNCTION"] ++ function :: brackets))) =
      some (.work (.createTrigger name relation name)) := by
  refine parse_of_head (by decide) ?_
  generalize hrest : function :: (words ["AFTER", "INSERT", "OR", "UPDATE", "OR", "DELETE", "OR",
    "TRUNCATE", "ON"] ++ table :: (words ["FOR", "EACH", "STATEMENT", "EXECUTE", "FUNCTION"] ++
      function :: brackets)) = rest
  have htrigger : startsWith ["create", "trigger"] (words ["CREATE", "TRIGGER"] ++ rest) = true :=
    startsWith_words (by decide) rest
  have hparse : parseTrigger rest = some (.createTrigger name relation name) := by
    have hafter (more : List Lexeme) : expect
        ["after", "insert", "or", "update", "or", "delete", "or", "truncate", "on"]
        (words ["AFTER", "INSERT", "OR", "UPDATE", "OR", "DELETE", "OR", "TRUNCATE", "ON"] ++
          more) = some more := expect_words (by decide) more
    have hexecute (more : List Lexeme) : expect
        ["for", "each", "statement", "execute", "function"]
        (words ["FOR", "EACH", "STATEMENT", "EXECUTE", "FUNCTION"] ++ more) = some more :=
      expect_words (by decide) more
    simp [parseTrigger, ← hrest, takeName_cons hname, hafter, takeName_cons hrelation, hexecute]
  rw [parseWork, htrigger, ← hparse]
  rfl

end Parse

/-! ## 4. What the commands do -/

structure Trigger where
  relation : Relation
  name : String
  function : String
  deriving DecidableEq

/-- The functions and the triggers, and for the record what commands have found. -/
structure Triggers where
  functions : String → Option (List Char)
  triggers : List Trigger
  /-- The relations that names of commands stood for. -/
  found : List Relation
  /-- The relations that commands have put triggers on. -/
  created : List Relation

inductive DdlError
  | syntaxError
  | undefinedTable (name : String)
  | wrongObjectType (name : String)
  | undefinedFunction (name : String)
  | duplicateObject (name : String)
  | inFailedTransaction
  deriving DecidableEq, Repr

section Run

variable (rels : Relations)

/-- A command.  `DROP TRIGGER IF EXISTS` on no relation at all is a notice. -/
def run : Ddl → Triggers → Except DdlError Triggers
  | .createFunction name body, s =>
    .ok { s with functions := Function.update s.functions name (some body) }
  | .dropTrigger name relation, s => match rels.resolve relation with
    | none => .ok s
    | some r => .ok { s with
        triggers := s.triggers.filter fun t => !(t.relation == r && t.name == name)
        found := s.found ++ [r] }
  | .createTrigger name relation function, s => match rels.resolve relation with
    | none => .error (.undefinedTable relation)
    | some r =>
      if !r.takesTrigger then .error (.wrongObjectType relation)
      else if s.functions function = none then .error (.undefinedFunction function)
      else if s.triggers.any fun t => t.relation == r && t.name == name then
        .error (.duplicateObject name)
      else .ok { s with
        triggers := s.triggers ++ [⟨r, name, function⟩]
        found := s.found ++ [r]
        created := s.created ++ [r] }

/-- The transactions. -/
def engine : Transaction.Engine Ddl Triggers DdlError where
  run := run rels
  refuse _ _ := none
  atCommit s := .ok s
  aborted := .inFailedTransaction

end Run

/-! ## 5. Putting a trigger -/

section Put

variable {rels : Relations} {action : List Char} {name relation : String} {s : Triggers}
  {r : Relation}

/-- A function, and a trigger of its name in the place of one that is there. -/
def putTrigger (action : List Char) (name relation : String) : List Ddl :=
  [.createFunction name action, .dropTrigger name relation, .createTrigger name relation name]

/-- What these commands leave. -/
def Triggers.put (s : Triggers) (action : List Char) (name : String) (r : Relation) : Triggers where
  functions := Function.update s.functions name (some action)
  triggers := s.triggers.filter (fun t => !(t.relation == r && t.name == name)) ++ [⟨r, name, name⟩]
  found := s.found ++ [r] ++ [r]
  created := s.created ++ [r]

theorem putTrigger_ok (hr : rels.resolve relation = some r) (htakes : r.takesTrigger = true) :
    (putTrigger action name relation).foldlM (fun s i => (engine rels).run i s) s =
      .ok (s.put action name r) := by
  let s₁ : Triggers := { s with functions := Function.update s.functions name (some action) }
  let s₂ : Triggers := { s₁ with
    triggers := s.triggers.filter fun t => !(t.relation == r && t.name == name)
    found := s.found ++ [r] }
  have hfunction : (engine rels).run (.createFunction name action) s = .ok s₁ := rfl
  have hdrop : (engine rels).run (.dropTrigger name relation) s₁ = .ok s₂ := by
    simp only [engine, run, hr]
    rfl
  have htrigger : (engine rels).run (.createTrigger name relation name) s₂ =
      .ok (s.put action name r) := by
    have hthere : s₂.functions name ≠ none := by simp [s₂, s₁]
    have hnone : s₂.triggers.any (fun t => t.relation == r && t.name == name) = false := by
      rw [List.any_eq_false]
      intro t ht
      have hkept := (List.mem_filter.mp ht).2
      rw [Bool.not_eq_true'] at hkept
      rw [hkept]
      exact Bool.false_ne_true
    simp only [engine, run, hr, htakes, hnone, if_neg hthere, Bool.not_true, Bool.false_eq_true,
      if_false]
    rfl
  rw [putTrigger, List.foldlM_cons, hfunction]
  change List.foldlM _ s₁ _ = _
  rw [List.foldlM_cons, hdrop]
  change List.foldlM _ s₂ _ = _
  rw [List.foldlM_cons, htrigger]
  rfl

theorem putTrigger_error (h : ∀ r, rels.resolve relation = some r → r.takesTrigger = false) :
    ∃ e, (putTrigger action name relation).foldlM (fun s i => (engine rels).run i s) s =
      .error e := by
  obtain ⟨s₁, hfunction⟩ : ∃ s₁, (engine rels).run (.createFunction name action) s = .ok s₁ :=
    ⟨_, rfl⟩
  obtain ⟨s₂, hdrop⟩ : ∃ s₂, (engine rels).run (.dropTrigger name relation) s₁ = .ok s₂ := by
    simp only [engine, run]
    cases rels.resolve relation with
    | none => exact ⟨_, rfl⟩
    | some r => exact ⟨_, rfl⟩
  obtain ⟨e, htrigger⟩ :
      ∃ e, (engine rels).run (.createTrigger name relation name) s₂ = .error e := by
    simp only [engine, run]
    cases hr : rels.resolve relation with
    | none => exact ⟨_, rfl⟩
    | some r => exact ⟨.wrongObjectType relation, by simp [h r hr]⟩
  refine ⟨e, ?_⟩
  rw [putTrigger, List.foldlM_cons, hfunction]
  change List.foldlM _ s₁ _ = _
  rw [List.foldlM_cons, hdrop]
  change List.foldlM _ s₂ _ = _
  rw [List.foldlM_cons, htrigger]
  rfl

end Put

end PgPaw.Sql.Catalog
