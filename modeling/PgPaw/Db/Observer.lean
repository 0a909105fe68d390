/-
# `db/primary.rs`: the script of the observer

`PrimaryObserver::start` sends one text: in a transaction, for each table that `scan_schema` saw a
function and a statement trigger.  The table's name stands in it in quotes, as `scan_schema` gives
it, and the function's name is the table's with every other character an underscore.

Quoting and splitting are sound: whatever characters are in the names, the server reads just these
three commands for each table (`script_installation`).  Functions of one name, of two tables or
because the server cuts names off, do no harm, since all have one body and a trigger's name is a
name of its table only.

But `scan_schema` puts the names in lower case and leaves their schemas out.  So the observer
covers the tables exactly if no table has an upper-case letter in its name and each is what its
bare name finds (`covers_iff`); a database with a table `"Workspace"` in it is not opened at all
(`upper_case_not_opened`).

What `open` does before, and errors of `LISTEN` and `UNLISTEN`, are left out.
-/
import Mathlib.Data.List.Dedup
import PgPaw.Capability.Quoting
import PgPaw.Sql.Catalog
import PgPaw.Sql.LexTail

namespace PgPaw.Observer

open Sql (lexer)
open Sql.Lexer Sql.Script Sql.Catalog

/-! ## 1. `scan_schema` and `PrimaryObserver::start` -/

/-- The tables `scan_schema` sees. -/
def seen (r : Relation) : Bool :=
  r.isTable && !(["pg_catalog", "information_schema"].contains r.schema) &&
    r.name.text != "_pglite_replica"

/-- `scan_schema`, the names of the tables. -/
def scanSchema (rels : Relations) : List String :=
  ((rels.all.filter seen).map fun r => toAsciiLowercase r.name.text).dedup

/-- What the loop over a `HashSet` of them may go through. -/
structure Order (rels : Relations) where
  tables : List String
  perm : tables.Perm (scanSchema rels)

def channelName (pid : Nat) : String := "pgpaw_primary_" ++ decimal pid

def functionName (table : String) : String :=
  "_pgpaw_observe_" ++
    String.ofList (table.toList.map fun c => if !c.isAlphanum then '_' else c)

-- two tables may have one function
example : functionName "a-b" = functionName "a_b" := by decide

/-- What the trigger does. -/
def body (channel : String) : String :=
  " BEGIN PERFORM pg_notify('" ++ channel ++
    "', txid_current()::text || ':' || TG_TABLE_NAME); RETURN NULL; END "

/-- The text for a table. -/
def tableInstallation (channel table : String) : String :=
  let quoted := String.ofList (doubled '"' table.toList)
  let function := functionName table
  "CREATE OR REPLACE FUNCTION " ++ function ++ "() RETURNS trigger LANGUAGE plpgsql AS $$" ++
    body channel ++ "$$; DROP TRIGGER IF EXISTS " ++ function ++ " ON \"" ++ quoted ++
    "\"; CREATE TRIGGER " ++ function ++
    " AFTER INSERT OR UPDATE OR DELETE OR TRUNCATE ON \"" ++ quoted ++
    "\" FOR EACH STATEMENT EXECUTE FUNCTION " ++ function ++ "();"

def installation (channel : String) (tables : List String) : String :=
  tables.foldl (fun text table => text ++ tableInstallation channel table) "BEGIN;" ++ "COMMIT;"

/-- The commands of a text. -/
def script (sql : String) : Option (List (Transaction.Command Ddl)) :=
  (serverLex sql).bind fun lexemes =>
    ((splitTop semicolon .top lexemes).filter fun s => !s.isEmpty).mapM parse

/-- `db.exec`, outside a transaction. -/
def exec (rels : Relations) (sql : String) (s : Transaction.Session Triggers) :
    Except DdlError Unit × Transaction.Session Triggers :=
  match script sql with
  | none => (.error .syntaxError, s)
  | some commands => Transaction.string (engine rels) commands s

/-- What `start` reads and changes of the database. -/
structure Database where
  objects : Triggers
  /-- The channels that are listened to, by the tokens of the callbacks. -/
  listeners : List (String × Nat)
  nextToken : Nat

/-- `PrimaryObserver`. -/
structure PrimaryObserver where
  channel : String
  token : Nat
  deriving DecidableEq, Repr

/-- `PrimaryObserver::start`, in the process `pid`. -/
def start (rels : Relations) (pid : Nat) (tables : List String) (db : Database) :
    Except DdlError PrimaryObserver × Database :=
  let channel := channelName pid
  let token := db.nextToken
  let db := { db with
    listeners := db.listeners ++ [(channel, token)]
    nextToken := token + 1 }
  match exec rels (installation channel tables) (.idle db.objects) with
  | (.error e, s) =>
    -- `unlisten_token`
    (.error e, { db with
      objects := s.committed
      listeners := db.listeners.filter (· != (channel, token)) })
  | (.ok (), s) => (.ok ⟨channel, token⟩, { db with objects := s.committed })

/-- The functions and the triggers of a database that was just opened. -/
def Database.opened (functions : String → Option (List Char)) (triggers : List Trigger) :
    Database := ⟨⟨functions, triggers, [], []⟩, [], 0⟩

/-- A trigger on the relation takes the action. -/
def Observed (action : List Char) (s : Triggers) (r : Relation) : Prop :=
  ∃ trigger ∈ s.triggers, trigger.relation = r ∧ s.functions trigger.function = some action

/-- **The observer covers the tables**: it starts, with triggers on them and on nothing else. -/
def Covers (rels : Relations) (pid : Nat) (tables : List String) (db : Database) : Prop :=
  ∃ observer after, start rels pid tables db = (.ok observer, after) ∧
    (∀ r, r ∈ after.objects.created ↔ r ∈ rels.all ∧ seen r = true) ∧
    (∀ r ∈ after.objects.found, r ∈ rels.all ∧ seen r = true) ∧
    ∀ r ∈ rels.all, seen r = true → Observed (body observer.channel).toList after.objects r

/-! ## 2. What the server reads of the script -/

/-- A text that the server reads to its end. -/
structure Sent (text : List Char) (lexemes : List Lexeme) : Prop where
  run : lexer.run lexer.start text = (lexer.start, lexemes)
  noNul : '\x00' ∉ text
  noEmpty : lexemes.any isEmptyIdent = false

instance (text : List Char) (lexemes : List Lexeme) : Decidable (Sent text lexemes) :=
  decidable_of_iff (lexer.run lexer.start text = (lexer.start, lexemes) ∧ '\x00' ∉ text ∧
    lexemes.any isEmptyIdent = false)
    ⟨fun h => ⟨h.1, h.2.1, h.2.2⟩, fun h => ⟨h.run, h.noNul, h.noEmpty⟩⟩

theorem Sent.congr {as bs : List Char} {ts us : List Lexeme} (h : Sent as ts) (htext : bs = as)
    (hlexemes : us = ts) : Sent bs us := by
  rwa [htext, hlexemes]

theorem Sent.append {as bs : List Char} {ts us : List Lexeme} (has : Sent as ts)
    (hbs : Sent bs us) : Sent (as ++ bs) (ts ++ us) where
  run := by
    rw [Transducer.run_append, has.run]
    simp only [hbs.run]
  noNul h := (List.mem_append.mp h).elim has.noNul hbs.noNul
  noEmpty := by rw [List.any_append, has.noEmpty, hbs.noEmpty]; rfl

theorem Sent.serverLex {sql : String} {ts : List Lexeme} (h : Sent sql.toList ts) :
    serverLex sql = some ts := by
  have hnul : sql.toList.contains '\x00' = false := by
    rw [Bool.eq_false_iff]
    exact fun hmem => h.noNul (List.contains_iff_mem.mp hmem)
  have hlex : Sql.lex sql = some ts := by
    rw [Sql.lex, Transducer.output, Transducer.outputFrom, h.run]
    simp [lexer, finish]
  rw [PgPaw.serverLex, hnul, hlex]
  simp [h.noEmpty]

/-- A lexeme that is open to the end of its text, and a text that breaks it off. -/
theorem Sent.of_breaks {as bs : List Char} {m : Mode} {l : Lexeme} {us : List Lexeme}
    (has : lexer.run lexer.start as = (m, [])) (hnul : '\x00' ∉ as) (hf : finish m = some [l])
    (hl : isEmptyIdent l = false) (hbreaks : lexer.Breaks m bs) (hbs : Sent bs us) :
    Sent (as ++ bs) (l :: us) where
  run := by
    have hrun := Transducer.run_append_of_breaks (T := lexer) has hf hbreaks
    rw [hbs.run] at hrun
    simpa using hrun
  noNul h := (List.mem_append.mp h).elim hnul hbs.noNul
  noEmpty := by rw [List.any_cons, hl, hbs.noEmpty]; rfl

theorem charClass_wordChar {c : Char} (h : c.isAlphanum = true ∨ c = '_') :
    charClass c = .letter ∨ charClass c = .digit := by
  rcases h with h | rfl
  · have hsmall : ∀ n < 48, (Char.ofNat n).isAlphanum = false := by decide
    have hlow : 48 ≤ c.toNat := by
      by_contra hlow
      have hfalse := hsmall c.toNat (by omega)
      rw [Char.ofNat_toNat, h] at hfalse
      cases hfalse
    have hne (d : Char) (hd : d.toNat < 48) : c ≠ d := by
      rintro rfl
      omega
    have hnewline : ¬ (c = '\n' ∨ c = '\r') :=
      not_or.mpr ⟨hne _ (by decide), hne _ (by decide)⟩
    have hspace : ¬ (c = ' ' ∨ c = '\t' ∨ c.toNat = 0xB ∨ c.toNat = 0xC) := by
      rintro (h | h | h | h)
      · exact hne _ (by decide) h
      · exact hne _ (by decide) h
      · omega
      · omega
    unfold charClass
    rw [if_neg hnewline, if_neg hspace]
    split
    · exact .inl rfl
    · rename_i hletter
      have hdigit : c.isDigit = true := by
        rw [Char.isAlphanum, Bool.or_eq_true] at h
        exact h.resolve_left fun halpha => hletter (.inl halpha)
      exact .inr (if_pos hdigit)
  · exact .inl (by decide)

theorem run_word {cs : List Char} (h : ∀ c ∈ cs, c.isAlphanum = true ∨ c = '_')
    (text : List Char) : lexer.run (.word text) cs = (.word (text ++ cs), []) := by
  induction cs generalizing text with
  | nil => rw [List.append_nil]; rfl
  | cons c cs ih =>
    have hstep : lexer.step (.word text) c = (.word (text ++ [c]), []) := by
      show stepWord text c = _
      rcases charClass_wordChar (h c List.mem_cons_self) with hclass | hclass <;>
        rw [stepWord, hclass]
    rw [Transducer.run_cons, hstep, ih fun d hd => h d (List.mem_cons_of_mem _ hd),
      List.append_assoc]
    rfl

theorem run_dollarBody {cs : List Char} (h : '$' ∉ cs) (text : List Char) :
    lexer.run (.dollarBody [] text none) cs = (.dollarBody [] (text ++ cs) none, []) := by
  induction cs generalizing text with
  | nil => rw [List.append_nil]; rfl
  | cons c cs ih =>
    have hc : c ≠ '$' := fun hc => h (hc ▸ List.mem_cons_self)
    have hstep : lexer.step (.dollarBody [] text none) c =
        (.dollarBody [] (text ++ [c]) none, []) := if_neg hc
    rw [Transducer.run_cons, hstep, ih fun hmem => h (List.mem_cons_of_mem _ hmem),
      List.append_assoc]
    rfl

/-! ### The lexemes of the text for a table -/

section Pieces

variable (channel table : String)

/-- The characters of the function's name. -/
def functionWord : List Char := (functionName table).toList

theorem functionWord_eq : functionWord table = "_pgpaw_observe_".toList ++
    table.toList.map fun c => if !c.isAlphanum then '_' else c := by
  simp only [functionWord, functionName, String.toList_append, String.toList_ofList]

theorem wordChar_functionWord {c : Char} (hc : c ∈ functionWord table) :
    c.isAlphanum = true ∨ c = '_' := by
  rw [functionWord_eq, List.mem_append] at hc
  rcases hc with hc | hc
  · have hfront : "_pgpaw_observe_".toList.all (fun c => c.isAlphanum || c == '_') = true := by
      decide +kernel
    simpa using List.all_eq_true.mp hfront c hc
  · obtain ⟨d, -, rfl⟩ := List.mem_map.mp hc
    cases h : d.isAlphanum with
    | true => exact .inl (by simpa using h)
    | false => exact .inr rfl

/-- The function's name, and a text that ends it. -/
theorem sent_function {bs : List Char} {us : List Lexeme} (hbs : Sent bs us)
    (hbreaks : lexer.Breaks (.word (functionWord table)) bs) :
    Sent (functionWord table ++ bs) (⟨.word, functionWord table⟩ :: us) := by
  have hchars : ∀ c ∈ functionWord table, c.isAlphanum = true ∨ c = '_' :=
    fun c hc => wordChar_functionWord table hc
  have hrun : lexer.run lexer.start (functionWord table) = (.word (functionWord table), []) := by
    obtain ⟨rest, hrest⟩ : ∃ rest, functionWord table = '_' :: rest := by
      rw [functionWord_eq]
      simp only [String.reduceToList]
      exact ⟨_, rfl⟩
    have hstep : lexer.step lexer.start '_' = (.word ['_'], []) := by decide
    have hbody := run_word (fun c hc => hchars c (hrest ▸ List.mem_cons_of_mem _ hc)) ['_']
    rw [hrest, Transducer.run_cons, hstep, hbody]
    rfl
  refine Sent.of_breaks hrun (fun hnul => ?_) rfl rfl hbreaks hbs
  rcases hchars _ hnul with h | h <;> revert h <;> decide

/-- A quoted name, and a text that ends it. -/
theorem sent_quoted {bs : List Char} {us : List Lexeme} (hnul : '\x00' ∉ table.toList)
    (hne : table ≠ "") (hbs : Sent bs us)
    (hbreaks : lexer.Breaks (.delimitedEnd false table.toList) bs) :
    Sent ('"' :: (doubled '"' table.toList ++ '"' :: bs))
      (⟨.delimited false, table.toList⟩ :: us) := by
  have hstart : lexer.step lexer.start '"' = (.delimited false [], []) := by decide
  have hbody : lexer.run (.delimited false []) (doubled '"' table.toList) =
      (.delimited false table.toList, []) := by
    have hclose (text : List Char) : step (.delimited false text) '"' =
        (.delimitedEnd false text, []) := rfl
    have hreopen (text : List Char) : step (.delimitedEnd false text) '"' =
        (.delimited false (text ++ ['"']), []) := rfl
    exact run_doubled hclose hreopen (fun text c hc => by simp [step, hc]) table.toList []
  have hend : lexer.step (.delimited false table.toList) '"' =
      (.delimitedEnd false table.toList, []) := rfl
  have hrun : lexer.run lexer.start ('"' :: (doubled '"' table.toList ++ ['"'])) =
      (.delimitedEnd false table.toList, []) := by
    rw [Transducer.run_cons, hstart, Transducer.run_append, hbody, Transducer.run_cons, hend]
    rfl
  have hnul' : '\x00' ∉ '"' :: (doubled '"' table.toList ++ ['"']) := by
    simp [mem_doubled, hnul]
  have hident : isEmptyIdent ⟨.delimited false, table.toList⟩ = false := by
    simpa [isEmptyIdent] using hne
  have hsent := Sent.of_breaks hrun hnul' rfl hident hbreaks hbs
  simpa using hsent

/-- A dollar quote, and what is in it. -/
theorem sent_dollar {text : List Char} (hdollar : '$' ∉ text) (hnul : '\x00' ∉ text) :
    Sent ('$' :: '$' :: (text ++ ['$', '$'])) [⟨.dollarString, text⟩] where
  run := by
    have hone : lexer.step lexer.start '$' = (.dollar [], []) := by decide
    have htwo : lexer.step (.dollar []) '$' = (.dollarBody [] [] none, []) := by decide
    have hbody := run_dollarBody hdollar []
    have hlast : lexer.step (.dollarBody [] text none) '$' =
        (.dollarBody [] (text ++ ['$']) (some []), []) := rfl
    have hclose : lexer.step (.dollarBody [] (text ++ ['$']) (some [])) '$' =
        (.between, [⟨.dollarString, text⟩]) := by
      show stepDollarBody [] (text ++ ['$']) (some []) '$' = _
      simp [stepDollarBody]
    rw [Transducer.run_cons, hone, Transducer.run_cons, htwo, Transducer.run_append, hbody,
      List.nil_append, Transducer.run_cons, hlast, Transducer.run_cons, hclose]
    rfl
  noNul := by simp [hnul]
  noEmpty := rfl

/-- The lexeme of the function's name. -/
def functionLexeme : Lexeme := ⟨.word, functionWord table⟩

/-- The lexeme of the table's name. -/
def tableLexeme : Lexeme := ⟨.delimited false, table.toList⟩

def functionCommand : Command :=
  words ["CREATE", "OR", "REPLACE", "FUNCTION"] ++ functionLexeme table ::
    (brackets ++ words ["RETURNS", "trigger", "LANGUAGE", "plpgsql", "AS"] ++
      [⟨.dollarString, (body channel).toList⟩])

def dropCommand : Command :=
  words ["DROP", "TRIGGER", "IF", "EXISTS"] ++ functionLexeme table ::
    (words ["ON"] ++ [tableLexeme table])

def triggerCommand : Command :=
  words ["CREATE", "TRIGGER"] ++ functionLexeme table ::
    (words ["AFTER", "INSERT", "OR", "UPDATE", "OR", "DELETE", "OR", "TRUNCATE", "ON"] ++
      tableLexeme table :: (words ["FOR", "EACH", "STATEMENT", "EXECUTE", "FUNCTION"] ++
        functionLexeme table :: brackets))

/-- The commands for a table. -/
def tableCommands : List Command :=
  [functionCommand channel table, dropCommand table, triggerCommand table]

/-- The fixed parts of the text. -/
theorem sent_fixed :
    Sent "BEGIN;".toList (words ["BEGIN"] ++ [semicolon]) ∧
    Sent "CREATE OR REPLACE FUNCTION ".toList (words ["CREATE", "OR", "REPLACE", "FUNCTION"]) ∧
    Sent "() RETURNS trigger LANGUAGE plpgsql AS ".toList
      (brackets ++ words ["RETURNS", "trigger", "LANGUAGE", "plpgsql", "AS"]) ∧
    Sent "; DROP TRIGGER IF EXISTS ".toList
      (semicolon :: words ["DROP", "TRIGGER", "IF", "EXISTS"]) ∧
    Sent " ON ".toList (words ["ON"]) ∧
    Sent "; CREATE TRIGGER ".toList (semicolon :: words ["CREATE", "TRIGGER"]) ∧
    Sent " AFTER INSERT OR UPDATE OR DELETE OR TRUNCATE ON ".toList
      (words ["AFTER", "INSERT", "OR", "UPDATE", "OR", "DELETE", "OR", "TRUNCATE", "ON"]) ∧
    Sent " FOR EACH STATEMENT EXECUTE FUNCTION ".toList
      (words ["FOR", "EACH", "STATEMENT", "EXECUTE", "FUNCTION"]) ∧
    Sent "();".toList (brackets ++ [semicolon]) ∧
    Sent "COMMIT;".toList (words ["COMMIT"] ++ [semicolon]) := by
  simp only [words, List.map, String.reduceToList]
  decide +kernel

variable {channel table} in
/-- **The server reads three commands of the text for a table**, whatever the table's name is. -/
theorem sent_tableInstallation (hdollar : '$' ∉ channel.toList) (hnul : '\x00' ∉ channel.toList)
    (htable : '\x00' ∉ table.toList) (hne : table ≠ "") :
    Sent (tableInstallation channel table).toList
      ((tableCommands channel table).flatMap (· ++ [semicolon])) := by
  have hspace (m : Mode) (f : List Lexeme) (hf : finish m = some f) (hm : isComment m = false)
      (c : Char) (hc : charClass c = .letter) (bs : List Char) : lexer.Breaks m (' ' :: c :: bs) :=
    (breaks_space_letter ⟨false, by decide⟩ hc hf hm).append bs
  have hother (m : Mode) (f : List Lexeme) (hf : finish m = some f) (hm : isComment m = false)
      (c : Char) (hc : charClass c = .other) (bs : List Char) : lexer.Breaks m (c :: bs) :=
    (breaks_other hc hf hm).append bs
  obtain ⟨-, hcreate, hreturns, hdrop, hon, htrigger, hafter, hexecute, hend, -⟩ := sent_fixed
  have hreturns := sent_function table hreturns (by
    simp only [String.reduceToList]
    exact hother _ _ rfl rfl _ (by decide) _)
  have hon := sent_function table hon (by
    simp only [String.reduceToList]
    exact hspace _ _ rfl rfl _ (by decide) _)
  have hafter := sent_function table hafter (by
    simp only [String.reduceToList]
    exact hspace _ _ rfl rfl _ (by decide) _)
  have hend := sent_function table hend (by
    simp only [String.reduceToList]
    exact hother _ _ rfl rfl _ (by decide) _)
  have htrigger := sent_quoted table htable hne htrigger (by
    simp only [String.reduceToList]
    exact hother _ _ rfl rfl _ (by decide) _)
  have hexecute := sent_quoted table htable hne hexecute (by
    simp only [String.reduceToList]
    exact hspace _ _ rfl rfl _ (by decide) _)
  have hbody : Sent ('$' :: '$' :: ((body channel).toList ++ ['$', '$']))
      [⟨.dollarString, (body channel).toList⟩] := by
    refine sent_dollar ?_ ?_ <;> unfold body <;>
      simp only [String.toList_append, List.mem_append, hdollar, hnul, or_false, not_or,
        String.reduceToList] <;>
      decide
  have hall := (hcreate.append (hreturns.append (hbody.append (hdrop.append
    (hon.append (htrigger.append (hafter.append (hexecute.append hend))))))))
  refine hall.congr ?_ ?_
  · have hreturns : "() RETURNS trigger LANGUAGE plpgsql AS $$".toList =
        "() RETURNS trigger LANGUAGE plpgsql AS ".toList ++ ['$', '$'] := by
      simp only [String.reduceToList]
      rfl
    have hdrop : "$$; DROP TRIGGER IF EXISTS ".toList =
        '$' :: '$' :: "; DROP TRIGGER IF EXISTS ".toList := by
      simp only [String.reduceToList]
    have hon : " ON \"".toList = " ON ".toList ++ ['"'] := by
      simp only [String.reduceToList]
      rfl
    have htrigger : "\"; CREATE TRIGGER ".toList = '"' :: "; CREATE TRIGGER ".toList := by
      simp only [String.reduceToList]
    have hafter : " AFTER INSERT OR UPDATE OR DELETE OR TRUNCATE ON \"".toList =
        " AFTER INSERT OR UPDATE OR DELETE OR TRUNCATE ON ".toList ++ ['"'] := by
      simp only [String.reduceToList]
      rfl
    have hexecute : "\" FOR EACH STATEMENT EXECUTE FUNCTION ".toList =
        '"' :: " FOR EACH STATEMENT EXECUTE FUNCTION ".toList := by
      simp only [String.reduceToList]
    unfold tableInstallation functionWord
    simp only [String.toList_append, String.toList_ofList, hreturns, hdrop, hon, htrigger, hafter,
      hexecute, List.cons_append, List.nil_append, List.append_assoc]
  · simp only [tableCommands, functionCommand, dropCommand, triggerCommand, functionLexeme,
      tableLexeme, List.flatMap_cons, List.flatMap_nil, List.cons_append, List.nil_append,
      List.append_assoc, List.append_nil]

end Pieces

/-! ## 3. The commands of the script -/

section Commands

variable (channel table : String)

/-- The name of the function, folded and cut off. -/
def functionIdent : String :=
  String.ofList (clip NAME_BYTES ((functionWord table).map Char.toLower))

/-- What the commands for a table are. -/
def tableWork (action : List Char) (table : String) : List Ddl :=
  putTrigger action (functionIdent table) table

theorem closed_functionLexeme : Closed [functionLexeme table] := by
  refine closed_singleton (fun h => by cases h) ?_
  intro hmem
  -- none of the four words starts with an underscore
  have hkeyword : keyword (functionLexeme table) =
      some (String.ofList ((functionWord table).map Char.toLower)) := rfl
  obtain ⟨rest, hrest⟩ : ∃ rest, functionWord table = '_' :: rest := by
    rw [functionWord_eq]
    simp only [String.reduceToList]
    exact ⟨_, rfl⟩
  have hne (word : String) (hword : word.toList.head? ≠ some '_') :
      keyword (functionLexeme table) ≠ some word := by
    intro h
    rw [hkeyword, hrest, Option.some.injEq] at h
    rw [← h, String.toList_ofList] at hword
    exact hword rfl
  simp only [List.mem_cons, List.not_mem_nil, or_false] at hmem
  rcases hmem with h | h | h | h
  · exact hne _ (by decide) h
  · exact hne _ (by decide) h
  · exact hne _ (by decide) h
  · exact hne _ (by decide) h

theorem closed_of_kind {l : Lexeme} (hpunct : l.kind ≠ .punct) (hword : l.kind ≠ .word) :
    Closed [l] := by
  refine closed_singleton hpunct ?_
  have hnone : keyword l = none := if_neg hword
  rw [hnone]
  simp

theorem closed_tableCommands : ∀ c ∈ tableCommands channel table, Closed c := by
  have hfunction := closed_functionLexeme table
  have htable : Closed [tableLexeme table] :=
    closed_of_kind (fun h => by cases h) (fun h => by cases h)
  have hbody : Closed [⟨.dollarString, (body channel).toList⟩] :=
    closed_of_kind (fun h => by cases h) (fun h => by cases h)
  have hbrackets : Closed brackets := ⟨by decide, by decide⟩
  have hwords (texts : List String) (h : semicolon ∉ words texts)
      (hopen : (words texts).foldl Nesting.after .top = .top) : Closed (words texts) := ⟨h, hopen⟩
  have hcreate := hwords ["CREATE", "OR", "REPLACE", "FUNCTION"] (by decide) (by decide)
  have hreturns := hwords ["RETURNS", "trigger", "LANGUAGE", "plpgsql", "AS"] (by decide)
    (by decide)
  have hdrop := hwords ["DROP", "TRIGGER", "IF", "EXISTS"] (by decide) (by decide)
  have hon := hwords ["ON"] (by decide) (by decide)
  have htrigger := hwords ["CREATE", "TRIGGER"] (by decide) (by decide)
  have hafter := hwords ["AFTER", "INSERT", "OR", "UPDATE", "OR", "DELETE", "OR", "TRUNCATE", "ON"]
    (by decide) (by decide)
  have hexecute := hwords ["FOR", "EACH", "STATEMENT", "EXECUTE", "FUNCTION"] (by decide)
    (by decide)
  intro c hc
  simp only [tableCommands, List.mem_cons, List.not_mem_nil, or_false] at hc
  rcases hc with rfl | rfl | rfl
  · exact hcreate.append (hfunction.append ((hbrackets.append hreturns).append hbody))
  · exact hdrop.append (hfunction.append (hon.append htable))
  · exact htrigger.append (hfunction.append (hafter.append (htable.append
      (hexecute.append (hfunction.append hbrackets)))))

theorem nameOf_tableLexeme {table : String} (hshort : nameBytes table.toList ≤ NAME_BYTES) :
    nameOf (tableLexeme table) = some table := by
  have hclip : clip NAME_BYTES table.toList = table.toList := clip_of_le hshort
  simp [nameOf, tableLexeme, hclip]

theorem parse_tableCommands {table : String} (hshort : nameBytes table.toList ≤ NAME_BYTES) :
    (tableCommands channel table).mapM parse =
      some ((tableWork (body channel).toList table).map .work) := by
  have hname : nameOf (functionLexeme table) = some (functionIdent table) := rfl
  have htable := nameOf_tableLexeme hshort
  have hfunction : parse (functionCommand channel table) = _ := parse_function hname _
  have hdrop : parse (dropCommand table) = _ := parse_drop hname htable
  have htrigger : parse (triggerCommand table) = _ := parse_trigger hname htable
  simp [tableCommands, tableWork, putTrigger, hfunction, hdrop, htrigger]

end Commands

/-- The commands of the script. -/
def scriptCommands (channel : String) (tables : List String) : List Command :=
  [words ["BEGIN"]] ++ tables.flatMap (tableCommands channel) ++ [words ["COMMIT"]]

section Script

variable {channel : String} {tables : List String}

theorem sent_tables (hdollar : '$' ∉ channel.toList) (hnul : '\x00' ∉ channel.toList)
    (htables : ∀ t ∈ tables, ∃ name : Identifier, name.text = t) {text : String}
    {lexemes : List Lexeme} (htext : Sent text.toList lexemes) :
    Sent (tables.foldl (fun text table => text ++ tableInstallation channel table) text).toList
      (lexemes ++ (tables.flatMap (tableCommands channel)).flatMap (· ++ [semicolon])) := by
  induction tables generalizing text lexemes with
  | nil => simpa using htext
  | cons table tables ih =>
    obtain ⟨name, rfl⟩ := htables _ List.mem_cons_self
    have htable := sent_tableInstallation hdollar hnul name.noNul name.nonempty
    have hnext : Sent (text ++ tableInstallation channel name.text).toList _ :=
      (htext.append htable).congr String.toList_append rfl
    have hrest := ih (fun t ht => htables t (List.mem_cons_of_mem _ ht)) hnext
    rw [List.foldl_cons, List.flatMap_cons, List.flatMap_append, ← List.append_assoc]
    exact hrest

theorem sent_installation (hdollar : '$' ∉ channel.toList) (hnul : '\x00' ∉ channel.toList)
    (htables : ∀ t ∈ tables, ∃ name : Identifier, name.text = t) :
    Sent (installation channel tables).toList
      ((scriptCommands channel tables).flatMap (· ++ [semicolon])) := by
  obtain ⟨hbegin, -, -, -, -, -, -, -, -, hcommit⟩ := sent_fixed
  refine ((sent_tables hdollar hnul htables hbegin).append hcommit).congr ?_ ?_
  · rw [installation, String.toList_append]
  · simp [scriptCommands]

theorem mapM_parse (htables : ∀ t ∈ tables, ∃ name : Identifier, name.text = t) :
    (tables.flatMap (tableCommands channel)).mapM parse =
      some ((tables.flatMap (tableWork (body channel).toList)).map .work) := by
  induction tables with
  | nil => rfl
  | cons table tables ih =>
    obtain ⟨name, rfl⟩ := htables _ List.mem_cons_self
    have hrest := ih fun t ht => htables t (List.mem_cons_of_mem _ ht)
    rw [List.flatMap_cons, List.mapM_append, parse_tableCommands channel name.short, hrest,
      List.flatMap_cons, List.map_append]
    rfl

/-- **The script is the work for the tables, begun and committed.** -/
theorem script_installation (hdollar : '$' ∉ channel.toList) (hnul : '\x00' ∉ channel.toList)
    (htables : ∀ t ∈ tables, ∃ name : Identifier, name.text = t) :
    script (installation channel tables) =
      some (Transaction.whole (tables.flatMap (tableWork (body channel).toList))) := by
  have hclosed : ∀ c ∈ scriptCommands channel tables,
      (semicolon ∉ c ∧ (c.foldl Nesting.after .top).isTop = true) ∧ c.isEmpty = false := by
    intro c hc
    simp only [scriptCommands, List.mem_append, List.mem_singleton, List.mem_flatMap] at hc
    rcases hc with (rfl | ⟨table, -, hc⟩) | rfl
    · exact ⟨⟨by decide, by decide⟩, rfl⟩
    · obtain ⟨hnone, htop⟩ := closed_tableCommands channel table c hc
      refine ⟨⟨hnone, by rw [htop]; rfl⟩, ?_⟩
      simp only [tableCommands, List.mem_cons, List.not_mem_nil, or_false] at hc
      rcases hc with rfl | rfl | rfl <;> rfl
    · exact ⟨⟨by decide, by decide⟩, rfl⟩
  have hsplit := splitTop_script fun c hc => (hclosed c hc).1
  have hfilter : (scriptCommands channel tables ++ [[]]).filter (fun s => !s.isEmpty) =
      scriptCommands channel tables := by
    rw [List.filter_append, List.filter_eq_self.mpr fun c hc => by rw [(hclosed c hc).2]; rfl]
    exact List.append_nil _
  have hparse : (scriptCommands channel tables).mapM parse =
      some (Transaction.whole (tables.flatMap (tableWork (body channel).toList))) := by
    have hone : parse (words ["BEGIN"]) = some .begin := by rfl
    have htwo : parse (words ["COMMIT"]) = some (.commit false) := by rfl
    rw [scriptCommands, List.mapM_append, List.mapM_append, mapM_parse htables]
    simp [hone, htwo, Transaction.whole]
  rw [script, (sent_installation hdollar hnul htables).serverLex, Option.bind_some, hsplit,
    hfilter, hparse]

end Script

/-! ## 4. What the script does -/

section Install

variable {rels : Relations} {action : List Char} {table : String} {tables done : List String}
  {s : Triggers} {r : Relation}

/-- What holds when the tables so far are done. -/
structure Installed (rels : Relations) (action : List Char) (done : List String) (s : Triggers) :
    Prop where
  created : ∀ r, r ∈ s.created ↔ ∃ t ∈ done, rels.resolve t = some r
  found : ∀ r ∈ s.found, ∃ t ∈ done, rels.resolve t = some r
  observed : ∀ t ∈ done, ∀ r, rels.resolve t = some r → Observed action s r

theorem installed_nil (functions : String → Option (List Char)) (triggers : List Trigger) :
    Installed rels action [] ⟨functions, triggers, [], []⟩ :=
  ⟨by simp, by simp, by simp⟩

/-- One more table. -/
theorem Installed.put (h : Installed rels action done s) (hnew : table ∉ done)
    (hr : rels.resolve table = some r) :
    Installed rels action (done ++ [table]) (s.put action (functionIdent table) r) where
  created r' := by
    simp only [Triggers.put, List.mem_append, List.mem_singleton, h.created]
    constructor
    · rintro (⟨t, ht, hresolve⟩ | rfl)
      · exact ⟨t, .inl ht, hresolve⟩
      · exact ⟨table, .inr rfl, hr⟩
    · rintro ⟨t, ht | rfl, hresolve⟩
      · exact .inl ⟨t, ht, hresolve⟩
      · exact .inr (Option.some.inj (hresolve.symm.trans hr))
  found r' hr' := by
    simp only [Triggers.put, List.mem_append, List.mem_singleton, or_assoc, or_self] at hr'
    rcases hr' with hr' | rfl
    · obtain ⟨t, ht, hresolve⟩ := h.found r' hr'
      exact ⟨t, List.mem_append_left _ ht, hresolve⟩
    · exact ⟨table, List.mem_append_right _ List.mem_cons_self, hr⟩
  observed t ht r' hr' := by
    rcases List.mem_append.mp ht with ht | ht
    · obtain ⟨trigger, htrigger, rfl, hfunction⟩ := h.observed t ht r' hr'
      -- the names are different, so the relations are
      have hne : trigger.relation ≠ r := by
        rintro rfl
        have hname := (Relations.resolve_name hr').symm.trans (Relations.resolve_name hr)
        exact hnew (hname ▸ ht)
      refine ⟨trigger, ?_, rfl, ?_⟩
      · refine List.mem_append_left _ (List.mem_filter.mpr ⟨htrigger, ?_⟩)
        simp [hne]
      · by_cases hsame : trigger.function = functionIdent table
        · simp [Triggers.put, hsame]
        · simpa [Triggers.put, hsame] using hfunction
    · rw [List.mem_singleton] at ht
      subst ht
      rw [hr, Option.some.injEq] at hr'
      subst hr'
      exact ⟨⟨r, functionIdent t, functionIdent t⟩, by simp [Triggers.put], rfl,
        by simp [Triggers.put]⟩

/-- **The script succeeds** where every name stands for a relation that takes the trigger. -/
theorem install_ok (hnodup : (done ++ tables).Nodup)
    (hall : ∀ t ∈ tables, ∃ r, rels.resolve t = some r ∧ r.takesTrigger = true)
    (h : Installed rels action done s) :
    ∃ s', (tables.flatMap (tableWork action)).foldlM (fun s i => (engine rels).run i s) s =
      .ok s' ∧ Installed rels action (done ++ tables) s' := by
  induction tables generalizing done s with
  | nil => exact ⟨s, rfl, by rwa [List.append_nil]⟩
  | cons table tables ih =>
    obtain ⟨r, hr, htakes⟩ := hall table List.mem_cons_self
    have hnew : table ∉ done := by
      intro hmem
      exact (List.nodup_append.mp hnodup).2.2 table hmem table List.mem_cons_self rfl
    obtain ⟨s', hs', hinstalled⟩ := ih (by simpa using hnodup)
      (fun t ht => hall t (List.mem_cons_of_mem _ ht)) (h.put hnew hr)
    refine ⟨s', ?_, by simpa using hinstalled⟩
    rw [List.flatMap_cons, List.foldlM_append, tableWork, putTrigger_ok hr htakes]
    exact hs'

/-- **And fails where one does not.** -/
theorem install_error (h : ∃ t ∈ tables, ∀ r, rels.resolve t = some r → r.takesTrigger = false) :
    ∃ e, (tables.flatMap (tableWork action)).foldlM (fun s i => (engine rels).run i s) s =
      .error e := by
  induction tables generalizing s with
  | nil =>
    obtain ⟨t, ht, -⟩ := h
    cases ht
  | cons table tables ih =>
    rw [List.flatMap_cons, List.foldlM_append]
    by_cases htable : ∀ r, rels.resolve table = some r → r.takesTrigger = false
    · obtain ⟨e, he⟩ : ∃ e, (tableWork action table).foldlM (fun s i => (engine rels).run i s) s =
          .error e := putTrigger_error htable
      exact ⟨e, by rw [he]; rfl⟩
    · obtain ⟨r, hr, htakes⟩ : ∃ r, rels.resolve table = some r ∧ r.takesTrigger ≠ false := by
        simpa using htable
      have htakes' : r.takesTrigger = true := by simpa using htakes
      obtain ⟨t, ht, hbad⟩ := h
      have hrest : t ∈ tables := by
        rcases List.mem_cons.mp ht with rfl | ht
        · exact absurd (hbad r hr) htakes
        · exact ht
      rw [tableWork, putTrigger_ok hr htakes']
      exact ih ⟨t, hrest, hbad⟩

end Install

/-! ## 5. Where the observer covers the tables -/

section Cover

variable (rels : Relations) (pid : Nat) (functions : String → Option (List Char))
  (triggers : List Trigger) {tables : List String} {r : Relation}

theorem notMem_channelName {c : Char} (hfront : c ∉ "pgpaw_primary_".toList)
    (hdigit : ∀ a < 16, c ≠ Nat.digitChar a) : c ∉ (channelName pid).toList := by
  have htext : (channelName pid).toList = "pgpaw_primary_".toList ++ Nat.toDigits 10 pid := by
    simp only [channelName, decimal, String.toList_append, String.toList_ofList]
  rw [htext, List.mem_append]
  rintro (h | h)
  · exact hfront h
  · exact notMem_toDigits (by decide) (by decide) hdigit pid h

theorem exec_installation (htables : ∀ t ∈ tables, ∃ name : Identifier, name.text = t)
    (session : Transaction.Session Triggers) :
    exec rels (installation (channelName pid) tables) session =
      Transaction.string (engine rels) (Transaction.whole (tables.flatMap
        (tableWork (body (channelName pid)).toList))) session := by
  have hdollar : '$' ∉ (channelName pid).toList :=
    notMem_channelName pid (by decide) (by decide)
  have hnul : '\x00' ∉ (channelName pid).toList :=
    notMem_channelName pid (by decide) (by decide)
  rw [exec, script_installation hdollar hnul htables]

/-- The observer starts where every name stands for a relation that takes the trigger. -/
theorem start_ok (htables : ∀ t ∈ tables, ∃ name : Identifier, name.text = t)
    (hnodup : tables.Nodup)
    (hall : ∀ t ∈ tables, ∃ r, rels.resolve t = some r ∧ r.takesTrigger = true) :
    ∃ after, start rels pid tables (.opened functions triggers) =
      (.ok ⟨channelName pid, 0⟩, after) ∧
        Installed rels (body (channelName pid)).toList tables after.objects := by
  have hstart : Installed rels (body (channelName pid)).toList [] ⟨functions, triggers, [], []⟩ :=
    installed_nil functions triggers
  have hnodup' : ([] ++ tables).Nodup := hnodup
  obtain ⟨s, hs, hinstalled⟩ := install_ok hnodup' hall hstart
  have hstring := Transaction.string_whole_ok (fun _ _ => rfl) hs (b := s) rfl
  have hexec := (exec_installation rels pid htables
    (.idle ⟨functions, triggers, [], []⟩)).trans hstring
  refine ⟨⟨s, [(channelName pid, 0)], 1⟩, ?_, hinstalled⟩
  simp only [start, Database.opened, hexec]
  rfl

/-- And fails, without a trace, where one does not. -/
theorem start_error (htables : ∀ t ∈ tables, ∃ name : Identifier, name.text = t)
    (h : ∃ t ∈ tables, ∀ r, rels.resolve t = some r → r.takesTrigger = false) :
    ∃ e after, start rels pid tables (.opened functions triggers) = (.error e, after) ∧
      after.objects = ⟨functions, triggers, [], []⟩ ∧ after.listeners = [] := by
  obtain ⟨e, he⟩ : ∃ e, (tables.flatMap (tableWork (body (channelName pid)).toList)).foldlM
      (fun s i => (engine rels).run i s) ⟨functions, triggers, [], []⟩ = .error e :=
    install_error h
  obtain ⟨t, hstring, hcommitted⟩ := Transaction.string_whole_error (fun _ _ => rfl) he
  have hexec := (exec_installation rels pid htables
    (.idle ⟨functions, triggers, [], []⟩)).trans hstring
  refine ⟨e, ⟨t.committed, [], 1⟩, ?_, hcommitted, rfl⟩
  simp [start, Database.opened, hexec]

variable {rels} in
theorem mem_scanSchema {t : String} : t ∈ scanSchema rels ↔
    ∃ r ∈ rels.all, seen r = true ∧ toAsciiLowercase r.name.text = t := by
  simp only [scanSchema, List.mem_dedup, List.mem_map, List.mem_filter, and_assoc]

variable {rels} in
theorem Order.identifier (order : Order rels) {t : String} (ht : t ∈ order.tables) :
    ∃ name : Identifier, name.text = t := by
  obtain ⟨r, -, -, rfl⟩ := mem_scanSchema.mp (order.perm.mem_iff.mp ht)
  exact ⟨r.name.lower, rfl⟩

theorem takesTrigger_of_seen (h : seen r = true) : r.takesTrigger = true := by
  simp only [seen, Bool.and_eq_true, Bool.not_eq_true', bne_iff_ne] at h
  obtain ⟨⟨htable, hschema⟩, -⟩ := h
  have hne : r.schema ≠ "pg_catalog" := by
    intro heq
    rw [heq] at hschema
    exact absurd hschema (by decide)
  simp [Relation.takesTrigger, htable, hne]

/-- **The observer covers the tables exactly where no table has an upper-case letter in its name,
and the bare name of each finds it on the search path.** -/
theorem covers_iff (order : Order rels) :
    Covers rels pid order.tables (.opened functions triggers) ↔
      ∀ r ∈ rels.all, seen r = true →
        toAsciiLowercase r.name.text = r.name.text ∧ rels.resolve r.name.text = some r := by
  have hnodup : order.tables.Nodup := order.perm.nodup_iff.mpr (List.nodup_dedup _)
  have hnames : ∀ t ∈ order.tables, ∃ name : Identifier, name.text = t :=
    fun t ht => order.identifier ht
  constructor
  · rintro ⟨observer, after, hstart, hcreated, -, -⟩ r hr hseen
    have hall : ∀ t ∈ order.tables, ∃ r, rels.resolve t = some r ∧ r.takesTrigger = true := by
      by_contra hbad
      obtain ⟨e, after', herror, -⟩ := start_error rels pid functions triggers hnames (by
        simpa using hbad)
      rw [hstart] at herror
      cases herror
    obtain ⟨after', hstart', hinstalled⟩ :=
      start_ok rels pid functions triggers hnames hnodup hall
    rw [hstart] at hstart'
    cases hstart'
    -- the trigger on the table is of some name, which is its own and in lower case
    obtain ⟨t, ht, hresolve⟩ := (hinstalled.created r).mp ((hcreated r).mpr ⟨hr, hseen⟩)
    have hname := Relations.resolve_name hresolve
    obtain ⟨r', -, -, hlower⟩ := mem_scanSchema.mp (order.perm.mem_iff.mp ht)
    rw [hname]
    exact ⟨by rw [← hlower, toAsciiLowercase_idem], hresolve⟩
  · intro hplain
    have hfind : ∀ t ∈ order.tables, ∃ r, rels.resolve t = some r ∧ r ∈ rels.all ∧
        seen r = true := by
      intro t ht
      obtain ⟨r, hr, hseen, hlower⟩ := mem_scanSchema.mp (order.perm.mem_iff.mp ht)
      obtain ⟨hsame, hresolve⟩ := hplain r hr hseen
      rw [← hlower, hsame]
      exact ⟨r, hresolve, hr, hseen⟩
    have htakes : ∀ t ∈ order.tables, ∃ r, rels.resolve t = some r ∧ r.takesTrigger = true := by
      intro t ht
      obtain ⟨r, hresolve, -, hseen⟩ := hfind t ht
      exact ⟨r, hresolve, takesTrigger_of_seen hseen⟩
    obtain ⟨after, hstart, hinstalled⟩ :=
      start_ok rels pid functions triggers hnames hnodup htakes
    have hserved : ∀ r, (∃ t ∈ order.tables, rels.resolve t = some r) →
        r ∈ rels.all ∧ seen r = true := by
      rintro r ⟨t, ht, hresolve⟩
      obtain ⟨r', hresolve', hr', hseen⟩ := hfind t ht
      rw [hresolve, Option.some.injEq] at hresolve'
      rw [hresolve']
      exact ⟨hr', hseen⟩
    have hlisted : ∀ r ∈ rels.all, seen r = true → r.name.text ∈ order.tables ∧
        rels.resolve r.name.text = some r := by
      intro r hr hseen
      obtain ⟨hsame, hresolve⟩ := hplain r hr hseen
      exact ⟨order.perm.mem_iff.mpr (mem_scanSchema.mpr ⟨r, hr, hseen, hsame⟩), hresolve⟩
    refine ⟨_, after, hstart, fun r => ?_, fun r hr => ?_, fun r hr hseen => ?_⟩
    · rw [hinstalled.created]
      refine ⟨hserved r, fun ⟨hr, hseen⟩ => ?_⟩
      obtain ⟨hmem, hresolve⟩ := hlisted r hr hseen
      exact ⟨_, hmem, hresolve⟩
    · exact hserved r (hinstalled.found r hr)
    · obtain ⟨hmem, hresolve⟩ := hlisted r hr hseen
      exact hinstalled.observed _ hmem r hresolve

end Cover

/-- A table whose name is in quotes where it is created. -/
def workspace : Relation :=
  ⟨"public", ⟨"Workspace", by decide, by decide, by decide⟩, .table⟩

def workspaceOnly : Relations where
  all := [workspace]
  unique := by
    intro r hr s hs _ _
    rw [List.mem_singleton.mp hr, List.mem_singleton.mp hs]
  path := ["pg_catalog", "public"]

def workspaceOrder : Order workspaceOnly := ⟨["workspace"], by decide⟩

/-- The database with `"Workspace"` in it is not opened. -/
theorem upper_case_not_opened :
    seen workspace = true ∧
    (∃ e, (start workspaceOnly 4711 workspaceOrder.tables (.opened (fun _ => none) [])).1 =
      .error e) ∧
    ¬ Covers workspaceOnly 4711 workspaceOrder.tables (.opened (fun _ => none) []) := by
  have hnames : ∀ t ∈ workspaceOrder.tables, ∃ name : Identifier, name.text = t :=
    fun t ht => workspaceOrder.identifier ht
  -- `workspace` is no relation
  have hnone : workspaceOnly.resolve "workspace" = none := by decide
  obtain ⟨e, after, herror, -⟩ := start_error workspaceOnly 4711 (fun _ => none) [] hnames
    ⟨"workspace", List.mem_cons_self, fun r hr => by rw [hnone] at hr; cases hr⟩
  refine ⟨by decide, ⟨e, by rw [herror]⟩, ?_⟩
  rintro ⟨observer, after', hstart, -⟩
  rw [hstart] at herror
  cases herror

end PgPaw.Observer
