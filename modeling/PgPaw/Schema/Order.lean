/-
# Migrating a tree as it grows

A tree is migrated again whenever files were added to it.  Within a run the files of a chain go
in the order of their ordinals; across runs nothing compares them, so a file that is added below
one that was applied is executed after it.

`incremental_iff` says when the executions of every app stay in order over a whole history: when
each chain only adds files above those the app's chain had before (`Appends`).  They are then the
executions of a single run over the last tree.
-/
import Mathlib.Data.List.Chain
import PgPaw.Schema.Once

namespace PgPaw.Schema

variable {σ : Type} {pg : Postgres σ} {crates : SchemaCrates} {worldId : String}

/-! ## 1. Histories -/

/-- Files and directories are added; none is changed, renamed or removed. -/
def Tree.Grows (tree tree' : Tree) : Prop :=
  ∀ path, (∀ content, tree.lookup path = some (.file content) →
      tree'.lookup path = some (.file content)) ∧
    ∀ entries, tree.lookup path = some (.dir entries) →
      ∃ entries', tree'.lookup path = some (.dir entries')

/-- The trees are migrated one after the other, and every run returns `Ok`. -/
def Migrated (pg : Postgres σ) (crates : SchemaCrates) (worldId : String) :
    Db σ → List Tree → Db σ → Prop
  | db, [], db' => db = db'
  | db, world :: worlds, db' => ∃ chains warnings report next,
      discoverMigrations world worldId = .ok (chains, warnings) ∧
        applyMigrations pg crates worldId chains db = (.ok report, next) ∧
          Migrated pg crates worldId next worlds db'

/-- What was executed for an app, oldest first. -/
def Db.executedFor (db : Db σ) (app : String) : List Execution :=
  db.executed.filter fun e => e.app == app

/-- In increasing order of the ordinals. -/
def InOrder (executed : List Execution) : Prop :=
  (executed.map fun e => e.file.ordinal).Pairwise (· < ·)

/-- The chains of a tree. -/
def chainsOf (worldId : String) (world : Tree) : List AppChain :=
  match discoverMigrations world worldId with
  | .ok (chains, _) => chains
  | .error _ => []

/-- The chains of an app in the order they are applied, over a history. -/
def chainsFor (worldId app : String) (worlds : List Tree) : List AppChain :=
  (worlds.flatMap (chainsOf worldId)).filter fun chain => chain.app == app

/-- Every file that is new in the second chain comes after all files of the first. -/
def Above (chain chain' : AppChain) : Prop :=
  ∀ file' ∈ chain'.files, file'.filename ∉ chain.files.map MigrationFile.filename →
    ∀ file ∈ chain.files, file.ordinal < file'.ordinal

/-- Each chain of an app only adds files above those of the one before. -/
def Appends (worldId : String) (worlds : List Tree) : Prop :=
  ∀ app, (chainsFor worldId app worlds).IsChain Above

/-! ## 2. One chain after the other -/

/-- The chains are applied, in one run or in several. -/
def Applies (pg : Postgres σ) (crates : SchemaCrates) (worldId : String) :
    Db σ → List AppChain → Db σ → Prop
  | db, [], db' => db = db'
  | db, chain :: chains, db' => ∃ run run', run.db = db ∧
      applyChain pg crates worldId chain run = (.ok (), run') ∧
        Applies pg crates worldId run'.db chains db'

theorem applies_append {db db' : Db σ} {xs ys : List AppChain} :
    Applies pg crates worldId db (xs ++ ys) db' ↔
      ∃ next, Applies pg crates worldId db xs next ∧ Applies pg crates worldId next ys db' := by
  induction xs generalizing db with
  | nil => simp [Applies]
  | cons chain xs ih =>
    simp only [List.cons_append, Applies, ih]
    constructor
    · rintro ⟨run, run', hrun, hstep, next, hxs, hys⟩
      exact ⟨next, ⟨run, run', hrun, hstep, hxs⟩, hys⟩
    · rintro ⟨next, ⟨run, run', hrun, hstep, hxs⟩, hys⟩
      exact ⟨run, run', hrun, hstep, next, hxs, hys⟩

theorem applies_of_each {chains : List AppChain} {run run' : Run σ}
    (h : Loop.each (applyChain pg crates worldId) chains run = (.ok (), run')) :
    Applies pg crates worldId run.db chains run'.db := by
  induction chains generalizing run with
  | nil =>
    cases h
    rfl
  | cons chain chains ih =>
    obtain ⟨next, hstep, hrest⟩ := Loop.each_cons_ok.mp h
    exact ⟨run, next, rfl, hstep, ih hrest⟩

/-- A history applies the chains of its trees. -/
theorem Migrated.applies : ∀ {worlds : List Tree} {db db' : Db σ},
    Migrated pg crates worldId db worlds db' →
      Applies pg crates worldId db (worlds.flatMap (chainsOf worldId)) db'
  | [], _, _, h => h
  | world :: worlds, db, db', ⟨chains, warnings, report, next, hfound, happly, hrest⟩ => by
    obtain ⟨run, hrun, -, hdb⟩ := applyMigrations_ok (congrArg Prod.fst happly)
    have hnext : next = run.db := (congrArg Prod.snd happly).symm.trans hdb
    have hchains : chainsOf worldId world = chains := by rw [chainsOf, hfound]
    rw [List.flatMap_cons, hchains, applies_append]
    exact ⟨run.db, applies_of_each hrun, hnext ▸ hrest.applies⟩

theorem wellFormed_chainsOf {world : Tree} {chain : AppChain}
    (h : chain ∈ chainsOf worldId world) : chain.WellFormed := by
  unfold chainsOf at h
  split at h
  · rename_i hfound
    exact wellFormed_of_mem hfound h
  · cases h

/-! ## 3. The executions of an app -/

/-- After some chains: what was executed for the app goes by the names of its last chain, and
is in order if each chain only added above the one before. -/
structure Tracks (worldId app : String) (chains : List AppChain) (db : Db σ) : Prop where
  wellFormed : ∀ chain ∈ chains, chain.WellFormed
  ledgered : Ledgered worldId db
  ordinal : ∀ e ∈ db.executed, ordinalOf e.file.filename = some e.file.ordinal
  names : ∀ filename, (app, filename) ∈ db.executed.map Execution.key ↔
    ∃ last ∈ (chains.filter fun chain => chain.app == app).getLast?,
      filename ∈ last.files.map MigrationFile.filename
  order : InOrder (db.executedFor app) ↔
    (chains.filter fun chain => chain.app == app).IsChain Above

theorem inOrder_append {xs ys : List Execution} : InOrder (xs ++ ys) ↔
    InOrder xs ∧ InOrder ys ∧ ∀ x ∈ xs, ∀ y ∈ ys, x.file.ordinal < y.file.ordinal := by
  simp [InOrder, List.pairwise_append]

theorem tracks_start (worldId app : String) (tables : σ)
    (schemas : List ((String × String) × List String)) :
    Tracks worldId app [] (Db.start tables schemas) where
  wellFormed chain hchain := by cases hchain
  ledgered := ledgered_start worldId tables schemas
  ordinal e he := by cases he
  names filename := by simp [Db.start]
  order := by simp [Db.executedFor, Db.start, InOrder]

section Steps

variable {app : String} {chains : List AppChain} {chain : AppChain} {run run' : Run σ}

/-- The chain an app had last is a chain. -/
theorem mem_of_getLast? {last : AppChain}
    (h : last ∈ (chains.filter fun chain => chain.app == app).getLast?) : last ∈ chains :=
  List.mem_of_mem_filter (List.mem_of_mem_getLast? h)

/-- The files of a chain that are executed go in order. -/
theorem inOrder_executions (hwf : chain.WellFormed) {files : List MigrationFile}
    (hfiles : files.Sublist chain.files) : InOrder (chain.executions files) := by
  have hsame : (chain.executions files).map (fun e => e.file.ordinal) =
      files.map MigrationFile.ordinal := by
    rw [AppChain.executions, List.map_map]
    rfl
  rw [InOrder, hsame]
  exact hwf.sorted.sublist (hfiles.map _)

/-- A pending file is not one of the names its app has. -/
theorem Tracks.pending (h : Tracks worldId app chains run.db) (happ : chain.app = app)
    {file : MigrationFile} : file ∈ run.db.pending worldId chain.app chain.files ↔
      file ∈ chain.files ∧ ∀ last ∈ (chains.filter fun chain => chain.app == app).getLast?,
        file.filename ∉ last.files.map MigrationFile.filename := by
  rw [Db.pending, List.mem_filter, Option.isNone_iff_eq_none, h.ledgered.existing_eq_none, happ,
    h.names]
  simp

/-- The executions of the app all come before the new ones exactly when the chain only adds
above the last one. -/
theorem Tracks.above (h : Tracks worldId app chains run.db) (happ : chain.app = app) :
    (∀ x ∈ run.db.executedFor app,
      ∀ y ∈ chain.executions (run.db.pending worldId chain.app chain.files),
        x.file.ordinal < y.file.ordinal) ↔
      ∀ last ∈ (chains.filter fun chain => chain.app == app).getLast?, Above last chain := by
  have hsame : ∀ last ∈ (chains.filter fun chain => chain.app == app).getLast?,
      ∀ file ∈ last.files, ∀ e ∈ run.db.executed, e.file.filename = file.filename →
        e.file.ordinal = file.ordinal := by
    intro last hlast file hfile e he hname
    have hordinal := (h.wellFormed last (mem_of_getLast? hlast)).ordinal file hfile
    rw [← hname, h.ordinal e he] at hordinal
    exact Option.some.inj hordinal
  constructor
  · intro hbefore last hlast file' hfile' hnew file hfile
    have hpending : file' ∈ run.db.pending worldId chain.app chain.files := by
      refine (h.pending happ).mpr ⟨hfile', fun last' hlast' => ?_⟩
      rw [Option.mem_unique hlast' hlast]
      exact hnew
    have hkey := (h.names file.filename).mpr ⟨last, hlast, List.mem_map_of_mem hfile⟩
    obtain ⟨e, he, hkey⟩ := List.mem_map.mp hkey
    obtain ⟨heapp, hname⟩ := Prod.mk.inj hkey
    have hlt := hbefore e (List.mem_filter.mpr ⟨he, by simpa using heapp⟩)
      ⟨chain.app, chain.relDir, file'⟩ (mem_executions.mpr ⟨rfl, rfl, hpending⟩)
    rwa [hsame last hlast file hfile e he hname] at hlt
  · intro habove x hx y hy
    obtain ⟨hmem, hxapp⟩ := List.mem_filter.mp hx
    have hxapp : x.app = app := by simpa using hxapp
    have hkey : (app, x.file.filename) ∈ run.db.executed.map Execution.key :=
      List.mem_map.mpr ⟨x, hmem, by rw [Execution.key, hxapp]⟩
    obtain ⟨last, hlast, hname⟩ := (h.names _).mp hkey
    obtain ⟨file, hfile, hname⟩ := List.mem_map.mp hname
    obtain ⟨hyfile, hynew⟩ := (h.pending happ).mp (mem_executions.mp hy).2.2
    rw [hsame last hlast file hfile x hmem hname.symm]
    exact habove last hlast y.file hyfile (hynew last hlast) file hfile

theorem Tracks.applyChain (h : Tracks worldId app chains run.db) (hwf : chain.WellFormed)
    (hstep : Schema.applyChain pg crates worldId chain run = (.ok (), run')) :
    Tracks worldId app (chains ++ [chain]) run'.db := by
  have hexecuted := executed_applyChain hwf.nodup hstep
  have hordinal : ∀ e ∈ run'.db.executed, ordinalOf e.file.filename = some e.file.ordinal := by
    intro e he
    rw [hexecuted] at he
    rcases List.mem_append.mp he with he | he
    · exact h.ordinal e he
    · exact hwf.ordinal e.file (List.mem_filter.mp (mem_executions.mp he).2.2).1
  have hwfs : ∀ c ∈ chains ++ [chain], c.WellFormed := by
    intro c hc
    rcases List.mem_append.mp hc with hc | hc
    · exact h.wellFormed c hc
    · rw [List.mem_singleton.mp hc]
      exact hwf
  have hledgered := h.ledgered.applyChain hwf.nodup hstep
  by_cases happ : chain.app = app
  · have hfilter : ((chains ++ [chain]).filter fun c => c.app == app) =
        (chains.filter fun c => c.app == app) ++ [chain] := by
      simp [List.filter_append, happ]
    refine ⟨hwfs, hledgered, hordinal, fun filename => ?_, ?_⟩
    · rw [hfilter, List.getLast?_concat, ← happ, h.ledgered.names_applyChain hwf.nodup hstep]
      simp
    · have hfor : run'.db.executedFor app = run.db.executedFor app ++
          chain.executions (run.db.pending worldId chain.app chain.files) := by
        rw [Db.executedFor, hexecuted, List.filter_append, Db.executedFor]
        congr 1
        rw [List.filter_eq_self]
        intro e he
        simpa using (mem_executions.mp he).1.trans happ
      rw [hfor, inOrder_append, hfilter, List.isChain_append, h.order, h.above happ]
      have hnew : InOrder (chain.executions (run.db.pending worldId chain.app chain.files)) :=
        inOrder_executions hwf List.filter_sublist
      constructor
      · rintro ⟨hchain, -, habove⟩
        refine ⟨hchain, List.isChain_singleton chain, fun last hlast next hnext => ?_⟩
        cases hnext
        exact habove last hlast
      · rintro ⟨hchain, -, habove⟩
        exact ⟨hchain, hnew, fun last hlast => habove last hlast chain rfl⟩
  · have hfilter : ((chains ++ [chain]).filter fun c => c.app == app) =
        chains.filter fun c => c.app == app := by
      simp [List.filter_append, happ]
    refine ⟨hwfs, hledgered, hordinal, fun filename => ?_, ?_⟩
    · rw [hfilter, ← h.names filename, hexecuted, List.map_append, List.mem_append]
      refine or_iff_left ?_
      intro hnew
      obtain ⟨e, he, hkey⟩ := List.mem_map.mp hnew
      exact happ ((mem_executions.mp he).1.symm.trans (Prod.mk.inj hkey).1)
    · have hfor : run'.db.executedFor app = run.db.executedFor app := by
        have hnone : ((chain.executions (run.db.pending worldId chain.app chain.files)).filter
            fun e => e.app == app) = [] := by
          rw [List.filter_eq_nil_iff]
          intro e he hkeep
          exact happ ((mem_executions.mp he).1.symm.trans (by simpa using hkeep))
        rw [Db.executedFor, hexecuted, List.filter_append, hnone, List.append_nil, Db.executedFor]
      rw [hfor, hfilter]
      exact h.order

/-- **Over a whole history.** -/
theorem Tracks.applies {db db' : Db σ} {more : List AppChain}
    (h : Tracks worldId app chains db) (hwf : ∀ chain ∈ more, chain.WellFormed)
    (happlies : Applies pg crates worldId db more db') :
    Tracks worldId app (chains ++ more) db' := by
  induction more generalizing chains db with
  | nil =>
    cases happlies
    rwa [List.append_nil]
  | cons chain more ih =>
    obtain ⟨run, run', rfl, hstep, hrest⟩ := happlies
    have hnext := h.applyChain (hwf chain List.mem_cons_self) hstep
    have hall := ih hnext (fun c hc => hwf c (List.mem_cons_of_mem _ hc)) hrest
    rwa [List.append_assoc, List.singleton_append] at hall

end Steps

/-! ## 4. The tree at the end -/

theorem Tree.Grows.trans {t u v : Tree} (h : t.Grows u) (h' : u.Grows v) : t.Grows v := by
  intro path
  refine ⟨fun content hfile => (h' path).1 content ((h path).1 content hfile),
    fun entries hdir => ?_⟩
  obtain ⟨entries', hdir'⟩ := (h path).2 entries hdir
  exact (h' path).2 entries' hdir'

theorem Tree.Grows.refl (t : Tree) : t.Grows t :=
  fun _ => ⟨fun _ hfile => hfile, fun entries hdir => ⟨entries, hdir⟩⟩

/-- Every tree of a history grows into the last. -/
theorem grows_getLast? : ∀ {worlds : List Tree} {last : Tree}, worlds.IsChain Tree.Grows →
    last ∈ worlds.getLast? → ∀ world ∈ worlds, world.Grows last
  | [], _, _, hlast, _, _ => by cases hlast
  | [world], last, _, hlast, world', hworld => by
    cases hlast
    rw [List.mem_singleton.mp hworld]
    exact .refl _
  | world :: next :: worlds, last, hgrow, hlast, world', hworld => by
    rw [List.isChain_cons_cons] at hgrow
    rw [List.getLast?_cons_cons] at hlast
    have hrest := grows_getLast? hgrow.2 hlast
    rcases List.mem_cons.mp hworld with rfl | hworld
    · exact hgrow.1.trans (hrest next List.mem_cons_self)
    · exact hrest world' hworld

theorem readToString_file {node : Option Tree} {text : String} (h : readToString node = .ok text) :
    ∃ content, node = some (.file content) := by
  rcases node with _ | ⟨content⟩ | ⟨entries⟩
  · cases h
  · exact ⟨content, rfl⟩
  · cases h

section Growth

variable {world last : Tree} {app : String} {chain : AppChain} {chains : List AppChain}
  {warnings : List String}

theorem mem_chainsOf : chain ∈ chainsOf worldId world ↔ ∃ chains warnings,
    discoverMigrations world worldId = .ok (chains, warnings) ∧ chain ∈ chains := by
  unfold chainsOf
  cases hfound : discoverMigrations world worldId with
  | error e => simp
  | ok found =>
    obtain ⟨chains, warnings⟩ := found
    simp

/-- A chain is still there when the tree has grown, and so are its files. -/
theorem Tree.Grows.keeps (hgrow : world.Grows last) (hchain : chain ∈ chainsOf worldId world)
    (hfound : discoverMigrations last worldId = .ok (chains, warnings)) :
    (∃ chain' ∈ chains, chain'.app = chain.app ∧ chain'.relDir = chain.relDir) ∧
      ∀ file ∈ chain.files,
        readToString (last.lookup (chain.relDir ++ [file.filename])) = .ok file.sql := by
  obtain ⟨chains₀, warnings₀, hfound₀, hchain⟩ := mem_chainsOf.mp hchain
  obtain ⟨dir, hdir, hmade⟩ := (mem_discoverMigrations hfound₀).mp hchain
  obtain ⟨-, happ, hrel, hread, entries, hentries, -⟩ := discoverChain_some hmade
  obtain ⟨entries', hentries'⟩ := (hgrow dir.2).2 entries hentries
  have hdir' : dir ∈ appDirs last worldId := by
    simp only [appDirs, List.mem_cons, List.mem_map] at hdir
    rcases hdir with rfl | ⟨name, -, rfl⟩
    · exact List.mem_cons_self
    · exact mem_appDirs hentries'
  constructor
  · obtain ⟨chain', hchain', happ', hrel', -⟩ := exists_chain hfound hdir' hentries'
    exact ⟨chain', hchain', happ'.trans happ.symm, hrel'.trans hrel.symm⟩
  · intro file hfile
    have hold := hread file hfile
    obtain ⟨content, hcontent⟩ := readToString_file hold
    rw [hcontent] at hold
    rw [hrel, (hgrow _).1 content hcontent]
    exact hold

/-- What was executed comes from the chains. -/
theorem Applies.origin {db db' : Db σ} {more : List AppChain}
    (h : Applies pg crates worldId db more db') (hwf : ∀ chain ∈ more, chain.WellFormed) :
    ∀ e ∈ db'.executed, e ∈ db.executed ∨ ∃ chain ∈ more, e ∈ chain.executions chain.files := by
  induction more generalizing db with
  | nil =>
    cases h
    exact fun e he => Or.inl he
  | cons chain more ih =>
    obtain ⟨run, run', rfl, hstep, hrest⟩ := h
    intro e he
    rcases ih hrest (fun c hc => hwf c (List.mem_cons_of_mem _ hc)) e he with he | ⟨c, hc, he⟩
    · rw [executed_applyChain (hwf chain List.mem_cons_self).nodup hstep] at he
      rcases List.mem_append.mp he with he | he
      · exact Or.inl he
      · obtain ⟨happ, hrel, hfile⟩ := mem_executions.mp he
        exact Or.inr ⟨chain, List.mem_cons_self,
          mem_executions.mpr ⟨happ, hrel, (List.mem_filter.mp hfile).1⟩⟩
    · exact Or.inr ⟨c, List.mem_cons_of_mem _ hc, he⟩

theorem Migrated.discovered : ∀ {worlds : List Tree} {db db' : Db σ},
    Migrated pg crates worldId db worlds db' → ∀ world ∈ worlds,
      ∃ chains warnings, discoverMigrations world worldId = .ok (chains, warnings)
  | [], _, _, _, _, hworld => by cases hworld
  | world :: worlds, _, _, ⟨chains, warnings, _, _, hfound, _, hrest⟩, world', hworld => by
    rcases List.mem_cons.mp hworld with rfl | hworld
    · exact ⟨chains, warnings, hfound⟩
    · exact hrest.discovered world' hworld

/-- A history from an empty ledger. -/
theorem Migrated.tracks {worlds : List Tree} {tables : σ}
    {schemas : List ((String × String) × List String)} {db : Db σ}
    (h : Migrated pg crates worldId (Db.start tables schemas) worlds db) (app : String) :
    Tracks worldId app (worlds.flatMap (chainsOf worldId)) db := by
  have htracks := (tracks_start worldId app tables schemas).applies (fun chain hchain => by
    obtain ⟨world, -, hchain⟩ := List.mem_flatMap.mp hchain
    exact wellFormed_chainsOf hchain) h.applies
  rwa [List.nil_append] at htracks

/-- The chain an execution of a history belongs to. -/
theorem Migrated.origin {worlds : List Tree} {tables : σ}
    {schemas : List ((String × String) × List String)} {db : Db σ}
    (h : Migrated pg crates worldId (Db.start tables schemas) worlds db) :
    ∀ e ∈ db.executed, ∃ world ∈ worlds, ∃ chain ∈ chainsOf worldId world,
      e ∈ chain.executions chain.files := by
  intro e he
  have hwf : ∀ chain ∈ worlds.flatMap (chainsOf worldId), chain.WellFormed := fun chain hchain => by
    obtain ⟨world, -, hchain⟩ := List.mem_flatMap.mp hchain
    exact wellFormed_chainsOf hchain
  rcases h.applies.origin hwf e he with he | ⟨chain, hchain, he⟩
  · cases he
  · obtain ⟨world, hworld, hmem⟩ := List.mem_flatMap.mp hchain
    exact ⟨world, hworld, chain, hmem, he⟩

/-- Where an execution of a history comes from, as the last tree has it. -/
theorem Migrated.source {worlds : List Tree} {tables : σ}
    {schemas : List ((String × String) × List String)} {db : Db σ}
    (h : Migrated pg crates worldId (Db.start tables schemas) worlds db)
    (hgrow : ∀ world ∈ worlds, world.Grows last)
    (hfound : discoverMigrations last worldId = .ok (chains, warnings)) :
    ∀ e ∈ db.executed, e.file.checksum = contentHash e.file.sql ∧
      (∃ chain ∈ chains, chain.app = e.app ∧ chain.relDir = e.relDir) ∧
      readToString (last.lookup (e.relDir ++ [e.file.filename])) = .ok e.file.sql := by
  intro e he
  obtain ⟨world, hworld, chain, hmem, he⟩ := h.origin e he
  obtain ⟨happ, hrel, hfile⟩ := mem_executions.mp he
  obtain ⟨⟨chain', hchain', happ', hrel'⟩, hread⟩ := (hgrow world hworld).keeps hmem hfound
  refine ⟨(wellFormed_chainsOf hmem).checksum e.file hfile,
    ⟨chain', hchain', happ'.trans happ.symm, hrel'.trans hrel.symm⟩, ?_⟩
  rw [hrel]
  exact hread e.file hfile

variable (app) in
/-- The last chain of an app over a history is the last one in its last tree. -/
theorem getLast?_chainsFor {worlds : List Tree} (hgrow : ∀ world ∈ worlds, world.Grows last)
    (hlast : last ∈ worlds.getLast?)
    (hfound : discoverMigrations last worldId = .ok (chains, warnings)) :
    (chainsFor worldId app worlds).getLast? = (chainsFor worldId app [last]).getLast? := by
  obtain ⟨before, rfl⟩ := List.getLast?_eq_some_iff.mp hlast
  have hsplit : chainsFor worldId app (before ++ [last]) =
      chainsFor worldId app before ++ chainsFor worldId app [last] := by
    simp [chainsFor]
  rw [hsplit, List.getLast?_append]
  cases hend : (chainsFor worldId app [last]).getLast? with
  | some chain => rfl
  | none =>
    -- an app with a chain in an earlier tree has one in the last
    rw [Option.none_or, List.getLast?_eq_none_iff]
    rw [List.getLast?_eq_none_iff] at hend
    by_contra hne
    obtain ⟨chain, hchain⟩ := List.exists_mem_of_ne_nil _ hne
    obtain ⟨hmem, happ⟩ := List.mem_filter.mp hchain
    obtain ⟨world, hworld, hmem⟩ := List.mem_flatMap.mp hmem
    obtain ⟨⟨chain', hchain', happ', -⟩, -⟩ :=
      (hgrow world (List.mem_append_left _ hworld)).keeps hmem hfound
    have hin : chain' ∈ chainsFor worldId app [last] := by
      refine List.mem_filter.mpr ⟨?_, by simpa [happ'] using happ⟩
      rw [List.flatMap_singleton]
      exact mem_chainsOf.mpr ⟨chains, warnings, hfound, hchain'⟩
    rw [hend] at hin
    cases hin

end Growth

/-- Lists with the same elements, both in a strict order. -/
theorem eq_of_pairwise {α : Type} {r : α → α → Prop} (hr : ∀ a b, r a b → ¬ r b a)
    {xs ys : List α} (hxs : xs.Pairwise r) (hys : ys.Pairwise r) (h : ∀ a, a ∈ xs ↔ a ∈ ys) :
    xs = ys := by
  have hne : ∀ {zs : List α}, zs.Pairwise r → zs.Nodup := by
    intro zs hzs
    refine hzs.imp fun {a b} hab heq => ?_
    subst heq
    exact hr a a hab hab
  exact ((List.perm_ext_iff_of_nodup (hne hxs) (hne hys)).mpr h).eq_of_pairwise
    (fun a b _ _ hab hba => absurd hba (hr a b hab)) hxs hys

theorem mem_executedFor {db : Db σ} {app : String} {e : Execution} :
    e ∈ db.executedFor app ↔ e ∈ db.executed ∧ e.app = app := by
  simp [Db.executedFor]

/-- The names executed for an app. -/
theorem mem_names {db : Db σ} {app filename : String} :
    filename ∈ (db.executedFor app).map (fun e => e.file.filename) ↔
      (app, filename) ∈ db.executed.map Execution.key := by
  simp only [List.mem_map, mem_executedFor, Execution.key, Prod.mk.injEq]
  constructor
  · rintro ⟨e, ⟨he, happ⟩, hname⟩
    exact ⟨e, he, happ, hname⟩
  · rintro ⟨e, he, happ, hname⟩
    exact ⟨e, ⟨he, happ⟩, hname⟩

/-- The order of the names. -/
def NameLt (filename filename' : String) : Prop :=
  ∃ m n, ordinalOf filename = some m ∧ ordinalOf filename' = some n ∧ m < n

theorem nameLt_asymm (x y : String) : NameLt x y → ¬ NameLt y x := by
  rintro ⟨m, n, hx, hy, hlt⟩ ⟨n', m', hy', hx', hlt'⟩
  rw [hx] at hx'
  rw [hy] at hy'
  cases hx'
  cases hy'
  omega

/-- Executions in order have names in order. -/
theorem InOrder.names {executed : List Execution} (h : InOrder executed)
    (hordinal : ∀ e ∈ executed, ordinalOf e.file.filename = some e.file.ordinal) :
    (executed.map fun e => e.file.filename).Pairwise NameLt :=
  List.pairwise_map.mpr ((List.pairwise_map.mp h).imp_of_mem fun {x y} hx hy hlt =>
    ⟨_, _, hordinal x hx, hordinal y hy, hlt⟩)

/-- One name, one execution: what a history executed under a name is what one run over its last
tree executes. -/
theorem execution_eq {worlds : List Tree} {tables tables' : σ}
    {schemas schemas' : List ((String × String) × List String)} {db scratch : Db σ}
    (hgrow : ∀ world ∈ worlds, world.Grows last)
    (hfound : discoverMigrations last worldId = .ok (chains, warnings)) (hsep : Separate chains)
    (hruns : Migrated pg crates worldId (Db.start tables schemas) worlds db)
    (hscratch : Migrated pg crates worldId (Db.start tables' schemas') [last] scratch)
    {e e' : Execution} (he : e ∈ db.executedFor app) (he' : e' ∈ scratch.executedFor app)
    (hname : e.file.filename = e'.file.filename) : e = e' := by
  have hself : ∀ world ∈ [last], world.Grows last := fun world hworld => by
    rw [List.mem_singleton.mp hworld]
    exact .refl last
  obtain ⟨he, happ⟩ := mem_executedFor.mp he
  obtain ⟨he', happ'⟩ := mem_executedFor.mp he'
  obtain ⟨hsum, ⟨chain, hchain, hchainapp, hchainrel⟩, hread⟩ := hruns.source hgrow hfound e he
  obtain ⟨hsum', -, hread'⟩ := hscratch.source hself hfound e' he'
  obtain ⟨world, hworld, chain', hchain', hmem⟩ := hscratch.origin e' he'
  rw [List.mem_singleton.mp hworld, chainsOf, hfound] at hchain'
  obtain ⟨hchainapp', hchainrel', hfile⟩ := mem_executions.mp hmem
  have hrel : e.relDir = e'.relDir := by
    rw [← hchainrel, hchainrel', hsep chain' hchain' chain hchain
      (by rw [← hchainapp', hchainapp, happ', happ]) (List.ne_nil_of_mem hfile)]
  have hordinal := (hruns.tracks app).ordinal e he
  rw [hname, (hscratch.tracks app).ordinal e' he'] at hordinal
  rw [hrel, hname, hread'] at hread
  have hsql : e'.file.sql = e.file.sql := Except.ok.inj hread
  rw [← hsql, ← hsum'] at hsum
  obtain ⟨a, r, f, o, q, c⟩ := e
  obtain ⟨a', r', f', o', q', c'⟩ := e'
  simp_all

/-- **The executions of every app are in order exactly when every chain only adds above the one
before**, and they are then those of one run over the last tree. -/
theorem incremental_iff {worlds : List Tree} (hgrow : worlds.IsChain Tree.Grows) {tables : σ}
    {schemas : List ((String × String) × List String)} {db : Db σ}
    (hruns : Migrated pg crates worldId (Db.start tables schemas) worlds db) :
    ((∀ app, InOrder (db.executedFor app)) ↔ Appends worldId worlds) ∧
      (Appends worldId worlds → ∀ last ∈ worlds.getLast?, ∀ tables' schemas' scratch,
        Migrated pg crates worldId (Db.start tables' schemas') [last] scratch → ∀ app,
          (db.executedFor app).map (fun e => e.file.filename) =
              (scratch.executedFor app).map (fun e => e.file.filename) ∧
            (¬ Clashes last worldId → db.executedFor app = scratch.executedFor app)) := by
  refine ⟨forall_congr' fun app => (hruns.tracks app).order, ?_⟩
  intro happends last hlast tables' schemas' scratch hscratch app
  have hgrows := grows_getLast? hgrow hlast
  obtain ⟨chains, warnings, hfound⟩ := hscratch.discovered last List.mem_cons_self
  have htracks := hruns.tracks app
  have htracks' := hscratch.tracks app
  have horder : InOrder (db.executedFor app) := htracks.order.mpr (happends app)
  have horder' : InOrder (scratch.executedFor app) := by
    obtain ⟨before, rfl⟩ := List.getLast?_eq_some_iff.mp hlast
    have hall := happends app
    rw [chainsFor, List.flatMap_append, List.filter_append] at hall
    exact htracks'.order.mpr hall.right_of_append
  have hsame : ∀ filename, filename ∈ (db.executedFor app).map (fun e => e.file.filename) ↔
      filename ∈ (scratch.executedFor app).map (fun e => e.file.filename) := by
    intro filename
    have hend := getLast?_chainsFor app hgrows hlast hfound
    simp only [chainsFor] at hend
    rw [mem_names, mem_names, htracks.names, htracks'.names, hend]
  constructor
  · exact eq_of_pairwise nameLt_asymm
      (horder.names fun e he => htracks.ordinal e (mem_executedFor.mp he).1)
      (horder'.names fun e he => htracks'.ordinal e (mem_executedFor.mp he).1) hsame
  · intro hclash
    have hsep := separate_of_not_clashes hfound hclash
    have hone : ∀ e ∈ db.executedFor app, ∀ e' ∈ scratch.executedFor app,
        e.file.filename = e'.file.filename → e = e' := fun e he e' he' hname =>
      execution_eq hgrows hfound hsep hruns hscratch he he' hname
    refine eq_of_pairwise (r := fun e e' => e.file.ordinal < e'.file.ordinal)
      (fun a b hab hba => by omega) (List.pairwise_map.mp horder) (List.pairwise_map.mp horder')
      fun e => ?_
    constructor
    · intro he
      obtain ⟨e', he', hname⟩ := List.mem_map.mp ((hsame _).mp (List.mem_map_of_mem he))
      rwa [hone e he e' he' hname.symm]
    · intro he'
      obtain ⟨e, he, hname⟩ := List.mem_map.mp ((hsame _).mpr (List.mem_map_of_mem he'))
      rwa [← hone e he _ he' hname]

/-! ## 5. A file below the others -/

theorem grows_dir {entries entries' : List (List UInt8 × Tree)}
    (h : ∀ name entry, entries.lookup name = some entry →
      ∃ entry', entries'.lookup name = some entry' ∧ entry.Grows entry') :
    (Tree.dir entries).Grows (.dir entries') := by
  intro path
  cases path with
  | nil =>
    refine ⟨fun content hfile => ?_, fun _ _ => ⟨entries', rfl⟩⟩
    cases hfile
  | cons name path =>
    constructor
    · intro content hfile
      obtain ⟨entry, hentry, hrest⟩ := Option.bind_eq_some_iff.mp hfile
      obtain ⟨entry', hentry', hgrow⟩ := h _ entry hentry
      exact Option.bind_eq_some_iff.mpr ⟨entry', hentry', (hgrow path).1 content hrest⟩
    · intro inner hdir
      obtain ⟨entry, hentry, hrest⟩ := Option.bind_eq_some_iff.mp hdir
      obtain ⟨entry', hentry', hgrow⟩ := h _ entry hentry
      obtain ⟨inner', hinner'⟩ := (hgrow path).2 inner hrest
      exact ⟨inner', Option.bind_eq_some_iff.mpr ⟨entry', hentry', hinner'⟩⟩

/-- Its one entry grows. -/
theorem grows_single (name : List UInt8) {tree tree' : Tree} (h : tree.Grows tree') :
    (Tree.dir [(name, tree)]).Grows (.dir [(name, tree')]) := by
  refine grows_dir ?_
  intro other entry hentry
  obtain ⟨before, after, hsplit, -⟩ := List.lookup_eq_some_iff.mp hentry
  have hmem : (other, entry) ∈ [(name, tree)] := by simp [hsplit]
  cases List.mem_singleton.mp hmem
  exact ⟨tree', by simp, h⟩

/-- Entries are added. -/
theorem grows_append (entries more : List (List UInt8 × Tree)) :
    (Tree.dir entries).Grows (.dir (entries ++ more)) := by
  refine grows_dir fun name entry hentry => ⟨entry, ?_, .refl entry⟩
  rw [List.lookup_append, hentry, Option.some_or]

/-- The migrations of one app. -/
def todoWorld (files : List (String × String)) : Tree :=
  .dir [(Utf8.encode "apps".toList, .dir [(Utf8.encode "todo".toList,
    .dir [(Utf8.encode "migrations".toList, .dir (files.map fun (filename, sql) =>
      (Utf8.encode filename.toList, .file (Utf8.encode sql.toList))))])])]

theorem grows_todoWorld (files more : List (String × String)) :
    (todoWorld files).Grows (todoWorld (files ++ more)) := by
  rw [todoWorld, todoWorld, List.map_append]
  exact grows_single _ (grows_single _ (grows_single _ (grows_append _ _)))

/-- Two runs, and what they executed. -/
theorem todo_migrated (first second : List (String × String)) {db : Db (List String)}
    {one two : List AppChain × List String} {report report' : AppliedReport}
    {next : Db (List String)}
    (hone : discoverMigrations (todoWorld first) "w" = .ok one)
    (htwo : discoverMigrations (todoWorld second) "w" = .ok two)
    (hnext : applyMigrations recorder mildCrates "w" one.1 (Db.start [] []) = (.ok report, next))
    (hdb : applyMigrations recorder mildCrates "w" two.1 next = (.ok report', db)) :
    Migrated recorder mildCrates "w" (Db.start [] []) [todoWorld first, todoWorld second] db :=
  ⟨one.1, one.2, report, next, hone, hnext, two.1, two.2, report', db, htwo, hdb, rfl⟩

/-- **A file that is added below an applied one is executed after it.** -/
theorem lower_file_later : ¬ ∀ (worlds : List Tree) (db : Db (List String)),
    worlds.IsChain Tree.Grows →
      Migrated recorder mildCrates "w" (Db.start [] []) worlds db →
        ∀ app, InOrder (db.executedFor app) := by
  intro h
  have hgrow : [todoWorld [("0002_b.sql", "B")],
      todoWorld [("0002_b.sql", "B"), ("0001_a.sql", "A")]].IsChain Tree.Grows :=
    List.isChain_pair.mpr (grows_todoWorld [("0002_b.sql", "B")] [("0001_a.sql", "A")])
  have horder := h _ _ hgrow (todo_migrated _ _ rfl rfl rfl rfl) "todo"
  have hordinals : ¬ [2, 1].Pairwise (· < ·) := by decide
  exact hordinals horder

/-- A file that is added above it keeps the order. -/
theorem higher_file_inOrder : ∃ db, Migrated recorder mildCrates "w" (Db.start [] [])
    [todoWorld [("0001_a.sql", "A")], todoWorld [("0001_a.sql", "A"), ("0002_b.sql", "B")]] db ∧
      ∀ app, InOrder (db.executedFor app) := by
  have hgrow : [todoWorld [("0001_a.sql", "A")],
      todoWorld [("0001_a.sql", "A"), ("0002_b.sql", "B")]].IsChain Tree.Grows :=
    List.isChain_pair.mpr (grows_todoWorld [("0001_a.sql", "A")] [("0002_b.sql", "B")])
  have hruns := todo_migrated [("0001_a.sql", "A")] [("0001_a.sql", "A"), ("0002_b.sql", "B")]
    rfl rfl rfl rfl
  refine ⟨_, hruns, (incremental_iff hgrow hruns).1.mpr fun app => ?_⟩
  have hchains : chainsFor "w" app [todoWorld [("0001_a.sql", "A")],
      todoWorld [("0001_a.sql", "A"), ("0002_b.sql", "B")]] =
      [chainOf "todo" ["apps", "todo", "migrations"] "0001_a.sql" 1 "A",
        ⟨"todo", ["apps", "todo", "migrations"], [⟨"0001_a.sql", 1, "A", contentHash "A"⟩,
          ⟨"0002_b.sql", 2, "B", contentHash "B"⟩]⟩].filter fun chain => chain.app == app := rfl
  rw [hchains]
  by_cases happ : "todo" = app
  · simp [chainOf, happ, Above]
  · simp [chainOf, happ]

end PgPaw.Schema
