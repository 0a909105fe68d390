/-
# Every migration once

A tree is migrated when its chains are applied to a database whose ledger is empty: each file
should be executed once, and a second run should find all of them applied (`RunsOnce`).

The ledger knows a chain by its app, and the world's own chain goes by the name of the world.
So an app that bears this name shares its rows: the files of the one chain are missing from the
other, or pass for its files.  `migrations_once_iff` says that this is all that can go wrong.
-/
import PgPaw.Schema.Apply

namespace PgPaw.Schema

variable {σ : Type} {pg : Postgres σ} {crates : SchemaCrates} {world : Tree} {worldId : String}
  {chains : List AppChain} {warnings : List String} {chain : AppChain} {run : Run σ}

/-! ## 1. The statement -/

/-- The first run executes every file of the chains once, and nothing else; the second finds
them applied. -/
structure RunsOnce (pg : Postgres σ) (crates : SchemaCrates) (worldId : String)
    (chains : List AppChain) (db : Db σ) : Prop where
  ok : ∃ report, (applyMigrations pg crates worldId chains db).1 = .ok report
  once : ∀ chain ∈ chains, ∀ file ∈ chain.files,
    (applyMigrations pg crates worldId chains db).2.executed.count
      ⟨chain.app, chain.relDir, file⟩ = 1
  only : ∀ e ∈ (applyMigrations pg crates worldId chains db).2.executed,
    ∃ chain ∈ chains, e ∈ chain.executions chain.files
  rerun : (applyMigrations pg crates worldId chains
      (applyMigrations pg crates worldId chains db).2).1 =
    .ok ⟨[], (chains.map fun chain => chain.files.length).sum⟩

/-- The world has a directory for migrations, an app under `apps/` that bears the world's name
has one too, and there is a migration in one of them. -/
def Clashes (world : Tree) (worldId : String) : Prop :=
  ∃ root app, world.lookup ["migrations"] = some (.dir root) ∧
    world.lookup ["apps", worldId, "migrations"] = some (.dir app) ∧
      (sqlNames root ≠ [] ∨ sqlNames app ≠ [])

/-- In terms of the chains: two directories have one app, and not both are empty. -/
theorem clashes_iff (h : discoverMigrations world worldId = .ok (chains, warnings)) :
    Clashes world worldId ↔ ∃ chain ∈ chains, ∃ chain' ∈ chains,
      chain.app = chain'.app ∧ chain.relDir ≠ chain'.relDir ∧ chain.files ≠ [] := by
  have hfiles : ∀ {chain : AppChain} {entries : List (List UInt8 × Tree)},
      (chain.files.map MigrationFile.filename).Perm (sqlNames entries) →
        (sqlNames entries ≠ [] ↔ chain.files ≠ []) := by
    intro chain entries hperm
    rw [not_iff_not, ← List.length_eq_zero_iff, ← hperm.length_eq, List.length_map,
      List.length_eq_zero_iff]
  constructor
  · rintro ⟨root, app, hroot, happ, hsome⟩
    have hmem : (worldId, ["apps", worldId, "migrations"]) ∈ appDirs world worldId :=
      mem_appDirs happ
    obtain ⟨chain, hchain, happ1, hrel1, hperm1⟩ :=
      exists_chain h (List.mem_cons_self : (worldId, ["migrations"]) ∈ appDirs world worldId) hroot
    obtain ⟨chain', hchain', happ2, hrel2, hperm2⟩ := exists_chain h hmem happ
    rcases hsome with hsome | hsome
    · exact ⟨chain, hchain, chain', hchain', happ1.trans happ2.symm, by simp [hrel1, hrel2],
        (hfiles hperm1).mp hsome⟩
    · exact ⟨chain', hchain', chain, hchain, happ2.trans happ1.symm, by simp [hrel1, hrel2],
        (hfiles hperm2).mp hsome⟩
  · rintro ⟨chain, hchain, chain', hchain', happ, hrel, hsome⟩
    obtain ⟨dir, -, hfound⟩ := (mem_discoverMigrations h).mp hchain
    obtain ⟨dir', -, hfound'⟩ := (mem_discoverMigrations h).mp hchain'
    obtain ⟨-, -, hrel1, -, entries, hentries, hperm⟩ := discoverChain_some hfound
    obtain ⟨-, -, hrel2, -, entries', hentries', -⟩ := discoverChain_some hfound'
    rw [← hrel1] at hentries
    rw [← hrel2] at hentries'
    rcases relDir_of_app h hchain hchain' happ hrel with ⟨hroot, happs⟩ | ⟨happs, hroot⟩
    · rw [hroot] at hentries
      rw [happs] at hentries'
      exact ⟨entries, entries', hentries, hentries', Or.inl ((hfiles hperm).mpr hsome)⟩
    · rw [happs] at hentries
      rw [hroot] at hentries'
      exact ⟨entries', entries, hentries', hentries, Or.inr ((hfiles hperm).mpr hsome)⟩

/-! ## 2. Trees that do not clash -/

/-- An app with a migration has one chain. -/
def Separate (chains : List AppChain) : Prop :=
  ∀ chain ∈ chains, ∀ chain' ∈ chains, chain.app = chain'.app → chain.files ≠ [] → chain = chain'

theorem separate_of_not_clashes (h : discoverMigrations world worldId = .ok (chains, warnings))
    (hclash : ¬ Clashes world worldId) : Separate chains := by
  intro chain hchain chain' hchain' happ hfiles
  refine eq_of_relDir h hchain hchain' ?_
  by_contra hrel
  exact hclash ((clashes_iff h).mpr ⟨chain, hchain, chain', hchain', happ, hrel, hfiles⟩)

/-- Of these chains, every file was executed. -/
def Done (done : List AppChain) (db : Db σ) : Prop :=
  ∀ e, e ∈ db.executed ↔ ∃ chain ∈ done, e ∈ chain.executions chain.files

/-- One more chain is done. -/
theorem Done.snoc {done : List AppChain} {db db' : Db σ} (h : Done done db)
    (hexecuted : ∀ e, e ∈ db'.executed ↔ e ∈ db.executed ∨ e ∈ chain.executions chain.files) :
    Done (done ++ [chain]) db' := by
  intro e
  rw [hexecuted, h e]
  simp only [List.mem_append, List.mem_singleton]
  constructor
  · rintro (⟨c, hc, he⟩ | he)
    · exact ⟨c, Or.inl hc, he⟩
    · exact ⟨chain, Or.inr rfl, he⟩
  · rintro ⟨c, hc | rfl, he⟩
    · exact Or.inl ⟨c, hc, he⟩
    · exact Or.inr he

/-- What was executed for an app was executed for the one chain it has. -/
theorem eq_of_done {done : List AppChain} {db : Db σ} (hsep : Separate chains)
    (hdone : Done done db) (hsub : ∀ c ∈ done, c ∈ chains) (hchain : chain ∈ chains)
    {e : Execution} (he : e ∈ db.executed) (happ : e.app = chain.app) :
    chain ∈ done ∧ e ∈ chain.executions chain.files := by
  obtain ⟨chain', hchain', hmem⟩ := (hdone e).mp he
  obtain ⟨happ', hrel, hfile⟩ := mem_executions.mp hmem
  obtain rfl := hsep chain' (hsub _ hchain') chain hchain (happ'.symm.trans happ)
    (List.ne_nil_of_mem hfile)
  exact ⟨hchain', hmem⟩

/-- A chain that was applied is found applied. -/
theorem applyChain_of_applied (pg : Postgres σ) (crates : SchemaCrates) (hwf : chain.WellFormed)
    (hledgered : Ledgered worldId run.db)
    (hrows : ∀ e ∈ run.db.executed, e.app = chain.app → e ∈ chain.executions chain.files)
    (hall : ∀ file ∈ chain.files, ⟨chain.app, chain.relDir, file⟩ ∈ run.db.executed) :
    ∃ run', applyChain pg crates worldId chain run = (.ok (), run') ∧
      run'.db.executed = run.db.executed ∧ run'.db.tables = run.db.tables ∧
      run'.report =
        ⟨run.report.applied, run.report.alreadyApplied + chain.files.length⟩ := by
  have hpending : run.db.pending worldId chain.app chain.files = [] := by
    rw [Db.pending, List.filter_eq_nil_iff]
    intro file hfile hnone
    refine hledgered.existing_eq_none.mp (Option.isNone_iff_eq_none.mp hnone) ?_
    exact List.mem_map.mpr ⟨_, hall file hfile, rfl⟩
  refine ⟨_, (applyChain_iff hwf.nodup).mpr ⟨?_, ?_, ?_, run.db.tables, ?_, rfl⟩, ?_, ?_, ?_⟩
  · intro row hrow
    obtain ⟨e, he, happ, rfl⟩ := hledgered.mem_recorded.mp hrow
    exact List.mem_map.mpr ⟨e.file, (mem_executions.mp (hrows e he happ)).2.2, rfl⟩
  · intro file hfile checksum hexisting
    obtain ⟨e, he, happ, hname, rfl⟩ := hledgered.exists_execution hexisting
    have hsame := hwf.eq_of_filename (mem_executions.mp (hrows e he happ)).2.2 hfile hname
    rw [hsame]
  · rw [hpending]
    intro file hfile
    cases hfile
  · rw [hpending]
    rfl
  · show run.db.executed ++ _ = _
    rw [hpending, List.map_nil, List.append_nil]
  · rfl
  · show AppliedReport.mk _ _ = _
    rw [hpending, List.map_nil, List.append_nil, List.length_nil, Nat.sub_zero]

/-- A chain of whose app nothing was executed is executed. -/
theorem applyChain_of_new (hwf : chain.WellFormed) (hledgered : Ledgered worldId run.db)
    (hnew : ∀ e ∈ run.db.executed, e.app ≠ chain.app)
    (hcheck : ∀ file ∈ chain.files, checkDestructiveAcknowledged crates chain.relDir file = .ok ())
    {tables : σ} (hexec : Executes pg (chain.files.map MigrationFile.sql) run.db.tables tables) :
    ∃ run', applyChain pg crates worldId chain run = (.ok (), run') ∧
      run'.db.executed = run.db.executed ++ chain.executions chain.files ∧
      run'.db.tables = tables := by
  have hnone : ∀ filename, run.db.existing worldId chain.app filename = none := by
    intro filename
    rw [hledgered.existing_eq_none]
    intro hmem
    obtain ⟨e, he, hkey⟩ := List.mem_map.mp hmem
    exact hnew e he (Prod.mk.inj hkey).1
  have hpending : run.db.pending worldId chain.app chain.files = chain.files := by
    rw [Db.pending, List.filter_eq_self]
    intro file _
    rw [hnone]
    rfl
  refine ⟨_, (applyChain_iff hwf.nodup).mpr ⟨?_, ?_, ?_, tables, ?_, rfl⟩, ?_, rfl⟩
  · intro row hrow
    obtain ⟨e, he, happ, -⟩ := hledgered.mem_recorded.mp hrow
    exact absurd happ (hnew e he)
  · intro file _ checksum hexisting
    rw [hnone] at hexisting
    cases hexisting
  · rw [hpending]
    exact hcheck
  · rw [hpending]
    exact hexec
  · show run.db.executed ++ _ = _
    rw [hpending]
    rfl

theorem executes_unique : ∀ {texts : List String} {tables s t : σ},
    Executes pg texts tables s → Executes pg texts tables t → s = t
  | [], _, _, _, hs, ht => hs.symm.trans ht
  | sql :: texts, _, _, _, ⟨next, hnext, hs⟩, ⟨next', hnext', ht⟩ => by
    rw [hnext] at hnext'
    cases hnext'
    exact executes_unique hs ht

/-- The texts of some chains. -/
def texts (chains : List AppChain) : List String :=
  chains.flatMap fun chain => chain.files.map MigrationFile.sql

/-- **The first run** goes through, and executes every file. -/
theorem firstRun (worldId : String) (hwf : ∀ chain ∈ chains, chain.WellFormed)
    (hsep : Separate chains)
    (hcheck : ∀ chain ∈ chains, ∀ file ∈ chain.files,
      checkDestructiveAcknowledged crates chain.relDir file = .ok ())
    {start tables : σ} (schemas : List ((String × String) × List String))
    (hexec : Executes pg (texts chains.eraseDups) start tables) :
    ∃ run, Loop.each (applyChain pg crates worldId) chains ⟨Db.start start schemas, [], 0⟩ =
      (.ok (), run) ∧ Ledgered worldId run.db ∧ Done chains run.db := by
  have hloop : ∃ run, Loop.each (applyChain pg crates worldId) chains
      ⟨Db.start start schemas, [], 0⟩ = (.ok (), run) ∧ (Ledgered worldId run.db ∧
        Done chains run.db ∧ Executes pg (texts chains.eraseDups) start run.db.tables) := by
    refine Loop.each_succeeds (P := fun done (run : Run σ) => Ledgered worldId run.db ∧
      Done done run.db ∧ Executes pg (texts done.eraseDups) start run.db.tables) ?_ ?_
    · exact ⟨ledgered_start worldId start schemas, fun e => by simp [Db.start], rfl⟩
    rintro done chain rest run hsplit ⟨hledgered, hdone, htables⟩
    have hsub : ∀ c ∈ done, c ∈ chains := by simp +contextual [hsplit]
    have hchain : chain ∈ chains := by simp [hsplit]
    have hnext : ∀ {run' : Run σ}, applyChain pg crates worldId chain run = (.ok (), run') →
        Ledgered worldId run'.db := hledgered.applyChain (hwf chain hchain).nodup
    by_cases hmem : chain ∈ done
    · -- listed before, under the same name
      obtain ⟨run', hrun, hexecuted, hsame, -⟩ := applyChain_of_applied pg crates
        (hwf chain hchain) hledgered
        (fun e he happ => (eq_of_done hsep hdone hsub hchain he happ).2)
        (fun file hfile => (hdone _).mpr ⟨chain, hmem, mem_executions.mpr ⟨rfl, rfl, hfile⟩⟩)
      refine ⟨run', hrun, hnext hrun, hdone.snoc fun e => ?_, ?_⟩
      · rw [hexecuted]
        exact (or_iff_left_of_imp fun he => (hdone e).mpr ⟨chain, hmem, he⟩).symm
      · have hdups : (done ++ [chain]).eraseDups = done.eraseDups := by
          simp [List.eraseDups_append, List.removeAll, hmem]
        rw [hsame, hdups]
        exact htables
    · have hnew : ∀ e ∈ run.db.executed, e.app ≠ chain.app := fun e he happ =>
        hmem (eq_of_done hsep hdone hsub hchain he happ).1
      have hdups : (done ++ [chain]).eraseDups = done.eraseDups ++ [chain] := by
        simp [List.eraseDups_append, List.removeAll, hmem, List.eraseDups_cons]
      have hall : chains.eraseDups = done.eraseDups ++
          chain :: ((rest.removeAll done).filter fun c => !c == chain).eraseDups := by
        simp [hsplit, List.eraseDups_append, List.removeAll, hmem, List.eraseDups_cons]
      rw [hall, texts, List.flatMap_append, List.flatMap_cons] at hexec
      obtain ⟨t, ht, hexec⟩ := executes_append.mp hexec
      obtain ⟨u, hu, -⟩ := executes_append.mp hexec
      obtain rfl := executes_unique ht htables
      obtain ⟨run', hrun, hexecuted, rfl⟩ := applyChain_of_new (hwf chain hchain) hledgered hnew
        (hcheck chain hchain) hu
      refine ⟨run', hrun, hnext hrun, hdone.snoc fun e => ?_, ?_⟩
      · rw [hexecuted, List.mem_append]
      · rw [hdups, texts, List.flatMap_append, List.flatMap_singleton]
        exact executes_append.mpr ⟨_, htables, hu⟩
  obtain ⟨run, hrun, hledgered, hdone, -⟩ := hloop
  exact ⟨run, hrun, hledgered, hdone⟩

/-- **The second run** finds every file applied. -/
theorem secondRun (pg : Postgres σ) (crates : SchemaCrates)
    (hwf : ∀ chain ∈ chains, chain.WellFormed) (hsep : Separate chains) {db : Db σ}
    (hledgered : Ledgered worldId db) (hdone : Done chains db) :
    ∃ run, Loop.each (applyChain pg crates worldId) chains ⟨db, [], 0⟩ = (.ok (), run) ∧
      run.report = ⟨[], (chains.map fun chain => chain.files.length).sum⟩ := by
  have hloop : ∃ run, Loop.each (applyChain pg crates worldId) chains ⟨db, [], 0⟩ = (.ok (), run) ∧
      (Ledgered worldId run.db ∧ Done chains run.db ∧
        run.report = ⟨[], (chains.map fun chain => chain.files.length).sum⟩) := by
    refine Loop.each_succeeds (P := fun done (run : Run σ) => Ledgered worldId run.db ∧
      Done chains run.db ∧
        run.report = ⟨[], (done.map fun c : AppChain => c.files.length).sum⟩) ?_ ?_
    · exact ⟨hledgered, hdone, rfl⟩
    rintro done chain rest run hsplit ⟨hledgered, hdone, hreport⟩
    have hchain : chain ∈ chains := by simp [hsplit]
    obtain ⟨run', hrun, hexecuted, -, hnext⟩ := applyChain_of_applied pg crates
      (hwf chain hchain) hledgered
      (fun e he happ => (eq_of_done hsep hdone (fun _ hc => hc) hchain he happ).2)
      (fun file hfile => (hdone _).mpr ⟨chain, hchain, mem_executions.mpr ⟨rfl, rfl, hfile⟩⟩)
    refine ⟨run', hrun, hledgered.applyChain (hwf chain hchain).nodup hrun, ?_, ?_⟩
    · intro e
      rw [hexecuted]
      exact hdone e
    · rw [hnext, hreport]
      simp
  obtain ⟨run, hrun, -, -, hreport⟩ := hloop
  exact ⟨run, hrun, hreport⟩

/-! ## 3. Trees that clash -/

/-- A chain of a run that succeeds: what was executed for its app before the run goes by the
names of its files. -/
theorem names_of_each (hwf : ∀ chain ∈ chains, chain.WellFormed) {s s' : Run σ}
    (hledgered : Ledgered worldId s.db)
    (h : Loop.each (applyChain pg crates worldId) chains s = (.ok (), s'))
    (hchain : chain ∈ chains) {e : Execution} (he : e ∈ s.db.executed)
    (happ : e.app = chain.app) : e.file.filename ∈ chain.files.map MigrationFile.filename := by
  suffices Ledgered worldId s'.db ∧ (∀ e ∈ s.db.executed, e ∈ s'.db.executed) ∧
      ∀ c ∈ chains, ∀ e ∈ s.db.executed, e.app = c.app →
        e.file.filename ∈ c.files.map MigrationFile.filename from
    this.2.2 chain hchain e he happ
  refine Loop.each_invariant (P := fun done (now : Run σ) => Ledgered worldId now.db ∧
    (∀ e ∈ s.db.executed, e ∈ now.db.executed) ∧ ∀ c ∈ done, ∀ e ∈ s.db.executed,
      e.app = c.app → e.file.filename ∈ c.files.map MigrationFile.filename) h ?_ ?_
  · exact ⟨hledgered, fun _ he => he, fun c hc => by cases hc⟩
  rintro done c rest t t' hsplit ⟨hledgered, hkept, hnames⟩ hstep
  have hc : c ∈ chains := by simp [hsplit]
  refine ⟨hledgered.applyChain (hwf c hc).nodup hstep, fun e he => ?_, fun c' hc' e he happ => ?_⟩
  · rw [executed_applyChain (hwf c hc).nodup hstep]
    exact List.mem_append_left _ (hkept e he)
  · rcases List.mem_append.mp hc' with hc' | hc'
    · exact hnames c' hc' e he happ
    · rw [List.mem_singleton] at hc'
      subst hc'
      exact ((applyChain_iff (hwf c' hc).nodup).mp hstep).1 (e.row worldId)
        (hledgered.mem_recorded.mpr ⟨e, hkept e he, happ, rfl⟩)

theorem ledgered_of_each (hwf : ∀ chain ∈ chains, chain.WellFormed)
    (hledgered : Ledgered worldId run.db) {run' : Run σ}
    (h : Loop.each (applyChain pg crates worldId) chains run = (.ok (), run')) :
    Ledgered worldId run'.db := by
  refine Loop.each_invariant (P := fun _ (now : Run σ) => Ledgered worldId now.db) h hledgered ?_
  rintro done c rest t t' hsplit hledgered hstep
  exact hledgered.applyChain (hwf c (by simp [hsplit])).nodup hstep

theorem applyMigrations_ok {db : Db σ} {report : AppliedReport}
    (h : (applyMigrations pg crates worldId chains db).1 = .ok report) :
    ∃ run, Loop.each (applyChain pg crates worldId) chains ⟨db, [], 0⟩ = (.ok (), run) ∧
      run.report = report ∧ (applyMigrations pg crates worldId chains db).2 = run.db := by
  unfold applyMigrations at h ⊢
  split at h
  · cases h
  · rename_i run hrun
    cases h
    exact ⟨run, hrun, rfl, rfl⟩

/-- **Every discovered migration runs once and a rerun is a no-op, exactly when the tree does
not clash.** -/
theorem migrations_once_iff (h : discoverMigrations world worldId = .ok (chains, warnings))
    (hcheck : ∀ chain ∈ chains, ∀ file ∈ chain.files,
      checkDestructiveAcknowledged crates chain.relDir file = .ok ())
    {start tables : σ} {schemas : List ((String × String) × List String)}
    (hexec : Executes pg (texts chains.eraseDups) start tables) :
    RunsOnce pg crates worldId chains (Db.start start schemas) ↔ ¬ Clashes world worldId := by
  have hwf : ∀ chain ∈ chains, chain.WellFormed := fun chain => wellFormed_of_mem h
  constructor
  · intro hruns hclash
    obtain ⟨chain, hchain, chain', hchain', happ, hrel, hfiles⟩ := (clashes_iff h).mp hclash
    obtain ⟨report, hok⟩ := hruns.ok
    obtain ⟨run, hrun, -, hdb⟩ := applyMigrations_ok hok
    have hledgered : Ledgered worldId run.db :=
      ledgered_of_each hwf (ledgered_start worldId start schemas) hrun
    obtain ⟨run', hrun', -, -⟩ := applyMigrations_ok hruns.rerun
    rw [hdb] at hrun'
    have hexecuted : ∀ c ∈ chains, ∀ file ∈ c.files,
        (⟨c.app, c.relDir, file⟩ : Execution) ∈ run.db.executed := by
      intro c hc file hfile
      have honce := hruns.once c hc file hfile
      rw [hdb] at honce
      exact List.count_pos_iff.mp (by omega)
    -- the second run finds a file of the one chain in the other, under its name
    obtain ⟨file, hfile⟩ := List.exists_mem_of_ne_nil _ hfiles
    have he := hexecuted chain hchain file hfile
    have hname := names_of_each (s := ⟨run.db, [], 0⟩) hwf hledgered hrun' hchain' he happ
    obtain ⟨file', hfile', hsame⟩ := List.mem_map.mp hname
    have he' := hexecuted chain' hchain' file' hfile'
    have hkey : Execution.key ⟨chain.app, chain.relDir, file⟩ =
        Execution.key ⟨chain'.app, chain'.relDir, file'⟩ := by
      simp only [Execution.key, happ, hsame]
    have heq := List.inj_on_of_nodup_map hledgered.nodup he he' hkey
    exact hrel (congrArg Execution.relDir heq)
  · intro hclash
    have hsep := separate_of_not_clashes h hclash
    obtain ⟨run, hrun, hledgered, hdone⟩ := firstRun worldId hwf hsep hcheck schemas hexec
    obtain ⟨run', hrun', hreport⟩ := secondRun pg crates hwf hsep hledgered hdone
    have hfirst : applyMigrations pg crates worldId chains (Db.start start schemas) =
        (.ok run.report, run.db) := by
      rw [applyMigrations, hrun]
    refine ⟨⟨run.report, by rw [hfirst]⟩, fun chain hchain file hfile => ?_, fun e he => ?_, ?_⟩
    · rw [hfirst]
      refine List.count_eq_one_of_mem (List.Nodup.of_map _ hledgered.nodup) ((hdone _).mpr ?_)
      exact ⟨chain, hchain, mem_executions.mpr ⟨rfl, rfl, hfile⟩⟩
    · rw [hfirst] at he
      exact (hdone e).mp he
    · rw [hfirst, applyMigrations, hrun', ← hreport]

/-! ## 4. A tree that clashes -/

/-- A database that keeps the texts it has executed. -/
def recorder : Postgres (List String) where
  exec sql tables := .ok (tables ++ [sql])
  tableNames _ := []

theorem executes_recorder (texts tables : List String) :
    Executes recorder texts tables (tables ++ texts) := by
  induction texts generalizing tables with
  | nil => exact (List.append_nil tables).symm
  | cons sql texts ih =>
    refine ⟨tables ++ [sql], rfl, ?_⟩
    have hrest := ih (tables ++ [sql])
    rwa [List.append_assoc, List.singleton_append] at hrest

/-- A parser that finds no destructive statement. -/
def mildCrates : SchemaCrates := ⟨fun _ => some [], id⟩

/-- A directory `migrations` with these files, in the order `read_dir` gives. -/
def migrationsDir (files : List (String × String)) : List UInt8 × Tree :=
  (Utf8.encode "migrations".toList, .dir (files.map fun file =>
    (Utf8.encode file.1.toList, .file (Utf8.encode file.2.toList))))

/-- One app under `apps/`, next to these entries. -/
def worldWith (app : String) (migrations : List UInt8 × Tree)
    (entries : List (List UInt8 × Tree)) : Tree :=
  .dir ((Utf8.encode "apps".toList, .dir [(Utf8.encode app.toList, .dir [migrations])]) :: entries)

/-- The chain of one file. -/
def chainOf (app : String) (relDir : List String) (filename : String) (ordinal : Nat)
    (sql : String) : AppChain :=
  ⟨app, relDir, [⟨filename, ordinal, sql, contentHash sql⟩]⟩

/-- A world with two migrations of its own, and an app with two. -/
def todoChains : List AppChain :=
  [⟨"w", ["migrations"], [⟨"0001_init.sql", 1, "A", contentHash "A"⟩,
      ⟨"0002_more.sql", 2, "B", contentHash "B"⟩]⟩,
    ⟨"todo", ["apps", "todo", "migrations"], [⟨"0001_init.sql", 1, "C", contentHash "C"⟩,
      ⟨"0002_more.sql", 2, "D", contentHash "D"⟩]⟩]

theorem todo_runsOnce :
    (applyMigrations recorder mildCrates "w" todoChains (Db.start [] [])).2.tables =
        ["A", "B", "C", "D"] ∧
      RunsOnce recorder mildCrates "w" todoChains (Db.start [] []) := by
  have hfound : discoverMigrations (worldWith "todo"
      (migrationsDir [("0002_more.sql", "D"), ("0001_init.sql", "C")])
      [migrationsDir [("0002_more.sql", "B"), ("0001_init.sql", "A")]]) "w" =
        .ok (todoChains, []) := by rfl
  refine ⟨by rfl, (migrations_once_iff hfound (fun chain hchain file hfile => ?_)
    (executes_recorder _ _)).mpr ?_⟩
  · rfl
  · rintro ⟨root, app, -, happ, -⟩
    cases happ

/-- **The app that bears the world's name is refused.** -/
theorem clash_refused : ¬ ∀ (world : Tree) (worldId : String) (chains : List AppChain)
    (warnings : List String), discoverMigrations world worldId = .ok (chains, warnings) →
      (∀ chain ∈ chains, ∀ file ∈ chain.files,
        checkDestructiveAcknowledged mildCrates chain.relDir file = .ok ()) →
      RunsOnce recorder mildCrates worldId chains (Db.start [] []) := by
  intro h
  have hfound : discoverMigrations (worldWith "w" (migrationsDir [("0002_more.sql", "B")])
      [migrationsDir [("0001_init.sql", "A")]]) "w" =
      .ok ([chainOf "w" ["migrations"] "0001_init.sql" 1 "A",
        chainOf "w" ["apps", "w", "migrations"] "0002_more.sql" 2 "B"], []) := by rfl
  obtain ⟨report, hok⟩ := (h _ _ _ _ hfound fun _ _ _ _ => rfl).ok
  have hrefused : (applyMigrations recorder mildCrates "w"
      [chainOf "w" ["migrations"] "0001_init.sql" 1 "A",
        chainOf "w" ["apps", "w", "migrations"] "0002_more.sql" 2 "B"] (Db.start [] [])).1 =
      .error (.rejected ("apps/w/migrations/0001_init.sql is applied but missing on disk " ++
        "(renamed or deleted); applied statements never re-execute — restore the file")) := by rfl
  rw [hrefused] at hok
  cases hok

end PgPaw.Schema
