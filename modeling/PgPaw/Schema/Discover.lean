/-
# `schema/mod.rs`: the migrations of a directory tree

`discover_migrations` reads the `*.sql` files of `migrations/` and of each `apps/<app>/migrations/`
under the root, as one chain a directory.  The chain of the root goes by the name of the world.

A tree gives a directory's entries in the order `read_dir` returns them.  The name of an entry
is bytes: a file whose name is no text is passed over, and an app's is read with U+FFFD for what
is not (`to_string_lossy`).
-/
import PgPaw.Error
import PgPaw.Lib.Utf8
import PgPaw.Sql.Statement
import PgPaw.Text
import Mathlib.Data.List.Sort

namespace PgPaw.Schema

open Sql

/-! ## 1. The tree -/

/-- A file, or a directory. -/
inductive Tree
  | file (content : List UInt8)
  | dir (entries : List (List UInt8 × Tree))

namespace Tree

def isDir : Tree → Bool
  | file _ => false
  | dir _ => true

/-- What a path leads to. -/
def lookup : Tree → List String → Option Tree
  | tree, [] => some tree
  | file _, _ :: _ => none
  | dir entries, name :: path =>
    (entries.lookup (Utf8.encode name.toList)).bind fun entry => entry.lookup path

end Tree

/-- `Path::display`. -/
def display (path : List String) : String := "/".intercalate path

/-- `std::fs::read_to_string`. -/
def readToString : Option Tree → Except CacheError String
  | some (.file content) => match Utf8.text? content with
    | some text => .ok (String.ofList text)
    | none => .error (.rejected "stream did not contain valid UTF-8")
  | some (.dir _) => .error (.rejected "Is a directory (os error 21)")
  | none => .error (.rejected "No such file or directory (os error 2)")

/-! ## 2. Its migrations -/

/-- `MigrationFile`. -/
structure MigrationFile where
  filename : String
  ordinal : Nat
  sql : String
  checksum : String
  deriving DecidableEq, Repr

/-- `AppChain`. -/
structure AppChain where
  app : String
  relDir : List String
  files : List MigrationFile
  deriving DecidableEq, Repr

/-- `content_hash`: FNV-1a, as 16 digits. -/
def contentHash (source : String) : String :=
  let hash := (Utf8.encode source.toList).foldl
    (fun (hash : UInt64) byte => (hash ^^^ byte.toUInt64) * 0x100000001b3) 0xcbf29ce484222325
  let digits := Nat.toDigits 16 hash.toNat
  String.ofList (List.replicate (16 - digits.length) '0' ++ digits)

/-- The ordinal a filename starts with, as a `u32`. -/
def ordinalOf (filename : String) : Option Nat :=
  let digits := filename.toList.takeWhile Char.isDigit
  let n := digits.foldl (fun n c => n * 10 + (c.toNat - '0'.toNat)) 0
  if digits.isEmpty || 2 ^ 32 ≤ n then none else some n

/-- The names of the `*.sql` files of a directory, in order. -/
def sqlNames (entries : List (List UInt8 × Tree)) : List String :=
  ((entries.filterMap fun entry => (Utf8.text? entry.1).map String.ofList).filter fun name =>
    ".sql".toList.isSuffixOf name.toList).insertionSort (¬ · > ·)

/-- The loop over the names; `seen` are the ordinals so far. -/
def readFiles (relDir : List String) (entries : List (List UInt8 × Tree)) :
    List String → List Nat → Except CacheError (List MigrationFile)
  | [], _ => .ok []
  | filename :: names, seen =>
    let label := display (relDir ++ [filename])
    match ordinalOf filename with
    | none => .error (.rejected
        (label ++ ": migration filenames start with an ordinal: NNNN_<name>.sql"))
    | some ordinal =>
      if seen.contains ordinal then .error (.rejected
        (label ++ ": duplicate migration ordinal " ++ decimal ordinal))
      else match readToString (entries.lookup (Utf8.encode filename.toList)) with
        | .error e => .error e
        | .ok sql => (readFiles relDir entries names (ordinal :: seen)).map fun files =>
            ⟨filename, ordinal, sql, contentHash sql⟩ :: files

/-- The warnings of a chain. -/
def ordinalGaps (relDir : List String) (ordinals : List Nat) : List String :=
  (ordinals.zip ordinals.tail).filterMap fun (a, b) =>
    if b = a + 1 then none
    else some (display relDir ++ "/: ordinal gap between " ++ decimal a ++ " and " ++ decimal b)

/-- The chain of an app, if it has a directory for one. -/
def discoverChain (world : Tree) (app : String) (relDir : List String) :
    Except CacheError (Option AppChain) :=
  match world.lookup relDir with
  | some (.dir entries) => (readFiles relDir entries (sqlNames entries) []).map fun files =>
      some ⟨app, relDir, files.insertionSort (·.ordinal ≤ ·.ordinal)⟩
  | _ => .ok none

/-- The loop over the apps. -/
def discoverChains (world : Tree) : List (String × List String) → Except CacheError (List AppChain)
  | [] => .ok []
  | (app, relDir) :: apps => match discoverChain world app relDir with
    | .error e => .error e
    | .ok chain => (discoverChains world apps).map fun chains => chain.toList ++ chains

/-- The directories of a directory, in order. -/
def dirNames : Option Tree → List String
  | some (.dir entries) =>
    ((entries.filter fun entry => entry.2.isDir).insertionSort (¬ ·.1 > ·.1)).map
      fun entry => String.ofList (Utf8.lossy entry.1)
  | _ => []

/-- The apps, and where their migrations are: the world itself, and the directories under
`apps/`. -/
def appDirs (world : Tree) (worldId : String) : List (String × List String) :=
  (worldId, ["migrations"]) ::
    (dirNames (world.lookup ["apps"])).map fun app => (app, ["apps", app, "migrations"])

/-- `discover_migrations`. -/
def discoverMigrations (world : Tree) (worldId : String) :
    Except CacheError (List AppChain × List String) :=
  (discoverChains world (appDirs world worldId)).map fun chains =>
    (chains, chains.flatMap fun chain =>
      ordinalGaps chain.relDir (chain.files.map MigrationFile.ordinal))

/-! ## 3. What is found -/

/-- A chain as it is found: its files carry the ordinal of their name and the hash of their
text, and stand in the order of the ordinals. -/
structure AppChain.WellFormed (chain : AppChain) : Prop where
  ordinal : ∀ file ∈ chain.files, ordinalOf file.filename = some file.ordinal
  checksum : ∀ file ∈ chain.files, file.checksum = contentHash file.sql
  sorted : (chain.files.map MigrationFile.ordinal).Pairwise (· < ·)

/-- Two files of a chain with one name are one file. -/
theorem AppChain.WellFormed.eq_of_filename {chain : AppChain} (h : chain.WellFormed)
    {file file' : MigrationFile} (hfile : file ∈ chain.files) (hfile' : file' ∈ chain.files)
    (hname : file.filename = file'.filename) : file = file' := by
  have hordinal : file.ordinal = file'.ordinal := by
    have hsome := h.ordinal file hfile
    rw [hname, h.ordinal file' hfile'] at hsome
    exact (Option.some.inj hsome).symm
  have hnodup : (chain.files.map MigrationFile.ordinal).Nodup := h.sorted.imp Nat.ne_of_lt
  exact List.inj_on_of_nodup_map hnodup hfile hfile' hordinal

theorem AppChain.WellFormed.nodup {chain : AppChain} (h : chain.WellFormed) :
    (chain.files.map MigrationFile.filename).Nodup := by
  have hsorted : chain.files.Pairwise fun f g => f.ordinal < g.ordinal :=
    List.pairwise_map.mp h.sorted
  refine List.pairwise_map.mpr (hsorted.imp_of_mem fun {f g} hf hg hlt hname => ?_)
  exact absurd (h.eq_of_filename hf hg hname ▸ hlt) (Nat.lt_irrefl _)

/-- What the loop over the names reads. -/
theorem readFiles_ok {relDir : List String} {entries : List (List UInt8 × Tree)} :
    ∀ {names : List String} {seen : List Nat} {files : List MigrationFile},
      readFiles relDir entries names seen = .ok files →
        files.map MigrationFile.filename = names ∧
          (∀ file ∈ files, ordinalOf file.filename = some file.ordinal ∧
            file.checksum = contentHash file.sql ∧ file.ordinal ∉ seen ∧
            readToString (entries.lookup (Utf8.encode file.filename.toList)) = .ok file.sql) ∧
          (files.map MigrationFile.ordinal).Nodup
  | [], _, _, h => by
    cases h
    exact ⟨rfl, by simp, List.nodup_nil⟩
  | filename :: names, seen, _, h => by
    simp only [readFiles] at h
    split at h
    · cases h
    rename_i ordinal hordinal
    split at h
    · cases h
    rename_i hseen
    split at h
    · cases h
    rename_i sql hsql
    cases hrest : readFiles relDir entries names (ordinal :: seen) with
    | error e =>
      rw [hrest] at h
      cases h
    | ok files =>
      rw [hrest] at h
      cases h
      obtain ⟨hnames, hfiles, hnodup⟩ := readFiles_ok hrest
      have hfresh : ordinal ∉ seen := by simpa using hseen
      refine ⟨by simp [hnames], ?_, ?_⟩
      · rintro file hfile
        rcases List.mem_cons.mp hfile with rfl | hfile
        · exact ⟨hordinal, rfl, hfresh, hsql⟩
        · obtain ⟨hof, hsum, hnot, hread⟩ := hfiles file hfile
          exact ⟨hof, hsum, fun hmem => hnot (List.mem_cons_of_mem _ hmem), hread⟩
      · rw [List.map_cons, List.nodup_cons]
        refine ⟨fun hmem => ?_, hnodup⟩
        obtain ⟨file, hfile, rfl⟩ := List.mem_map.mp hmem
        exact (hfiles file hfile).2.2.1 List.mem_cons_self

/-- One more name on the path of a directory. -/
theorem Tree.lookup_concat : ∀ {tree : Tree} {path : List String} {name : String}
    {entries : List (List UInt8 × Tree)}, tree.lookup path = some (.dir entries) →
      tree.lookup (path ++ [name]) = entries.lookup (Utf8.encode name.toList)
  | .dir inner, [], name, _, h => by
    cases h
    simp [Tree.lookup]
  | .file _, [], _, _, h => by cases h
  | .file _, _ :: _, _, _, h => by cases h
  | .dir inner, next :: path, name, entries, h => by
    obtain ⟨entry, hentry, hrest⟩ := Option.bind_eq_some_iff.mp h
    simp only [List.cons_append, Tree.lookup, hentry, Option.bind_some]
    exact Tree.lookup_concat hrest

section Found

variable {world : Tree} {worldId app : String} {relDir : List String} {chain : AppChain}
  {chains : List AppChain} {warnings : List String}

/-- A chain belongs to a directory, and has a file for each `*.sql` name in it. -/
theorem discoverChain_some (h : discoverChain world app relDir = .ok (some chain)) :
    chain.WellFormed ∧ chain.app = app ∧ chain.relDir = relDir ∧
      (∀ file ∈ chain.files,
        readToString (world.lookup (relDir ++ [file.filename])) = .ok file.sql) ∧
      ∃ entries, world.lookup relDir = some (.dir entries) ∧
        (chain.files.map MigrationFile.filename).Perm (sqlNames entries) := by
  unfold discoverChain at h
  split at h
  · rename_i entries hdir
    cases hfiles : readFiles relDir entries (sqlNames entries) [] with
    | error e =>
      rw [hfiles] at h
      cases h
    | ok files =>
      rw [hfiles] at h
      cases h
      obtain ⟨hnames, hread, hnodup⟩ := readFiles_ok hfiles
      have hperm := List.perm_insertionSort (fun f g : MigrationFile => f.ordinal ≤ g.ordinal) files
      refine ⟨⟨fun file hfile => (hread file (hperm.mem_iff.mp hfile)).1,
        fun file hfile => (hread file (hperm.mem_iff.mp hfile)).2.1, ?_⟩, rfl, rfl,
        fun file hfile => ?_, entries, hdir, hnames ▸ hperm.map _⟩
      · have hle := List.pairwise_map.mpr
          (List.pairwise_insertionSort (fun f g : MigrationFile => f.ordinal ≤ g.ordinal) files)
        have hne : ((files.insertionSort fun f g => f.ordinal ≤ g.ordinal).map
            MigrationFile.ordinal).Nodup := (hperm.map _).nodup_iff.mpr hnodup
        exact (hle.and hne).imp fun h => Nat.lt_of_le_of_ne h.1 h.2
      · rw [Tree.lookup_concat hdir]
        exact (hread file (hperm.mem_iff.mp hfile)).2.2.2
  · cases h

/-- The loop over the apps collects the chains there are. -/
theorem mem_discoverChains : ∀ {apps : List (String × List String)} {chains : List AppChain},
    discoverChains world apps = .ok chains →
      (chain ∈ chains ↔ ∃ dir ∈ apps, discoverChain world dir.1 dir.2 = .ok (some chain))
  | [], _, h => by
    cases h
    simp
  | (app, relDir) :: apps, _, h => by
    simp only [discoverChains] at h
    split at h
    · cases h
    rename_i found hfound
    cases hrest : discoverChains world apps with
    | error e =>
      rw [hrest] at h
      cases h
    | ok chains =>
      rw [hrest] at h
      cases h
      rw [List.mem_append, mem_discoverChains hrest, Option.mem_toList, List.exists_mem_cons_iff,
        hfound]
      simp [eq_comm]

/-- The chains of a tree. -/
theorem mem_discoverMigrations (h : discoverMigrations world worldId = .ok (chains, warnings)) :
    chain ∈ chains ↔
      ∃ dir ∈ appDirs world worldId, discoverChain world dir.1 dir.2 = .ok (some chain) := by
  unfold discoverMigrations at h
  cases hchains : discoverChains world (appDirs world worldId) with
  | error e =>
    rw [hchains] at h
    cases h
  | ok found =>
    rw [hchains] at h
    cases h
    exact mem_discoverChains hchains

/-- Every directory was read without an error. -/
theorem discoverChain_of_mem : ∀ {apps : List (String × List String)} {chains : List AppChain},
    discoverChains world apps = .ok chains → ∀ dir ∈ apps,
      ∃ found, discoverChain world dir.1 dir.2 = .ok found
  | [], _, _, _, hdir => by cases hdir
  | (app, relDir) :: apps, _, h, dir, hdir => by
    simp only [discoverChains] at h
    split at h
    · cases h
    rename_i found hfound
    cases hrest : discoverChains world apps with
    | error e =>
      rw [hrest] at h
      cases h
    | ok chains =>
      rcases List.mem_cons.mp hdir with rfl | hdir
      · exact ⟨found, hfound⟩
      · exact discoverChain_of_mem hrest dir hdir

/-- A directory for migrations has its chain. -/
theorem exists_chain (h : discoverMigrations world worldId = .ok (chains, warnings))
    (hdir : (app, relDir) ∈ appDirs world worldId) {entries : List (List UInt8 × Tree)}
    (hentries : world.lookup relDir = some (.dir entries)) :
    ∃ chain ∈ chains, chain.app = app ∧ chain.relDir = relDir ∧
      (chain.files.map MigrationFile.filename).Perm (sqlNames entries) := by
  have hfound : ∃ found, discoverChain world app relDir = .ok found := by
    cases hchains : discoverChains world (appDirs world worldId) with
    | error e =>
      rw [discoverMigrations, hchains] at h
      cases h
    | ok found => exact discoverChain_of_mem hchains _ hdir
  obtain ⟨found, hfound⟩ := hfound
  cases found with
  | none =>
    simp only [discoverChain, hentries] at hfound
    cases hread : readFiles relDir entries (sqlNames entries) [] <;> rw [hread] at hfound <;>
      cases hfound
  | some chain =>
    obtain ⟨-, happ, hrel, -, entries', hentries', hperm⟩ := discoverChain_some hfound
    rw [hentries] at hentries'
    cases hentries'
    exact ⟨chain, (mem_discoverMigrations h).mpr ⟨_, hdir, hfound⟩, happ, hrel, hperm⟩

/-- A directory belongs to one app. -/
theorem eq_of_appDirs {dir dir' : String × List String} (hdir : dir ∈ appDirs world worldId)
    (hdir' : dir' ∈ appDirs world worldId) (h : dir.2 = dir'.2) : dir = dir' := by
  simp only [appDirs, List.mem_cons, List.mem_map] at hdir hdir'
  rcases hdir with rfl | ⟨app, -, rfl⟩ <;> rcases hdir' with rfl | ⟨app', -, rfl⟩ <;> simp_all

theorem eq_of_relDir (h : discoverMigrations world worldId = .ok (chains, warnings))
    {chain' : AppChain} (hchain : chain ∈ chains) (hchain' : chain' ∈ chains)
    (hrel : chain.relDir = chain'.relDir) : chain = chain' := by
  obtain ⟨dir, hdir, hfound⟩ := (mem_discoverMigrations h).mp hchain
  obtain ⟨dir', hdir', hfound'⟩ := (mem_discoverMigrations h).mp hchain'
  have hsame : dir.2 = dir'.2 := by
    rw [← (discoverChain_some hfound).2.2.1, ← (discoverChain_some hfound').2.2.1, hrel]
  obtain rfl := eq_of_appDirs hdir hdir' hsame
  rw [hfound] at hfound'
  cases hfound'
  rfl

/-- A directory that a path goes through is found by its name. -/
theorem mem_dirNames {tree node : Tree} {name next : String} {path : List String}
    (h : tree.lookup (name :: next :: path) = some node) : name ∈ dirNames (some tree) := by
  cases tree with
  | file content => cases h
  | dir entries =>
    obtain ⟨entry, hentry, hnode⟩ := Option.bind_eq_some_iff.mp h
    cases entry with
    | file content => cases hnode
    | dir inner =>
      obtain ⟨before, after, rfl, -⟩ := List.lookup_eq_some_iff.mp hentry
      simp only [dirNames, List.mem_map, List.mem_insertionSort, List.mem_filter]
      exact ⟨(Utf8.encode name.toList, .dir inner), ⟨by simp, rfl⟩, by simp⟩

theorem mem_appDirs {node : Tree} {next : String} {path : List String}
    (h : world.lookup ("apps" :: app :: next :: path) = some node) :
    (app, ["apps", app, "migrations"]) ∈ appDirs world worldId := by
  cases world with
  | file content => cases h
  | dir entries =>
    obtain ⟨entry, hentry, hnode⟩ := Option.bind_eq_some_iff.mp h
    have happs : (Tree.dir entries).lookup ["apps"] = some entry := by
      simp only [Tree.lookup, hentry, Option.bind_some]
    refine List.mem_cons_of_mem _ (List.mem_map.mpr ⟨app, ?_, rfl⟩)
    rw [happs]
    exact mem_dirNames hnode

/-- Two directories with one app are those of the world and of the app that bears its name. -/
theorem relDir_of_app (h : discoverMigrations world worldId = .ok (chains, warnings))
    {chain' : AppChain} (hchain : chain ∈ chains) (hchain' : chain' ∈ chains)
    (happ : chain.app = chain'.app) (hrel : chain.relDir ≠ chain'.relDir) :
    (chain.relDir = ["migrations"] ∧ chain'.relDir = ["apps", worldId, "migrations"]) ∨
      (chain.relDir = ["apps", worldId, "migrations"] ∧ chain'.relDir = ["migrations"]) := by
  obtain ⟨dir, hdir, hfound⟩ := (mem_discoverMigrations h).mp hchain
  obtain ⟨dir', hdir', hfound'⟩ := (mem_discoverMigrations h).mp hchain'
  obtain ⟨-, happ1, hrel1, -⟩ := discoverChain_some hfound
  obtain ⟨-, happ2, hrel2, -⟩ := discoverChain_some hfound'
  rw [happ1, happ2] at happ
  rw [hrel1, hrel2] at hrel
  rw [hrel1, hrel2]
  simp only [appDirs, List.mem_cons, List.mem_map] at hdir hdir'
  rcases hdir with rfl | ⟨app, -, rfl⟩ <;> rcases hdir' with rfl | ⟨app', -, rfl⟩
  · exact absurd rfl hrel
  · left
    simp only at happ
    simp [happ]
  · right
    simp only at happ
    simp [happ]
  · simp only at happ
    exact absurd (by simp [happ]) hrel

theorem wellFormed_of_mem (h : discoverMigrations world worldId = .ok (chains, warnings))
    (hchain : chain ∈ chains) : chain.WellFormed := by
  obtain ⟨dir, -, hfound⟩ := (mem_discoverMigrations h).mp hchain
  exact (discoverChain_some hfound).1

end Found

end PgPaw.Schema
