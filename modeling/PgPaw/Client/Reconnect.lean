/-
# The collection across reconnects

What the collection should hold after a snapshot or an up-to-date frame: the rows of the latest
snapshot, with the batches completed after it applied (`Tracked`).  A batch is the changes
between two up-to-date frames of a connection, applied as a whole.

`applyRows` inserts the rows of a snapshot without truncating.  After a `reset` the collection is
empty; after the end of the stream or an error it still holds the rows of the connection before
(`stale_row_stays`).  `collection_tracks_iff` says that this is all that can go wrong.
-/
import PgPaw.Client.Core

namespace PgPaw.Client

open Transition

/-! ## 1. What the collection should hold -/

/-- A change frame, without its transaction id. -/
abbrev Change := ChangeOp × Option Row × Option String

/-- One row of a snapshot, under its key. -/
def putRow (config : Config) (rows : Rows) (row : Row) : Rows :=
  match config.getKey row with
  | some key => rows.insert key row
  | none => rows

/-- The rows of a snapshot on top of others. -/
def putRows (config : Config) (snapshot : List Row) (rows : Rows) : Rows :=
  snapshot.foldl (putRow config) rows

/-- One change of a batch, on the rows and on the keys the batch has set so far.  A delete that
carries the old row stands for a row that left the result under this key: it does not undo an
upsert of the same batch. -/
def applyChange (config : Config) : Rows × Finset String → Change → Rows × Finset String
  | (rows, mine), (.insert, some row, _) | (rows, mine), (.update, some row, _) =>
    match config.getKey row with
    | some key => (rows.insert key row, insert key mine)
    | none => (rows, mine)
  | (rows, mine), (.insert, none, _) | (rows, mine), (.update, none, _) => (rows, mine)
  | (rows, mine), (.delete, none, key) => (rows.erase (keyText key), mine.erase (keyText key))
  | (rows, mine), (.delete, some row, _) => match config.getKey row with
    | some key => if key ∈ mine then (rows, mine) else (rows.erase key, mine)
    | none => (rows, mine)

/-- A batch, change by change. -/
def applyChanges (config : Config) (batch : List Change) (rows : Rows) : Rows × Finset String :=
  batch.foldl (applyChange config) (rows, ∅)

/-- `sync`, and beside it what its collection should hold. -/
structure Tracked where
  sync : Sync
  /-- The latest snapshot with the batches completed after it. -/
  rows : Rows
  /-- The batch in progress. -/
  batch : List Change
  /-- This connection has sent its snapshot. -/
  started : Bool

/-- A step of `sync`, followed. -/
def trackedStep (config : Config) (s : Tracked) (action : Action) : Option Tracked :=
  (step config s.sync action).map fun sync => match action with
    | .connect => { s with sync := sync, batch := [], started := false }
    | .frame (.snapshot rows _) =>
      { s with sync := sync, rows := putRows config (rows.getD []) ∅, started := true }
    | .frame (.change op row key _) => { s with sync := sync, batch := s.batch ++ [(op, row, key)] }
    | .frame (.upToDate _) =>
      { s with sync := sync, rows := (applyChanges config s.batch s.rows).1, batch := [] }
    | .frame (.reset _) | .done | .fail | .stop => { s with sync := sync }

/-- Before the first connection. -/
def Tracked.new : Tracked := ⟨.new, ∅, [], false⟩

/-- The runs of `sync`. -/
def tracked (config : Config) : System Tracked Action where
  init := (· = Tracked.new)
  step := trackedStep config

/-- **The collection is right** after a snapshot and after an up-to-date frame. -/
def Tracks (config : Config) (s : Tracked) (action : Action) : Prop :=
  match action with
  | .frame (.snapshot _ _) | .frame (.upToDate _) =>
    ∀ s', trackedStep config s action = some s' → s'.sync.collection config = s'.rows
  | _ => True

/-- The first frame of a connection is a snapshot. -/
def SnapshotFirst (s : Tracked) (action : Action) : Prop :=
  match action with
  | .frame (.change _ _ _ _) | .frame (.upToDate _) | .frame (.reset _) => s.started = true
  | _ => True

/-- **A snapshot has every row the collection holds**, by key. -/
def CoversCollection (config : Config) (s : Tracked) (action : Action) : Prop :=
  match action with
  | .frame (.snapshot rows _) => s.sync.connected = true →
    ∀ key ∈ s.sync.collection config, key ∈ putRows config (rows.getD []) ∅
  | _ => True

/-- A row of the source has all columns, and `getKey` returns its key. -/
def FullRow (config : Config) (columns : Finset String) (row : Row) : Prop :=
  row.keys = columns ∧ (config.getKey row).isSome

/-- What a source of full rows can yield. -/
def FullFrame (config : Config) (columns : Finset String) (action : Action) : Prop :=
  match action with
  | .frame (.snapshot rows _) => ∃ rs, rows = some rs ∧ ∀ row ∈ rs, FullRow config columns row
  | .frame (.change .insert row _ _) | .frame (.change .update row _ _) =>
    ∃ r, row = some r ∧ FullRow config columns r
  | .frame (.change .delete row _ _) => ∀ r ∈ row, FullRow config columns r
  | _ => True

/-! ## 2. A snapshot -/

section Snapshot

variable {config : Config}

theorem lookup_putRow {row : Row} {key : String} (h : config.getKey row = some key) (rows : Rows)
    (k : String) :
    (putRow config rows row).lookup k = if k = key then some row else rows.lookup k := by
  rw [putRow, h]
  by_cases hk : k = key
  · rw [if_pos hk, hk, Finmap.lookup_insert]
  · rw [if_neg hk, Finmap.lookup_insert_of_ne _ hk]

/-- A snapshot decides the rows it has; the others stay. -/
theorem lookup_putRows (k : String) : ∀ (snapshot : List Row) (rows : Rows),
    (∀ row ∈ snapshot, (config.getKey row).isSome) →
      (putRows config snapshot rows).lookup k =
        ((putRows config snapshot ∅).lookup k).or (rows.lookup k)
  | [], rows, _ => by simp [putRows]
  | row :: snapshot, rows, h => by
    obtain ⟨key, hkey⟩ := Option.isSome_iff_exists.mp (h row List.mem_cons_self)
    have ih := fun rows =>
      lookup_putRows k snapshot rows fun r hr => h r (List.mem_cons_of_mem _ hr)
    change (putRows config snapshot (putRow config rows row)).lookup k =
      ((putRows config snapshot (putRow config ∅ row)).lookup k).or _
    rw [ih (putRow config rows row), ih (putRow config ∅ row), lookup_putRow hkey,
      lookup_putRow hkey, Option.or_assoc]
    by_cases hk : k = key <;> simp [hk]

/-- **Rows on top of others are the rows alone** exactly when they have all the others' keys. -/
theorem putRows_eq_iff {snapshot : List Row} {rows : Rows}
    (h : ∀ row ∈ snapshot, (config.getKey row).isSome) :
    putRows config snapshot rows = putRows config snapshot ∅ ↔
      ∀ key ∈ rows, key ∈ putRows config snapshot ∅ := by
  constructor
  · intro heq key hkey
    rw [← Finmap.lookup_isSome, ← heq, lookup_putRows key snapshot rows h, Option.isSome_or,
      Finmap.lookup_isSome.mpr hkey, Bool.or_true]
  · intro hcovers
    refine Finmap.ext_lookup ?_
    intro key
    rw [lookup_putRows key snapshot rows h]
    cases hrow : rows.lookup key with
    | none => rw [Option.or_none]
    | some row =>
      have hmem := hcovers key (Finmap.mem_of_lookup_eq_some hrow)
      obtain ⟨row', hrow'⟩ := Option.isSome_iff_exists.mp (Finmap.lookup_isSome.mpr hmem)
      rw [hrow']
      rfl

/-- The loop of `applyRows` on rows with keys. -/
theorem writeRows_of_keys (config : Config) : ∀ (snapshot : List Row) (seen : Finset String),
    (∀ row ∈ snapshot, (config.getKey row).isSome) →
      ∃ seen' calls, writeRows config snapshot seen = (seen', calls, true) ∧
        (∀ rows, applyCalls config calls rows = putRows config snapshot rows) ∧
        ∀ key, key ∈ seen' ↔ key ∈ seen ∨ key ∈ putRows config snapshot ∅
  | [], seen, _ => ⟨seen, [], rfl, fun _ => rfl, fun key => by
      simp [putRows, Finmap.notMem_empty]⟩
  | row :: snapshot, seen, h => by
    obtain ⟨key, hkey⟩ := Option.isSome_iff_exists.mp (h row List.mem_cons_self)
    have hrest := fun r hr => h r (List.mem_cons_of_mem row hr)
    obtain ⟨seen', calls, hwrite, hcalls, hseen⟩ :=
      writeRows_of_keys config snapshot (insert key seen) hrest
    refine ⟨seen', .write (.insert row) :: calls, ?_, fun rows => ?_, fun k => ?_⟩
    · simp only [writeRows, hkey, hwrite]
    · have hput : Call.apply config rows (.write (.insert row)) = putRow config rows row := by
        simp only [Call.apply, Write.apply, putRow, hkey]
      change applyCalls config calls (Call.apply config rows _) = _
      rw [hput, hcalls]
      rfl
    · have hlookup := lookup_putRows k snapshot (putRow config ∅ row) hrest
      rw [hseen, Finset.mem_insert,
        ← Finmap.lookup_isSome (s := putRows config (row :: snapshot) ∅)]
      change _ ↔ _ ∨ ((putRows config snapshot (putRow config ∅ row)).lookup k).isSome = true
      rw [hlookup, lookup_putRow hkey, Option.isSome_or, Bool.or_eq_true, Finmap.lookup_isSome]
      by_cases hk : k = key <;> simp [hk]

end Snapshot

/-! ## 3. A batch -/

/-- What a pending operation makes of the row under its key. -/
def pendingEffect : Option PendingOp → Option Row → Option Row
  | none, row => row
  | some (.upsert value), _ => some value
  | some .delete, _ => none

/-- And in either mode: an update may be a patch of the row that is there. -/
def flushEffect (mode : RowUpdateMode) : Option PendingOp → Option Row → Option Row
  | none, row => row
  | some (.upsert value), some old => match mode with
    | .patch => some (spread old value)
    | .full => some value
  | some (.upsert value), none => some value
  | some .delete, _ => none

theorem flushEffect_full (op : Option PendingOp) (row : Option Row) :
    flushEffect .full op row = pendingEffect op row := by
  rcases op with _ | (value | _)
  · rfl
  · cases row <;> rfl
  · rfl

section Batch

variable {config : Config} {columns : Finset String}

theorem lookup_cons (key : String) (op : PendingOp) (pending : Pending) (k : String) :
    ((key, op) :: pending).lookup k = if k = key then some op else pending.lookup k := by
  rw [List.lookup_cons]
  by_cases hk : k = key
  · simp [hk]
  · have hb : (k == key) = false := by simpa using hk
    simp [hk, hb]

/-- `pending.get` after `pending.set`. -/
theorem lookup_setPending (key : String) (op : PendingOp) (k : String) : ∀ pending : Pending,
    (setPending pending key op).lookup k = if k = key then some op else pending.lookup k
  | [] => lookup_cons key op [] k
  | (key', op') :: pending => by
    have ih := lookup_setPending key op k pending
    rw [setPending, lookup_cons]
    by_cases hkey : key' = key
    · rw [if_pos hkey, lookup_cons, hkey]
      split <;> rfl
    · rw [if_neg hkey, lookup_cons, ih]
      by_cases hk : k = key'
      · have hne : k ≠ key := fun h => hkey (hk.symm.trans h)
        rw [if_pos hk, if_neg hne, if_pos hk]
      · rw [if_neg hk, if_neg hk]

/-- A key is pending once. -/
theorem keys_setPending (key : String) (op : PendingOp) : ∀ pending : Pending,
    (setPending pending key op).map Prod.fst =
      if key ∈ pending.map Prod.fst then pending.map Prod.fst else pending.map Prod.fst ++ [key]
  | [] => by simp [setPending]
  | (key', op') :: pending => by
    have ih := keys_setPending key op pending
    by_cases hkey : key' = key
    · simp [setPending, hkey]
    · have hkey' : key ≠ key' := Ne.symm hkey
      simp only [setPending, if_neg hkey, List.map_cons, ih, List.mem_cons, hkey', false_or]
      split <;> rfl

theorem nodup_setPending {pending : Pending} (h : (pending.map Prod.fst).Nodup) (key : String)
    (op : PendingOp) : ((setPending pending key op).map Prod.fst).Nodup := by
  rw [keys_setPending]
  split
  · exact h
  · rename_i hkey
    exact List.nodup_append.mpr ⟨h, List.nodup_singleton key, fun a ha b hb => by
      rw [List.mem_singleton.mp hb]
      rintro rfl
      exact hkey ha⟩

theorem lookup_eq_none_of_notMem {pending : Pending} {key : String}
    (h : key ∉ pending.map Prod.fst) : pending.lookup key = none := by
  rw [List.lookup_eq_none_iff]
  intro p hp
  have hne : key ≠ p.1 := fun heq => h (heq ▸ List.mem_map_of_mem hp)
  simpa using hne

/-- A write of `flush`, as long as `seen` is the keys of the collection. -/
theorem apply_write_upsert {key : String} {value : Row} {seen : Finset String} {rows : Rows}
    (hvalue : config.getKey value = some key) (hseen : key ∈ seen ↔ key ∈ rows) :
    ∃ row, flushEffect config.rowUpdateMode (some (.upsert value)) (rows.lookup key) = some row ∧
      Call.apply config rows (.write (if key ∈ seen then .update value else .insert value)) =
        rows.insert key row := by
  cases hrow : rows.lookup key with
  | none =>
    have hmem : key ∉ seen := fun h => Finmap.lookup_eq_none.mp hrow (hseen.mp h)
    refine ⟨value, rfl, ?_⟩
    simp only [if_neg hmem, Call.apply, Write.apply, hvalue]
  | some old =>
    have hmem : key ∈ seen := hseen.mpr (Finmap.mem_of_lookup_eq_some hrow)
    cases hmode : config.rowUpdateMode with
    | full =>
      refine ⟨value, rfl, ?_⟩
      simp only [if_pos hmem, Call.apply, Write.apply, hvalue, hmode]
    | patch =>
      refine ⟨spread old value, rfl, ?_⟩
      simp only [if_pos hmem, Call.apply, Write.apply, hvalue, hmode, hrow]

/-- **What `flush` writes**: each pending operation under its key, as long as `seen` is the keys
of the collection. -/
theorem flushPending_effect {pending : Pending} {seen : Finset String} {rows : Rows}
    (hnodup : (pending.map Prod.fst).Nodup)
    (hupserts : ∀ key value, pending.lookup key = some (.upsert value) →
      config.getKey value = some key)
    (hseen : ∀ key, key ∈ seen ↔ key ∈ rows) :
    (∀ key, (applyCalls config (flushPending pending seen).2 rows).lookup key =
      flushEffect config.rowUpdateMode (pending.lookup key) (rows.lookup key)) ∧
    ∀ key, key ∈ (flushPending pending seen).1 ↔
      key ∈ applyCalls config (flushPending pending seen).2 rows := by
  induction pending generalizing seen rows with
  | nil => exact ⟨fun _ => rfl, hseen⟩
  | cons entry pending ih =>
    obtain ⟨key, op⟩ := entry
    rw [List.map_cons, List.nodup_cons] at hnodup
    obtain ⟨hkey, hnodup⟩ := hnodup
    have hnone := lookup_eq_none_of_notMem hkey
    have hrest : ∀ k value, pending.lookup k = some (.upsert value) →
        config.getKey value = some k := by
      intro k value hk
      have hne : k ≠ key := by
        rintro rfl
        rw [hnone] at hk
        cases hk
      exact hupserts k value (by rw [lookup_cons, if_neg hne, hk])
    -- the other keys are those of the rest
    have hother : ∀ {rows' : Rows} {o : Option Row},
        (∀ k, rows'.lookup k = if k = key then o else rows.lookup k) →
        o = flushEffect config.rowUpdateMode (some op) (rows.lookup key) → ∀ k,
          flushEffect config.rowUpdateMode (pending.lookup k) (rows'.lookup k) =
            flushEffect config.rowUpdateMode (((key, op) :: pending).lookup k)
              (rows.lookup k) := by
      intro rows' o hrows' ho k
      by_cases hk : k = key
      · subst hk
        rw [hnone, hrows', if_pos rfl, ho, lookup_cons, if_pos rfl]
        rfl
      · rw [hrows', if_neg hk, lookup_cons, if_neg hk]
    cases op with
    | upsert value =>
      have hvalue : config.getKey value = some key :=
        hupserts key value (by rw [lookup_cons, if_pos rfl])
      obtain ⟨row, hrow, hwrite⟩ := apply_write_upsert hvalue (hseen key)
      have hseen' : ∀ k, k ∈ insert key seen ↔ k ∈ rows.insert key row := fun k => by
        rw [Finset.mem_insert, Finmap.mem_insert, hseen]
      obtain ⟨hlookup, hkeys⟩ := ih hnodup hrest hseen'
      have hcalls : applyCalls config (flushPending ((key, .upsert value) :: pending) seen).2 rows =
          applyCalls config (flushPending pending (insert key seen)).2 (rows.insert key row) := by
        rw [← hwrite]
        rfl
      refine ⟨fun k => ?_, fun k => ?_⟩
      · rw [hcalls, hlookup]
        refine hother (o := some row) (fun k => ?_) hrow.symm k
        by_cases hk : k = key
        · rw [if_pos hk, hk, Finmap.lookup_insert]
        · rw [if_neg hk, Finmap.lookup_insert_of_ne _ hk]
      · rw [hcalls]
        exact hkeys k
    | delete =>
      have herase : ∀ k, (rows.erase key).lookup k = if k = key then none else rows.lookup k := by
        intro k
        by_cases hk : k = key
        · rw [if_pos hk, hk, Finmap.lookup_erase]
        · rw [if_neg hk, Finmap.lookup_erase_ne hk]
      by_cases hmem : key ∈ seen
      · have hseen' : ∀ k, k ∈ seen.erase key ↔ k ∈ rows.erase key := fun k => by
          rw [Finset.mem_erase, Finmap.mem_erase, hseen]
        obtain ⟨hlookup, hkeys⟩ := ih hnodup hrest hseen'
        have hflush : flushPending ((key, .delete) :: pending) seen =
            ((flushPending pending (seen.erase key)).1,
              .write (.delete key) :: (flushPending pending (seen.erase key)).2) := by
          rw [flushPending, if_pos hmem]
        refine ⟨fun k => ?_, fun k => ?_⟩
        · rw [hflush]
          exact (hlookup k).trans (hother herase rfl k)
        · rw [hflush]
          exact hkeys k
      · -- nothing is written, and the row was not there
        have hflush : flushPending ((key, .delete) :: pending) seen =
            flushPending pending seen := by
          rw [flushPending, if_neg hmem]
        obtain ⟨hlookup, hkeys⟩ := ih hnodup hrest hseen
        have habsent : ∀ k, rows.lookup k = if k = key then none else rows.lookup k := by
          intro k
          by_cases hk : k = key
          · rw [if_pos hk, hk, Finmap.lookup_eq_none]
            exact fun h => hmem ((hseen key).mpr h)
          · rw [if_neg hk]
        rw [hflush]
        exact ⟨fun k => (hlookup k).trans (hother habsent rfl k), hkeys⟩

/-- With full rows, the rows that were there do not matter. -/
theorem flushPending_spec (hmode : config.rowUpdateMode = .full) {pending : Pending}
    {seen : Finset String} {rows : Rows} (hnodup : (pending.map Prod.fst).Nodup)
    (hupserts : ∀ key value, pending.lookup key = some (.upsert value) →
      config.getKey value = some key)
    (hseen : ∀ key, key ∈ seen ↔ key ∈ rows) :
    (∀ key, (applyCalls config (flushPending pending seen).2 rows).lookup key =
      pendingEffect (pending.lookup key) (rows.lookup key)) ∧
    ∀ key, key ∈ (flushPending pending seen).1 ↔
      key ∈ applyCalls config (flushPending pending seen).2 rows := by
  have heffect := flushPending_effect hnodup hupserts hseen
  simpa only [hmode, flushEffect_full] using heffect

/-- `pending` is the batch in progress. -/
structure Merges (config : Config) (columns : Finset String) (batch : List Change)
    (pending : Pending) : Prop where
  nodup : (pending.map Prod.fst).Nodup
  upserts : ∀ key value, pending.lookup key = some (.upsert value) →
    config.getKey value = some key ∧ value.keys = columns
  mine : ∀ rows key, key ∈ (applyChanges config batch rows).2 ↔
    ∃ value, pending.lookup key = some (.upsert value)
  rows : ∀ rows key, (applyChanges config batch rows).1.lookup key =
    pendingEffect (pending.lookup key) (rows.lookup key)

theorem Merges.nil : Merges config columns [] [] where
  nodup := List.nodup_nil
  upserts := fun _ _ h => absurd h nofun
  mine := fun _ _ => by simp [applyChanges]
  rows := fun _ _ => rfl

theorem mem_spread {a b : Row} {field : String} :
    field ∈ spread a b ↔ field ∈ a ∨ field ∈ b := by
  rw [spread, Finmap.mem_union, or_comm]

/-- A row without its fields adds nothing. -/
theorem spread_eq_right_iff {a b : Row} : spread a b = b ↔ ∀ field ∈ a, field ∈ b := by
  constructor
  · intro h field hfield
    rw [← h]
    exact mem_spread.mpr (Or.inl hfield)
  · intro h
    refine Finmap.ext_lookup ?_
    intro field
    by_cases hb : field ∈ b
    · rw [spread, Finmap.lookup_union_left hb]
    · have ha : field ∉ a := fun ha => hb (h field ha)
      rw [spread, Finmap.lookup_union_right hb, Finmap.lookup_eq_none.mpr ha,
        Finmap.lookup_eq_none.mpr hb]

/-- Merging a row into one with the same columns replaces it. -/
theorem spread_eq_right {a b : Row} (h : a.keys = b.keys) : spread a b = b := by
  refine spread_eq_right_iff.mpr ?_
  intro field ha
  rwa [← Finmap.mem_keys, ← h, Finmap.mem_keys]

theorem applyChanges_append (batch : List Change) (change : Change) (rows : Rows) :
    applyChanges config (batch ++ [change]) rows =
      applyChange config (applyChanges config batch rows) change := by
  rw [applyChanges, List.foldl_append]
  rfl

/-- An insert or an update of a full row. -/
theorem Merges.upsert {batch : List Change} {pending : Pending}
    (h : Merges config columns batch pending) {row : Row} {key : String}
    (hcolumns : row.keys = columns) (hkey : config.getKey row = some key) {change : Change}
    (hchange : ∀ rows mine, applyChange config (rows, mine) change =
      (rows.insert key row, insert key mine)) :
    Merges config columns (batch ++ [change]) (mergeUpsert pending key (some row)) := by
  have hmerged : mergeUpsert pending key (some row) = setPending pending key (.upsert row) := by
    unfold mergeUpsert
    split
    · rename_i value hvalue
      have hvalue := (h.upserts key value hvalue).2
      rw [Option.getD_some, spread_eq_right (hvalue.trans hcolumns.symm)]
    · rfl
  have hafter : ∀ rows, applyChanges config (batch ++ [change]) rows =
      ((applyChanges config batch rows).1.insert key row,
        insert key (applyChanges config batch rows).2) := fun rows => by
    rw [applyChanges_append, hchange]
  rw [hmerged]
  refine ⟨nodup_setPending h.nodup key _, fun k value hk => ?_, fun rows k => ?_, fun rows k => ?_⟩
  · rw [lookup_setPending] at hk
    split at hk
    · rename_i hkk
      obtain rfl : row = value := by simpa using hk
      exact ⟨hkk ▸ hkey, hcolumns⟩
    · exact h.upserts k value hk
  · rw [hafter, Finset.mem_insert, h.mine, lookup_setPending]
    by_cases hk : k = key <;> simp [hk]
  · rw [hafter, lookup_setPending]
    by_cases hk : k = key
    · rw [if_pos hk, hk, Finmap.lookup_insert]
      rfl
    · rw [if_neg hk, Finmap.lookup_insert_of_ne _ hk, h.rows]

/-- A delete that takes the key out of the batch. -/
theorem Merges.delete {batch : List Change} {pending : Pending}
    (h : Merges config columns batch pending) {key : String} {change : Change}
    (hchange : ∀ rows, applyChanges config (batch ++ [change]) rows =
      ((applyChanges config batch rows).1.erase key,
        (applyChanges config batch rows).2.erase key)) :
    Merges config columns (batch ++ [change]) (setPending pending key .delete) := by
  refine ⟨nodup_setPending h.nodup key _, fun k value hk => ?_, fun rows k => ?_, fun rows k => ?_⟩
  · rw [lookup_setPending] at hk
    split at hk
    · exact absurd hk nofun
    · exact h.upserts k value hk
  · rw [hchange, Finset.mem_erase, h.mine, lookup_setPending]
    by_cases hk : k = key <;> simp [hk]
  · rw [hchange, lookup_setPending]
    by_cases hk : k = key
    · rw [if_pos hk, hk, Finmap.lookup_erase]
      rfl
    · rw [if_neg hk, Finmap.lookup_erase_ne hk, h.rows]

/-- **The switch on a change merges it into the batch**, and nothing else. -/
theorem Merges.handleChange {driver : Driver} {batch : List Change}
    (h : Merges config columns batch driver.pending) {op : ChangeOp} {row : Option Row}
    {key : Option String} {txid : Option Int}
    (hfull : FullFrame config columns (.frame (.change op row key txid))) :
    ∃ pending, Client.handleChange config driver op row key =
        ⟨{ driver with pending := pending }, [], .next⟩ ∧
      Merges config columns (batch ++ [(op, row, key)]) pending := by
  cases op with
  | insert | update =>
    obtain ⟨r, rfl, hcolumns, hsome⟩ := hfull
    obtain ⟨k, hk⟩ := Option.isSome_iff_exists.mp hsome
    refine ⟨mergeUpsert driver.pending k (some r), ?_, h.upsert hcolumns hk fun rows mine => ?_⟩
    · simp only [Client.handleChange, upsertKey, hk]
    · simp only [applyChange, hk]
  | delete =>
    cases row with
    | none =>
      refine ⟨setPending driver.pending (keyText key) .delete, rfl, h.delete fun rows => ?_⟩
      rw [applyChanges_append]
      rfl
    | some r =>
      obtain ⟨k, hk⟩ := Option.isSome_iff_exists.mp (hfull r rfl).2
      refine ⟨mergeDelete driver.pending k, by simp only [Client.handleChange, hk], ?_⟩
      have hafter : ∀ rows, applyChanges config (batch ++ [(.delete, some r, key)]) rows =
          if k ∈ (applyChanges config batch rows).2 then applyChanges config batch rows
          else
            ((applyChanges config batch rows).1.erase k, (applyChanges config batch rows).2) := by
        intro rows
        rw [applyChanges_append]
        simp only [applyChange, hk]
      by_cases hmine : ∃ value, driver.pending.lookup k = some (.upsert value)
      · -- the row was put back under its key
        obtain ⟨value, hvalue⟩ := hmine
        have hkeep : mergeDelete driver.pending k = driver.pending := by
          simp only [mergeDelete, hvalue]
        have hsame : ∀ rows, applyChanges config (batch ++ [(.delete, some r, key)]) rows =
            applyChanges config batch rows := fun rows => by
          rw [hafter, if_pos ((h.mine rows k).mpr ⟨value, hvalue⟩)]
        rw [hkeep]
        exact ⟨h.nodup, h.upserts, fun rows => hsame rows ▸ h.mine rows,
          fun rows => hsame rows ▸ h.rows rows⟩
      · have hset : mergeDelete driver.pending k = setPending driver.pending k .delete := by
          unfold mergeDelete
          split
          · rename_i value hvalue
            exact absurd ⟨value, hvalue⟩ hmine
          · rfl
        rw [hset]
        refine h.delete ?_
        intro rows
        have hnot : k ∉ (applyChanges config batch rows).2 := fun hk =>
          hmine ((h.mine rows k).mp hk)
        rw [hafter, if_neg hnot, Finset.erase_eq_of_notMem hnot]

/-- `flush` is its loop, in a transaction of its own. -/
theorem flush_eq_loop (config : Config) (driver : Driver) (rows : Rows) :
    applyCalls config (Client.flush driver).2 rows =
        applyCalls config (flushPending driver.pending driver.seen).2 rows ∧
      (Client.flush driver).1.seen = (flushPending driver.pending driver.seen).1 ∧
      (Client.flush driver).1.pending = [] := by
  by_cases hempty : driver.pending = []
  · simp [Client.flush, hempty, flushPending]
  · rw [Client.flush, if_neg (by simpa using hempty)]
    refine ⟨?_, rfl, rfl⟩
    change applyCalls config ((flushPending driver.pending driver.seen).2 ++ [.commit]) rows = _
    rw [applyCalls_append]
    rfl

/-- **`flush` applies the batch** to a collection whose keys are `seen`. -/
theorem Merges.flush (hmode : config.rowUpdateMode = .full) {driver : Driver}
    {batch : List Change} (h : Merges config columns batch driver.pending) {rows : Rows}
    (hseen : ∀ key, key ∈ driver.seen ↔ key ∈ rows) :
    applyCalls config (Client.flush driver).2 rows = (applyChanges config batch rows).1 ∧
      (∀ key, key ∈ (Client.flush driver).1.seen ↔ key ∈ (applyChanges config batch rows).1) ∧
      (Client.flush driver).1.pending = [] := by
  obtain ⟨hlookup, hkeys⟩ :=
    flushPending_spec hmode h.nodup (fun key value hv => (h.upserts key value hv).1) hseen
  have hresult : applyCalls config (flushPending driver.pending driver.seen).2 rows =
      (applyChanges config batch rows).1 :=
    Finmap.ext_lookup fun key => (hlookup key).trans (h.rows rows key).symm
  obtain ⟨hcalls, hseen', hpending⟩ := flush_eq_loop config driver rows
  rw [hresult] at hcalls hkeys
  refine ⟨hcalls, fun key => ?_, hpending⟩
  rw [hseen']
  exact hkeys key

end Batch

/-! ## 4. Runs -/

section Runs

variable {config : Config} {columns : Finset String}

/-- Recording a transaction id and signalling readiness do not touch the rows. -/
theorem applyCalls_records (txid : Option Int) (rows : Rows) :
    applyCalls config (txid.toList.map Call.record) rows = rows := by
  cases txid <;> rfl

theorem applyCalls_ready (driver : Driver) (rows : Rows) :
    applyCalls config (ready driver).2 rows = rows := by
  unfold ready
  split <;> rfl

theorem ready_seen (driver : Driver) : (ready driver).1.seen = driver.seen := by
  unfold ready
  split <;> rfl

theorem ready_pending (driver : Driver) : (ready driver).1.pending = driver.pending := by
  unfold ready
  split <;> rfl

/-- A frame whose handling goes on to the next frame. -/
theorem onFrame_of_next (sync : Sync) (frame : SyncFrame) {driver : Driver} {calls : List Call}
    (h : handleFrame config sync.driver frame = ⟨driver, calls, .next⟩) :
    (sync.onFrame config frame).driver = driver ∧
      (sync.onFrame config frame).connected = sync.connected ∧
      (sync.onFrame config frame).collection config =
        applyCalls config calls (sync.collection config) := by
  refine ⟨by rw [Sync.onFrame, h], by rw [Sync.onFrame, h], ?_⟩
  simp only [Sync.onFrame, h, Sync.collection, applyCalls_append, applyCalls_records]

/-- **What connects `seen`, `pending` and the collection** to what the collection should hold,
while a connection is up. -/
structure Follows (config : Config) (columns : Finset String) (s : Tracked) : Prop where
  batch : s.sync.connected = true → Merges config columns s.batch s.sync.driver.pending
  rows : s.sync.connected = true → s.started = true → s.sync.collection config = s.rows
  seen : s.sync.connected = true → s.started = true →
    ∀ key, key ∈ s.sync.driver.seen ↔ key ∈ s.rows

/-- A disconnected client is asked nothing. -/
theorem Follows.of_disconnected {s : Tracked} (h : s.sync.connected = false) :
    Follows config columns s where
  batch := fun hc => absurd (h.symm.trans hc) Bool.false_ne_true
  rows := fun hc => absurd (h.symm.trans hc) Bool.false_ne_true
  seen := fun hc => absurd (h.symm.trans hc) Bool.false_ne_true

/-- A snapshot puts its rows on top of the collection. -/
theorem snapshot_spec (sync : Sync) {rs : List Row} (txid : Option Int)
    (hrs : ∀ row ∈ rs, FullRow config columns row) :
    (sync.onFrame config (.snapshot (some rs) txid)).collection config =
        putRows config rs (sync.collection config) ∧
      (sync.onFrame config (.snapshot (some rs) txid)).connected = sync.connected ∧
      (sync.onFrame config (.snapshot (some rs) txid)).driver.pending = sync.driver.pending ∧
      ∀ key, key ∈ (sync.onFrame config (.snapshot (some rs) txid)).driver.seen ↔
        key ∈ putRows config rs ∅ := by
  obtain ⟨seen, calls, hwrite, hcalls, hseen⟩ :=
    writeRows_of_keys config rs ∅ fun row hrow => (hrs row hrow).2
  have hhandle : handleFrame config sync.driver (.snapshot (some rs) txid) =
      ⟨(ready { sync.driver with seen := seen }).1, .begin :: calls ++ [.commit] ++
        (ready { sync.driver with seen := seen }).2, .next⟩ := by
    simp only [handleFrame, applyRows, hwrite]
  obtain ⟨hdriver, hconnected, hcollection⟩ := onFrame_of_next _ _ hhandle
  refine ⟨?_, hconnected, ?_, fun key => ?_⟩
  · rw [hcollection, applyCalls_append, applyCalls_ready, applyCalls_append, ← hcalls]
    rfl
  · rw [hdriver, ready_pending]
  · rw [hdriver, ready_seen, hseen]
    simp

/-- A frame arrives on a connection. -/
theorem sync_of_trackedStep {s s' : Tracked} {frame : SyncFrame}
    (h : trackedStep config s (.frame frame) = some s') :
    s.sync.connected = true ∧ s'.sync = s.sync.onFrame config frame := by
  obtain ⟨sync, hsync, rfl⟩ := Option.map_eq_some_iff.mp h
  simp only [Client.step, Option.ite_none_right_eq_some, Option.some.injEq] at hsync
  refine ⟨hsync.1, ?_⟩
  cases frame <;> exact hsync.2.symm

/-- A snapshot that covers the collection replaces it. -/
theorem Follows.snapshot {s s' : Tracked} (h : Follows config columns s) {rs : List Row}
    {txid : Option Int} (hrs : ∀ row ∈ rs, FullRow config columns row)
    (hcovers : CoversCollection config s (.frame (.snapshot (some rs) txid)))
    (hs' : trackedStep config s (.frame (.snapshot (some rs) txid)) = some s') :
    s'.sync.collection config = s'.rows ∧ Follows config columns s' := by
  obtain ⟨hcollection, -, hpending, hseen⟩ := snapshot_spec s.sync txid hrs
  obtain ⟨hc, hsync⟩ := sync_of_trackedStep hs'
  -- nothing of the old collection stays
  have hput : putRows config rs (s.sync.collection config) = putRows config rs ∅ :=
    (putRows_eq_iff fun row hrow => (hrs row hrow).2).mpr (hcovers hc)
  have hwritten : s'.sync.collection config = putRows config rs ∅ := by
    rw [hsync, hcollection, hput]
  obtain ⟨sync, -, rfl⟩ := Option.map_eq_some_iff.mp hs'
  refine ⟨hwritten, fun _ => ?_, fun _ _ => hwritten, fun _ _ k => ?_⟩
  · rw [hsync, hpending]
    exact h.batch hc
  · rw [hsync]
    exact hseen k

/-- A change joins the batch, and nothing is written. -/
theorem Follows.change {s s' : Tracked} (h : Follows config columns s) {op : ChangeOp}
    {row : Option Row} {key : Option String} {txid : Option Int}
    (hfull : FullFrame config columns (.frame (.change op row key txid)))
    (hs' : trackedStep config s (.frame (.change op row key txid)) = some s') :
    Follows config columns s' := by
  obtain ⟨hc, hsync⟩ := sync_of_trackedStep hs'
  obtain ⟨pending, hhandle, hmerges⟩ := (h.batch hc).handleChange hfull
  obtain ⟨hdriver, -, hcollection⟩ := onFrame_of_next s.sync (.change op row key txid) hhandle
  obtain ⟨sync, -, rfl⟩ := Option.map_eq_some_iff.mp hs'
  refine ⟨fun _ => ?_, fun _ hs => ?_, fun _ hs => ?_⟩
  · rw [hsync, hdriver]
    exact hmerges
  · rw [hsync, hcollection]
    exact h.rows hc hs
  · rw [hsync, hdriver]
    exact h.seen hc hs

/-- An up-to-date frame writes the batch. -/
theorem Follows.upToDate (hmode : config.rowUpdateMode = .full) {s s' : Tracked}
    (h : Follows config columns s) {txid : Option Int}
    (hfirst : SnapshotFirst s (.frame (.upToDate txid)))
    (hs' : trackedStep config s (.frame (.upToDate txid)) = some s') :
    s'.sync.collection config = s'.rows ∧ Follows config columns s' := by
  obtain ⟨hc, hsync⟩ := sync_of_trackedStep hs'
  have hrows := h.rows hc hfirst
  obtain ⟨hflush, hkeys, hpending⟩ := (h.batch hc).flush hmode (h.seen hc hfirst)
  have hhandle : handleFrame config s.sync.driver (.upToDate txid) =
      ⟨(flush s.sync.driver).1, (flush s.sync.driver).2, .next⟩ := rfl
  obtain ⟨hdriver, -, hcollection⟩ := onFrame_of_next s.sync (.upToDate txid) hhandle
  have hwritten : s'.sync.collection config = (applyChanges config s.batch s.rows).1 := by
    rw [hsync, hcollection, hrows, hflush]
  obtain ⟨sync, -, rfl⟩ := Option.map_eq_some_iff.mp hs'
  refine ⟨hwritten, fun _ => ?_, fun _ _ => hwritten, fun _ _ k => ?_⟩
  · rw [hsync, hdriver, hpending]
    exact Merges.nil
  · rw [hsync, hdriver]
    exact hkeys k

/-- **One step**: the collection is right after it, and still followed. -/
theorem Follows.step (hmode : config.rowUpdateMode = .full) {s : Tracked} {action : Action}
    (h : Follows config columns s) (hfull : FullFrame config columns action)
    (hfirst : SnapshotFirst s action) (hcovers : CoversCollection config s action) :
    Tracks config s action ∧
      ∀ s', trackedStep config s action = some s' → Follows config columns s' := by
  cases action with
  | connect =>
    refine ⟨trivial, fun s' hs' => ?_⟩
    obtain ⟨sync, hsync, rfl⟩ := Option.map_eq_some_iff.mp hs'
    simp only [Client.step, Option.ite_none_left_eq_some, Option.some.injEq] at hsync
    obtain ⟨-, rfl⟩ := hsync
    exact ⟨fun _ => Merges.nil, fun _ hs => absurd hs Bool.false_ne_true,
      fun _ hs => absurd hs Bool.false_ne_true⟩
  | done =>
    refine ⟨trivial, fun s' hs' => ?_⟩
    obtain ⟨sync, hsync, rfl⟩ := Option.map_eq_some_iff.mp hs'
    simp only [Client.step, Option.ite_none_right_eq_some, Option.some.injEq] at hsync
    obtain ⟨-, rfl⟩ := hsync
    exact .of_disconnected rfl
  | fail =>
    refine ⟨trivial, fun s' hs' => ?_⟩
    obtain ⟨sync, hsync, rfl⟩ := Option.map_eq_some_iff.mp hs'
    simp only [Client.step, Option.ite_none_right_eq_some, Option.some.injEq] at hsync
    obtain ⟨-, rfl⟩ := hsync
    exact .of_disconnected rfl
  | stop =>
    refine ⟨trivial, fun s' hs' => ?_⟩
    obtain ⟨sync, hsync, rfl⟩ := Option.map_eq_some_iff.mp hs'
    obtain rfl := Option.some.inj hsync
    exact ⟨h.batch, h.rows, h.seen⟩
  | frame frame =>
    cases frame with
    | snapshot rows txid =>
      obtain ⟨rs, rfl, hrs⟩ := hfull
      exact ⟨fun s' hs' => (h.snapshot hrs hcovers hs').1,
        fun s' hs' => (h.snapshot hrs hcovers hs').2⟩
    | change op row key txid => exact ⟨trivial, fun s' hs' => h.change hfull hs'⟩
    | upToDate txid =>
      exact ⟨fun s' hs' => (h.upToDate hmode hfirst hs').1,
        fun s' hs' => (h.upToDate hmode hfirst hs').2⟩
    | reset txid =>
      refine ⟨trivial, fun s' hs' => .of_disconnected ?_⟩
      rw [(sync_of_trackedStep hs').2]
      rfl

/-- A snapshot after which the collection is right had every row it held. -/
theorem coversCollection_of_tracks {s : Tracked} {action : Action}
    (hfull : FullFrame config columns action) (h : Tracks config s action) :
    CoversCollection config s action := by
  cases action with
  | frame frame =>
    cases frame with
    | snapshot rows txid =>
      obtain ⟨rs, rfl, hrs⟩ := hfull
      intro hc
      have hstep : step config s.sync (.frame (.snapshot (some rs) txid)) =
          some (s.sync.onFrame config (.snapshot (some rs) txid)) := by
        rw [step, if_pos hc]
      have hright := h _ (by rw [trackedStep, hstep, Option.map_some])
      refine (putRows_eq_iff fun row hrow => (hrs row hrow).2).mp ?_
      rw [← (snapshot_spec s.sync txid hrs).1]
      exact hright
    | change _ _ _ _ | upToDate _ | reset _ => trivial
  | connect | done | fail | stop => trivial

/-- **The collection is right at every snapshot and up-to-date frame of a run exactly when every
snapshot has all the rows the collection holds when it arrives.** -/
theorem collection_tracks_iff (hmode : config.rowUpdateMode = .full) {actions : List Action}
    (hfull : ∀ action ∈ actions, FullFrame config columns action)
    (hfirst : (tracked config).Along SnapshotFirst .new actions) :
    (tracked config).Along (Tracks config) .new actions ↔
      (tracked config).Along (CoversCollection config) .new actions := by
  constructor
  · intro h
    exact h.of_invariant (P := fun _ => True) (fun _ a ha _ htracks =>
      ⟨coversCollection_of_tracks (hfull a ha) htracks, fun _ _ => trivial⟩) trivial
  · intro h
    exact (hfirst.and h).of_invariant (P := Follows config columns)
      (fun _ a ha hfollows hok => hfollows.step hmode (hfull a ha) hok.1 hok.2)
      (.of_disconnected rfl)

end Runs

/-! ## 5. Two runs -/

/-- A row with the fields `id` and `title`. -/
def todo (id title : String) : Row :=
  [⟨"id", Json.string id⟩, ⟨"title", Json.string title⟩].toFinmap

/-- `getKey: (row) => row.id`, with full rows. -/
def byId : Config where
  getKey row := match row.lookup "id" with
    | some (.string id) => some id
    | _ => none
  rowUpdateMode := .full

/-- A snapshot, a batch, a reset, and the next connection. -/
def resetThenReconnect : List Action :=
  [.connect, .frame (.snapshot (some [todo "a" "one", todo "b" "two"]) none),
    .frame (.change .update (some (todo "b" "three")) (some "b") (some 7)),
    .frame (.change .delete none (some "a") (some 7)), .frame (.upToDate (some 7)),
    .frame (.reset none), .connect, .frame (.snapshot (some [todo "c" "four"]) none)]

/-- A connection that just ends, and the next one, whose snapshot lacks a row. -/
def endThenReconnect : List Action :=
  [.connect, .frame (.snapshot (some [todo "a" "one", todo "b" "two"]) none), .done, .connect,
    .frame (.snapshot (some [todo "b" "two"]) none)]

theorem fullRow_todo (id title : String) : FullRow byId {"id", "title"} (todo id title) :=
  ⟨rfl, rfl⟩

theorem collection_tracks_resetThenReconnect :
    (tracked byId).Along (Tracks byId) .new resetThenReconnect := by
  have hfull : ∀ action ∈ resetThenReconnect, FullFrame byId {"id", "title"} action := by
    simp [resetThenReconnect, FullFrame, fullRow_todo]
  refine (collection_tracks_iff rfl hfull ?_).mpr ?_
  · exact ⟨trivial, trivial, rfl, rfl, rfl, rfl, trivial, trivial, trivial⟩
  · refine ⟨trivial, fun _ => ?_, trivial, trivial, trivial, trivial, trivial, fun _ => ?_, trivial⟩
    · exact fun key hkey => absurd hkey (Finmap.notMem_empty)
    · exact fun key hkey => absurd hkey (Finmap.notMem_empty)

/-- **A row absent from the new snapshot is still in the collection** after a connection that
ended without a reset. -/
theorem stale_row_stays :
    (∀ action ∈ endThenReconnect, FullFrame byId {"id", "title"} action) ∧
      (tracked byId).Along SnapshotFirst .new endThenReconnect ∧
      ¬ (tracked byId).Along (Tracks byId) .new endThenReconnect := by
  refine ⟨by simp [endThenReconnect, FullFrame, fullRow_todo],
    ⟨trivial, trivial, trivial, trivial, trivial, trivial⟩, fun h => ?_⟩
  have hright := congrArg (Finmap.lookup "a") (h.2.2.2.2.1 _ rfl)
  exact absurd hright (by decide)

end PgPaw.Client
