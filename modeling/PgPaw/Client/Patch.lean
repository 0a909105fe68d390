/-
# A batch of patches

With `rowUpdateMode` partial an update carries the fields that changed.  `connect` merges the
changes of a batch under their keys, and chooses between an insert and an update when it flushes,
by `seen`.  Frame by frame, an insert sets a row, an update merges its patch into the row that
is there, and a delete removes it (`applyFrame`).

What is pending under a key knows whether the batch deleted the key before, but the update that
`flush` writes does not: it is merged into the row the batch started with.  So a row that was
deleted and inserted again keeps the old fields it does not have (`deleted_field_returns`), and
that is the only difference (`batch_flushed_iff`).
-/
import PgPaw.Client.Source
import PgPaw.Client.Reconnect

namespace PgPaw.Client

open Transition

namespace Patch

/-! ## 1. Frame by frame -/

/-- One frame, on its own. -/
def applyFrame (config : Config) (rows : Rows) : SyncFrame → Rows
  | .change .insert (some row) _ _ => putRow config rows row
  | .change .update (some patch) _ _ => match config.getKey patch with
    | some key => rows.insert key (match rows.lookup key with
      | some old => spread old patch
      | none => patch)
    | none => rows
  | .change .delete none key _ => rows.erase (keyText key)
  | _ => rows

/-- The frames, one by one. -/
def oneByOne (config : Config) : System Rows SyncFrame where
  init := fun _ => True
  step := fun rows frame => some (applyFrame config rows frame)

/-- A patch contains the key: merged into any row it gives a row with the key. -/
def ContainsKey (config : Config) (patch : Row) (key : String) : Prop :=
  ∀ row, config.getKey (spread row patch) = some key

/-- **The frames of a batch**: a delete has a key and no row, an insert a full row for an absent
key, and an update a patch with the key of a row that is there. -/
def Fits (config : Config) (rows : Rows) : SyncFrame → Prop
  | .change .insert (some row) _ _ => ∃ key, config.getKey row = some key ∧ key ∉ rows
  | .change .update (some patch) _ _ => ∃ key, ContainsKey config patch key ∧ key ∈ rows
  | .change .delete none key _ => key.isSome
  | _ => False

/-- What the batch carried under a key since it last deleted it; absent when it did not. -/
def carryFrame (config : Config) (key : String) (since : Option (List Row)) :
    SyncFrame → Option (List Row)
  | .change .delete none k _ => if keyText k = key then some [] else since
  | .change _ (some row) _ _ =>
    if config.getKey row = some key then since.map (· ++ [row]) else since
  | _ => since

/-- What a batch carried under a key since it last deleted it. -/
def carried (config : Config) (key : String) (batch : List SyncFrame) : Option (List Row) :=
  batch.foldl (carryFrame config key) none

/-- **A row that is deleted and inserted again gets its fields back**: what the batch carries for
it afterwards has every field of the row it started with. -/
def Restores (config : Config) (rows : Rows) (batch : List SyncFrame) : Prop :=
  ∀ key old, rows.lookup key = some old → ∀ since, carried config key batch = some since →
    since ≠ [] → ∀ field ∈ old, ∃ row ∈ since, field ∈ row

/-! ## 2. A key in the middle of a batch -/

/-- How what is pending under a key, the row the batch started with, and the row frame by frame
hang together. -/
inductive Stage (old : Option Row) :
    Option (List Row) → Option PendingOp → Option Row → Prop
  | untouched : Stage old none none old
  | added (value : Row) (hold : old = none) : Stage old none (some (.upsert value)) (some value)
  | patched (row value : Row) (hold : old = some row) :
      Stage old none (some (.upsert value)) (some (spread row value))
  | deleted : Stage old (some []) (some .delete) none
  | restored (since : List Row) (value : Row) (hsince : since ≠ [])
      (hfields : ∀ field, field ∈ value ↔ ∃ row ∈ since, field ∈ row) :
      Stage old (some since) (some (.upsert value)) (some value)

section Stages

variable {config : Config} {old : Option Row} {since : Option (List Row)} {op : Option PendingOp}
  {now : Option Row}

theorem spread_assoc (a b c : Row) : spread (spread a b) c = spread a (spread b c) :=
  Finmap.union_assoc.symm

/-- What an insert or an update leaves under a key where something may be pending. -/
def mergedValue (op : Option PendingOp) (row : Row) : Row :=
  match op with
  | some (.upsert value) => spread value row
  | _ => row

/-- An insert of a row whose key is absent: at most a delete is pending. -/
theorem Stage.insert (h : Stage old since op none) (row : Row) : mergedValue op row = row ∧
    Stage old (since.map (· ++ [row])) (some (.upsert row)) (some row) := by
  cases h with
  | untouched => exact ⟨rfl, .added row rfl⟩
  | deleted => exact ⟨rfl, .restored [row] row (by simp) (by simp)⟩

/-- A patch of a row that is there. -/
theorem Stage.update {row : Row} (h : Stage old since op (some row)) (patch : Row) :
    Stage old (since.map (· ++ [patch])) (some (.upsert (mergedValue op patch)))
      (some (spread row patch)) := by
  cases h with
  | untouched => exact .patched row patch rfl
  | added value hold => exact .added _ hold
  | patched before value hold =>
    rw [spread_assoc]
    exact .patched before _ hold
  | restored since value hsince hfields =>
    refine .restored _ _ (by simp) ?_
    intro field
    rw [mergedValue, mem_spread, hfields]
    simp only [List.mem_append, List.mem_singleton, or_and_right, exists_or, exists_eq_left]

/-- **What the flush makes of the key** is the row frame by frame, but for a row that came back
without all its fields. -/
theorem Stage.flush_iff (h : Stage old since op now) :
    flushEffect .patch op old = now ↔ ∀ row, old = some row → ∀ rows, since = some rows →
      rows ≠ [] → ∀ field ∈ row, ∃ r ∈ rows, field ∈ r := by
  cases h with
  | untouched => exact iff_of_true rfl fun _ _ rows hrows => by cases hrows
  | added value hold =>
    subst hold
    exact iff_of_true rfl fun _ hrow => by cases hrow
  | patched row value hold =>
    subst hold
    exact iff_of_true rfl fun _ _ rows hrows => by cases hrows
  | deleted =>
    have hnone : flushEffect .patch (some .delete) old = none := by cases old <;> rfl
    refine iff_of_true hnone ?_
    intro _ _ rows hrows hne
    cases hrows
    exact absurd rfl hne
  | restored since value hsince hfields =>
    cases old with
    | none => exact iff_of_true rfl fun _ hrow => by cases hrow
    | some row =>
      have heffect : flushEffect .patch (some (.upsert value)) (some row) =
          some (spread row value) := rfl
      rw [heffect, Option.some.injEq, spread_eq_right_iff]
      simp only [hfields, Option.some.injEq]
      constructor
      · rintro h _ rfl _ rfl -
        exact h
      · intro h
        exact h row rfl since rfl hsince

end Stages

/-! ## 3. A batch -/

/-- `connect` in the middle of a batch, of which nothing has been written. -/
structure Batched (config : Config) (start : Sync) (batch : List SyncFrame) (rows : Rows)
    (sync : Sync) : Prop where
  connected : sync.connected = true
  collection : sync.collection config = start.collection config
  seen : sync.driver.seen = start.driver.seen
  nodup : (sync.driver.pending.map Prod.fst).Nodup
  keyed : ∀ key value, sync.driver.pending.lookup key = some (.upsert value) →
    config.getKey value = some key
  stage : ∀ key, Stage ((start.collection config).lookup key) (carried config key batch)
    (sync.driver.pending.lookup key) (rows.lookup key)

section Batch

variable {config : Config} {start sync : Sync} {batch : List SyncFrame} {rows : Rows}

theorem carried_append (key : String) (batch : List SyncFrame) (frame : SyncFrame) :
    carried config key (batch ++ [frame]) =
      carryFrame config key (carried config key batch) frame := by
  rw [carried, List.foldl_append]
  rfl

theorem getKey_of_containsKey {patch : Row} {key : String} (h : ContainsKey config patch key) :
    config.getKey patch = some key := by
  have hself : spread ∅ patch = patch :=
    spread_eq_right_iff.mpr fun field hfield => absurd hfield Finmap.notMem_empty
  rw [← hself]
  exact h ∅

/-- A frame that sets what is pending under one key. -/
theorem Batched.set (h : Batched config start batch rows sync) {frame : SyncFrame} (key : String)
    (row : Option Row) (op : PendingOp)
    (hhandle : handleFrame config sync.driver frame =
      ⟨{ sync.driver with pending := setPending sync.driver.pending key op }, [], .next⟩)
    (hkeyed : ∀ value, op = .upsert value → config.getKey value = some key)
    (hrows : ∀ k, (applyFrame config rows frame).lookup k =
      if k = key then row else rows.lookup k)
    (hcarry : ∀ k, k ≠ key → ∀ since, carryFrame config k since frame = since)
    (hstage : Stage ((start.collection config).lookup key)
      (carryFrame config key (carried config key batch) frame) (some op) row) :
    (system config).step sync (.frame frame) = some (sync.onFrame config frame) ∧
      Batched config start (batch ++ [frame]) (applyFrame config rows frame)
        (sync.onFrame config frame) := by
  obtain ⟨hdriver, hconnected, hcollection⟩ := onFrame_of_next sync frame hhandle
  refine ⟨if_pos h.connected, hconnected.trans h.connected, hcollection.trans h.collection,
    ?_, ?_, ?_, ?_⟩
  · rw [hdriver]
    exact h.seen
  · rw [hdriver]
    exact nodup_setPending h.nodup key op
  · intro k value hvalue
    rw [hdriver, lookup_setPending] at hvalue
    by_cases hk : k = key
    · rw [if_pos hk, Option.some.injEq] at hvalue
      rw [hk]
      exact hkeyed value hvalue
    · rw [if_neg hk] at hvalue
      exact h.keyed k value hvalue
  · intro k
    rw [carried_append, hdriver, lookup_setPending, hrows]
    by_cases hk : k = key
    · rw [if_pos hk, if_pos hk, hk]
      exact hstage
    · rw [if_neg hk, if_neg hk, hcarry k hk]
      exact h.stage k

/-- **One frame** of a batch goes into what is pending. -/
theorem Batched.next (h : Batched config start batch rows sync) {frame : SyncFrame}
    (hfits : Fits config rows frame) :
    (system config).step sync (.frame frame) = some (sync.onFrame config frame) ∧
      Batched config start (batch ++ [frame]) (applyFrame config rows frame)
        (sync.onFrame config frame) := by
  have hupsert (key : String) (row : Row) : mergeUpsert sync.driver.pending key (some row) =
      setPending sync.driver.pending key
        (.upsert (mergedValue (sync.driver.pending.lookup key) row)) := by
    unfold mergeUpsert mergedValue
    rcases sync.driver.pending.lookup key with _ | (value | _) <;> rfl
  cases frame with
  | change op row k txid =>
    cases op with
    | insert =>
      cases row with
      | none => exact hfits.elim
      | some row =>
        obtain ⟨key, hkey, habsent⟩ := hfits
        have hnow := h.stage key
        rw [Finmap.lookup_eq_none.mpr habsent] at hnow
        obtain ⟨hmerged, hstage⟩ := hnow.insert row
        refine h.set key (some row) (.upsert row) ?_ ?_ (lookup_putRow hkey rows) ?_ ?_
        · simp only [handleFrame, handleChange, upsertKey, hkey, hupsert, hmerged]
        · rintro _ ⟨⟩
          exact hkey
        · intro k' hk' since
          simp only [carryFrame, hkey, Option.some.injEq, Ne.symm hk', if_false]
        · simp only [carryFrame, hkey, if_true]
          exact hstage
    | update =>
      cases row with
      | none => exact hfits.elim
      | some patch =>
        obtain ⟨key, hcontains, hpresent⟩ := hfits
        have hkey := getKey_of_containsKey hcontains
        obtain ⟨row, hrow⟩ := Option.isSome_iff_exists.mp (Finmap.lookup_isSome.mpr hpresent)
        have hnow := h.stage key
        rw [hrow] at hnow
        refine h.set key (some (spread row patch))
          (.upsert (mergedValue (sync.driver.pending.lookup key) patch)) ?_ ?_ ?_ ?_ ?_
        · simp only [handleFrame, handleChange, upsertKey, hkey, hupsert]
        · rintro _ ⟨⟩
          unfold mergedValue
          split
          · exact hcontains _
          · exact hkey
        · intro k'
          simp only [applyFrame, hkey, hrow]
          by_cases hk' : k' = key
          · rw [if_pos hk', hk', Finmap.lookup_insert]
          · rw [if_neg hk', Finmap.lookup_insert_of_ne _ hk']
        · intro k' hk' since
          simp only [carryFrame, hkey, Option.some.injEq, Ne.symm hk', if_false]
        · simp only [carryFrame, hkey, if_true]
          exact hnow.update patch
    | delete =>
      cases row with
      | some row => exact hfits.elim
      | none =>
        refine h.set (keyText k) none .delete rfl ?_ ?_ ?_ ?_
        · rintro _ ⟨⟩
        · intro k'
          by_cases hk' : k' = keyText k
          · rw [if_pos hk', hk']
            exact Finmap.lookup_erase _ _
          · rw [if_neg hk']
            exact Finmap.lookup_erase_ne hk'
        · intro k' hk' since
          exact if_neg (Ne.symm hk')
        · simp only [carryFrame, if_true]
          exact .deleted
  | _ => exact hfits.elim

/-- **A batch**, frame by frame. -/
theorem Batched.run (frames : List SyncFrame) (h : Batched config start batch rows sync)
    (hfits : (oneByOne config).Along (Fits config) rows frames) : ∃ sync' rows',
    (system config).run sync (frames.map .frame) = some sync' ∧
      (oneByOne config).run rows frames = some rows' ∧
      Batched config start (batch ++ frames) rows' sync' := by
  induction frames generalizing batch rows sync with
  | nil =>
    refine ⟨sync, rows, rfl, rfl, ?_⟩
    rwa [List.append_nil]
  | cons frame frames ih =>
    obtain ⟨hstep, hnext⟩ := h.next hfits.1
    obtain ⟨sync', rows', hrun, hrows, hlast⟩ := ih hnext hfits.2
    refine ⟨sync', rows', ?_, hrows, ?_⟩
    · rw [List.map_cons, System.run, hstep]
      exact hrun
    · rwa [List.append_assoc] at hlast

/-- The up-to-date frame flushes what is pending. -/
theorem Batched.upToDate (hmode : config.rowUpdateMode = .patch)
    (h : Batched config start batch rows sync)
    (hseen : ∀ key, key ∈ start.driver.seen ↔ key ∈ start.collection config)
    (txid : Option Int) :
    (system config).step sync (.frame (.upToDate txid)) =
        some (sync.onFrame config (.upToDate txid)) ∧
      ∀ key, ((sync.onFrame config (.upToDate txid)).collection config).lookup key =
        flushEffect .patch (sync.driver.pending.lookup key)
          ((start.collection config).lookup key) := by
  have hkeys : ∀ key, key ∈ sync.driver.seen ↔ key ∈ sync.collection config := by
    intro key
    rw [h.seen, h.collection]
    exact hseen key
  obtain ⟨hlookup, -⟩ := flushPending_effect h.nodup h.keyed hkeys
  obtain ⟨hcalls, -, -⟩ := flush_eq_loop config sync.driver (sync.collection config)
  have hhandle : handleFrame config sync.driver (.upToDate txid) =
      ⟨(Client.flush sync.driver).1, (Client.flush sync.driver).2, .next⟩ := rfl
  obtain ⟨-, -, hcollection⟩ := onFrame_of_next sync (.upToDate txid) hhandle
  refine ⟨if_pos h.connected, fun key => ?_⟩
  rw [hcollection, hcalls, hlookup, hmode, h.collection]

end Batch

/-- **A batch of patches is flushed to what its frames make of the rows one by one**, exactly if
every row that was deleted and inserted again got its fields back. -/
theorem batch_flushed_iff {config : Config} (hmode : config.rowUpdateMode = .patch) {start : Sync}
    (hconnected : start.connected = true) (hpending : start.driver.pending = [])
    (hseen : ∀ key, key ∈ start.driver.seen ↔ key ∈ start.collection config)
    {batch : List SyncFrame}
    (hfits : (oneByOne config).Along (Fits config) (start.collection config) batch)
    (txid : Option Int) : ∃ flushed rows,
      (system config).run start (batch.map .frame ++ [.frame (.upToDate txid)]) = some flushed ∧
      (oneByOne config).run (start.collection config) batch = some rows ∧
      (flushed.collection config = rows ↔ Restores config (start.collection config) batch) := by
  have hstart : Batched config start [] (start.collection config) start := by
    refine ⟨hconnected, rfl, rfl, ?_, ?_, fun key => ?_⟩
    · rw [hpending]
      exact List.nodup_nil
    · intro key value hvalue
      rw [hpending] at hvalue
      cases hvalue
    · rw [hpending]
      exact .untouched
  obtain ⟨sync, rows, hrun, hrows, hbatched⟩ := hstart.run batch hfits
  rw [List.nil_append] at hbatched
  obtain ⟨hstep, hflush⟩ := hbatched.upToDate hmode hseen txid
  refine ⟨sync.onFrame config (.upToDate txid), rows, ?_, hrows, ?_⟩
  · rw [run_append, hrun, Option.bind_some, System.run, hstep]
    rfl
  have hkey : ∀ key, ((sync.onFrame config (.upToDate txid)).collection config).lookup key =
      rows.lookup key ↔ ∀ old, (start.collection config).lookup key = some old →
        ∀ since, carried config key batch = some since → since ≠ [] →
          ∀ field ∈ old, ∃ row ∈ since, field ∈ row := by
    intro key
    rw [hflush]
    exact (hbatched.stage key).flush_iff
  constructor
  · intro heq key
    exact (hkey key).mp (by rw [heq])
  · intro hrestores
    exact Finmap.ext_lookup fun key => (hkey key).mpr (hrestores key)

/-! ## 4. Two batches -/

/-- `getKey: (row) => row.id`, with patches. -/
def patchById : Config := { byId with rowUpdateMode := .patch }

/-- A row with an `id` and a flag. -/
def flag (id : String) (done : Bool) : Row :=
  [⟨"id", Json.string id⟩, ⟨"done", Json.bool done⟩].toFinmap

theorem containsKey_flag (id : String) (done : Bool) : ContainsKey patchById (flag id done) id := by
  intro row
  have hid : (spread row (flag id done)).lookup "id" = some (.string id) := by
    rw [spread, Finmap.lookup_union_left (Finmap.lookup_isSome.mp rfl)]
    rfl
  change byId.getKey (spread row (flag id done)) = some id
  simp only [byId, hid]

/-- A connection with one row. -/
def oneRow : Sync :=
  ⟨⟨{"a"}, true, []⟩, true, false, [.begin, .write (.insert (todo "a" "one")), .commit]⟩

/-- A row is patched, deleted, and comes back with another title, and another row comes. -/
def deleteThenReturn : List SyncFrame :=
  [.change .update (some (flag "a" true)) none none, .change .delete none (some "a") none,
    .change .insert (some (todo "a" "three")) none none,
    .change .insert (some (todo "b" "two")) none none]

/-- A row is deleted and comes back without a title. -/
def deleteThenInsert : List SyncFrame :=
  [.change .delete none (some "a") none, .change .insert (some (flag "a" true)) none none]

theorem mem_collection_oneRow (key : String) :
    key ∈ oneRow.driver.seen ↔ key ∈ oneRow.collection patchById := by
  change key ∈ ({"a"} : Finset String) ↔ key ∈ (∅ : Rows).insert "a" (todo "a" "one")
  rw [Finset.mem_singleton, Finmap.mem_insert]
  simp [Finmap.notMem_empty]

/-- The row that is deleted gets both its fields back. -/
theorem restores_deleteThenReturn :
    Restores patchById (oneRow.collection patchById) deleteThenReturn := by
  intro key old hold since hsince _ field hfield
  have hkey : key = "a" := by
    by_contra hne
    have hnone : (oneRow.collection patchById).lookup key = none := by
      change ((∅ : Rows).insert "a" (todo "a" "one")).lookup key = none
      rw [Finmap.lookup_insert_of_ne _ hne, Finmap.lookup_empty]
    cases hnone.symm.trans hold
  subst hkey
  obtain rfl : todo "a" "one" = old := Option.some.inj hold
  have hcarried : carried patchById "a" deleteThenReturn = some [todo "a" "three"] := by rfl
  obtain rfl : [todo "a" "three"] = since := Option.some.inj (hcarried.symm.trans hsince)
  refine ⟨_, List.mem_singleton_self _, ?_⟩
  have hnames : (todo "a" "one").keys = (todo "a" "three").keys := by decide
  rwa [← Finmap.mem_keys, ← hnames, Finmap.mem_keys]

theorem batch_flushed_deleteThenReturn : ∃ flushed rows,
    (system patchById).run oneRow (deleteThenReturn.map .frame ++ [.frame (.upToDate none)]) =
        some flushed ∧
      (oneByOne patchById).run (oneRow.collection patchById) deleteThenReturn = some rows ∧
      flushed.collection patchById = rows := by
  have hfits : (oneByOne patchById).Along (Fits patchById) (oneRow.collection patchById)
      deleteThenReturn :=
    ⟨⟨"a", containsKey_flag _ _, Finmap.lookup_isSome.mp rfl⟩, rfl,
      ⟨"a", rfl, Finmap.lookup_eq_none.mp rfl⟩, ⟨"b", rfl, Finmap.lookup_eq_none.mp rfl⟩, trivial⟩
  obtain ⟨flushed, rows, hflushed, hrows, hiff⟩ :=
    batch_flushed_iff rfl rfl rfl mem_collection_oneRow hfits none
  exact ⟨flushed, rows, hflushed, hrows, hiff.mpr restores_deleteThenReturn⟩

/-- **A deleted field returns**: frame by frame the row has no title, and after the flush it has
the title it had before it was deleted. -/
theorem deleted_field_returns :
    (oneByOne patchById).Along (Fits patchById) (oneRow.collection patchById) deleteThenInsert ∧
    ∃ flushed rows,
      (system patchById).run oneRow (deleteThenInsert.map .frame ++ [.frame (.upToDate none)]) =
        some flushed ∧
      (oneByOne patchById).run (oneRow.collection patchById) deleteThenInsert = some rows ∧
      (rows.lookup "a").bind (·.lookup "title") = none ∧
      ((flushed.collection patchById).lookup "a").bind (·.lookup "title") =
        some (.string "one") :=
  ⟨⟨rfl, ⟨"a", rfl, Finmap.lookup_eq_none.mp rfl⟩, trivial⟩, _, _, rfl, rfl, rfl, rfl⟩

end Patch

end PgPaw.Client
