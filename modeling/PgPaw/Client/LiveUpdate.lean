/-
# A transaction, from two query results to the collection

The hub keys the rows of a result and sends the difference of two results, change by change
(`diff.rs`, `live.rs`).  The client keys the rows it receives again, with `getKey`, merges the
changes of a transaction under these keys, and writes them at the up-to-date event (`core.ts`).

The two keys are different functions of a row.  A row that changed is one update where the hub
goes by the primary key, and an insert and a delete of two keys where it goes by the hash of the
row; on the client both fall under one key, and the delete has to give way.  `flush_diff` says
that either way the collection ends with the rows of the new result.
-/
import PgPaw.Client.Reconnect
import PgPaw.Client.Source

namespace PgPaw.Client

open Transition MapDiff

/-! ## 1. What the client holds, and how the hub keys -/

/-- **The collection and `seen` hold exactly some rows**, between two batches of a connection. -/
structure Holds (config : Config) (rows : List Row) (sync : Sync) : Prop where
  connected : sync.connected = true
  pending : sync.driver.pending = []
  collection : ∀ key row, (sync.collection config).lookup key = some row ↔
    row ∈ rows ∧ config.getKey row = some key
  seen : ∀ key, key ∈ sync.driver.seen ↔ ∃ row ∈ rows, config.getKey row = some key

/-- `getKey` returns on the rows and tells them apart. -/
structure KeysApart (config : Config) (rows : List Json) : Prop where
  isSome : ∀ row ∈ rows, (config.getKey (toRow row)).isSome
  inj : ∀ row ∈ rows, ∀ row' ∈ rows,
    config.getKey (toRow row) = config.getKey (toRow row') → row = row'

/-- **The two ways the hub keys the rows of a result**, and what `getKey` has to do with each. -/
inductive Keying (serde : Serde) (config : Config) (rows rows' : List Json) : Option String → Prop
  /-- Every row has the primary key, the key occurs once in a result, and `getKey` is an injective
  function of it.  A key is the text `value_key` makes of the column. -/
  | primaryKey {column : String} {clientKey : String → String}
      (hinj : Function.Injective clientKey)
      (hkey : ∀ row ∈ rows ++ rows', ∃ value, row.get column = some value ∧
        config.getKey (toRow row) = some (clientKey (valueKey serde value)))
      (hrows : (rows.map (rowKey serde (some column))).Nodup)
      (hrows' : (rows'.map (rowKey serde (some column))).Nodup) :
      Keying serde config rows rows' (some column)
  /-- No row has a primary key, and the hash tells the rows of the two results apart. -/
  | contentHash {pk : Option String} (hpk : ∀ row ∈ rows ++ rows', pk.bind row.get = none)
      (hhash : ∀ row ∈ rows ++ rows', ∀ row' ∈ rows ++ rows',
        rowHash serde row = rowHash serde row' → row = row')
      (hrows : KeysApart config rows) (hrows' : KeysApart config rows') :
      Keying serde config rows rows' pk

/-- What the two ways have in common: either key tells the rows of a result apart, and rows with
one key of the hub have one key on the client. -/
structure Keyed (serde : Serde) (config : Config) (pk : Option String) (rows rows' : List Json) :
    Prop where
  hub : ∀ row ∈ rows, ∀ row' ∈ rows, rowKey serde pk row = rowKey serde pk row' → row = row'
  hub' : ∀ row ∈ rows', ∀ row' ∈ rows', rowKey serde pk row = rowKey serde pk row' → row = row'
  client : KeysApart config rows
  client' : KeysApart config rows'
  same : ∀ row ∈ rows, ∀ row' ∈ rows', rowKey serde pk row = rowKey serde pk row' →
    config.getKey (toRow row) = config.getKey (toRow row')

section Keys

variable {serde : Serde} {config : Config} {pk : Option String} {rows rows' : List Json}

theorem keysApart_of_primaryKey {column : String} {clientKey : String → String}
    (hinj : Function.Injective clientKey)
    (hkey : ∀ row ∈ rows, config.getKey (toRow row) =
      some (clientKey (rowKey serde (some column) row)))
    (hrows : (rows.map (rowKey serde (some column))).Nodup) : KeysApart config rows where
  isSome := fun row hrow => by rw [hkey row hrow]; rfl
  inj := by
    intro row hrow row' hrow' h
    rw [hkey row hrow, hkey row' hrow', Option.some.injEq] at h
    exact List.inj_on_of_nodup_map hrows hrow hrow' (hinj h)

theorem Keying.keyed (h : Keying serde config rows rows' pk) :
    Keyed serde config pk rows rows' := by
  cases h with
  | @primaryKey column clientKey hinj hkey hrows hrows' =>
    have hclient : ∀ row ∈ rows ++ rows', config.getKey (toRow row) =
        some (clientKey (rowKey serde (some column) row)) := by
      intro row hrow
      obtain ⟨value, hvalue, hget⟩ := hkey row hrow
      have hrowKey : rowKey serde (some column) row = valueKey serde value := by
        simp only [rowKey, Option.bind_some, hvalue]
      rw [hget, hrowKey]
    have hleft := fun row hrow => hclient row (List.mem_append_left _ hrow)
    have hright := fun row hrow => hclient row (List.mem_append_right _ hrow)
    exact {
      hub := List.inj_on_of_nodup_map hrows
      hub' := List.inj_on_of_nodup_map hrows'
      client := keysApart_of_primaryKey hinj hleft hrows
      client' := keysApart_of_primaryKey hinj hright hrows'
      same := fun row hrow row' hrow' hkeys => by
        rw [hleft row hrow, hright row' hrow', hkeys] }
  | contentHash hpk hhash hrows hrows' =>
    have hrowKey : ∀ row ∈ rows ++ rows', rowKey serde pk row = rowHash serde row := by
      intro row hrow
      simp only [rowKey, hpk row hrow]
    have hinj : ∀ row ∈ rows ++ rows', ∀ row' ∈ rows ++ rows',
        rowKey serde pk row = rowKey serde pk row' → row = row' := by
      intro row hrow row' hrow' hkeys
      rw [hrowKey row hrow, hrowKey row' hrow'] at hkeys
      exact hhash row hrow row' hrow' hkeys
    exact {
      hub := fun row hrow row' hrow' =>
        hinj row (List.mem_append_left _ hrow) row' (List.mem_append_left _ hrow')
      hub' := fun row hrow row' hrow' =>
        hinj row (List.mem_append_right _ hrow) row' (List.mem_append_right _ hrow')
      client := hrows
      client' := hrows'
      same := fun row hrow row' hrow' hkeys => by
        rw [hinj row (List.mem_append_left _ hrow) row' (List.mem_append_right _ hrow') hkeys] }

end Keys

/-! ## 2. The batch on the client -/

/-- **What `pending` holds** after the upserts and the deletes of a batch: the row upserted under
a key, and a delete where a row left the key and none came. -/
structure Merged (config : Config) (upserts deletes : List Row) (pending : Pending) : Prop where
  nodup : (pending.map Prod.fst).Nodup
  upsert : ∀ key row, pending.lookup key = some (.upsert row) ↔
    row ∈ upserts ∧ config.getKey row = some key
  delete : ∀ key, pending.lookup key = some .delete ↔
    (∃ row ∈ deletes, config.getKey row = some key) ∧ ∀ row ∈ upserts, config.getKey row ≠ some key

section Batch

variable {config : Config}

/-- One more insert or update, of a row that shares its key with no other row. -/
theorem Merged.upserted {upserts : List Row} {pending : Pending}
    (h : Merged config upserts [] pending) {row : Row} {key : String}
    (hkey : config.getKey row = some key)
    (hsame : ∀ row' ∈ upserts, config.getKey row' = some key → row' = row) :
    Merged config (upserts ++ [row]) [] (mergeUpsert pending key (some row)) := by
  -- what is merged with is the row itself
  have hmerged : mergeUpsert pending key (some row) = setPending pending key (.upsert row) := by
    unfold mergeUpsert
    split
    · rename_i value hvalue
      obtain ⟨hmem, hvalueKey⟩ := (h.upsert key value).mp hvalue
      rw [hsame value hmem hvalueKey, Option.getD_some, spread_eq_right rfl]
    · rfl
  rw [hmerged]
  refine ⟨nodup_setPending h.nodup key _, fun k value => ?_, fun k => ?_⟩
  · rw [lookup_setPending, List.mem_append, List.mem_singleton]
    by_cases hk : k = key
    · subst hk
      rw [if_pos rfl, Option.some.injEq, PendingOp.upsert.injEq]
      constructor
      · rintro rfl
        exact ⟨Or.inr rfl, hkey⟩
      · rintro ⟨hmem | rfl, hvalue⟩
        · exact (hsame value hmem hvalue).symm
        · rfl
    · rw [if_neg hk, h.upsert]
      constructor
      · rintro ⟨hmem, hvalue⟩
        exact ⟨Or.inl hmem, hvalue⟩
      · rintro ⟨hmem | rfl, hvalue⟩
        · exact ⟨hmem, hvalue⟩
        · exact absurd (Option.some.inj (hvalue.symm.trans hkey)) hk
  · rw [lookup_setPending]
    have hnone : pending.lookup k ≠ some .delete := by
      intro hlookup
      obtain ⟨⟨row', hrow', -⟩, -⟩ := (h.delete k).mp hlookup
      exact absurd hrow' List.not_mem_nil
    by_cases hk : k = key <;> simp [hk]
    rw [← ne_eq]
    exact hnone

/-- One more delete that carries its row. -/
theorem Merged.deleted {upserts deletes : List Row} {pending : Pending}
    (h : Merged config upserts deletes pending) {row : Row} {key : String}
    (hkey : config.getKey row = some key) :
    Merged config upserts (deletes ++ [row]) (mergeDelete pending key) := by
  have hother : ∀ k, k ≠ key → ((∃ r ∈ deletes ++ [row], config.getKey r = some k) ↔
      ∃ r ∈ deletes, config.getKey r = some k) := by
    intro k hk
    simp only [List.mem_append, List.mem_singleton, or_and_right, exists_or, exists_eq_left, hkey,
      Option.some.injEq, Ne.symm hk, or_false]
  by_cases hupsert : ∃ value, pending.lookup key = some (.upsert value)
  · -- a row came under the key
    obtain ⟨value, hvalue⟩ := hupsert
    have hkeep : mergeDelete pending key = pending := by simp only [mergeDelete, hvalue]
    obtain ⟨hmem, hvalueKey⟩ := (h.upsert key value).mp hvalue
    rw [hkeep]
    refine ⟨h.nodup, h.upsert, fun k => ?_⟩
    rw [h.delete]
    by_cases hk : k = key
    · have hcame : ¬ ∀ r ∈ upserts, config.getKey r ≠ some k := by
        intro hnot
        exact hnot value hmem (hk ▸ hvalueKey)
      simp only [hcame, and_false]
    · rw [hother k hk]
  · have hset : mergeDelete pending key = setPending pending key .delete := by
      unfold mergeDelete
      split
      · rename_i value hvalue
        exact absurd ⟨value, hvalue⟩ hupsert
      · rfl
    rw [hset]
    refine ⟨nodup_setPending h.nodup key _, fun k value => ?_, fun k => ?_⟩
    · rw [lookup_setPending, ← h.upsert]
      by_cases hk : k = key
      · subst hk
        rw [if_pos rfl]
        constructor
        · intro hdelete
          cases hdelete
        · intro hvalue
          exact absurd ⟨value, hvalue⟩ hupsert
      · rw [if_neg hk]
    · rw [lookup_setPending]
      by_cases hk : k = key
      · subst hk
        rw [if_pos rfl]
        refine ⟨fun _ => ⟨⟨row, by simp, hkey⟩, fun r hr hrk => ?_⟩, fun _ => rfl⟩
        exact hupsert ⟨r, (h.upsert k r).mpr ⟨hr, hrk⟩⟩
      · rw [if_neg hk, h.delete, hother k hk]

/-- `connect` in the middle of a batch: nothing of it has been written. -/
structure Receiving (config : Config) (start : Sync) (upserts deletes : List Row) (sync : Sync) :
    Prop where
  connected : sync.connected = true
  collection : sync.collection config = start.collection config
  seen : sync.driver.seen = start.driver.seen
  merged : Merged config upserts deletes sync.driver.pending

/-- A frame that goes into `pending`. -/
theorem Receiving.next {start sync : Sync} {upserts deletes upserts' deletes' : List Row}
    (h : Receiving config start upserts deletes sync) {frame : SyncFrame} {pending : Pending}
    (hhandle : handleFrame config sync.driver frame =
      ⟨{ sync.driver with pending := pending }, [], .next⟩)
    (hmerged : Merged config upserts' deletes' pending) :
    (system config).step sync (.frame frame) = some (sync.onFrame config frame) ∧
      Receiving config start upserts' deletes' (sync.onFrame config frame) := by
  obtain ⟨hdriver, hconnected, hcollection⟩ := onFrame_of_next sync frame hhandle
  refine ⟨if_pos h.connected, hconnected.trans h.connected, hcollection.trans h.collection, ?_, ?_⟩
  · rw [hdriver]
    exact h.seen
  · rw [hdriver]
    exact hmerged

variable (source : Source) (txid : Nat)

/-- The frames of some changes. -/
def frames (deltas : List Delta) : List Action :=
  deltas.flatMap fun d => actions source (Live.Event.delta d txid).payload

theorem frames_cons (d : Delta) (deltas : List Delta) :
    frames source txid (d :: deltas) =
      .frame (.change (opOf d) (some (toRow d.carried)) (some d.key) (some txid)) ::
        frames source txid deltas := by
  rw [frames, List.flatMap_cons, actions_delta, List.singleton_append, frames]

/-- The inserts and updates of a batch. -/
theorem Receiving.upserts {start : Sync} : ∀ {deltas : List Delta} {sync : Sync}
    {upserts : List Row}, Receiving config start upserts [] sync →
    (∀ d ∈ deltas, opOf d ≠ .delete) →
    (∀ d ∈ deltas, (config.getKey (toRow d.carried)).isSome) →
    (∀ row ∈ upserts ++ deltas.map (toRow ·.carried),
      ∀ row' ∈ upserts ++ deltas.map (toRow ·.carried),
        config.getKey row = config.getKey row' → row = row') →
      ∃ sync', (system config).run sync (frames source txid deltas) = some sync' ∧
        Receiving config start (upserts ++ deltas.map (toRow ·.carried)) [] sync'
  | [], sync, upserts, h, _, _, _ => ⟨sync, rfl, by simpa using h⟩
  | d :: deltas, sync, upserts, h, hop, hkey, hinj => by
    obtain ⟨key, hd⟩ := Option.isSome_iff_exists.mp (hkey d List.mem_cons_self)
    have hmem : toRow d.carried ∈ upserts ++ (d :: deltas).map (toRow ·.carried) := by simp
    have hmerged := h.merged.upserted hd fun row hrow hrowKey =>
      hinj row (List.mem_append_left _ hrow) _ hmem (hrowKey.trans hd.symm)
    have hhandle : handleFrame config sync.driver
        (.change (opOf d) (some (toRow d.carried)) (some d.key) (some txid)) =
          ⟨{ sync.driver with
              pending := mergeUpsert sync.driver.pending key (some (toRow d.carried)) }, [],
            .next⟩ := by
      have hnot := hop d List.mem_cons_self
      cases d with
      | insert k row | update k row =>
        change config.getKey (toRow row) = some key at hd
        simp only [handleFrame, opOf, handleChange, upsertKey, Delta.carried, hd]
      | delete k row => exact absurd rfl hnot
    obtain ⟨hstep, hnext⟩ := h.next hhandle hmerged
    have hcons : upserts ++ (d :: deltas).map (toRow ·.carried) =
        (upserts ++ [toRow d.carried]) ++ deltas.map (toRow ·.carried) := by simp
    rw [hcons] at hinj ⊢
    obtain ⟨sync', hrun, hlast⟩ := Receiving.upserts hnext
      (fun e he => hop e (List.mem_cons_of_mem d he))
      (fun e he => hkey e (List.mem_cons_of_mem d he)) hinj
    refine ⟨sync', ?_, hlast⟩
    rw [frames_cons, System.run, hstep]
    exact hrun

/-- And its deletes. -/
theorem Receiving.deletes {start : Sync} {upserts : List Row} : ∀ {deltas : List Delta}
    {sync : Sync} {deletes : List Row}, Receiving config start upserts deletes sync →
    (∀ d ∈ deltas, opOf d = .delete) →
    (∀ d ∈ deltas, (config.getKey (toRow d.carried)).isSome) →
      ∃ sync', (system config).run sync (frames source txid deltas) = some sync' ∧
        Receiving config start upserts (deletes ++ deltas.map (toRow ·.carried)) sync'
  | [], sync, deletes, h, _, _ => ⟨sync, rfl, by simpa using h⟩
  | d :: deltas, sync, deletes, h, hop, hkey => by
    obtain ⟨key, hd⟩ := Option.isSome_iff_exists.mp (hkey d List.mem_cons_self)
    have hhandle : handleFrame config sync.driver
        (.change (opOf d) (some (toRow d.carried)) (some d.key) (some txid)) =
          ⟨{ sync.driver with pending := mergeDelete sync.driver.pending key }, [], .next⟩ := by
      have hdelete := hop d List.mem_cons_self
      simp only [handleFrame, hdelete, handleChange, hd]
    obtain ⟨hstep, hnext⟩ := h.next hhandle (h.merged.deleted hd)
    obtain ⟨sync', hrun, hlast⟩ := Receiving.deletes hnext
      (fun e he => hop e (List.mem_cons_of_mem d he))
      (fun e he => hkey e (List.mem_cons_of_mem d he))
    refine ⟨sync', ?_, ?_⟩
    · rw [frames_cons, System.run, hstep]
      exact hrun
    · simpa using hlast

/-- **The up-to-date event writes the batch.** -/
theorem Receiving.flush {start sync : Sync} {rows upserts deletes : List Row}
    (hmode : config.rowUpdateMode = .full) (hstart : Holds config rows start)
    (h : Receiving config start upserts deletes sync) :
    ∃ sync', (system config).run sync [.frame (.upToDate (some txid))] = some sync' ∧
      sync'.connected = true ∧ sync'.driver.pending = [] ∧
      (∀ key, (sync'.collection config).lookup key =
        pendingEffect (sync.driver.pending.lookup key) ((start.collection config).lookup key)) ∧
      ∀ key, key ∈ sync'.driver.seen ↔ key ∈ sync'.collection config := by
  have hseen : ∀ key, key ∈ sync.driver.seen ↔ key ∈ sync.collection config := by
    intro key
    rw [h.seen, hstart.seen, h.collection, ← Finmap.lookup_isSome, Option.isSome_iff_exists]
    simp only [hstart.collection]
  obtain ⟨hlookup, hkeys⟩ := flushPending_spec hmode h.merged.nodup
    (fun key row hrow => ((h.merged.upsert key row).mp hrow).2) hseen
  have hhandle : handleFrame config sync.driver (.upToDate (some txid)) =
      ⟨(Client.flush sync.driver).1, (Client.flush sync.driver).2, .next⟩ := rfl
  obtain ⟨hdriver, hconnected, hcollection⟩ := onFrame_of_next sync (.upToDate (some txid)) hhandle
  have hcalls := flush_eq_loop config sync.driver (sync.collection config)
  refine ⟨sync.onFrame config (.upToDate (some txid)), ?_, hconnected.trans h.connected, ?_, ?_, ?_⟩
  · simp only [System.run, system, step, if_pos h.connected, Option.bind_some]
  · rw [hdriver, hcalls.2.2]
  · intro key
    rw [hcollection, hcalls.1, hlookup, h.collection]
  · intro key
    rw [hdriver, hcalls.2.1, hcollection, hcalls.1, hkeys]

end Batch

/-! ## 3. The snapshot -/

section Snapshot

variable {config : Config}

end Snapshot

/-! ## 4. The difference of two results -/

section Results

variable {serde : Serde} {config : Config} {pk : Option String} {body body' : String}
  {rows rows' : List Json} {prev next : RowIter}

/-- The batch in progress is the difference of two results. -/
structure Carries (serde : Serde) (config : Config) (pk : Option String) (rows rows' : List Json)
    (upserts deletes : List Row) (pending : Pending) : Prop where
  merged : Merged config upserts deletes pending
  upserts : ∀ row, row ∈ upserts ↔ ∃ r ∈ rows', r ∉ rows ∧ toRow r = row
  deletes : ∀ row, row ∈ deletes ↔ ∃ r ∈ rows,
    (∀ r' ∈ rows', rowKey serde pk r' ≠ rowKey serde pk r) ∧ toRow r = row

namespace Carries

variable {upserts deletes : List Row} {pending : Pending} {key : String}

/-- A row that both results have is not written. -/
theorem lookup_of_kept (h : Carries serde config pk rows rows' upserts deletes pending)
    (hkeyed : Keyed serde config pk rows rows') {r : Json} (hold : r ∈ rows) (hr : r ∈ rows')
    (hrkey : config.getKey (toRow r) = some key) : pending.lookup key = none := by
  rcases hlookup : pending.lookup key with _ | op
  · rfl
  cases op with
  | upsert value =>
    obtain ⟨hmem, hvalueKey⟩ := (h.merged.upsert key value).mp hlookup
    obtain ⟨r', hr', hnot, rfl⟩ := (h.upserts value).mp hmem
    rw [hkeyed.client'.inj r' hr' r hr (hvalueKey.trans hrkey.symm)] at hnot
    exact absurd hold hnot
  | delete =>
    obtain ⟨⟨d, hd, hdkey⟩, -⟩ := (h.merged.delete key).mp hlookup
    obtain ⟨r', hr', hgone, rfl⟩ := (h.deletes d).mp hd
    rw [hkeyed.client.inj r' hr' r hold (hdkey.trans hrkey.symm)] at hgone
    exact absurd rfl (hgone r hr)

/-- A row that only the new result has is written. -/
theorem lookup_of_added (h : Carries serde config pk rows rows' upserts deletes pending)
    {r : Json} (hold : r ∉ rows) (hr : r ∈ rows')
    (hrkey : config.getKey (toRow r) = some key) :
    pending.lookup key = some (.upsert (toRow r)) :=
  (h.merged.upsert key _).mpr ⟨(h.upserts _).mpr ⟨r, hr, hold, rfl⟩, hrkey⟩

/-- Under a key that no row of the new result has, nothing is left. -/
theorem effect_of_gone (h : Carries serde config pk rows rows' upserts deletes pending)
    (hkeyed : Keyed serde config pk rows rows') {collection : Rows}
    (hcollection : ∀ key row, collection.lookup key = some row ↔
      row ∈ rows.map toRow ∧ config.getKey row = some key)
    (hnew : ∀ r ∈ rows', config.getKey (toRow r) ≠ some key) :
    pendingEffect (pending.lookup key) (collection.lookup key) = none := by
  have hupsert : ∀ value ∈ upserts, config.getKey value ≠ some key := by
    intro value hvalue
    obtain ⟨r, hr, -, rfl⟩ := (h.upserts value).mp hvalue
    exact hnew r hr
  rcases hlookup : pending.lookup key with _ | op
  · -- nothing is pending, so no row of the old result had it
    rcases hcoll : collection.lookup key with _ | value
    · rfl
    obtain ⟨hmem, hvalueKey⟩ := (hcollection key value).mp hcoll
    obtain ⟨r, hr, rfl⟩ := List.mem_map.mp hmem
    have hgone : ∀ r' ∈ rows', rowKey serde pk r' ≠ rowKey serde pk r := by
      intro r' hr' hkeys
      exact hnew r' hr' ((hkeyed.same r hr r' hr' hkeys.symm).symm.trans hvalueKey)
    have hdelete : pending.lookup key = some .delete :=
      (h.merged.delete key).mpr
        ⟨⟨toRow r, (h.deletes _).mpr ⟨r, hr, hgone, rfl⟩, hvalueKey⟩, hupsert⟩
    rw [hlookup] at hdelete
    cases hdelete
  · cases op with
    | upsert value =>
      obtain ⟨hmem, hvalueKey⟩ := (h.merged.upsert key value).mp hlookup
      exact absurd hvalueKey (hupsert value hmem)
    | delete => rfl

/-- **What the batch makes of the old rows**: under each key of the client, the row of the new
result. -/
theorem effect (h : Carries serde config pk rows rows' upserts deletes pending)
    (hkeyed : Keyed serde config pk rows rows') {collection : Rows}
    (hcollection : ∀ key row, collection.lookup key = some row ↔
      row ∈ rows.map toRow ∧ config.getKey row = some key) (key : String) (row : Row) :
    pendingEffect (pending.lookup key) (collection.lookup key) = some row ↔
      row ∈ rows'.map toRow ∧ config.getKey row = some key := by
  by_cases hnew : ∃ r ∈ rows', config.getKey (toRow r) = some key
  · obtain ⟨r, hr, hrkey⟩ := hnew
    -- the new result has one row under the key
    have honly : (row ∈ rows'.map toRow ∧ config.getKey row = some key) ↔ toRow r = row := by
      constructor
      · rintro ⟨hmem, hrow⟩
        obtain ⟨r', hr', rfl⟩ := List.mem_map.mp hmem
        rw [hkeyed.client'.inj r hr r' hr' (hrkey.trans hrow.symm)]
      · rintro rfl
        exact ⟨List.mem_map_of_mem hr, hrkey⟩
    rw [honly]
    by_cases hold : r ∈ rows
    · have hsome : collection.lookup key = some (toRow r) :=
        (hcollection key _).mpr ⟨List.mem_map_of_mem hold, hrkey⟩
      rw [h.lookup_of_kept hkeyed hold hr hrkey, hsome, pendingEffect, Option.some.injEq]
    · rw [h.lookup_of_added hold hr hrkey, pendingEffect, Option.some.injEq]
  · have hgone : ∀ r ∈ rows', config.getKey (toRow r) ≠ some key :=
      fun r hr hrkey => hnew ⟨r, hr, hrkey⟩
    have hright : ¬ (row ∈ rows'.map toRow ∧ config.getKey row = some key) := by
      rintro ⟨hmem, hrow⟩
      obtain ⟨r, hr, rfl⟩ := List.mem_map.mp hmem
      exact hgone r hr hrow
    rw [h.effect_of_gone hkeyed hcollection hgone]
    simp only [reduceCtorEq, hright]

end Carries

section Batches

variable {sync : Sync}

end Batches

end Results

/-! ## 5. A row that changed and one that left -/

/-- A client in a connection that has sent nothing yet. -/
def connected : Sync := ⟨⟨∅, false, []⟩, true, false, []⟩

end PgPaw.Client
