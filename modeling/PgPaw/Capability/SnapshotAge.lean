/-
# A snapshot is never older than its version

Two statements about `materialize` in any interleaving.

* Every body cached or replied under `hash:v` is the result of its query on a state of the
  database that has every transaction up to `v` (`SnapshotsIncludeVersion`).  The version is
  read before the query runs, no version is beyond the last transaction advanced, and what is
  applied later has a larger LSN (`Dated`).  Nothing is asked of the query.
* A call made when every applied transaction is advanced, and not crossed by a commit, replies
  the current result (`CurrentWhenQuiet`).  On a hit this rests on the index having noticed
  every commit that changed the result since the cached body was computed.  It notices the
  commits that touch a listed table, and no others.

The second statement therefore holds of a query exactly when no transaction can change its
result without touching a table of its list (`snapshot_current_iff`).  A query whose table is
hidden from the list is the failing case: it keeps its first body forever.
-/
import PgPaw.Capability.Snapshot
import PgPaw.Capability.TableExtraction

namespace PgPaw.Read

open Transition

variable {γ : Type} {engine : Engine γ}

/-! ## 1. Versions and executions -/

/-- The queries of the `materialize` calls of a run come from a given set. -/
def Issues (issued : CacheableQuery → Prop) (_ : State γ) : Action γ → Prop
  | .materialize _ q => issued q
  | _ => True

/-- Calls and executions are of queries that were asked. -/
structure Asked (issued : CacheableQuery → Prop) (s : State γ) : Prop where
  calls : ∀ id c, s.calls id = some c → issued c.query
  executions : ∀ e ∈ s.executions, issued e.query

/-- No call has a version beyond the last transaction advanced, and what was committed after
an execution is beyond its version. -/
structure Dated (s : State γ) : Prop where
  calls : ∀ id c v, s.calls id = some c → c.stage.awaiting = some v → v ≤ s.advancedTo
  executions : ∀ e ∈ s.executions, e.version ≤ s.advancedTo
  later : ∀ e ∈ s.executions, ∀ m txn, s.history.label m = some txn → e.snapshot ≤ m →
    e.version < txn.endLsn

namespace Asked

variable {issued : CacheableQuery → Prop}

theorem setCall {s : State γ} (h : Asked issued s) {id : Nat} {q : CacheableQuery}
    {stage : Stage} (hc : issued q) : Asked issued (s.setCall id ⟨q, stage⟩) where
  executions := h.executions
  calls id' c' hc' := by
    rw [State.setCall_calls] at hc'
    split at hc'
    · exact Option.some.inj hc' ▸ hc
    · exact h.calls id' c' hc'

theorem taken {s s' : State γ} {a : Action γ} (h : Asked issued s) (hok : Issues issued s a)
    (ht : Taken engine s a s') : Asked issued s' := by
  cases ht with
  | materialize hfree => exact h.setCall hok
  | hit hcall hcache => exact h.setCall (h.calls _ _ hcall)
  | miss hcall hcache => exact h.setCall (h.calls _ _ hcall)
  | fail hcall hrun => exact h.setCall (h.calls _ _ hcall)
  | replyError hcall => exact h.setCall (h.calls _ _ hcall)
  | @execute id v q body hcall hrun =>
    have hq : issued q := h.calls _ _ hcall
    refine ⟨(h.setCall hq).calls, fun e he => ?_⟩
    rcases List.mem_append.mp he with he | he
    · exact h.executions e he
    · exact List.mem_singleton.mp he ▸ hq
  | @insert id v q body hcall =>
    have hq : issued q := h.calls _ _ hcall
    exact ⟨(h.setCall hq).calls, h.executions⟩
  | @reply id v q r hcall =>
    have hq : issued q := h.calls _ _ hcall
    exact ⟨(h.setCall hq).calls, h.executions⟩
  | cursor | evict | apply _ _ | advance _ _ _ => exact ⟨h.calls, h.executions⟩

/-- In a run that asks only queries of the set, calls and executions are of the set. -/
theorem of_reachable {pk : List (String × String)} {full : List String}
    {ok : State γ → Action γ → Prop} (hok : ∀ s a, ok s a → Issues issued s a) {s : State γ}
    (h : (system engine pk full).Reachable ok s) : Asked issued s := by
  refine Reachable.induction (P := Asked issued) (fun s h0 => ⟨?_, ?_⟩)
    (fun s a _ _ ih ha hs => ih.taken (hok s a ha) (taken_of_step hs)) h
  · intro id c hc
    simp [h0.calls] at hc
  · intro e he
    simp [h0.executions] at he

end Asked

namespace Dated

variable {pk : List (String × String)} {full : List String}

theorem start {s : State γ} (h : Fresh pk full s) : Dated s where
  calls id q v hc := by simp [h.calls] at hc
  executions e he := by simp [h.executions] at he
  later e he := by simp [h.executions] at he

/-- A call moves to a stage whose version, if it still matters, is not beyond the index. -/
theorem setCall {s : State γ} (h : Dated s) {id : Nat} {q : CacheableQuery} {stage : Stage}
    (hv : ∀ v, stage.awaiting = some v → v ≤ s.advancedTo) :
    Dated (s.setCall id ⟨q, stage⟩) where
  executions := h.executions
  later := h.later
  calls id' c v hc hc' := by
    rw [State.setCall_calls] at hc
    split at hc
    · obtain rfl := Option.some.inj hc
      exact hv v hc'
    · exact h.calls id' c v hc hc'

theorem taken {s s' : State γ} {a : Action γ} (h : Dated s) (ho : Ordered pk full s)
    (ht : Taken engine s a s') : Dated s' := by
  cases ht with
  | @materialize id q hfree =>
    refine h.setCall ?_
    intro v hv
    obtain rfl := Option.some.inj hv
    exact ho.version_le q
  | @miss id v q hcall hcache =>
    refine h.setCall ?_
    intro v' hv
    exact h.calls id _ v' hcall hv
  | hit _ _ | fail _ _ | replyError _ => exact h.setCall nofun
  | @execute id v q body hcall hrun =>
    have hc : Dated (s.setCall id ⟨q, .computed v body⟩) := h.setCall nofun
    refine ⟨hc.calls, fun e he => ?_, fun e he m txn hl hle => ?_⟩
    · rcases List.mem_append.mp he with he | he
      · exact h.executions e he
      · rw [List.mem_singleton.mp he]
        exact h.calls id _ v hcall rfl
    · rcases List.mem_append.mp he with he | he
      · exact h.later e he m txn hl hle
      · -- it ran on the newest state: nothing is committed after it yet
        rw [List.mem_singleton.mp he] at hle
        exact absurd (History.lt_length_of_label hl) (Nat.not_lt.mpr hle)
  | @insert id v q body hcall =>
    have hc : Dated (s.setCall id ⟨q, .finished (.ok (v, ⟨snapshotKey q.fingerprint v, body⟩))⟩) :=
      h.setCall nofun
    exact ⟨hc.calls, h.executions, h.later⟩
  | @reply id v q r hcall =>
    have hc : Dated (s.setCall id ⟨q, .returned (.ok (v, r))⟩) :=
      h.setCall nofun
    exact ⟨hc.calls, h.executions, h.later⟩
  | cursor | evict => exact ⟨h.calls, h.executions, h.later⟩
  | @apply txn ws hlsn hws =>
    refine ⟨h.calls, h.executions, fun e he m txn' hl hle => ?_⟩
    have hlt := History.lt_length_of_label hl
    rw [History.length_commit] at hlt
    rcases Nat.lt_succ_iff_lt_or_eq.mp hlt with hm | rfl
    · rw [History.label_commit _ _ _ hm] at hl
      exact h.later e he m txn' hl hle
    · rw [History.label_commit_self] at hl
      obtain rfl := Option.some.inj hl
      exact Nat.lt_of_le_of_lt (h.executions e he) hlsn
  | @advance m txn hm horder hlabel =>
    have hle : s.advancedTo ≤ txn.endLsn := by
      have := (ho.pending m hm).2
      simpa [State.endLsn, hlabel] using this
    exact ⟨fun id c v hc hv => (h.calls id c v hc hv).trans hle,
      fun e he => (h.executions e he).trans hle, h.later⟩

theorem of_reachable {ok : State γ → Action γ → Prop} {s : State γ}
    (h : (system engine pk full).Reachable ok s) : Dated s :=
  Reachable.induction (P := Dated) (fun _ h0 => start h0)
    (fun _ _ _ hr ih _ hs => ih.taken (.of_reachable hr) (taken_of_step hs)) h

end Dated

/-! ## 2. What the claim says of a query -/

/-- Two queries are one read: same tables, same filters, same result everywhere. -/
structure SameRead (engine : Engine γ) (q q' : CacheableQuery) : Prop where
  tables : q.tables = q'.tables
  eqFilters : q.eqFilters = q'.eqFilters
  run : ∀ db, run engine q db = run engine q' db

/-- Queries of one fingerprint are one read: the hasher separates the statements asked. -/
def FingerprintsSeparate (engine : Engine γ) (issued : CacheableQuery → Prop) : Prop :=
  ∀ q q', issued q → issued q' → q.fingerprint = q'.fingerprint → SameRead engine q q'

/-- The body is the query's result on a state that has every transaction up to `v`. -/
def IncludesVersion (engine : Engine γ) (s : State γ) (q : CacheableQuery) (v : Nat)
    (body : String) : Prop :=
  ∃ n ≤ s.history.length, run engine q (s.history.snapshot n) = .ok body ∧
    ∀ m txn, s.history.label m = some txn → txn.endLsn ≤ v → m < n

/-- **Every body cached or replied under a key of the query includes the key's version.** -/
def SnapshotsIncludeVersion (engine : Engine γ) (q : CacheableQuery) (s : State γ) : Prop :=
  (∀ v r, s.cache (snapshotKey q.fingerprint v) = some r →
    IncludesVersion engine s q v r.body) ∧
  (∀ v body, (snapshotKey q.fingerprint v, body) ∈ s.served → IncludesVersion engine s q v body)

/-- **A call made when nothing is pending, and crossed by no commit, replies the current
result**, from any state of a run that asks queries of the set. -/
def CurrentWhenQuiet (engine : Engine γ) (pk : List (String × String)) (full : List String)
    (issued : CacheableQuery → Prop) (q : CacheableQuery) : Prop :=
  ∀ s s₁ s₂ id, (system engine pk full).Reachable (Issues issued) s → s.pending = [] →
    step engine s (.materialize id q) = some s₁ →
    (system engine pk full).Leads (fun s a => Issues issued s a ∧ a.isCommit = false) s₁ s₂ →
    ∀ result, s₂.calls id = some ⟨q, .returned result⟩ →
      (result.map fun r => r.2.body) = run engine q s₂.history.current

/-- **No transaction changes the query's result without touching a table of its list.** -/
def ReadsOnlyListed (engine : Engine γ) (q : CacheableQuery) : Prop :=
  ∀ (db : Database γ) (txn : CommittedTransaction) (ws : Writes γ),
    (∀ w ∈ ws, w.1 ∈ txn.touched) → (∀ t ∈ q.tables, toAsciiLowercase t ∉ txn.touched) →
      (run engine q (db.write ws)).toOption = (run engine q db).toOption

/-! ## 3. The first half, of every query -/

section Runs

variable {pk : List (String × String)} {full : List String} {issued : CacheableQuery → Prop}

/-- A body produced for a key of the query is its result where the execution ran. -/
theorem Produced.of_query {s : State γ} {q : CacheableQuery} {v : Nat} {body : String}
    (hfp : FingerprintsSeparate engine issued) (hq : issued q) (ha : Asked issued s)
    (h : Produced engine s (snapshotKey q.fingerprint v) body) :
    ∃ e ∈ s.executions, e.version = v ∧ SameRead engine e.query q ∧
      e.snapshot ≤ s.history.length ∧
      run engine q (s.history.snapshot e.snapshot) = .ok body := by
  obtain ⟨e, he, hkey, hle, hrun⟩ := h
  obtain ⟨hf, hv⟩ := snapshotKey_inj hkey
  have hsame := hfp e.query q (ha.executions e he) hq hf
  exact ⟨e, he, hv, hsame, hle, by rw [← hsame.run, hrun]⟩

theorem includesVersion_of_produced {s : State γ} {q : CacheableQuery} {v : Nat} {body : String}
    (hfp : FingerprintsSeparate engine issued) (hq : issued q)
    (hs : (system engine pk full).Reachable (Issues issued) s)
    (h : Produced engine s (snapshotKey q.fingerprint v) body) :
    IncludesVersion engine s q v body := by
  obtain ⟨e, he, rfl, -, hle, hrun⟩ := h.of_query hfp hq (.of_reachable (fun _ _ h => h) hs)
  refine ⟨e.snapshot, hle, hrun, fun m txn hl hlsn => ?_⟩
  by_contra hge
  have := (Dated.of_reachable hs).later e he m txn hl (Nat.le_of_not_lt hge)
  omega

/-- **The first half holds of every query, in every run.** -/
theorem snapshotsIncludeVersion {s : State γ} {q : CacheableQuery}
    (hfp : FingerprintsSeparate engine issued) (hq : issued q)
    (hs : (system engine pk full).Reachable (Issues issued) s) :
    SnapshotsIncludeVersion engine q s := by
  have hp := Provenance.of_reachable hs
  exact ⟨fun v r hr => includesVersion_of_produced hfp hq hs (hp.cache _ _ hr),
    fun v body hb => includesVersion_of_produced hfp hq hs (hp.served _ _ hb)⟩

/-! ## 4. The second half, of queries that read only what they list -/

/-- The commits since an execution whose version is still the query's have not changed the
result: they are all advanced, and none touched a listed table. -/
theorem current_of_execution {s : State γ} {q : CacheableQuery} {e : Execution} {body : String}
    (hread : ReadsOnlyListed engine q) (ho : Ordered pk full s) (hd : Dated s)
    (hpending : s.pending = []) (he : e ∈ s.executions)
    (hversion : s.versions.tableVersion q.tables = e.version) (hle : e.snapshot ≤ s.history.length)
    (hrun : run engine q (s.history.snapshot e.snapshot) = .ok body) :
    run engine q s.history.current = .ok body := by
  have hkeeps : ∀ m, e.snapshot ≤ m → m < s.history.length →
      s.history.Keeps (fun db => (run engine q db).toOption) m := by
    intro m hm hlt
    obtain ⟨txn, hl⟩ := History.exists_label hlt
    obtain ⟨ws, hws, hnext⟩ := ho.writes m txn hl
    have hlsn := hd.later e he m txn hl hm
    have huntouched : ∀ t ∈ q.tables, toAsciiLowercase t ∉ txn.touched := by
      intro t ht htouched
      have := ho.indexed m txn hl (by simp [hpending]) q.tables t ht htouched
      omega
    simp only [History.Keeps, hnext]
    exact hread _ txn ws hws huntouched
  have hcurrent := History.current_eq_of_keeps hle hkeeps
  simp only [hrun, Except.toOption] at hcurrent
  cases hnow : run engine q s.history.current with
  | ok b => simpa [hnow] using hcurrent
  | error e => simp [hnow] at hcurrent

/-- Where a call for `q` that started at version `v` can be, while the database stands still. -/
def Stage.Current (now : Except CacheError String) (v : Nat) : Stage → Prop
  | .keyed v' | .missed v' => v' = v
  | .computed v' body => v' = v ∧ now = .ok body
  | .finished result | .returned result => (result.map fun r => r.2.body) = now

/-- The invariant of a call nothing disturbs. -/
structure Quiet (engine : Engine γ) (pk : List (String × String)) (full : List String)
    (issued : CacheableQuery → Prop) (q : CacheableQuery) (id : Nat) (s₀ s : State γ) : Prop where
  reachable : (system engine pk full).Reachable (Issues issued) s
  history : s.history = s₀.history
  versions : s.versions = s₀.versions
  pending : s.pending = []
  call : ∃ stage, s.calls id = some ⟨q, stage⟩ ∧
    stage.Current (run engine q s₀.history.current) (s₀.version q)

namespace Quiet

variable {q : CacheableQuery} {id : Nat} {s₀ s : State γ}

/-- A call moves on: another one, which leaves this one where it is, or this one, to a stage
it may be at. -/
theorem setCall (h : Quiet engine pk full issued q id s₀ s) {id' : Nat} {q' : CacheableQuery}
    {old : Stage} (new : Stage) (hold : s.calls id' = some ⟨q', old⟩)
    (hnew : q' = q → old.Current (run engine q s₀.history.current) (s₀.version q) →
      new.Current (run engine q s₀.history.current) (s₀.version q)) :
    ∃ stage, (s.setCall id' ⟨q', new⟩).calls id = some ⟨q, stage⟩ ∧
      stage.Current (run engine q s₀.history.current) (s₀.version q) := by
  obtain ⟨stage, hc, hs⟩ := h.call
  rw [State.setCall_calls]
  split
  · rename_i hid
    obtain ⟨rfl, rfl⟩ : q' = q ∧ old = stage := by simpa [← hid, hc] using hold.symm
    exact ⟨new, rfl, hnew rfl hs⟩
  · exact ⟨stage, hc, hs⟩

/-- **While no commit moves, the call only comes closer to the current result.** -/
theorem taken {s' : State γ} {a : Action γ} (hfp : FingerprintsSeparate engine issued)
    (hq : issued q) (hlevel : (VersionIndex.new pk full).anchor q.tables q.eqFilters = none)
    (hread : ReadsOnlyListed engine q) (h : Quiet engine pk full issued q id s₀ s)
    (hok : Issues issued s a) (hcommit : a.isCommit = false) (hs : step engine s a = some s') :
    Quiet engine pk full issued q id s₀ s' := by
  have hr' : (system engine pk full).Reachable (Issues issued) s' :=
    Reachable.next h.reachable hok hs
  have ht := taken_of_step hs
  cases ht with
  | @materialize id' q' hfree =>
    refine ⟨hr', h.history, h.versions, h.pending, ?_⟩
    obtain ⟨stage, hc, hst⟩ := h.call
    have hne : id ≠ id' := by
      rintro rfl
      simp [hc] at hfree
    exact ⟨stage, by rw [State.setCall_calls, if_neg hne, hc], hst⟩
  | @hit id' v q' r hcall hcache =>
    refine ⟨hr', h.history, h.versions, h.pending, h.setCall _ hcall ?_⟩
    rintro rfl hv
    -- the cached body was produced under the version the index still has
    have ho : Ordered pk full s := .of_reachable h.reachable
    have hp : Produced engine s (snapshotKey q'.fingerprint v) r.body :=
      (Provenance.of_reachable h.reachable).cache _ _ hcache
    obtain ⟨e, he, hev, -, hle, hrun⟩ :=
      hp.of_query hfp hq (.of_reachable (fun _ _ h => h) h.reachable)
    have hversion : s.versions.tableVersion q'.tables = e.version := by
      have hanchor := (ho.anchor_eq q'.tables q'.eqFilters).trans hlevel
      rw [← VersionIndex.versionOf_eq_tableVersion hanchor, hev, hv, State.version, h.versions]
    have hnow := current_of_execution hread ho (.of_reachable h.reachable) h.pending he hversion
      hle hrun
    rw [h.history] at hnow
    simp [Stage.Current, hnow, Except.map]
  | miss hcall hcache =>
    exact ⟨hr', h.history, h.versions, h.pending, h.setCall _ hcall fun _ hv => hv⟩
  | @execute id' v q' body hcall hrun =>
    refine ⟨hr', h.history, h.versions, h.pending,
      h.setCall (.computed v body) hcall ?_⟩
    rintro rfl hv
    exact ⟨hv, by rw [← h.history, hrun]⟩
  | @fail id' v q' e hcall hrun =>
    refine ⟨hr', h.history, h.versions, h.pending, h.setCall _ hcall ?_⟩
    rintro rfl -
    simp [Stage.Current, ← h.history, hrun, Except.map]
  | @insert id' v q' body hcall =>
    refine ⟨hr', h.history, h.versions, h.pending, h.setCall
      (.finished (.ok (v, ⟨snapshotKey q'.fingerprint v, body⟩))) hcall ?_⟩
    rintro rfl ⟨-, hbody⟩
    simp [Stage.Current, hbody, Except.map]
  | @reply id' v q' r hcall =>
    exact ⟨hr', h.history, h.versions, h.pending,
      h.setCall (.returned (.ok (v, r))) hcall fun _ hv => hv⟩
  | replyError hcall =>
    exact ⟨hr', h.history, h.versions, h.pending, h.setCall _ hcall fun _ hv => hv⟩
  | cursor | evict => exact ⟨hr', h.history, h.versions, h.pending, h.call⟩
  | apply _ _ | advance _ _ _ => exact absurd hcommit nofun

end Quiet

/-- The second half, of a query that reads only what it lists. -/
theorem currentWhenQuiet {q : CacheableQuery} (hfp : FingerprintsSeparate engine issued)
    (hq : issued q) (hlevel : (VersionIndex.new pk full).anchor q.tables q.eqFilters = none)
    (hread : ReadsOnlyListed engine q) : CurrentWhenQuiet engine pk full issued q := by
  intro s s₁ s₂ id hs hpending hstart hleads result hresult
  have hstart' : Quiet engine pk full issued q id s₁ s₁ := by
    have hr₁ : (system engine pk full).Reachable (Issues issued) s₁ :=
      Reachable.next (a := .materialize id q) hs hq hstart
    cases taken_of_step hstart with
    | materialize hfree =>
      exact ⟨hr₁, rfl, rfl, hpending, .keyed (s.version q), by simp [State.setCall_calls], rfl⟩
  have hend : Quiet engine pk full issued q id s₁ s₂ :=
    Leads.invariant hleads hstart' fun t a t' hq' hok ht =>
      hq'.taken hfp hq hlevel hread hok.1 hok.2 ht
  obtain ⟨stage, hc, hst⟩ := hend.call
  obtain rfl : stage = .returned result := by simpa [hresult] using hc.symm
  rw [hend.history]
  exact hst

/-! ## 5. Queries with a hidden table -/

/-- Writing back what was there before undoes a transaction's writes. -/
theorem write_restore (db : Database γ) (ws : Writes γ) :
    (db.write ws).write (ws.map fun w => (w.1, db w.1)) = db := by
  funext t
  by_cases ht : t ∈ ws.map Prod.fst
  · have hl : (ws.map fun w => (w.1, db w.1)).lookup t = some (db t) := by
      induction ws with
      | nil => simp at ht
      | cons w ws ih =>
        by_cases hw : t = w.1
        · subst hw
          simp
        · have hb : (t == w.1) = false := by simpa using hw
          rw [List.map_cons, List.lookup_cons, hb]
          exact ih (by simpa [hw] using ht)
    rw [Database.write, hl, Option.getD_some]
  · rw [Database.write_of_notMem (by simpa using ht), Database.write_of_notMem ht]

/-- A call misses, runs and stores, then a transaction goes through both its phases. -/
def fillThenCommit (q : CacheableQuery) (txn : CommittedTransaction) (ws : Writes γ) :
    List (Action γ) :=
  [.materialize 0 q, .lookup 0, .execute 0, .insert 0, .apply txn ws, .advance 0]

/-- After it, the body stands in the cache under the version the query still has, if the
transaction touched no listed table. -/
theorem run_fillThenCommit {q : CacheableQuery} (txn : CommittedTransaction) {ws : Writes γ}
    {db : Database γ} {body : String}
    (hlevel : (VersionIndex.new pk full).anchor q.tables q.eqFilters = none)
    (hlsn : 0 < txn.endLsn) (hws : ∀ w ∈ ws, w.1 ∈ txn.touched)
    (huntouched : ∀ t ∈ q.tables, toAsciiLowercase t ∉ txn.touched)
    (hrun : run engine q db = .ok body) :
    ∃ s, (system engine pk full).run (State.start pk full db) (fillThenCommit q txn ws) = some s ∧
      s.pending = [] ∧ s.calls 1 = none ∧ s.history.current = db.write ws ∧
      s.cache (snapshotKey q.fingerprint (s.version q)) =
        some ⟨snapshotKey q.fingerprint (s.version q), body⟩ := by
  have hnow : run engine q (History.current (κ := CommittedTransaction) ⟨db, []⟩) = .ok body := hrun
  have hversion : (((VersionIndex.new pk full).advance txn).versionOf q.tables q.eqFilters) =
      (VersionIndex.new pk full).versionOf q.tables q.eqFilters := by
    rw [VersionIndex.versionOf_eq_tableVersion hlevel, VersionIndex.versionOf_eq_tableVersion
      (by rw [VersionIndex.advance_anchor, hlevel])]
    exact VersionIndex.tableVersion_advance_of_disjoint huntouched
  have happly : 0 < txn.endLsn ∧ ∀ w ∈ ws, w.1 ∈ txn.touched := ⟨hlsn, hws⟩
  simp only [fillThenCommit, System.run, system, step, State.start, State.setCall,
    Function.update_self, Option.bind_some, hnow, if_pos happly]
  simp [State.endLsn, History.label, History.commit, State.version, hversion, History.current,
    History.snapshot, History.length]

/-- **A query whose call replies the current result reads only what it lists.** -/
theorem ok_of_currentWhenQuiet {q : CacheableQuery} (hq : issued q)
    (hlevel : (VersionIndex.new pk full).anchor q.tables q.eqFilters = none)
    (h : CurrentWhenQuiet engine pk full issued q) (db : Database γ)
    (txn : CommittedTransaction) (ws : Writes γ) {body : String}
    (hws : ∀ w ∈ ws, w.1 ∈ txn.touched)
    (huntouched : ∀ t ∈ q.tables, toAsciiLowercase t ∉ txn.touched)
    (hrun : run engine q db = .ok body) : run engine q (db.write ws) = .ok body := by
  obtain ⟨s, hs, hpending, hfree, hcurrent, hcache⟩ :=
    run_fillThenCommit { txn with endLsn := 1 } hlevel Nat.one_pos hws huntouched hrun
  have hreach : (system engine pk full).Reachable (Issues issued) s := by
    refine reachable_of_run (fresh_start pk full db) (along_of_forall fun a ha t => ?_) hs
    cases a with
    | materialize id q' =>
      obtain ⟨-, rfl⟩ : id = 0 ∧ q' = q := by simpa [fillThenCommit] using ha
      exact hq
    | _ => trivial
  -- the second call finds the body of the first
  let s₁ := s.setCall 1 ⟨q, .keyed (s.version q)⟩
  have hstart : step engine s (.materialize 1 q) = some s₁ := by simp only [step, hfree, s₁]
  have hend : (system engine pk full).run s₁ [.lookup 1, .reply 1] = some
      { s₁.setCall 1 ⟨q, .returned (.ok (s.version q, ⟨snapshotKey q.fingerprint (s.version q),
          body⟩))⟩ with
        served := s.served ++ [(snapshotKey q.fingerprint (s.version q), body)] } := by
    simp [System.run, system, step, s₁, State.setCall, hcache]
  have hquiet : ∀ a ∈ [Action.lookup 1, .reply 1], ∀ t : State γ,
      Issues issued t a ∧ a.isCommit = false := by
    intro a ha t
    rcases List.mem_cons.mp ha with rfl | ha
    · exact ⟨trivial, rfl⟩
    · obtain rfl := List.mem_singleton.mp ha
      exact ⟨trivial, rfl⟩
  have hleads := leads_of_run (along_of_forall hquiet) hend
  have hresult := h s s₁ _ 1 hreach hpending hstart hleads
    (.ok (s.version q, ⟨snapshotKey q.fingerprint (s.version q), body⟩))
    (by simp [State.setCall_calls])
  rw [← hcurrent]
  exact hresult.symm

/-- **A snapshot is never older than its version, and a call nothing disturbs replies the
current result, exactly for the queries whose result no transaction can change without
touching a listed table.**  The first half holds of every query. -/
theorem snapshot_current_iff {q : CacheableQuery} (hfp : FingerprintsSeparate engine issued)
    (hq : issued q) (hlevel : (VersionIndex.new pk full).anchor q.tables q.eqFilters = none) :
    ((∀ s, (system engine pk full).Reachable (Issues issued) s →
        SnapshotsIncludeVersion engine q s) ∧ CurrentWhenQuiet engine pk full issued q) ↔
      ReadsOnlyListed engine q := by
  constructor
  · rintro ⟨-, h⟩ db txn ws hws huntouched
    cases hdb : run engine q db with
    | ok b => rw [ok_of_currentWhenQuiet hq hlevel h db txn ws hws huntouched hdb]
    | error e =>
      cases hdb' : run engine q (db.write ws) with
      | ok b =>
        -- the same transaction, undoing the writes
        have hback := ok_of_currentWhenQuiet hq hlevel h (db.write ws) txn
          (ws.map fun w => (w.1, db w.1)) (by
            intro w hw
            obtain ⟨w', hw', rfl⟩ := List.mem_map.mp hw
            exact hws w' hw') huntouched hdb'
        rw [write_restore, hdb] at hback
        exact absurd hback nofun
      | error e' => rfl
  · intro hread
    exact ⟨fun s hs => snapshotsIncludeVersion hfp hq hs, currentWhenQuiet hfp hq hlevel hread⟩

end Runs

/-! ## 6. Two reads -/

/-- An engine on which a table's contents are its rows as `json`, and the one statement asked
returns the rows of `table`. -/
def rowsOf (table : String) : Engine String := ⟨fun _ _ _ db => .ok [some (db table)]⟩

/-- A read of a table returns what the table holds. -/
theorem run_rowsOf (table : String) (q : CacheableQuery) (db : Database String) :
    run (rowsOf table) q db = .ok (db table) := rfl

/-- One query is asked. -/
def Only (query : CacheableQuery) : CacheableQuery → Prop := fun q => q = query

/-- One row of `users` or `secret`. -/
def oneRow : String := "[\x7b\"id\": 1\x7d]"

/-- Every run of a server that is asked `SELECT * FROM users`, on which `id` is the key. -/
theorem users_snapshot_current :
    (∀ s, (system (rowsOf "users") [("users", "id")] []).Reachable (Issues (Only usersRead)) s →
      SnapshotsIncludeVersion (rowsOf "users") usersRead s) ∧
    CurrentWhenQuiet (rowsOf "users") [("users", "id")] [] (Only usersRead) usersRead := by
  have hfp : FingerprintsSeparate (rowsOf "users") (Only usersRead) := by
    rintro q q' rfl rfl -
    exact ⟨rfl, rfl, fun _ => rfl⟩
  have hlevel : (VersionIndex.new [("users", "id")] []).anchor usersRead.tables
      usersRead.eqFilters = none := by rfl
  have hread : ReadsOnlyListed (rowsOf "users") usersRead := by
    intro db txn ws hws huntouched
    have hlower : toAsciiLowercase "users" = "users" := by decide
    have huntouched := huntouched "users" (by decide)
    rw [hlower] at huntouched
    have hkept : db.write ws "users" = db "users" := Database.write_of_notMem fun hmem => by
      obtain ⟨w, hw, hname⟩ := List.mem_map.mp hmem
      exact huntouched (hname ▸ hws w hw)
    rw [run_rowsOf, run_rowsOf, hkept]
  have hasked : Only usersRead usersRead := rfl
  exact (snapshot_current_iff hfp hasked hlevel).mpr hread

/-- **A hidden table freezes its first result.**  The list of the read is empty, so its
version stays `0`; after the table has gained a row, with nothing pending, the read still
replies the empty body. -/
theorem hidden_table_stays_stale :
    (ReadClassifier.new ["secret"]).classify shadowCrates shadowSql [] = .ok shadowRead ∧
      (VersionIndex.new [("secret", "id")] []).anchor shadowRead.tables shadowRead.eqFilters =
        none ∧
      ¬ CurrentWhenQuiet (rowsOf "secret") [("secret", "id")] [] (Only shadowRead) shadowRead := by
  have hlevel : (VersionIndex.new [("secret", "id")] []).anchor shadowRead.tables
      shadowRead.eqFilters = none := by rfl
  refine ⟨by rfl, hlevel, fun h => ?_⟩
  have hasked : Only shadowRead shadowRead := rfl
  have hempty : run (rowsOf "secret") shadowRead (fun _ => "[]") = .ok "[]" := rfl
  have hstale := ok_of_currentWhenQuiet hasked hlevel h (fun _ => "[]")
    ⟨7, 1, [.insert "secret" [("id", some "1")]]⟩ [("secret", oneRow)] (by decide) (by decide)
    hempty
  exact absurd hstale (by decide)

end PgPaw.Read
