/-
# Cursors across restarts

A process hands out cursors that are cached outside it for three days.  A restart keeps the
data directory and rebuilds the read core: the `VersionIndex` starts from its default state,
the cache is empty, and an embedded primary counts its LSNs from `0` again.  So the index
forgets what it heard of, and the version of a query falls back to one it had before.

Here commits and `materialize` calls are complete steps, and runs go through any number of
restarts.  One commit may reach the index as several transactions: an embedded primary
publishes one for each table a statement wrote (`observeAll`).  `versions_not_reused` says
which runs are safe: those in which the index hears of every commit that changes the result of
a query asked before, and no restart comes after it heard of one.
-/
import PgPaw.Capability.SnapshotAge

namespace PgPaw.Restart

open Transition Read

variable {γ : Type} {engine : Engine γ}

/-! ## 1. The state -/

/-- What a `materialize` call returned, with the number of commits made before it. -/
structure Returned where
  query : CacheableQuery
  hash : String
  version : Nat
  snapshot : Nat

/-- The data directory, with everything ever committed to it, and the process on it. -/
structure State (γ : Type) where
  history : History (Database γ) (List CommittedTransaction)
  /-- The number of commits made before the process started. -/
  startedAt : Nat
  /-- The LSN of the last transaction the process advanced. -/
  advancedTo : Nat
  versions : VersionIndex
  cache : String → Option CachedResult
  /-- What all processes so far have returned. -/
  returned : List Returned

inductive Action (γ : Type)
  | commit (txns : List CommittedTransaction) (writes : Writes γ)
  | materialize (query : CacheableQuery)
  | restart (pk : List (String × String)) (full : List String)

/-- The transactions come in LSN order, after `lsn`. -/
def ascending : Nat → List CommittedTransaction → Bool
  | _, [] => true
  | lsn, txn :: txns => lsn < txn.endLsn && ascending txn.endLsn txns

/-- The LSN of the last of them. -/
def lastLsn : Nat → List CommittedTransaction → Nat
  | lsn, [] => lsn
  | _, txn :: txns => lastLsn txn.endLsn txns

/-- `advance`, for each of them. -/
def advanceAll (versions : VersionIndex) (txns : List CommittedTransaction) : VersionIndex :=
  txns.foldl VersionIndex.advance versions

/-- The tables they touch. -/
def touchedBy (txns : List CommittedTransaction) : List String :=
  txns.flatMap CommittedTransaction.touched

/-- The callback of `PrimaryObserver::start`, over the notifications of one transaction:
`security_version.fetch_add(1) + 1` is the LSN, the change is a truncation. -/
def observeAll (securityVersion xid : Nat) : List String → List CommittedTransaction
  | [] => []
  | table :: tables =>
    ⟨xid, securityVersion + 1, [.truncate table]⟩ :: observeAll (securityVersion + 1) xid tables

/-- An embedded primary publishes in LSN order. -/
theorem ascending_observeAll (xid : Nat) : ∀ (tables : List String) (securityVersion : Nat),
    ascending securityVersion (observeAll securityVersion xid tables) = true
  | [], _ => rfl
  | _ :: tables, n => by simp [observeAll, ascending, ascending_observeAll xid tables (n + 1)]

/-! ## 2. The steps -/

/-- `ReadOperations::materialize`, from start to end. -/
def materialize (engine : Engine γ) (s : State γ) (q : CacheableQuery) :
    Except CacheError (String × Nat × CachedResult) × State γ :=
  let hash := lowerHex q.fingerprint
  let version := s.versions.versionOf q.tables q.eqFilters
  let key := cacheKey hash (decimal version)
  match s.cache key with
  | some hit => (.ok (hash, version, hit), s)
  | none => match run engine q s.history.current with
    | .error e => (.error e, s)
    | .ok body =>
      let result : CachedResult := ⟨key, body⟩
      (.ok (hash, version, result),
        { s with cache := Function.update s.cache key (some result) })

/-- The log of what was returned. -/
def State.record (s : State γ) (q : CacheableQuery) :
    Except CacheError (String × Nat × CachedResult) → State γ
  | .ok (hash, version, _) =>
    { s with returned := s.returned ++ [⟨q, hash, version, s.history.length⟩] }
  | .error _ => s

/-- `build_primary_core`, on the data directory as it is: only the data is kept. -/
def restart (s : State γ) (pk : List (String × String)) (full : List String) : State γ where
  history := s.history
  startedAt := s.history.length
  advancedTo := 0
  versions := .new pk full
  cache _ := none
  returned := s.returned

def step (engine : Engine γ) (s : State γ) : Action γ → Option (State γ)
  | .commit txns writes =>
    if ascending s.advancedTo txns ∧ ∀ w ∈ writes, w.1 ∈ touchedBy txns then
      some { s with
        history := s.history.commit txns (s.history.current.write writes)
        advancedTo := lastLsn s.advancedTo txns
        versions := advanceAll s.versions txns }
    else none
  | .materialize q =>
    let (result, s') := materialize engine s q
    some (s'.record q result)
  | .restart pk full => some (restart s pk full)

/-- The first process starts on any database. -/
structure Fresh (s : State γ) : Prop where
  log : s.history.log = []
  startedAt : s.startedAt = 0
  advancedTo : s.advancedTo = 0
  versions : ∃ pk full, s.versions = .new pk full
  returned : s.returned = []

def system (engine : Engine γ) : System (State γ) (Action γ) where
  init := Fresh
  step := step engine

/-- A first process on a database. -/
def State.start (pk : List (String × String)) (full : List String) (db : Database γ) : State γ where
  history := ⟨db, []⟩
  startedAt := 0
  advancedTo := 0
  versions := .new pk full
  cache _ := none
  returned := []

theorem fresh_start (pk : List (String × String)) (full : List String) (db : Database γ) :
    Fresh (State.start pk full db) := ⟨rfl, rfl, rfl, ⟨pk, full, rfl⟩, rfl⟩

/-- `version_of` for a query. -/
def State.version (s : State γ) (q : CacheableQuery) : Nat :=
  s.versions.versionOf q.tables q.eqFilters

/-- Whether the version of a query moves with a commit. -/
def State.hears (s : State γ) (txns : List CommittedTransaction) (q : CacheableQuery) : Bool :=
  txns.any fun txn => s.versions.hears txn q.tables q.eqFilters

/-! ## 3. The index over several transactions -/

section AdvanceAll

variable {versions : VersionIndex} {lsn : Nat}

theorem advanceAll_bounded : ∀ (txns : List CommittedTransaction) {versions : VersionIndex}
    {lsn : Nat}, versions.BoundedBy lsn → ascending lsn txns = true →
      (advanceAll versions txns).BoundedBy (lastLsn lsn txns)
  | [], _, _, h, _ => h
  | txn :: txns, versions, lsn, h, ha => by
    simp only [ascending, Bool.and_eq_true, decide_eq_true_eq] at ha
    exact advanceAll_bounded txns (h.advance (Nat.le_of_lt ha.1)) ha.2

theorem versionOf_le_advanceAll (tables : List String) (eqFilters : List (String × String)) :
    ∀ (txns : List CommittedTransaction) {versions : VersionIndex} {lsn : Nat},
      versions.BoundedBy lsn → ascending lsn txns = true →
        versions.versionOf tables eqFilters ≤ (advanceAll versions txns).versionOf tables eqFilters
  | [], _, _, _, _ => Nat.le_refl _
  | txn :: txns, versions, lsn, h, ha => by
    simp only [ascending, Bool.and_eq_true, decide_eq_true_eq] at ha
    have hle := Nat.le_of_lt ha.1
    exact (h.versionOf_le_advance hle tables eqFilters).trans
      (versionOf_le_advanceAll tables eqFilters txns (h.advance hle) ha.2)

/-- A commit the query hears of moves its version beyond everything before. -/
theorem lt_versionOf_advanceAll (tables : List String) (eqFilters : List (String × String)) :
    ∀ (txns : List CommittedTransaction) {versions : VersionIndex} {lsn : Nat},
      versions.BoundedBy lsn → ascending lsn txns = true →
        (∃ txn ∈ txns, versions.hears txn tables eqFilters = true) →
          lsn < (advanceAll versions txns).versionOf tables eqFilters
  | [], _, _, _, _, hh => by simp at hh
  | txn :: txns, versions, lsn, h, ha, hh => by
    simp only [ascending, Bool.and_eq_true, decide_eq_true_eq] at ha
    have hle := Nat.le_of_lt ha.1
    have hb := h.advance hle
    by_cases htxn : versions.hears txn tables eqFilters = true
    · have hnow := versionOf_le_advanceAll tables eqFilters txns hb ha.2
      rw [VersionIndex.versionOf_advance h hle, if_pos htxn] at hnow
      exact Nat.lt_of_lt_of_le ha.1 hnow
    · obtain ⟨txn', hmem, hhears⟩ := hh
      have hlater : ∃ t ∈ txns, (versions.advance txn).hears t tables eqFilters = true := by
        rcases List.mem_cons.mp hmem with rfl | hmem
        · exact absurd hhears htxn
        · exact ⟨txn', hmem, by rw [VersionIndex.advance_hears, hhears]⟩
      exact ha.1.trans (lt_versionOf_advanceAll tables eqFilters txns hb ha.2 hlater)

/-- A commit the query does not hear of leaves its version. -/
theorem versionOf_advanceAll_of_unheard (tables : List String)
    (eqFilters : List (String × String)) :
    ∀ (txns : List CommittedTransaction) {versions : VersionIndex} {lsn : Nat},
      versions.BoundedBy lsn → ascending lsn txns = true →
        (∀ txn ∈ txns, versions.hears txn tables eqFilters = false) →
          (advanceAll versions txns).versionOf tables eqFilters =
            versions.versionOf tables eqFilters
  | [], _, _, _, _, _ => rfl
  | txn :: txns, versions, lsn, h, ha, hh => by
    simp only [ascending, Bool.and_eq_true, decide_eq_true_eq] at ha
    have hle := Nat.le_of_lt ha.1
    have hrest := versionOf_advanceAll_of_unheard tables eqFilters txns (h.advance hle) ha.2
      fun t ht => by
        rw [VersionIndex.advance_hears]
        exact hh t (List.mem_cons_of_mem _ ht)
    rw [VersionIndex.versionOf_advance h hle, hh txn (by simp)] at hrest
    exact hrest

@[simp] theorem hears_advanceAll (txn : CommittedTransaction) (tables : List String)
    (eqFilters : List (String × String)) : ∀ (txns : List CommittedTransaction)
    (versions : VersionIndex),
      (advanceAll versions txns).hears txn tables eqFilters = versions.hears txn tables eqFilters
  | [], _ => rfl
  | t :: ts, versions => (hears_advanceAll txn tables eqFilters ts (versions.advance t)).trans
      (VersionIndex.advance_hears versions t txn tables eqFilters)

end AdvanceAll

/-! ## 4. The condition and the property -/

/-- **The condition on a step.**  A commit that changes the result of a query asked before is
one its version hears of; and a restart comes only while the process has heard of no commit
for any query asked before. -/
def Kept (engine : Engine γ) (issued : CacheableQuery → Prop) (s : State γ) : Action γ → Prop
  | .commit txns writes => ∀ r ∈ s.returned, s.hears txns r.query = false →
      run engine r.query (s.history.current.write writes) = run engine r.query s.history.current
  | .materialize q => issued q
  | .restart _ _ => ∀ r ∈ s.returned, ∀ m txns, s.startedAt ≤ m →
      s.history.label m = some txns → s.hears txns r.query = false

/-- **Calls that returned one `(hash, version)` were made on one result.** -/
def NoReuse (engine : Engine γ) (s : State γ) : Prop :=
  ∀ r ∈ s.returned, ∀ r' ∈ s.returned, r.hash = r'.hash → r.version = r'.version →
    run engine r.query (s.history.snapshot r.snapshot) =
      run engine r'.query (s.history.snapshot r'.snapshot)

/-- What a returned version still says: it is not beyond the present one, and as long as it is
the present one the result has not changed since. -/
structure Current (engine : Engine γ) (s : State γ) (r : Returned) : Prop where
  snapshot : r.snapshot ≤ s.history.length
  version : r.version ≤ s.version r.query
  result : (∀ m, r.snapshot ≤ m → m < s.history.length → s.history.Keeps (run engine r.query) m) ∨
    r.version < s.version r.query

/-- The index has what the process advanced, and nothing else. -/
structure Indexed (s : State γ) : Prop where
  started : s.startedAt ≤ s.history.length
  bounded : s.versions.BoundedBy s.advancedTo
  unheard : ∀ q : CacheableQuery, (∀ m txns, s.startedAt ≤ m → s.history.label m = some txns →
    s.hears txns q = false) → s.version q = 0

/-- The invariant of the runs that meet the condition. -/
structure Inv (engine : Engine γ) (issued : CacheableQuery → Prop) (s : State γ) : Prop where
  indexed : Indexed s
  issued : ∀ r ∈ s.returned, issued r.query
  hash : ∀ r ∈ s.returned, r.hash = lowerHex r.query.fingerprint
  current : ∀ r ∈ s.returned, Current engine s r
  noReuse : NoReuse engine s

/-! ## 5. Every step keeps it -/

section Steps

variable {issued : CacheableQuery → Prop} {s : State γ}

/-- A fresh index gives every query version `0`. -/
theorem versionOf_new (pk : List (String × String)) (full : List String) (tables : List String)
    (eqFilters : List (String × String)) :
    (VersionIndex.new pk full).versionOf tables eqFilters = 0 :=
  Nat.le_zero.mp ((VersionIndex.BoundedBy.new pk full).versionOf_le tables eqFilters)

theorem Indexed.commit {txns : List CommittedTransaction} {ws : Writes γ} (h : Indexed s)
    (hlsn : ascending s.advancedTo txns = true) : Indexed { s with
      history := s.history.commit txns (s.history.current.write ws)
      advancedTo := lastLsn s.advancedTo txns
      versions := advanceAll s.versions txns } where
  started := by
    rw [History.length_commit]
    exact Nat.le_succ_of_le h.started
  bounded := advanceAll_bounded txns h.bounded hlsn
  unheard q hq := by
    have hlabel : ∀ m txns', s.startedAt ≤ m → s.history.label m = some txns' →
        s.hears txns' q = false := by
      intro m txns' hm hl
      have hlt := History.lt_length_of_label hl
      have := hq m txns' hm (by rw [History.label_commit _ _ _ hlt, hl])
      simpa [State.hears] using this
    have hnew : s.hears txns q = false := by
      have := hq s.history.length txns h.started (History.label_commit_self _ _ _)
      simpa [State.hears] using this
    have hall : ∀ txn ∈ txns, s.versions.hears txn q.tables q.eqFilters = false := by
      simpa [State.hears] using hnew
    have := versionOf_advanceAll_of_unheard q.tables q.eqFilters txns h.bounded hlsn hall
    exact this.trans (h.unheard q hlabel)

/-- A commit: what was returned stays current, or its version is left behind. -/
theorem Current.commit {r : Returned} {txns : List CommittedTransaction} {ws : Writes γ}
    (hi : Indexed s) (h : Current engine s r) (hlsn : ascending s.advancedTo txns = true)
    (hok : s.hears txns r.query = false →
      run engine r.query (s.history.current.write ws) = run engine r.query s.history.current) :
    Current engine { s with
      history := s.history.commit txns (s.history.current.write ws)
      advancedTo := lastLsn s.advancedTo txns
      versions := advanceAll s.versions txns } r := by
  have hmono : s.version r.query ≤ (advanceAll s.versions txns).versionOf r.query.tables
      r.query.eqFilters := versionOf_le_advanceAll _ _ txns hi.bounded hlsn
  refine ⟨?_, h.version.trans hmono, ?_⟩
  · rw [History.length_commit]
    exact Nat.le_succ_of_le h.snapshot
  by_cases hheard : s.hears txns r.query = true
  · refine Or.inr (Nat.lt_of_le_of_lt (h.version.trans (hi.bounded.versionOf_le _ _)) ?_)
    refine lt_versionOf_advanceAll _ _ txns hi.bounded hlsn ?_
    simpa [State.hears] using hheard
  · rcases h.result with hkeeps | hlt
    · refine Or.inl ?_
      intro m hle hm
      rw [History.length_commit] at hm
      rcases Nat.lt_succ_iff_lt_or_eq.mp hm with hm | rfl
      · exact (History.keeps_commit _ _ hm).mpr (hkeeps m hle hm)
      · exact (History.keeps_commit_self _ _).mpr (hok (by simpa using hheard))
    · exact Or.inr (Nat.lt_of_lt_of_le hlt hmono)

theorem NoReuse.commit {txns : List CommittedTransaction} {ws : Writes γ} (h : NoReuse engine s)
    (hc : ∀ r ∈ s.returned, Current engine s r) : NoReuse engine { s with
      history := s.history.commit txns (s.history.current.write ws)
      advancedTo := lastLsn s.advancedTo txns
      versions := advanceAll s.versions txns } := by
  intro r hr r' hr' hhash hversion
  rw [History.snapshot_commit _ _ _ (hc r hr).snapshot,
    History.snapshot_commit _ _ _ (hc r' hr').snapshot]
  exact h r hr r' hr' hhash hversion

/-- A restart before anything relevant was heard of. -/
theorem Current.restart {r : Returned} {pk : List (String × String)} {full : List String}
    (hi : Indexed s) (h : Current engine s r)
    (hok : ∀ m txns, s.startedAt ≤ m → s.history.label m = some txns →
      s.hears txns r.query = false) : Current engine (restart s pk full) r := by
  have hzero := hi.unheard r.query hok
  have hversion := h.version
  refine ⟨h.snapshot, by omega, Or.inl ?_⟩
  rcases h.result with hkeeps | hlt
  · exact hkeeps
  · omega

variable (engine s) in
/-- What `materialize` returns and leaves. -/
theorem materialize_record (q : CacheableQuery) :
    let s' := (materialize engine s q).2.record q (materialize engine s q).1
    s'.history = s.history ∧ s'.startedAt = s.startedAt ∧ s'.advancedTo = s.advancedTo ∧
      s'.versions = s.versions ∧ (s'.returned = s.returned ∨ s'.returned =
        s.returned ++ [⟨q, lowerHex q.fingerprint, s.version q, s.history.length⟩]) := by
  simp only [materialize]
  split
  · exact ⟨rfl, rfl, rfl, rfl, Or.inr rfl⟩
  · split
    · exact ⟨rfl, rfl, rfl, rfl, Or.inl rfl⟩
    · exact ⟨rfl, rfl, rfl, rfl, Or.inr rfl⟩

/-- A state that differs in its cache only. -/
theorem Inv.of_eq {s' : State γ} (h : Inv engine issued s) (hh : s'.history = s.history)
    (hs : s'.startedAt = s.startedAt) (ha : s'.advancedTo = s.advancedTo)
    (hv : s'.versions = s.versions) (hr : s'.returned = s.returned) : Inv engine issued s' := by
  obtain ⟨history, startedAt, advancedTo, versions, cache, returned⟩ := s'
  obtain rfl : history = s.history := hh
  obtain rfl : startedAt = s.startedAt := hs
  obtain rfl : advancedTo = s.advancedTo := ha
  obtain rfl : versions = s.versions := hv
  obtain rfl : returned = s.returned := hr
  exact ⟨⟨h.indexed.started, h.indexed.bounded, h.indexed.unheard⟩, h.issued, h.hash,
    fun r hr => ⟨(h.current r hr).snapshot, (h.current r hr).version, (h.current r hr).result⟩,
    h.noReuse⟩

/-- A call whose `(hash, version)` was returned before is made on the result of that time. -/
theorem run_eq_of_returned {q : CacheableQuery} {r : Returned}
    (hfp : FingerprintsSeparate engine issued) (hq : issued q) (h : Inv engine issued s)
    (hr : r ∈ s.returned) (hhash : r.hash = lowerHex q.fingerprint)
    (hversion : r.version = s.version q) :
    run engine r.query (s.history.snapshot r.snapshot) = run engine q s.history.current := by
  have hfingerprint : r.query.fingerprint = q.fingerprint := by
    rw [h.hash r hr, lowerHex, lowerHex, String.ofList_inj] at hhash
    exact toDigits_inj (by decide) (by decide) hhash
  have hsame := hfp r.query q (h.issued r hr) hq hfingerprint
  have hpresent : s.version r.query = s.version q := by
    simp only [State.version, hsame.tables, hsame.eqFilters]
  have hc := h.current r hr
  rcases hc.result with hkeeps | hlt
  · rw [← hsame.run, History.current_eq_of_keeps hc.snapshot hkeeps]
  · omega

/-- One more call has returned. -/
theorem Inv.record {q : CacheableQuery} (hfp : FingerprintsSeparate engine issued)
    (hq : issued q) (h : Inv engine issued s) : Inv engine issued { s with
      returned := s.returned ++
        [⟨q, lowerHex q.fingerprint, s.version q, s.history.length⟩] } where
  indexed := ⟨h.indexed.started, h.indexed.bounded, h.indexed.unheard⟩
  issued r hr := by
    rcases List.mem_append.mp hr with hr | hr
    · exact h.issued r hr
    · rw [List.mem_singleton.mp hr]
      exact hq
  hash r hr := by
    rcases List.mem_append.mp hr with hr | hr
    · exact h.hash r hr
    · rw [List.mem_singleton.mp hr]
  current r hr := by
    rcases List.mem_append.mp hr with hr | hr
    · exact ⟨(h.current r hr).snapshot, (h.current r hr).version, (h.current r hr).result⟩
    · rw [List.mem_singleton.mp hr]
      exact ⟨Nat.le_refl _, Nat.le_refl _, Or.inl fun m hle hlt => absurd hlt (Nat.not_lt.mpr hle)⟩
  noReuse r hr r' hr' hhash hversion := by
    rcases List.mem_append.mp hr with hr | hr <;> rcases List.mem_append.mp hr' with hr' | hr'
    · exact h.noReuse r hr r' hr' hhash hversion
    · obtain rfl := List.mem_singleton.mp hr'
      have hsame := run_eq_of_returned hfp hq h hr hhash hversion
      exact hsame
    · obtain rfl := List.mem_singleton.mp hr
      have hsame := run_eq_of_returned hfp hq h hr' hhash.symm hversion.symm
      exact hsame.symm
    · rw [List.mem_singleton.mp hr, List.mem_singleton.mp hr']

/-- **Every step that meets the condition keeps the invariant.** -/
theorem Inv.step {s' : State γ} {a : Action γ} (hfp : FingerprintsSeparate engine issued)
    (h : Inv engine issued s) (hok : Kept engine issued s a)
    (hs : Restart.step engine s a = some s') : Inv engine issued s' := by
  cases a with
  | commit txns ws =>
    simp only [Restart.step] at hs
    split at hs
    · rename_i hc
      obtain rfl := Option.some.inj hs
      exact ⟨h.indexed.commit hc.1, h.issued, h.hash,
        fun r hr => (h.current r hr).commit h.indexed hc.1 (hok r hr), h.noReuse.commit h.current⟩
    · exact absurd hs nofun
  | materialize q =>
    obtain rfl := Option.some.inj hs
    obtain ⟨hh, hst, ha, hv, hr | hr⟩ := materialize_record engine s q
    · exact h.of_eq hh hst ha hv hr
    · exact (h.record hfp hok).of_eq hh hst ha hv hr
  | restart pk full =>
    obtain rfl := Option.some.inj hs
    refine ⟨⟨Nat.le_refl _, .new pk full, fun q _ => versionOf_new pk full _ _⟩, h.issued, h.hash,
      fun r hr => (h.current r hr).restart h.indexed (hok r hr), h.noReuse⟩

theorem inv_of_reachable (hfp : FingerprintsSeparate engine issued)
    (h : (system engine).Reachable (Kept engine issued) s) : Inv engine issued s := by
  refine Reachable.induction (P := Inv engine issued) (fun s h0 => ?_)
    (fun s a s' _ ih hok hs => ih.step hfp hok hs) h
  obtain ⟨pk, full, hv⟩ := h0.versions
  refine ⟨⟨?_, ?_, fun q _ => ?_⟩, ?_, ?_, ?_, ?_⟩
  · rw [h0.startedAt]
    exact Nat.zero_le _
  · rw [hv, h0.advancedTo]
    exact .new pk full
  · rw [State.version, hv]
    exact versionOf_new pk full _ _
  all_goals
    intro r hr
    simp [h0.returned] at hr

/-- **A returned `(hash, version)` is not reused for another result, in every run in which the
index hears of the commits that change a result asked for, and is not thrown away after.** -/
theorem versions_not_reused (hfp : FingerprintsSeparate engine issued)
    (h : (system engine).Reachable (Kept engine issued) s) : NoReuse engine s :=
  (inv_of_reachable hfp h).noReuse

end Steps

/-! ## 6. Two runs of an embedded primary -/

/-- A primary with one table, `users`, empty. -/
def usersPrimary : State String := State.start [("users", "id")] [] fun _ => "[]"

/-- A statement inserts the first row of `users`. -/
def insertRow (securityVersion : Nat) : Action String :=
  .commit (observeAll securityVersion 7 ["users"]) [("users", oneRow)]

/-- The query is asked before a restart and after it, with a commit to another table between, and
once more after a row is inserted. -/
def askOnBothSides : List (Action String) :=
  [.materialize usersRead, .commit (observeAll 0 6 ["orders"]) [("orders", oneRow)],
    .restart [("users", "id")] [], .materialize usersRead, insertRow 0, .materialize usersRead]

theorem versions_of_askOnBothSides :
    ∃ s, (system (rowsOf "users")).run usersPrimary askOnBothSides = some s ∧
      s.returned.map (fun r => (r.version, r.snapshot)) = [(0, 0), (0, 1), (1, 2)] ∧
      NoReuse (rowsOf "users") s := by
  have hfp : FingerprintsSeparate (rowsOf "users") (Only usersRead) := by
    rintro q q' rfl rfl -
    exact ⟨rfl, rfl, fun _ => rfl⟩
  have hok : (system (rowsOf "users")).Along (Kept (rowsOf "users") (Only usersRead))
      usersPrimary askOnBothSides := by
    refine ⟨rfl, ?_, ?_, rfl, ?_, rfl, trivial⟩
    · intro r hr _
      obtain rfl := List.mem_singleton.mp hr
      rfl
    · -- the process has heard of nothing but the commit to the other table
      intro r hr m txns _ hl
      obtain rfl := List.mem_singleton.mp hr
      cases m with
      | zero =>
        obtain rfl := Option.some.inj hl
        rfl
      | succ m => cases hl
    · intro r hr hunheard
      have hquery : r.query = usersRead := by
        rcases List.mem_cons.mp hr with rfl | hr
        · rfl
        · obtain rfl := List.mem_singleton.mp hr
          rfl
      rw [hquery] at hunheard
      cases hunheard
  have hreturned : ((system (rowsOf "users")).run usersPrimary askOnBothSides).map
      (fun s => s.returned.map fun r => (r.version, r.snapshot)) =
        some [(0, 0), (0, 1), (1, 2)] := by rfl
  obtain ⟨s, hs, hreturned⟩ := Option.map_eq_some_iff.mp hreturned
  exact ⟨s, hs, hreturned, versions_not_reused hfp (reachable_of_run (fresh_start _ _ _) hok hs)⟩

/-- The query is asked, a row is committed, the process restarts, and it is asked again. -/
def askAcrossRestart : List (Action String) :=
  [.materialize usersRead, insertRow 0, .restart [("users", "id")] [], .materialize usersRead]

/-- **One cursor for two results.**  Version `0` of `SELECT * FROM users` is handed out before
the first row and again after a restart. -/
theorem restart_reuses_version :
    (ReadClassifier.new ["users"]).classify usersCrates "SELECT * FROM users" [] = .ok usersRead ∧
      ∃ s, (system (rowsOf "users")).Reachable free s ∧
        s.returned.map Returned.version = [0, 0] ∧ ¬ NoReuse (rowsOf "users") s := by
  have hreturned : ((system (rowsOf "users")).run usersPrimary askAcrossRestart).map
      (fun s => (s.returned, s.history.snapshot 0 "users", s.history.snapshot 1 "users")) =
      some ([⟨usersRead, lowerHex usersRead.fingerprint, 0, 0⟩,
        ⟨usersRead, lowerHex usersRead.fingerprint, 0, 1⟩], "[]", oneRow) := by rfl
  obtain ⟨s, hs, hreturned⟩ := Option.map_eq_some_iff.mp hreturned
  simp only [Prod.mk.injEq] at hreturned
  obtain ⟨hlog, hbefore, hafter⟩ := hreturned
  refine ⟨by rfl, s, reachable_of_run (fresh_start _ _ _) (along_of_forall fun _ _ _ => trivial) hs,
    by rw [hlog]; rfl, fun h => ?_⟩
  have hsame := h ⟨usersRead, lowerHex usersRead.fingerprint, 0, 0⟩ (by simp [hlog])
    ⟨usersRead, lowerHex usersRead.fingerprint, 0, 1⟩ (by simp [hlog]) rfl rfl
  simp only [run_rowsOf, hbefore, hafter, Except.ok.injEq] at hsame
  exact absurd hsame (by decide)

end PgPaw.Restart
