/-
# A cursor names one body

`/q/{hash}/{version}` is served with a public max-age of three days, so whatever is replied
for it must stay what is replied for it.  A body under a key comes from an execution under
that key (`Provenance`); the cache is not single-flight and forgets, so one key can be
executed more than once.  A call runs its query long after it read the version: by then a commit
may be applied whose version is not there yet, or the version may have moved on, and the code
asks neither.

`cursor_names_one_body` is about every run in which a query is run again under a key only while
that is its version and no commit it would hear of is on the way (`Settled`): such a run returns
what the first one did.  `cursor_names_two_bodies` is a run in which it is not so.
-/
import PgPaw.Capability.SnapshotAge

namespace PgPaw.Read

open Transition

variable {γ : Type} {engine : Engine γ}

/-- **Replies for one cursor carry one body.** -/
def OneBody (s : State γ) : Prop :=
  ∀ key body body', (key, body) ∈ s.served → (key, body') ∈ s.served → body = body'

/-- **The condition on a step**.  A query is run again under a key only while that is the version
of the query, and no commit that its version hears of is applied and not advanced.  And a commit
changes the result of a query that was run only if the version of the query hears of it. -/
def Settled (engine : Engine γ) (s : State γ) : Action γ → Prop
  | .execute id => match s.calls id with
    | some ⟨q, .missed v⟩ => (∃ e ∈ s.executions, e.key = snapshotKey q.fingerprint v) →
        s.version q = v ∧ ∀ m ∈ s.pending, ∀ txn, s.history.label m = some txn →
          s.versions.hears txn q.tables q.eqFilters = false
    | _ => True
  | .apply txn writes => ∀ e ∈ s.executions,
      s.versions.hears txn e.query.tables e.query.eqFilters = false →
        run engine e.query (s.history.current.write writes) = run engine e.query s.history.current
  | _ => True

/-- What happens in a run that asks queries of a set and settles before it runs one again. -/
def SettledRun (engine : Engine γ) (issued : CacheableQuery → Prop) (s : State γ)
    (a : Action γ) : Prop :=
  Issues issued s a ∧ Settled engine s a

/-! ## 1. What the index has heard of -/

/-- The transactions that a query hears of show in its version once they are advanced, and the
others have not changed the result of a query that was run. -/
structure Heard (engine : Engine γ) (s : State γ) : Prop where
  indexed : ∀ m txn, s.history.label m = some txn → m ∉ s.pending → ∀ tables eqFilters,
    s.versions.hears txn tables eqFilters = true →
      txn.endLsn ≤ s.versions.versionOf tables eqFilters
  kept : ∀ e ∈ s.executions, ∀ m txn, s.history.label m = some txn → e.snapshot ≤ m →
    s.versions.hears txn e.query.tables e.query.eqFilters = false →
      s.history.Keeps (run engine e.query) m

namespace Heard

variable {pk : List (String × String)} {full : List String}

theorem start {s : State γ} (h : Fresh pk full s) : Heard engine s where
  indexed m txn hl := by simp [History.label, h.log] at hl
  kept e he := by simp [h.executions] at he

/-- The first phase of a commit: nothing is advanced, and the condition speaks of the results. -/
theorem apply {s : State γ} {txn : CommittedTransaction} {writes : Writes γ}
    (h : Heard engine s) (hok : Settled engine s (.apply txn writes)) :
    Heard engine { s with
      history := s.history.commit txn (s.history.current.write writes)
      pending := s.pending ++ [s.history.length] } where
  indexed m txn' hl hm := by
    simp only [List.mem_append, List.mem_singleton, not_or] at hm
    have hlt : m < s.history.length := by
      have := History.lt_length_of_label hl
      rw [History.length_commit] at this
      omega
    rw [History.label_commit _ _ _ hlt] at hl
    exact h.indexed m txn' hl hm.1
  kept e he m txn' hl hle hunheard := by
    have hlt := History.lt_length_of_label hl
    rw [History.length_commit] at hlt
    rcases Nat.lt_succ_iff_lt_or_eq.mp hlt with hm | rfl
    · rw [History.label_commit _ _ _ hm] at hl
      exact (History.keeps_commit _ _ hm).mpr (h.kept e he m txn' hl hle hunheard)
    · rw [History.label_commit_self] at hl
      obtain rfl := Option.some.inj hl
      exact (History.keeps_commit_self _ _).mpr (hok e he hunheard)

/-- The second phase: the version of a query that hears of the transaction is its LSN now. -/
theorem advance {s : State γ} {txn : CommittedTransaction} {m : Nat} (h : Heard engine s)
    (ho : Ordered pk full s) (hm : m ∈ s.pending) (hlabel : s.history.label m = some txn) :
    Heard engine { s with
      versions := s.versions.advance txn
      advancedTo := txn.endLsn
      pending := s.pending.filter (· != m) } where
  indexed m' txn' hl hm' tables eqFilters hheard := by
    have hle : s.advancedTo ≤ txn.endLsn := by
      have := (ho.pending m hm).2
      simpa [State.endLsn, hlabel] using this
    have hbounded := ho.bounded.versionOf_le tables eqFilters
    rw [VersionIndex.advance_hears] at hheard
    simp only [VersionIndex.versionOf_advance ho.bounded hle]
    by_cases he : m' = m
    · subst he
      obtain rfl : txn' = txn := by simpa [hlabel] using hl.symm
      rw [if_pos hheard]
    · have hnp : m' ∉ s.pending := fun hp => hm' (List.mem_filter.mpr ⟨hp, by simpa using he⟩)
      have hold := h.indexed m' txn' hl hnp tables eqFilters hheard
      split
      · omega
      · exact hold
  kept e he m' txn' hl hle hunheard := by
    rw [VersionIndex.advance_hears] at hunheard
    exact h.kept e he m' txn' hl hle hunheard

theorem taken {s s' : State γ} {a : Action γ} (ho : Ordered pk full s) (h : Heard engine s)
    (hok : Settled engine s a) (ht : Taken engine s a s') : Heard engine s' := by
  cases ht with
  | apply _ _ => exact h.apply hok
  | advance hm _ hlabel => exact h.advance ho hm hlabel
  | @execute id v q body hcall hrun =>
    refine ⟨h.indexed, fun e he m txn hl hle => ?_⟩
    rcases List.mem_append.mp he with he | he
    · exact h.kept e he m txn hl hle
    · -- it ran on the newest state: nothing is committed after it yet
      rw [List.mem_singleton.mp he] at hle
      exact absurd (History.lt_length_of_label hl) (Nat.not_lt.mpr hle)
  | materialize _ | hit _ _ | miss _ _ | fail _ _ | insert _ | reply _ | replyError _ | cursor
  | evict => exact ⟨h.indexed, h.kept⟩

end Heard

/-! ## 2. Executions under one key -/

/-- Executions under one key returned the same, on snapshots that exist. -/
structure Agreed (engine : Engine γ) (s : State γ) : Prop where
  snapshot : ∀ e ∈ s.executions, e.snapshot ≤ s.history.length
  result : ∀ e ∈ s.executions, ∀ e' ∈ s.executions, e.key = e'.key →
    run engine e.query (s.history.snapshot e.snapshot) =
      run engine e'.query (s.history.snapshot e'.snapshot)

namespace Agreed

variable {pk : List (String × String)} {full : List String} {issued : CacheableQuery → Prop}

/-- Steps that run no query. -/
theorem mono {s s' : State γ} (h : Agreed engine s) (hx : Extends s s')
    (he : s'.executions = s.executions) : Agreed engine s' where
  snapshot e hm := (h.snapshot e (he ▸ hm)).trans hx.length
  result e hm e' hm' hkey := by
    rw [he] at hm hm'
    rw [hx.snapshot _ (h.snapshot e hm), hx.snapshot _ (h.snapshot e' hm')]
    exact h.result e hm e' hm' hkey

/-- **The commits since an execution whose version is still the query's** have not changed the
result, if none that the query hears of is pending: a commit that it hears of would show in the
version. -/
theorem keeps_since {s : State γ} {e : Execution} (hd : Dated s) (h : Heard engine s)
    (he : e ∈ s.executions) (hversion : s.version e.query = e.version)
    (hpending : ∀ m ∈ s.pending, ∀ txn, s.history.label m = some txn →
      s.versions.hears txn e.query.tables e.query.eqFilters = false) :
    ∀ m, e.snapshot ≤ m → m < s.history.length → s.history.Keeps (run engine e.query) m := by
  intro m hle hlt
  obtain ⟨txn, hl⟩ := History.exists_label hlt
  refine h.kept e he m txn hl hle ?_
  by_contra hheard
  rw [Bool.not_eq_false] at hheard
  have hadvanced : m ∉ s.pending := by
    intro hm
    rw [hpending m hm txn hl] at hheard
    cases hheard
  have hindexed : txn.endLsn ≤ s.version e.query := h.indexed m txn hl hadvanced _ _ hheard
  have hlater := hd.later e he m txn hl hle
  omega

/-- What an earlier execution under the key returned is what the query returns now. -/
theorem run_current {s : State γ} {id v : Nat} {q : CacheableQuery} {e : Execution}
    (hfp : FingerprintsSeparate engine issued) (ha : Asked issued s) (hd : Dated s)
    (hh : Heard engine s) (h : Agreed engine s) (hcall : s.calls id = some ⟨q, .missed v⟩)
    (hok : Settled engine s (.execute id)) (he : e ∈ s.executions)
    (hkey : e.key = snapshotKey q.fingerprint v) :
    run engine e.query (s.history.snapshot e.snapshot) = run engine q s.history.current := by
  obtain ⟨hfingerprint, hversion⟩ := snapshotKey_inj hkey
  have hsame : SameRead engine e.query q :=
    hfp e.query q (ha.executions e he) (ha.calls id _ hcall) hfingerprint
  simp only [Settled, hcall] at hok
  obtain ⟨hcurrent, hpending⟩ := hok ⟨e, he, hkey⟩
  have hcurrent : s.version e.query = e.version := by
    rw [State.version, hsame.tables, hsame.eqFilters]
    exact hcurrent.trans hversion.symm
  rw [← hsame.tables, ← hsame.eqFilters] at hpending
  rw [← hsame.run, History.current_eq_of_keeps (h.snapshot e he)
    (keeps_since hd hh he hcurrent hpending)]

theorem taken {s s' : State γ} {a : Action γ} (hfp : FingerprintsSeparate engine issued)
    (ha : Asked issued s) (hd : Dated s) (hh : Heard engine s) (h : Agreed engine s)
    (hok : Settled engine s a) (ht : Taken engine s a s') : Agreed engine s' := by
  have hx := ht.extends
  cases ht with
  | @execute id v q body hcall hrun =>
    have hold := fun e he hkey => run_current (e := e) hfp ha hd hh h hcall hok he hkey
    refine ⟨fun e he => ?_, fun e he e' he' hkey => ?_⟩
    · rcases List.mem_append.mp he with he | he
      · exact h.snapshot e he
      · rw [List.mem_singleton.mp he]
        exact Nat.le_refl s.history.length
    · rcases List.mem_append.mp he with he | he <;> rcases List.mem_append.mp he' with he' | he'
      · exact h.result e he e' he' hkey
      · obtain rfl := List.mem_singleton.mp he'
        exact hold e he hkey
      · obtain rfl := List.mem_singleton.mp he
        exact (hold e' he' hkey.symm).symm
      · rw [List.mem_singleton.mp he, List.mem_singleton.mp he']
  | materialize _ | hit _ _ | miss _ _ | fail _ _ | insert _ | reply _ | replyError _ | cursor
  | evict | apply _ _ | advance _ _ _ => exact h.mono hx rfl

end Agreed

section Runs

variable {pk : List (String × String)} {full : List String} {issued : CacheableQuery → Prop}

theorem heard_of_reachable {s : State γ}
    (h : (system engine pk full).Reachable (SettledRun engine issued) s) : Heard engine s :=
  Reachable.induction (P := Heard engine) (fun _ h0 => .start h0)
    (fun _ _ _ hr ih ha hs => ih.taken (.of_reachable hr) ha.2 (taken_of_step hs)) h

theorem agreed_of_reachable {s : State γ} (hfp : FingerprintsSeparate engine issued)
    (h : (system engine pk full).Reachable (SettledRun engine issued) s) : Agreed engine s := by
  refine Reachable.induction (P := Agreed engine) (fun s h0 => ⟨?_, ?_⟩)
    (fun s a _ hr ih ha hs => ih.taken hfp (.of_reachable (fun _ _ h => h.1) hr)
      (.of_reachable hr) (heard_of_reachable hr) ha.2 (taken_of_step hs)) h
  · intro e he
    simp [h0.executions] at he
  · intro e he
    simp [h0.executions] at he

/-- **A cursor names one body, in every run that settles before it runs a query again under a
key.** -/
theorem cursor_names_one_body {s : State γ} (hfp : FingerprintsSeparate engine issued)
    (h : (system engine pk full).Reachable (SettledRun engine issued) s) : OneBody s := by
  intro key body body' hb hb'
  have hp := Provenance.of_reachable h
  obtain ⟨e, he, hkey, -, hrun⟩ := hp.served key body hb
  obtain ⟨e', he', hkey', -, hrun'⟩ := hp.served key body' hb'
  have hagree := (agreed_of_reachable hfp h).result e he e' he' (hkey.trans hkey'.symm)
  rw [hrun, hrun'] at hagree
  exact Except.ok.inj hagree

end Runs

/-! ## 3. Two runs -/

/-- A server that is asked `SELECT * FROM users`, on an empty table. -/
def usersStart : State String := State.start [("users", "id")] [] fun _ => "[]"

/-- The cursor of that query before anything is committed. -/
def usersKey : String := snapshotKey usersRead.fingerprint 0

/-- A body is replied and forgotten, a commit to another table comes by, and the query is run
again under its key. -/
def replyAgain : List (Action String) :=
  [.materialize 0 usersRead, .lookup 0, .execute 0, .insert 0, .reply 0,
    .apply ⟨7, 1, [.insert "orders" [("id", some "1")]]⟩ [("orders", oneRow)], .advance 0,
    .evict usersKey, .materialize 1 usersRead, .lookup 1, .execute 1, .insert 1, .reply 1,
    .cursor (lowerHex usersRead.fingerprint) "0"]

theorem one_body_of_replyAgain :
    ∃ s, (system (rowsOf "users") [("users", "id")] []).run usersStart replyAgain = some s ∧
      s.executions.map Execution.key = [usersKey, usersKey] ∧
      s.served = [(usersKey, "[]"), (usersKey, "[]"), (usersKey, "[]")] ∧ OneBody s := by
  have hfp : FingerprintsSeparate (rowsOf "users") (Only usersRead) := by
    rintro q q' rfl rfl -
    exact ⟨rfl, rfl, fun _ => rfl⟩
  have hok : (system (rowsOf "users") [("users", "id")] []).Along
      (SettledRun (rowsOf "users") (Only usersRead)) usersStart replyAgain := by
    refine ⟨⟨rfl, trivial⟩, ⟨trivial, trivial⟩, ⟨trivial, ?_⟩, ⟨trivial, trivial⟩,
      ⟨trivial, trivial⟩, ⟨trivial, ?_⟩, ⟨trivial, trivial⟩, ⟨trivial, trivial⟩, ⟨rfl, trivial⟩,
      ⟨trivial, trivial⟩, ⟨trivial, ?_⟩, ⟨trivial, trivial⟩, ⟨trivial, trivial⟩,
      ⟨trivial, trivial⟩, trivial⟩
    · rintro ⟨e, he, -⟩
      cases he
    · intro e he _
      obtain rfl := List.mem_singleton.mp he
      rfl
    · intro _
      refine ⟨by rfl, fun m hm => ?_⟩
      cases hm
  have hruns : ((system (rowsOf "users") [("users", "id")] []).run usersStart replyAgain).map
      (fun s => (s.executions.map Execution.key, s.served)) = some ([usersKey, usersKey],
        [(usersKey, "[]"), (usersKey, "[]"), (usersKey, "[]")]) := by rfl
  obtain ⟨s, hs, hruns⟩ := Option.map_eq_some_iff.mp hruns
  obtain ⟨hexecutions, hserved⟩ := Prod.mk.inj hruns
  exact ⟨s, hs, hexecutions, hserved,
    cursor_names_one_body hfp (reachable_of_run (fresh_start _ _ _) hok hs)⟩

/-- Two calls miss; one runs before a commit is applied, the other after, and before the
commit is advanced. -/
def missAroundCommit : List (Action String) :=
  [.materialize 0 usersRead, .materialize 1 usersRead, .lookup 0, .lookup 1, .execute 0,
    .apply ⟨7, 1, [.insert "users" [("id", some "1")]]⟩ [("users", oneRow)],
    .execute 1, .insert 0, .insert 1, .reply 0, .reply 1]

/-- **Two bodies for one cursor.**  Two calls for `SELECT * FROM users` that run on either side
of a commit reply different bodies for the same cursor. -/
theorem cursor_names_two_bodies :
    (ReadClassifier.new ["users"]).classify usersCrates "SELECT * FROM users" [] = .ok usersRead ∧
      ∃ s, (system (rowsOf "users") [("users", "id")] []).Reachable (Issues (Only usersRead)) s ∧
        s.served = [(usersKey, "[]"), (usersKey, oneRow)] ∧ ¬ OneBody s := by
  have hok : (system (rowsOf "users") [("users", "id")] []).Along (Issues (Only usersRead))
      usersStart missAroundCommit := by
    refine along_of_forall ?_
    intro a ha t
    cases a with
    | materialize id q =>
      obtain ⟨-, hq⟩ | ⟨-, hq⟩ : id = 0 ∧ q = usersRead ∨ id = 1 ∧ q = usersRead := by
        simpa [missAroundCommit] using ha
      all_goals exact hq
    | _ => trivial
  have hserved : ((system (rowsOf "users") [("users", "id")] []).run usersStart
      missAroundCommit).map State.served = some [(usersKey, "[]"), (usersKey, oneRow)] := by rfl
  obtain ⟨s, hs, hserved⟩ := Option.map_eq_some_iff.mp hserved
  refine ⟨by rfl, s, reachable_of_run (fresh_start _ _ _) hok hs, hserved, fun h => ?_⟩
  have hsame : "[]" = oneRow := h usersKey "[]" oneRow (by simp [hserved]) (by simp [hserved])
  exact absurd hsame (by decide)

end PgPaw.Read
