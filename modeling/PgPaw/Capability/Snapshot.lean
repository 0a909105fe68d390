/-
# What a cached snapshot is the result of

Three facts about every run of the read path.  What was applied and executed stays so
(`Extends`).  The index has what was advanced, in LSN order, and nothing beyond it (`Ordered`).
Every body in the cache, in a call or in a reply comes from an execution logged under its key
(`Provenance`), so a reply can be traced to the one execution it repeats.
-/
import PgPaw.Capability.Read

namespace PgPaw.Read

open Transition

variable {γ : Type} {engine : Engine γ}

/-! ## 1. What no step takes back -/

/-- The later state has the earlier one's executions and snapshots. -/
structure Extends (s s' : State γ) : Prop where
  executions : ∀ e ∈ s.executions, e ∈ s'.executions
  length : s.history.length ≤ s'.history.length
  snapshot : ∀ n ≤ s.history.length, s'.history.snapshot n = s.history.snapshot n
  label : ∀ m < s.history.length, s'.history.label m = s.history.label m
  /-- What was advanced stays advanced. -/
  pending : ∀ m < s.history.length, m ∉ s.pending → m ∉ s'.pending

/-- A state in which the log and the history are the same extends the other. -/
theorem Extends.of_eq {s s' : State γ} (he : s'.executions = s.executions)
    (hh : s'.history = s.history) (hp : ∀ m ∈ s'.pending, m ∈ s.pending) : Extends s s' :=
  ⟨fun e h => he ▸ h, hh ▸ Nat.le_refl _, fun _ _ => by rw [hh], fun _ _ => by rw [hh],
    fun m _ hm h => hm (hp m h)⟩

theorem Extends.refl (s : State γ) : Extends s s := .of_eq rfl rfl fun _ h => h

/-- **Every step extends the log and the history.** -/
theorem Taken.extends {s s' : State γ} {a : Action γ} (h : Taken engine s a s') : Extends s s' := by
  cases h with
  | execute hcall hrun =>
    exact ⟨fun e he => List.mem_append_left _ he, Nat.le_refl _, fun _ _ => rfl, fun _ _ => rfl,
      fun _ _ h => h⟩
  | apply hlsn hwrites =>
    refine ⟨fun e he => he, ?_, fun n hn => History.snapshot_commit _ _ _ hn,
      fun m hm => History.label_commit _ _ _ hm, fun m hm hp h => ?_⟩
    · simp
    · rcases List.mem_append.mp h with h | h
      · exact hp h
      · exact absurd (List.mem_singleton.mp h) (Nat.ne_of_lt hm)
  | advance _ _ _ => exact .of_eq rfl rfl fun m h => (List.mem_filter.mp h).1
  | materialize _ | hit _ _ | miss _ _ | fail _ _ | insert _ | reply _ | replyError _ | cursor
  | evict => exact .of_eq rfl rfl fun _ h => h

/-! ## 2. Commits and the index -/

/-- The commits of the history, the ones pending, and the index agree. -/
structure Ordered (pk : List (String × String)) (full : List String) (s : State γ) : Prop where
  samePk : s.versions.pk = (VersionIndex.new pk full).pk
  sameFull : s.versions.full = (VersionIndex.new pk full).full
  bounded : s.versions.BoundedBy s.advancedTo
  pending : ∀ m ∈ s.pending, m < s.history.length ∧ s.advancedTo ≤ s.endLsn m
  /-- An advanced transaction shows in the version of every list that has a table it touched. -/
  indexed : ∀ m txn, s.history.label m = some txn → m ∉ s.pending →
    ∀ tables : List String, ∀ t ∈ tables, toAsciiLowercase t ∈ txn.touched →
      txn.endLsn ≤ s.versions.tableVersion tables
  /-- A commit changes the tables its transaction touched. -/
  writes : ∀ m txn, s.history.label m = some txn → ∃ ws : Writes γ,
    (∀ w ∈ ws, w.1 ∈ txn.touched) ∧ s.history.snapshot (m + 1) = (s.history.snapshot m).write ws

namespace Ordered

variable {pk : List (String × String)} {full : List String}

theorem start {s : State γ} (h : Fresh pk full s) : Ordered pk full s where
  samePk := by rw [h.versions]
  sameFull := by rw [h.versions]
  bounded := by rw [h.versions, h.advancedTo]; exact VersionIndex.BoundedBy.new pk full
  pending m hm := by simp [h.pending] at hm
  indexed m txn hl := by simp [History.label, h.log] at hl
  writes m txn hl := by simp [History.label, h.log] at hl

/-- Steps that leave the database, the index and the pending commits alone. -/
theorem of_eq {s s' : State γ} (h : Ordered pk full s) (hh : s'.history = s.history)
    (hp : s'.pending = s.pending) (ha : s'.advancedTo = s.advancedTo)
    (hv : s'.versions = s.versions) : Ordered pk full s' := by
  obtain ⟨h1, h2, h3, h4, h5, h6⟩ := h
  refine ⟨hv ▸ h1, hv ▸ h2, hv ▸ ha ▸ h3, ?_, ?_, hh ▸ h6⟩
  · rw [hp, hh, ha]
    simpa only [State.endLsn, hh] using h4
  · rw [hh, hp, hv]
    exact h5

theorem endLsn_commit {s : State γ} {txn : CommittedTransaction} {db : Database γ} {m : Nat}
    (hm : m < s.history.length) :
    (((s.history.commit txn db).label m).map (·.endLsn)).getD 0 = s.endLsn m := by
  rw [History.label_commit _ _ _ hm, State.endLsn]

/-- The first phase of a commit. -/
theorem apply {s : State γ} {txn : CommittedTransaction} {ws : Writes γ} (h : Ordered pk full s)
    (hlsn : s.advancedTo < txn.endLsn) (hws : ∀ w ∈ ws, w.1 ∈ txn.touched) :
    Ordered pk full { s with
      history := s.history.commit txn (s.history.current.write ws)
      pending := s.pending ++ [s.history.length] } where
  samePk := h.samePk
  sameFull := h.sameFull
  bounded := h.bounded
  pending m hm := by
    simp only [State.endLsn, History.length_commit]
    rcases List.mem_append.mp hm with hm | hm
    · obtain ⟨hlt, hle⟩ := h.pending m hm
      rw [endLsn_commit hlt]
      exact ⟨Nat.lt_succ_of_lt hlt, hle⟩
    · obtain rfl := List.mem_singleton.mp hm
      rw [History.label_commit_self]
      exact ⟨Nat.lt_succ_self _, Nat.le_of_lt hlsn⟩
  indexed m txn' hl hm := by
    simp only [List.mem_append, List.mem_singleton, not_or] at hm
    have hlt : m < s.history.length := by
      have := History.lt_length_of_label hl
      rw [History.length_commit] at this
      omega
    rw [History.label_commit _ _ _ hlt] at hl
    exact h.indexed m txn' hl hm.1
  writes m txn' hl := by
    have hlt := History.lt_length_of_label hl
    rw [History.length_commit] at hlt
    rcases Nat.lt_succ_iff_lt_or_eq.mp hlt with hm | rfl
    · rw [History.label_commit _ _ _ hm] at hl
      rw [History.snapshot_commit _ _ _ hm, History.snapshot_commit _ _ _ (Nat.le_of_lt hm)]
      exact h.writes m txn' hl
    · rw [History.label_commit_self] at hl
      obtain rfl := Option.some.inj hl
      refine ⟨ws, hws, ?_⟩
      rw [History.snapshot_commit _ _ _ (Nat.le_refl _)]
      simpa [History.current] using
        History.current_commit s.history txn (s.history.current.write ws)

/-- The second phase of a commit. -/
theorem advance {s : State γ} {txn : CommittedTransaction} {m : Nat} (h : Ordered pk full s)
    (hm : m ∈ s.pending) (horder : ∀ m' ∈ s.pending, s.endLsn m ≤ s.endLsn m')
    (hlabel : s.history.label m = some txn) :
    Ordered pk full { s with
      versions := s.versions.advance txn
      advancedTo := txn.endLsn
      pending := s.pending.filter (· != m) } := by
  have hlsn : s.endLsn m = txn.endLsn := by simp [State.endLsn, hlabel]
  have hle : s.advancedTo ≤ txn.endLsn := hlsn ▸ (h.pending m hm).2
  refine ⟨h.samePk, h.sameFull, h.bounded.advance hle, ?_, ?_, h.writes⟩
  · intro m' hm'
    have hp : m' ∈ s.pending := (List.mem_filter.mp hm').1
    exact ⟨(h.pending m' hp).1, hlsn ▸ horder m' hp⟩
  · intro m' txn' hl hm' tables t ht htouched
    by_cases he : m' = m
    · -- the transaction just advanced
      subst he
      obtain rfl : txn' = txn := by simpa [hlabel] using hl.symm
      exact VersionIndex.endLsn_le_tableVersion ht htouched
    · have hnp : m' ∉ s.pending := fun hp => hm' (List.mem_filter.mpr ⟨hp, by simpa using he⟩)
      exact (h.indexed m' txn' hl hnp tables t ht htouched).trans
        VersionIndex.tableVersion_le_advance

theorem taken {s s' : State γ} {a : Action γ} (h : Ordered pk full s)
    (ht : Taken engine s a s') : Ordered pk full s' := by
  cases ht with
  | apply hlsn hws => exact h.apply hlsn hws
  | advance hm horder hlabel => exact h.advance hm horder hlabel
  | materialize _ | hit _ _ | miss _ _ | execute _ _ | fail _ _ | insert _ | reply _
  | replyError _ | cursor | evict => exact h.of_eq rfl rfl rfl rfl

theorem of_reachable {ok : State γ → Action γ → Prop} {s : State γ}
    (h : (system engine pk full).Reachable ok s) : Ordered pk full s :=
  Reachable.induction (P := Ordered pk full) (fun _ h0 => start h0)
    (fun _ _ _ _ ih _ hs => ih.taken (taken_of_step hs)) h

/-- Where a query is anchored does not change over a run. -/
theorem anchor_eq {s : State γ} (h : Ordered pk full s) (tables : List String)
    (eqFilters : List (String × String)) :
    s.versions.anchor tables eqFilters = (VersionIndex.new pk full).anchor tables eqFilters := by
  have hanchor : s.versions.isAnchorable = (VersionIndex.new pk full).isAnchorable := by
    funext t c
    simp only [VersionIndex.isAnchorable, h.samePk, h.sameFull]
  simp only [VersionIndex.anchor, hanchor]

/-- No version is beyond the last transaction advanced. -/
theorem version_le {s : State γ} (h : Ordered pk full s) (q : CacheableQuery) :
    s.version q ≤ s.advancedTo := h.bounded.versionOf_le _ _

end Ordered

/-! ## 3. Where bodies come from -/

/-- An execution logged under the key returned the body. -/
def Produced (engine : Engine γ) (s : State γ) (key body : String) : Prop :=
  ∃ e ∈ s.executions, e.key = key ∧ e.snapshot ≤ s.history.length ∧
    run engine e.query (s.history.snapshot e.snapshot) = .ok body

theorem Produced.mono {s s' : State γ} {key body : String} (h : Produced engine s key body)
    (hx : Extends s s') : Produced engine s' key body := by
  obtain ⟨e, he, hkey, hle, hrun⟩ := h
  exact ⟨e, hx.executions e he, hkey, hle.trans hx.length, by rw [hx.snapshot _ hle, hrun]⟩

/-- What a call holds was produced for its key. -/
def Stage.Backed (produced : String → String → Prop) (q : CacheableQuery) : Stage → Prop
  | .keyed _ | .missed _ => True
  | .computed v body => produced (snapshotKey q.fingerprint v) body
  | .finished (.ok (v, r)) | .returned (.ok (v, r)) => produced (snapshotKey q.fingerprint v) r.body
  | .finished (.error _) | .returned (.error _) => True

theorem Stage.Backed.mono {p p' : String → String → Prop} {q : CacheableQuery} {stage : Stage}
    (h : stage.Backed p q) (hp : ∀ k b, p k b → p' k b) : stage.Backed p' q := by
  unfold Stage.Backed at h ⊢
  split at h <;> first | trivial | exact hp _ _ h

/-- **Everything held or served was produced for the key it is held or served under.** -/
structure Provenance (engine : Engine γ) (s : State γ) : Prop where
  cache : ∀ key r, s.cache key = some r → Produced engine s key r.body
  calls : ∀ id c, s.calls id = some c → c.stage.Backed (Produced engine s) c.query
  served : ∀ key body, (key, body) ∈ s.served → Produced engine s key body

namespace Provenance

variable {pk : List (String × String)} {full : List String}

theorem start {s : State γ} (h : Fresh pk full s) : Provenance engine s where
  cache key r hr := by simp [h.cache] at hr
  calls id c hc := by simp [h.calls] at hc
  served key body hs := by simp [h.served] at hs

/-- What a step leaves in place stays produced. -/
theorem mono {s s' : State γ} (h : Provenance engine s) (hx : Extends s s')
    (hcache : s'.cache = s.cache) (hcalls : s'.calls = s.calls) (hserved : s'.served = s.served) :
    Provenance engine s' where
  cache key r hr := (h.cache key r (hcache ▸ hr)).mono hx
  calls id c hc := (h.calls id c (hcalls ▸ hc)).mono fun _ _ hp => hp.mono hx
  served key body hs := (h.served key body (hserved ▸ hs)).mono hx

/-- A call moves on to a stage that is backed. -/
theorem setCall {s : State γ} (h : Provenance engine s) (id : Nat) (q : CacheableQuery)
    (stage : Stage) (hb : stage.Backed (Produced engine s) q) :
    Provenance engine (s.setCall id ⟨q, stage⟩) where
  cache := h.cache
  served := h.served
  calls id' c hc := by
    rw [State.setCall_calls] at hc
    split at hc
    · obtain rfl := Option.some.inj hc
      exact hb
    · exact h.calls id' c hc

/-- One more body goes out. -/
theorem serve {s : State γ} (h : Provenance engine s) {replies : List (String × String)}
    (hr : ∀ r ∈ replies, Produced engine s r.1 r.2) :
    Provenance engine { s with served := s.served ++ replies } where
  cache := h.cache
  calls := h.calls
  served key body hs := by
    rcases List.mem_append.mp hs with hs | hs
    · exact h.served key body hs
    · exact hr (key, body) hs

/-- One cache entry changes. -/
theorem store {s : State γ} (h : Provenance engine s) (key : String) {entry : Option CachedResult}
    (he : ∀ r, entry = some r → Produced engine s key r.body) :
    Provenance engine { s with cache := Function.update s.cache key entry } where
  calls := h.calls
  served := h.served
  cache key' r hr := by
    simp only [Function.update_apply] at hr
    split at hr
    · rename_i hk
      exact hk ▸ he r hr
    · exact h.cache key' r hr

theorem taken {s s' : State γ} {a : Action γ} (h : Provenance engine s)
    (ht : Taken engine s a s') : Provenance engine s' := by
  have hx := ht.extends
  cases ht with
  | materialize hfree => exact h.setCall _ _ _ trivial
  | hit hcall hcache => exact h.setCall _ _ _ (h.cache _ _ hcache)
  | miss hcall hcache => exact h.setCall _ _ _ trivial
  | @execute id v q body hcall hrun =>
    have hnew : Produced engine { s with
        executions := s.executions ++ [⟨q, v, s.history.length⟩] } (snapshotKey q.fingerprint v)
        body :=
      ⟨⟨q, v, s.history.length⟩, by simp, rfl, Nat.le_refl _, hrun⟩
    have hs : Provenance engine { s with
        executions := s.executions ++ [⟨q, v, s.history.length⟩] } :=
      h.mono ⟨fun e he => List.mem_append_left _ he, Nat.le_refl _, fun _ _ => rfl,
        fun _ _ => rfl, fun _ _ h => h⟩ rfl rfl rfl
    exact hs.setCall id q (.computed v body) hnew
  | fail hcall hrun => exact h.setCall _ _ _ trivial
  | @insert id v q body hcall =>
    have hb : Produced engine s (snapshotKey q.fingerprint v) body := h.calls _ _ hcall
    refine (h.setCall id q (.finished (.ok (v, ⟨snapshotKey q.fingerprint v, body⟩))) hb).store
      (snapshotKey q.fingerprint v) ?_
    rintro r ⟨⟩
    exact hb
  | @reply id v q r hcall =>
    have hb : Produced engine s (snapshotKey q.fingerprint v) r.body := h.calls _ _ hcall
    refine (h.setCall id q (.returned (.ok (v, r))) hb).serve ?_
    intro reply hr
    obtain rfl := List.mem_singleton.mp hr
    exact hb
  | replyError hcall => exact h.setCall _ _ _ trivial
  | cursor =>
    refine h.serve ?_
    intro reply hr
    obtain ⟨hit, hhit, rfl⟩ := List.mem_map.mp hr
    exact h.cache _ _ (by simpa using hhit)
  | evict => exact h.store _ nofun
  | apply hlsn hws => exact h.mono hx rfl rfl rfl
  | advance hm horder hlabel => exact h.mono hx rfl rfl rfl

theorem of_reachable {ok : State γ → Action γ → Prop} {s : State γ}
    (h : (system engine pk full).Reachable ok s) : Provenance engine s :=
  Reachable.induction (P := Provenance engine) (fun _ h0 => start h0)
    (fun _ _ _ _ ih _ hs => ih.taken (taken_of_step hs)) h

end Provenance

end PgPaw.Read
