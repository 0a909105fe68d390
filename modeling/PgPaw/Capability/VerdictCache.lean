/-
# Concurrent calls of `is_private`

Any number of calls share one `SecurityCache`: a version, and verdicts found under it.  A call
reads the version, looks its tables up, asks the catalog about them if it has to, and writes the
answer back under the version it read.  Between any two of these the other calls move and the
catalog changes, and a slow call takes the cached version back and clears newer verdicts.

A catalog change comes with a greater version.  So a verdict kept under a version was found in a
catalog that is not older than the version (`Sound.cache`), and a call that has read the version
cannot be handed anything from before (`isPrivate_linearizable`).

Instants are counted by the changes of the catalog before them.
-/
import PgPaw.Capability.Server
import PgPaw.Lib.History

namespace PgPaw.VerdictCache

open Server (cached storeVerdicts)
open Transition

/-! ## 1. The calls -/

/-- The catalog of the database, and `security_version`. -/
structure Secured where
  catalog : Catalog
  version : Nat
  deriving DecidableEq, Repr

/-- How far a call of `is_private` is. -/
inductive Progress
  | started
  | versioned (version : Nat)
  /-- The verdicts of that version are not all known. -/
  | missed (version : Nat)
  /-- `classify_security` has returned. -/
  | answered (version : Nat) (verdicts : Verdicts)
  /-- `merge_verdicts` was given these verdicts, at this instant. -/
  | returned (verdicts : Verdicts) (instant : Nat)
  /-- The version or the catalog could not be read, or the call was dropped. -/
  | failed

structure Call where
  tables : List String
  start : Nat
  progress : Progress

/-- What the call returns. -/
def Call.result (call : Call) : Option Bool := match call.progress with
  | .returned verdicts _ => some (mergeVerdicts call.tables verdicts)
  | _ => none

structure State where
  history : History Secured Unit
  /-- `security_cache`, which an embedded primary does not have. -/
  cache : Option (Nat × Verdicts)
  calls : Nat → Option Call

namespace State

/-- The instant it is. -/
def now (s : State) : Nat := s.history.length

def advance (s : State) (id : Nat) (call : Call) (progress : Progress) : State :=
  { s with calls := Function.update s.calls id (some { call with progress }) }

/-- The verdicts `merge_verdicts` is called with. -/
def finish (s : State) (id : Nat) (call : Call) (verdicts : Verdicts) : State :=
  s.advance id call (.returned verdicts s.now)

end State

inductive Action
  | isPrivate (id : Nat) (tables : List String)
  | readVersion (id : Nat)
  | lookup (id : Nat)
  | classifySecurity (id : Nat)
  | store (id : Nat)
  | fail (id : Nat)
  | changeCatalog (secured : Secured)

/-- `is_private`, cut where it is suspended or takes the lock. -/
def step (s : State) : Action → Option State
  | .isPrivate id tables => match s.calls id with
    | none => some (s.advance id ⟨tables, s.now, .started⟩ .started)
    | some _ => none
  | .readVersion id => match s.calls id, s.cache with
    | some call, some _ => match call.progress with
      | .started => some (s.advance id call (.versioned s.history.current.version))
      | _ => none
    | _, _ => none
  | .lookup id => match s.calls id, s.cache with
    | some call, some cache => match call.progress with
      | .versioned version =>
        if cached cache version call.tables then some (s.finish id call cache.2)
        else some (s.advance id call (.missed version))
      | _ => none
    | _, _ => none
  | .classifySecurity id => match s.calls id with
    | some call =>
      let verdicts := PgPaw.classifySecurity s.history.current.catalog call.tables
      match call.progress, s.cache with
      | .started, none => some (s.finish id call verdicts)
      | .missed version, some _ => some (s.advance id call (.answered version verdicts))
      | _, _ => none
    | none => none
  | .store id => match s.calls id, s.cache with
    | some call, some cache => match call.progress with
      | .answered version verdicts =>
        some { s.finish id call verdicts with
          cache := some (storeVerdicts cache version verdicts) }
      | _ => none
    | _, _ => none
  | .fail id => (s.calls id).bind fun call => match call.progress with
    | .returned _ _ => none
    | _ => some (s.advance id call .failed)
  | .changeCatalog secured =>
    if s.history.current.version < secured.version then
      some { s with history := s.history.commit () secured }
    else none

/-- Any catalog and version; an empty cache, or none. -/
structure Fresh (s : State) : Prop where
  log : s.history.log = []
  cache : s.cache = none ∨ s.cache = some (0, fun _ => none)
  calls : s.calls = fun _ => none

def system : System State Action where
  init := Fresh
  step := step

/-! ## 2. What a step can do -/

/-- What a call does between two suspensions, writing back apart. -/
inductive Move (s : State) (call : Call) : Progress → Prop
  | readVersion (hcall : call.progress = .started) :
      Move s call (.versioned s.history.current.version)
  | hit {version : Nat} {cache : Nat × Verdicts} (hcall : call.progress = .versioned version)
      (hcache : s.cache = some cache) (hhit : cached cache version call.tables = true) :
      Move s call (.returned cache.2 s.now)
  | miss {version : Nat} (hcall : call.progress = .versioned version) :
      Move s call (.missed version)
  | decide (hcall : call.progress = .started) : Move s call
      (.returned (PgPaw.classifySecurity s.history.current.catalog call.tables) s.now)
  | answer {version : Nat} (hcall : call.progress = .missed version) : Move s call
      (.answered version (PgPaw.classifySecurity s.history.current.catalog call.tables))
  | fail : Move s call .failed

inductive Taken (s : State) : State → Prop
  | isPrivate {id : Nat} {tables : List String} :
      Taken s (s.advance id ⟨tables, s.now, .started⟩ .started)
  | move {id : Nat} {call : Call} {progress : Progress} (hcall : s.calls id = some call)
      (hmove : Move s call progress) : Taken s (s.advance id call progress)
  | store {id version : Nat} {call : Call} {verdicts : Verdicts} {cache : Nat × Verdicts}
      (hcall : s.calls id = some call) (hprogress : call.progress = .answered version verdicts)
      (hcache : s.cache = some cache) :
      Taken s { s.finish id call verdicts with
        cache := some (storeVerdicts cache version verdicts) }
  | changeCatalog {secured : Secured} (hversion : s.history.current.version < secured.version) :
      Taken s { s with history := s.history.commit () secured }

/-- Every step of the code is one of these. -/
theorem taken_of_step {s s' : State} {action : Action} (h : step s action = some s') :
    Taken s s' := by
  cases action with
  | isPrivate id tables =>
    simp only [step] at h
    split at h
    · cases h
      exact .isPrivate
    · cases h
  | readVersion id =>
    simp only [step] at h
    split at h
    · rename_i call cache hcall hcache
      split at h
      · rename_i hprogress
        cases h
        exact .move hcall (.readVersion hprogress)
      · cases h
    · cases h
  | lookup id =>
    simp only [step] at h
    split at h
    · rename_i call cache hcall hcache
      split at h
      · rename_i version hprogress
        split at h
        · rename_i hhit
          cases h
          exact .move hcall (.hit hprogress hcache hhit)
        · cases h
          exact .move hcall (.miss hprogress)
      · cases h
    · cases h
  | classifySecurity id =>
    simp only [step] at h
    split at h
    · rename_i call hcall
      split at h
      · rename_i hprogress hcache
        cases h
        exact .move hcall (.decide hprogress)
      · rename_i version cache hprogress hcache
        cases h
        exact .move hcall (.answer hprogress)
      · cases h
    · cases h
  | store id =>
    simp only [step] at h
    split at h
    · rename_i call cache hcall hcache
      split at h
      · rename_i version verdicts hprogress
        cases h
        exact .store hcall hprogress hcache
      · cases h
    · cases h
  | fail id =>
    obtain ⟨call, hcall, h⟩ := Option.bind_eq_some_iff.mp h
    split at h
    · cases h
    · cases h
      exact .move hcall .fail
  | changeCatalog secured =>
    simp only [step] at h
    split at h
    · rename_i hversion
      cases h
      exact .changeCatalog hversion
    · cases h

/-! ## 3. The invariant -/

/-- The catalog's verdict for the table. -/
def Secured.gives (table : String) (verdict : Option Bool) (secured : Secured) : Prop :=
  secured.catalog.verdict table = verdict

/-- What holds of a call, wherever it is suspended. -/
def Call.Sound (history : History Secured Unit) (call : Call) : Prop := match call.progress with
  | .started | .failed => True
  | .versioned version | .missed version =>
    history.Once call.start history.length (·.version = version)
  | .answered version verdicts =>
    (∀ table ∈ call.tables, history.Once call.start history.length fun secured =>
      version ≤ secured.version ∧ secured.gives table (verdicts table)) ∧
    ∀ table ∉ call.tables, verdicts table = none
  | .returned verdicts instant => instant ≤ history.length ∧
      ∀ table ∈ call.tables, history.Once call.start instant (·.gives table (verdicts table))

structure Sound (s : State) : Prop where
  rises : s.history.Rises Secured.version
  start : ∀ id call, s.calls id = some call → call.start ≤ s.now
  /-- A verdict kept under a version was found in a catalog that is not older. -/
  cache : ∀ cache, s.cache = some cache → ∀ table verdict, cache.2 table = some verdict →
    s.history.Once 0 s.now fun secured =>
      cache.1 ≤ secured.version ∧ secured.gives table (some verdict)
  call : ∀ id call, s.calls id = some call → call.Sound s.history

/-- A later change of the catalog takes nothing away from a call. -/
theorem Call.Sound.commit {history : History Secured Unit} {call : Call} (h : call.Sound history)
    (secured : Secured) : call.Sound (history.commit () secured) := by
  have hlater : ∀ {m : Nat} {p : Secured → Prop}, history.Once m history.length p →
      (history.commit () secured).Once m (history.commit () secured).length p := by
    intro m p ho
    refine (ho.commit (Nat.le_refl _) () secured).mono (Nat.le_refl _) ?_ fun _ hp => hp
    rw [History.length_commit]
    exact Nat.le_succ _
  unfold Call.Sound at h ⊢
  cases hprogress : call.progress with
  | started => trivial
  | failed => trivial
  | versioned version =>
    rw [hprogress] at h
    exact hlater h
  | missed version =>
    rw [hprogress] at h
    exact hlater h
  | answered version verdicts =>
    rw [hprogress] at h
    exact ⟨fun table htable => hlater (h.1 table htable), h.2⟩
  | returned verdicts instant =>
    rw [hprogress] at h
    refine ⟨?_, fun table htable => (h.2 table htable).commit h.1 () secured⟩
    rw [History.length_commit]
    exact Nat.le_succ_of_le h.1

/-- A verdict `classify_security` returns now. -/
theorem gives_classifySecurity (secured : Secured) {tables : List String} {table : String}
    (htable : table ∈ tables) :
    secured.gives table (PgPaw.classifySecurity secured.catalog tables table) :=
  (classifySecurity_eq secured.catalog tables htable).symm

/-- A call stays sound when it moves. -/
theorem Sound.move {s : State} (h : Sound s) {id : Nat} {call : Call} {progress : Progress}
    (hcall : s.calls id = some call) (hmove : Move s call progress) :
    { call with progress }.Sound s.history := by
  have hstart := h.start id call hcall
  have hsound := h.call id call hcall
  cases hmove with
  | readVersion hprogress =>
    show s.history.Once call.start s.history.length (·.version = s.history.current.version)
    exact History.Once.now hstart rfl
  | @hit version cache hprogress hcache hhit =>
    refine ⟨Nat.le_refl _, fun table htable => ?_⟩
    simp only [cached, Bool.and_eq_true, beq_iff_eq, List.all_eq_true] at hhit
    obtain ⟨hversion, hall⟩ := hhit
    obtain ⟨verdict, hverdict⟩ := Option.isSome_iff_exists.mp (hall table htable)
    have hread : s.history.Once call.start s.history.length (·.version = version) := by
      simpa only [Call.Sound, hprogress] using hsound
    have hfound := h.cache cache hcache table verdict hverdict
    rw [hversion] at hfound
    rw [hverdict]
    exact h.rises.once hread hfound
  | miss hprogress => simpa only [Call.Sound, hprogress] using hsound
  | decide hprogress =>
    exact ⟨Nat.le_refl _, fun table htable =>
      History.Once.now hstart (gives_classifySecurity _ htable)⟩
  | @answer version hprogress =>
    refine ⟨fun table htable => History.Once.now hstart ⟨?_, gives_classifySecurity _ htable⟩,
      fun table htable => classifySecurity_of_notMem _ _ htable⟩
    have hread : s.history.Once call.start s.history.length (·.version = version) := by
      simpa only [Call.Sound, hprogress] using hsound
    exact h.rises.le_current hread
  | fail => trivial

/-- What is kept after a call has written back. -/
theorem Sound.store {s : State} (h : Sound s) {id version : Nat} {call : Call}
    {verdicts : Verdicts} {cache : Nat × Verdicts} (hcall : s.calls id = some call)
    (hprogress : call.progress = .answered version verdicts) (hcache : s.cache = some cache)
    {table : String} {verdict : Bool}
    (hkept : (storeVerdicts cache version verdicts).2 table = some verdict) :
    s.history.Once 0 s.now fun secured =>
      version ≤ secured.version ∧ secured.gives table (some verdict) := by
  have hsound := h.call id call hcall
  simp only [Call.Sound, hprogress] at hsound
  obtain ⟨hlisted, hother⟩ := hsound
  simp only [storeVerdicts] at hkept
  cases hnew : verdicts table with
  | some found =>
    rw [hnew] at hkept
    cases hkept
    have htable : table ∈ call.tables := by
      by_contra hnot
      rw [hother table hnot] at hnew
      cases hnew
    have hfound := hlisted table htable
    rw [hnew] at hfound
    exact hfound.mono (Nat.zero_le _) (Nat.le_refl _) fun _ hp => hp
  | none =>
    rw [hnew] at hkept
    split at hkept
    · rename_i hsame
      have hold := h.cache cache hcache table verdict hkept
      rw [hsame] at hold
      exact hold
    · cases hkept

theorem Sound.advance {s : State} (h : Sound s) {id : Nat} {call : Call} {progress : Progress}
    (hstart : call.start ≤ s.now) (hsound : { call with progress }.Sound s.history) :
    Sound (s.advance id call progress) where
  rises := h.rises
  cache := h.cache
  start id' call' hcall' := by
    simp only [State.advance, Function.update_apply] at hcall'
    split at hcall'
    · cases hcall'
      exact hstart
    · exact h.start id' call' hcall'
  call id' call' hcall' := by
    simp only [State.advance, Function.update_apply] at hcall'
    split at hcall'
    · cases hcall'
      exact hsound
    · exact h.call id' call' hcall'

theorem Sound.taken {s s' : State} (h : Sound s) (ht : Taken s s') : Sound s' := by
  cases ht with
  | isPrivate => exact h.advance (Nat.le_refl _) trivial
  | move hcall hmove => exact h.advance (h.start _ _ hcall) (h.move hcall hmove)
  | @store id version call verdicts cache hcall hprogress hcache =>
    have hfinish : Sound (s.finish id call verdicts) := by
      refine h.advance (h.start _ _ hcall) ⟨Nat.le_refl _, fun table htable => ?_⟩
      have hsound := h.call id call hcall
      simp only [Call.Sound, hprogress] at hsound
      exact (hsound.1 table htable).mono (Nat.le_refl _) (Nat.le_refl _) fun _ hp => hp.2
    exact ⟨hfinish.rises, hfinish.start,
      fun cache' hcache' table verdict hkept => by
        cases hcache'
        exact h.store hcall hprogress hcache hkept, hfinish.call⟩
  | @changeCatalog secured hversion =>
    refine ⟨h.rises.commit () hversion, fun id call hcall => ?_,
      fun cache hcache table verdict hkept => ?_,
      fun id call hcall => (h.call id call hcall).commit secured⟩
    · have := h.start id call hcall
      simp only [State.now, History.length_commit] at this ⊢
      omega
    · refine ((h.cache cache hcache table verdict hkept).commit (Nat.le_refl _) () secured).mono
        (Nat.le_refl _) ?_ fun _ hp => hp
      simp only [State.now, History.length_commit]
      omega

theorem sound_of_reachable {s : State} (h : system.Reachable free s) : Sound s := by
  refine Reachable.induction ?_ ?_ h
  · intro s hfresh
    refine ⟨?_, ?_, ?_, ?_⟩
    · intro i j hij hj
      simp only [History.length, hfresh.log, List.length_nil] at hj
      omega
    · intro id call hcall
      rw [hfresh.calls] at hcall
      cases hcall
    · intro cache hcache table verdict hkept
      rcases hfresh.cache with hnone | hempty
      · rw [hnone] at hcache
        cases hcache
      · rw [hempty] at hcache
        cases hcache
        cases hkept
    · intro id call hcall
      rw [hfresh.calls] at hcall
      cases hcall
  · intro s action s' _ hsound _ hstep
    exact hsound.taken (taken_of_step hstep)

/-! ## 4. The verdicts of a call -/

/-- **A public name** has exactly one ordinary table outside the system schemas, without row
security and readable by all. -/
theorem verdict_public {catalog : Catalog} {name : String}
    (h : catalog.verdict name = some false) : ∃ row, catalog.named name = [row] ∧
      row.relkind = 'r' ∧ row.schema ∉ ["pg_catalog", "information_schema"] ∧
        row.lowerName = name ∧ row.relrowsecurity = false ∧ row.publicSelect = true := by
  obtain ⟨row, hnamed, hrls, hselect⟩ := Catalog.isPublic_iff.mp h
  have hrow : row ∈ catalog.named name := by simp [hnamed]
  simp only [Catalog.named, List.mem_filter, CatalogTable.served, Bool.and_eq_true, beq_iff_eq,
    Bool.not_eq_true', List.contains_eq_mem, decide_eq_false_iff_not] at hrow
  exact ⟨row, hnamed, hrow.2.1.1, hrow.2.1.2, hrow.2.2, hrls, hselect⟩

/-- **Every verdict a call used was the catalog's while the call ran.**  So a call is private
when a name in its list is not public at any instant of it. -/
theorem isPrivate_linearizable {s : State} (h : system.Reachable free s) {id : Nat} {call : Call}
    (hcall : s.calls id = some call) {verdicts : Verdicts} {instant : Nat}
    (hreturned : call.progress = .returned verdicts instant) :
    (∀ table ∈ call.tables,
      s.history.Once call.start instant fun secured =>
        verdicts table = secured.catalog.verdict table) ∧
    (∀ catalog : Catalog, ∀ name, catalog.verdict name = some false →
      ∃ row, catalog.named name = [row] ∧ row.relkind = 'r' ∧
        row.schema ∉ ["pg_catalog", "information_schema"] ∧ row.lowerName = name ∧
        row.relrowsecurity = false ∧ row.publicSelect = true) ∧
    ((∃ table ∈ call.tables, ¬ s.history.Once call.start instant fun secured =>
        secured.catalog.isPublic table) → call.result = some true) := by
  have hsound := (sound_of_reachable h).call id call hcall
  simp only [Call.Sound, hreturned] at hsound
  have hused : ∀ table ∈ call.tables, s.history.Once call.start instant fun secured =>
      verdicts table = secured.catalog.verdict table := fun table htable =>
    (hsound.2 table htable).mono (Nat.le_refl _) (Nat.le_refl _) fun _ hp => Eq.symm hp
  refine ⟨hused, fun _ _ => verdict_public, ?_⟩
  rintro ⟨table, htable, hnever⟩
  simp only [Call.result, hreturned, Option.some.injEq]
  by_contra hpublic
  have hverdict := mergeVerdicts_eq_false.mp (Bool.eq_false_iff.mpr hpublic) table htable
  exact hnever ((hused table htable).mono (Nat.le_refl _) (Nat.le_refl _) fun _ hp =>
    hp.symm.trans hverdict)

/-- `users`, with row security or without. -/
def usersCatalog (relrowsecurity : Bool) : Catalog :=
  [⟨"public", "users", 'r', relrowsecurity, true⟩]

/-- A replica on a catalog where `users` is public. -/
def replica : State := ⟨⟨⟨usersCatalog false, 0⟩, []⟩, some (0, fun _ => none), fun _ => none⟩

/-- A call is overtaken by a change of the catalog, and writes back under the older version. -/
def slowCall : List Action := [.isPrivate 0 ["users"], .readVersion 0, .lookup 0,
  .changeCatalog ⟨usersCatalog true, 1⟩, .classifySecurity 0, .store 0]

/-- Its verdict is the one of the new catalog. -/
theorem slowCall_linearizable : ∃ s call verdicts, system.run replica slowCall = some s ∧
    s.calls 0 = some call ∧ call.progress = .returned verdicts 1 ∧ call.result = some true ∧
      s.cache.map Prod.fst = some 0 ∧ s.history.Once 0 1 fun secured =>
        verdicts "users" = secured.catalog.verdict "users" := by
  refine ⟨_, ⟨["users"], 0, .returned (PgPaw.classifySecurity (usersCatalog true) ["users"]) 1⟩,
    _, rfl, rfl, rfl, by decide, rfl, ?_⟩
  have hreachable : ∀ s, system.run replica slowCall = some s → system.Reachable free s :=
    fun s hs => reachable_of_run ⟨rfl, Or.inr rfl, rfl⟩ (along_of_forall fun _ _ _ => trivial) hs
  exact (@isPrivate_linearizable _ (hreachable _ rfl) 0 _ rfl _ _ rfl).1 "users"
    List.mem_cons_self

end PgPaw.VerdictCache
