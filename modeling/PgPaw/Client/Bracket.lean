/-
# The transactions of a collection

`applyRows`, `flush` and the reset write to the collection between `begin` and `commit`.  Any
write in between may throw: the rows of a snapshot may be no array, `getKey` may throw on a row,
and `write` itself asks `getKey` for the key of a value, also in `flush`, where the value is what
the changes of a batch were merged into.  Nothing closes the transaction then: the exception goes
to the `catch` of `run`, which signals readiness and reconnects.

`step` is the step of `sync` with writes that throw (`step_eq` says when it is the one of
`Core`).  `bracketed_iff` says which runs close their transactions.  After a snapshot that failed
the collection shows what it showed (`committed_of_failed`), but `seen` was cleared.
-/
import PgPaw.Client.Confirm
import PgPaw.Client.Source

namespace PgPaw.Client

open Transition

/-! ## 1. Transactions -/

/-- A call, inside a transaction or outside. -/
def bracketStep : Bool → Call → Option Bool
  | inside, .record _ | inside, .markReady => some inside
  | false, .begin => some true
  | true, .write _ | true, .truncate => some true
  | true, .commit => some false
  | _, _ => none

/-- The order the calls should be made in. -/
def brackets : System Bool Call where
  init := (· = false)
  step := bracketStep

/-- **Every transaction is closed**: each `begin` is followed by its `commit` before the next,
and there are writes and truncates only in between. -/
def Bracketed (calls : List Call) : Prop := brackets.run false calls = some false

instance (calls : List Call) : Decidable (Bracketed calls) :=
  inferInstanceAs (Decidable (brackets.run false calls = some false))

/-- The rows a collection shows, and those of the transaction in progress. -/
structure View where
  rows : Rows
  inside : Option Rows

/-- A call: what is written shows when it is committed.  A transaction that is not closed is
left behind by the next. -/
def View.apply (config : Config) (view : View) : Call → View
  | .begin => { view with inside := some view.rows }
  | .commit => ⟨view.inside.getD view.rows, none⟩
  | call => { view with inside := view.inside.map fun rows => call.apply config rows }

/-- What the calls have committed. -/
def Sync.committed (config : Config) (sync : Sync) : Rows :=
  (sync.calls.foldl (View.apply config) ⟨∅, none⟩).rows

/-! ## 2. `sync`, with writes that throw -/

/-- What becomes of `sync` when the loop body on a frame is left. -/
def Sync.leave (sync : Sync) (frame : SyncFrame) (handled : Handled) : Sync :=
  let sync := { sync with
    driver := handled.driver
    calls := sync.calls ++ frame.txid.toList.map Call.record ++ handled.calls }
  match handled.exit with
  | .next => sync
  | .returned => { sync with connected := false }
  | .threw => sync.caught

namespace Bracket

/-- The loop of `flush`: `seen`, the writes, and whether it finished. -/
def writePending (config : Config) : Pending → Finset String → Finset String × List Call × Bool
  | [], seen => (seen, [], true)
  | (key, .upsert value) :: pending, seen =>
    let call := .write (if key ∈ seen then .update value else .insert value)
    if (config.getKey value).isSome then
      let (seen, calls, done) := writePending config pending (insert key seen)
      (seen, call :: calls, done)
    else (seen, [call], false)
  | (key, .delete) :: pending, seen =>
    if key ∈ seen then
      let (seen, calls, done) := writePending config pending (seen.erase key)
      (seen, .write (.delete key) :: calls, done)
    else writePending config pending seen

/-- `flush`. -/
def flush (config : Config) (driver : Driver) : Handled :=
  if driver.pending.isEmpty then ⟨driver, [], .next⟩
  else match writePending config driver.pending driver.seen with
    | (seen, calls, true) =>
      ⟨{ driver with seen := seen, pending := [] }, .begin :: calls ++ [.commit], .next⟩
    | (seen, calls, false) => ⟨{ driver with seen := seen }, .begin :: calls, .threw⟩

/-- The body of the loop. -/
def handleFrame (config : Config) (driver : Driver) : SyncFrame → Handled
  | .upToDate _ => flush config driver
  | frame => Client.handleFrame config driver frame

/-- `connect` and `run`. -/
def step (config : Config) (sync : Sync) : Action → Option Sync
  | .frame frame =>
    if sync.connected then some (sync.leave frame (handleFrame config sync.driver frame)) else none
  | action => Client.step config sync action

/-- The runs of `sync`. -/
def system (config : Config) : System Sync Action where
  init := (· = Sync.new)
  step := step config

/-- `getKey` accepts the values a batch is merged into. -/
def PendingKeyed (config : Config) (pending : Pending) : Prop :=
  ∀ key value, (key, PendingOp.upsert value) ∈ pending → (config.getKey value).isSome = true

/-- **What does not fail between `begin` and `commit`.** -/
def Closes (config : Config) (sync : Sync) : Action → Prop
  | .frame (.snapshot rows txid) => (SyncFrame.snapshot rows txid).Keyed config
  | .frame (.upToDate _) => PendingKeyed config sync.driver.pending
  | _ => True

/-- A snapshot that fails leaves `seen` and the collection as they were. -/
def FailureKeeps (config : Config) (sync : Sync) : Action → Prop
  | .frame (.snapshot rows txid) => ¬ (SyncFrame.snapshot rows txid).Keyed config →
    ∀ sync', step config sync (.frame (.snapshot rows txid)) = some sync' →
      sync'.driver.seen = sync.driver.seen ∧ sync'.committed config = sync.committed config
  | _ => True

section Writes

variable {config : Config}

theorem PendingKeyed.tail {entry : String × PendingOp} {pending : Pending}
    (h : PendingKeyed config (entry :: pending)) : PendingKeyed config pending :=
  fun key value hmem => h key value (List.mem_cons_of_mem _ hmem)

/-- The loop finishes when every value has a key. -/
theorem writePending_done (pending : Pending) (seen : Finset String) :
    (writePending config pending seen).2.2 = true ↔ PendingKeyed config pending := by
  induction pending generalizing seen with
  | nil => simp [writePending, PendingKeyed]
  | cons entry pending ih =>
    obtain ⟨key, op⟩ := entry
    have hsplit : PendingKeyed config ((key, op) :: pending) ↔
        (∀ value, op = .upsert value → (config.getKey value).isSome = true) ∧
          PendingKeyed config pending := by
      refine ⟨fun h => ⟨?_, h.tail⟩, fun h k value hmem => ?_⟩
      · rintro value rfl
        exact h key value List.mem_cons_self
      · rcases List.mem_cons.mp hmem with heq | hmem
        · cases heq
          exact h.1 value rfl
        · exact h.2 k value hmem
    rw [hsplit]
    cases op with
    | upsert value =>
      rw [writePending]
      by_cases hkey : (config.getKey value).isSome = true
      · simp [hkey, ih]
      · simp [hkey]
    | delete =>
      rw [writePending]
      split <;> simp [ih]

/-- And makes the writes of `Core` then. -/
theorem writePending_eq {pending : Pending} {seen : Finset String}
    (h : PendingKeyed config pending) : writePending config pending seen =
      ((flushPending pending seen).1, (flushPending pending seen).2, true) := by
  induction pending generalizing seen with
  | nil => rfl
  | cons entry pending ih =>
    obtain ⟨key, op⟩ := entry
    cases op with
    | upsert value =>
      rw [writePending, if_pos (h key value List.mem_cons_self), ih h.tail]
      rfl
    | delete =>
      rw [writePending, flushPending]
      by_cases hseen : key ∈ seen
      · rw [if_pos hseen, if_pos hseen, ih h.tail]
      · rw [if_neg hseen, if_neg hseen, ih h.tail]

theorem flush_eq {driver : Driver} (h : PendingKeyed config driver.pending) :
    flush config driver = ⟨(Client.flush driver).1, (Client.flush driver).2, .next⟩ := by
  rw [flush, Client.flush]
  split
  · rfl
  · rw [writePending_eq h]

/-- **Where every value has a key, the writes do not throw.** -/
theorem step_eq {sync : Sync} (h : PendingKeyed config sync.driver.pending) (action : Action) :
    step config sync action = Client.step config sync action := by
  cases action with
  | frame frame =>
    have hhandle : handleFrame config sync.driver frame =
        Client.handleFrame config sync.driver frame := by
      cases frame with
      | upToDate txid => exact flush_eq h
      | _ => rfl
    rw [step, hhandle]
    rfl
  | _ => rfl

end Writes

/-! ## 3. The calls of a step -/

section Brackets

variable {config : Config} {sync sync' : Sync}

theorem brackets_append (inside : Bool) (calls calls' : List Call) :
    brackets.run inside (calls ++ calls') =
      (brackets.run inside calls).bind fun inside => brackets.run inside calls' :=
  run_append calls calls' inside

theorem brackets_begin (calls : List Call) :
    brackets.run false (.begin :: calls) = brackets.run true calls := rfl

theorem brackets_ready (inside : Bool) (driver : Driver) :
    brackets.run inside (ready driver).2 = some inside := by
  unfold ready
  cases driver.signalledReady <;> cases inside <;> rfl

theorem brackets_record (inside : Bool) (txid : Option Int) :
    brackets.run inside (txid.toList.map Call.record) = some inside := by
  cases txid <;> cases inside <;> rfl

theorem brackets_writeRows (config : Config) (rows : List Row) (seen : Finset String) :
    brackets.run true (writeRows config rows seen).2.1 = some true := by
  induction rows generalizing seen with
  | nil => rfl
  | cons row rows ih =>
    rw [writeRows]
    cases config.getKey row with
    | none => rfl
    | some key => exact ih (insert key seen)

theorem brackets_writePending (config : Config) (pending : Pending) (seen : Finset String) :
    brackets.run true (writePending config pending seen).2.1 = some true := by
  induction pending generalizing seen with
  | nil => rfl
  | cons entry pending ih =>
    obtain ⟨key, op⟩ := entry
    cases op with
    | upsert value =>
      rw [writePending]
      split
      · exact ih (insert key seen)
      · rfl
    | delete =>
      rw [writePending]
      split
      · exact ih (seen.erase key)
      · exact ih seen

/-- The transaction id and readiness change nothing. -/
theorem brackets_leave (frame : SyncFrame) (handled : Handled) :
    brackets.run false (sync.leave frame handled).calls = (brackets.run false sync.calls).bind
      fun inside => brackets.run inside handled.calls := by
  have hcalls : brackets.run false
      (sync.calls ++ frame.txid.toList.map Call.record ++ handled.calls) =
        (brackets.run false sync.calls).bind fun inside => brackets.run inside handled.calls := by
    simp only [brackets_append, Option.bind_assoc, brackets_record, Option.bind_some]
  rw [Sync.leave]
  cases handled.exit with
  | threw =>
    change brackets.run false (_ ++ (ready _).2) = _
    rw [brackets_append, hcalls]
    simp only [brackets_ready, Option.bind_fun_some]
  | _ => exact hcalls

/-- A loop between `begin` and `commit`, finished or not. -/
theorem brackets_loop {calls : List Call} (h : brackets.run true calls = some true) :
    brackets.run false (.begin :: calls) = some true ∧
      brackets.run false (.begin :: calls ++ [.commit]) = some false := by
  refine ⟨h, ?_⟩
  rw [List.cons_append, brackets_begin, brackets_append, h]
  rfl

/-- The body of the loop leaves a transaction open exactly where it fails in between. -/
theorem brackets_handleFrame (frame : SyncFrame) :
    brackets.run false (handleFrame config sync.driver frame).calls = some false ↔
      Closes config sync (.frame frame) := by
  cases frame with
  | snapshot rows txid =>
    cases rows with
    | none => simp [handleFrame, Client.handleFrame, applyRows, Closes, SyncFrame.Keyed, brackets,
        System.run, bracketStep]
    | some rows =>
      have hkeyed : Closes config sync (.frame (.snapshot (some rows) txid)) ↔
          (writeRows config rows ∅).2.2 = true := by
        simp [Closes, SyncFrame.Keyed, Confirm.writeRows_done]
      obtain ⟨hopen, hclosed⟩ := brackets_loop (brackets_writeRows config rows ∅)
      rw [hkeyed]
      change brackets.run false (applyRows config sync.driver (some rows)).calls = _ ↔ _
      rw [applyRows]
      split
      · rename_i hwrite
        rw [hwrite] at hclosed
        rw [hwrite, brackets_append, hclosed]
        simp only [Option.bind_some, brackets_ready]
      · rename_i hwrite
        rw [hwrite] at hopen
        rw [hwrite, hopen]
        simp
  | upToDate txid =>
    obtain ⟨hopen, hclosed⟩ := brackets_loop
      (brackets_writePending config sync.driver.pending sync.driver.seen)
    change brackets.run false (flush config sync.driver).calls = _ ↔ PendingKeyed config _
    rw [flush, ← writePending_done sync.driver.pending sync.driver.seen]
    split
    · rename_i hempty
      rw [List.isEmpty_iff.mp hempty]
      exact iff_of_true rfl rfl
    · split
      · rename_i hwrite
        rw [hwrite] at hclosed
        rw [hwrite, hclosed]
        exact iff_of_true rfl rfl
      · rename_i hwrite
        rw [hwrite] at hopen
        rw [hwrite, hopen]
        simp
  | change op row key txid =>
    refine iff_of_true ?_ trivial
    change brackets.run false (handleChange config sync.driver op row key).calls = _
    cases row with
    | none => cases op <;> rfl
    | some row => cases hkey : config.getKey row <;> cases op <;>
        simp [handleChange, upsertKey, hkey, brackets, System.run]
  | reset txid => exact iff_of_true rfl trivial

/-- There is no transaction in another. -/
theorem brackets_nested (calls : List Call) : brackets.run true (.begin :: calls) ≠ some false := by
  intro h
  cases h

/-- No frame closes a transaction that is open. -/
theorem brackets_handleFrame_open (frame : SyncFrame) :
    brackets.run true (handleFrame config sync.driver frame).calls ≠ some false := by
  cases frame with
  | snapshot rows txid =>
    change brackets.run true (applyRows config sync.driver rows).calls ≠ _
    cases rows with
    | none => exact brackets_nested _
    | some rows =>
      rw [applyRows]
      split <;> exact brackets_nested _
  | upToDate txid =>
    change brackets.run true (flush config sync.driver).calls ≠ _
    rw [flush]
    split
    · simp [System.run]
    · split <;> exact brackets_nested _
  | change op row key txid =>
    change brackets.run true (handleChange config sync.driver op row key).calls ≠ _
    cases row with
    | none => cases op <;> simp [handleChange, upsertKey, brackets, System.run]
    | some row => cases hkey : config.getKey row <;> cases op <;>
        simp [handleChange, upsertKey, hkey, brackets, System.run]
  | reset txid => exact brackets_nested _

/-- **A step closes the transactions it opens** exactly if nothing fails in between. -/
theorem bracketed_step_iff (h : Bracketed sync.calls) {action : Action}
    (hstep : step config sync action = some sync') :
    Bracketed sync'.calls ↔ Closes config sync action := by
  unfold Bracketed at h ⊢
  cases action with
  | frame frame =>
    simp only [step, Option.ite_none_right_eq_some, Option.some.injEq] at hstep
    rw [← hstep.2, brackets_leave, h]
    exact brackets_handleFrame frame
  | fail =>
    simp only [step, Client.step, Option.ite_none_right_eq_some, Option.some.injEq] at hstep
    have hcalls : sync'.calls = sync.calls ++ (ready sync.driver).2 := by
      rw [← hstep.2]
      rfl
    rw [hcalls, brackets_append, h, Option.bind_some, brackets_ready]
    exact iff_of_true rfl trivial
  | connect | done =>
    simp only [step, Client.step, Option.ite_none_left_eq_some, Option.ite_none_right_eq_some,
      Option.some.injEq] at hstep
    rw [← hstep.2]
    exact iff_of_true h trivial
  | stop =>
    cases hstep
    exact iff_of_true h trivial

/-- What is open stays open. -/
theorem not_bracketed_step (h : ¬ Bracketed sync.calls) {action : Action}
    (hstep : step config sync action = some sync') : ¬ Bracketed sync'.calls := by
  unfold Bracketed at h ⊢
  cases action with
  | frame frame =>
    simp only [step, Option.ite_none_right_eq_some, Option.some.injEq] at hstep
    rw [← hstep.2, brackets_leave]
    rcases hinside : brackets.run false sync.calls with _ | (_ | _)
    · simp
    · exact absurd hinside h
    · exact brackets_handleFrame_open frame
  | fail =>
    simp only [step, Client.step, Option.ite_none_right_eq_some, Option.some.injEq] at hstep
    have hcalls : sync'.calls = sync.calls ++ (ready sync.driver).2 := by
      rw [← hstep.2]
      rfl
    rw [hcalls, brackets_append]
    simpa only [brackets_ready, Option.bind_fun_some] using h
  | connect | done =>
    simp only [step, Client.step, Option.ite_none_left_eq_some, Option.ite_none_right_eq_some,
      Option.some.injEq] at hstep
    rw [← hstep.2]
    exact h
  | stop =>
    cases hstep
    exact h

theorem not_bracketed_run {actions : List Action}
    (hrun : (system config).run sync actions = some sync') (h : ¬ Bracketed sync.calls) :
    ¬ Bracketed sync'.calls := by
  induction actions generalizing sync with
  | nil =>
    cases hrun
    exact h
  | cons action actions ih =>
    obtain ⟨next, hstep, hrest⟩ := Option.bind_eq_some_iff.mp hrun
    exact ih hrest (not_bracketed_step h hstep)

theorem bracketed_run_iff {actions : List Action}
    (hrun : (system config).run sync actions = some sync') (h : Bracketed sync.calls) :
    Bracketed sync'.calls ↔ (system config).Along (Closes config) sync actions := by
  induction actions generalizing sync with
  | nil =>
    cases hrun
    exact iff_of_true h trivial
  | cons action actions ih =>
    obtain ⟨next, hstep, hrest⟩ := Option.bind_eq_some_iff.mp hrun
    have hhead := bracketed_step_iff h hstep
    rw [System.Along, hstep, ← hhead]
    change _ ↔ _ ∧ (system config).Along (Closes config) next actions
    by_cases hnext : Bracketed next.calls
    · rw [ih hrest hnext, and_iff_right hnext]
    · exact iff_of_false (not_bracketed_run hrest hnext) fun hboth => hnext hboth.1

end Brackets

/-! ## 4. A snapshot that fails -/

section Failure

variable {config : Config} {sync sync' : Sync}

/-- Writes in a transaction that is not committed show nothing. -/
theorem rows_foldl_of_open {calls : List Call}
    (h : ∀ call ∈ calls, ∃ message, call = .write message) (view : View) :
    (calls.foldl (View.apply config) view).rows = view.rows := by
  induction calls generalizing view with
  | nil => rfl
  | cons call calls ih =>
    obtain ⟨message, rfl⟩ := h call List.mem_cons_self
    rw [List.foldl_cons, ih fun c hc => h c (List.mem_cons_of_mem _ hc)]
    rfl

theorem writes_of_writeRows (config : Config) (rows : List Row) (seen : Finset String) :
    ∀ call ∈ (writeRows config rows seen).2.1, ∃ message, call = .write message := by
  induction rows generalizing seen with
  | nil => exact fun call hcall => absurd hcall List.not_mem_nil
  | cons row rows ih =>
    intro call hcall
    rw [writeRows] at hcall
    cases hkey : config.getKey row with
    | none =>
      rw [hkey] at hcall
      exact ⟨_, List.mem_singleton.mp hcall⟩
    | some key =>
      rw [hkey] at hcall
      rcases List.mem_cons.mp hcall with rfl | hcall
      · exact ⟨_, rfl⟩
      · exact ih (insert key seen) call hcall

/-- The calls that do not write, begin or commit show nothing. -/
theorem rows_foldl_of_neutral {calls : List Call}
    (h : ∀ call ∈ calls, (∃ txid, call = .record txid) ∨ call = .markReady) (view : View) :
    (calls.foldl (View.apply config) view).rows = view.rows := by
  induction calls generalizing view with
  | nil => rfl
  | cons call calls ih =>
    rw [List.foldl_cons, ih fun c hc => h c (List.mem_cons_of_mem _ hc)]
    rcases h call List.mem_cons_self with ⟨txid, rfl⟩ | rfl <;> rfl

theorem neutral_ready (driver : Driver) :
    ∀ call ∈ (ready driver).2, (∃ txid, call = .record txid) ∨ call = .markReady := by
  intro call hcall
  unfold ready at hcall
  cases hready : driver.signalledReady <;> simp [hready] at hcall
  exact Or.inr hcall

/-- What a snapshot that fails leaves behind: a transaction with the writes up to the failure. -/
theorem applyRows_of_failed (driver : Driver) {rows : Option (List Row)} {txid : Option Int}
    (h : ¬ (SyncFrame.snapshot rows txid).Keyed config) : ∃ seen calls,
      applyRows config driver rows = ⟨{ driver with seen := seen }, .begin :: calls, .threw⟩ ∧
        ∀ call ∈ calls, ∃ message, call = .write message := by
  cases rows with
  | none => exact ⟨∅, [], rfl, fun call hcall => absurd hcall List.not_mem_nil⟩
  | some rows =>
    have hwrites := writes_of_writeRows config rows ∅
    have hdone : (writeRows config rows ∅).2.2 = false := by
      rw [← Bool.not_eq_true, Confirm.writeRows_done]
      exact fun hall => h ⟨rows, rfl, hall⟩
    rw [applyRows]
    split
    · rename_i hwrite
      rw [hwrite] at hdone
      cases hdone
    · rename_i seen calls hwrite
      rw [hwrite] at hwrites
      exact ⟨seen, calls, rfl, hwrites⟩

/-- **A snapshot that fails leaves the collection as it was**, wherever it fails. -/
theorem committed_of_failed {rows : Option (List Row)} {txid : Option Int}
    (h : ¬ (SyncFrame.snapshot rows txid).Keyed config)
    (hstep : step config sync (.frame (.snapshot rows txid)) = some sync') :
    sync'.committed config = sync.committed config := by
  simp only [step, Option.ite_none_right_eq_some, Option.some.injEq] at hstep
  obtain ⟨seen, calls, hrows, hwrites⟩ := applyRows_of_failed sync.driver h
  have hcalls : sync'.calls = sync.calls ++ txid.toList.map Call.record ++ .begin :: calls ++
      (ready { sync.driver with seen := seen }).2 := by
    rw [← hstep.2]
    change (sync.leave _ (applyRows config sync.driver rows)).calls = _
    rw [hrows]
    rfl
  have hrecord : ∀ call ∈ txid.toList.map Call.record,
      (∃ txid, call = .record txid) ∨ call = .markReady := by
    intro call hcall
    obtain ⟨id, -, rfl⟩ := List.mem_map.mp hcall
    exact Or.inl ⟨id, rfl⟩
  rw [Sync.committed, hcalls, List.foldl_append, rows_foldl_of_neutral (neutral_ready _),
    List.foldl_append, List.foldl_cons, rows_foldl_of_open hwrites]
  change (List.foldl (View.apply config) _ (sync.calls ++ _)).rows = _
  rw [List.foldl_append, rows_foldl_of_neutral hrecord]
  rfl

end Failure

/-! ## 5. Runs -/

/-- Where every transaction is closed, the rows that show are those that were written. -/
theorem rows_foldl_of_brackets (config : Config) (calls : List Call) :
    (∀ rows, brackets.run false calls = some false →
      (calls.foldl (View.apply config) ⟨rows, none⟩).rows = applyCalls config calls rows) ∧
    ∀ shown rows, brackets.run true calls = some false →
      (calls.foldl (View.apply config) ⟨shown, some rows⟩).rows = applyCalls config calls rows := by
  induction calls with
  | nil => exact ⟨fun _ _ => rfl, fun _ _ h => by cases h⟩
  | cons call calls ih =>
    obtain ⟨houtside, hinside⟩ := ih
    refine ⟨fun rows h => ?_, fun shown rows h => ?_⟩
    · cases call with
      | record | markReady => exact houtside rows h
      | begin => exact hinside rows rows h
      | write | commit | truncate => cases h
    · cases call with
      | record | markReady | write | truncate => exact hinside shown _ h
      | begin => cases h
      | commit => exact houtside rows h

theorem committed_eq_collection {config : Config} {sync : Sync} (h : Bracketed sync.calls) :
    sync.committed config = sync.collection config :=
  (rows_foldl_of_brackets config sync.calls).1 ∅ h

/-- **The transactions of a run are closed, and a snapshot that fails leaves everything as it
was**, exactly if nothing fails in a transaction. -/
theorem bracketed_iff (config : Config) (actions : List Action) (sync : Sync)
    (hrun : (system config).run .new actions = some sync) :
    (Bracketed sync.calls ∧ (system config).Along (FailureKeeps config) .new actions) ↔
      (system config).Along (Closes config) .new actions := by
  rw [bracketed_run_iff hrun rfl]
  refine and_iff_left_of_imp ?_
  intro hcloses
  refine System.Along.of_invariant (P := fun _ => True) (fun s action _ _ hclose => ?_) trivial
    hcloses
  refine ⟨?_, fun _ _ => trivial⟩
  cases action with
  | frame frame =>
    cases frame with
    | snapshot rows txid => exact fun hfails => absurd hclose hfails
    | _ => trivial
  | _ => trivial

/-- A snapshot and a batch. -/
theorem bracketed_iff_batch :
    (Bracketed (((system byId).run .new (resetThenReconnect.take 5)).elim [] Sync.calls) ∧
      (system byId).Along (FailureKeeps byId) .new (resetThenReconnect.take 5)) ↔
        (system byId).Along (Closes byId) .new (resetThenReconnect.take 5) :=
  bracketed_iff byId (resetThenReconnect.take 5) _ rfl

/-- The event of a public snapshot. -/
def publicSnapshot : Json := .object [("type", .string "snapshot"), ("url", .string "/cursor/a/1"),
  ("version", .number (.integer 1))]

/-- A client whose cursor has been evicted: the body of the 404 is read as the rows. -/
def evicted : Source where
  fetch _ := some (.object [("name", .string "NotFound"), ("message", .string "unknown cursor")])
  text _ := ""

/-- **A transaction is left open** when the cursor of a public snapshot has been evicted, and
`seen` is empty then while the collection still shows its rows. -/
theorem open_transaction :
    (∃ sync, (system byId).run .new
        (.connect :: actions evicted publicSnapshot ++ .connect ::
          actions evicted publicSnapshot) = some sync ∧
      sync.calls = [.begin, .markReady, .begin] ∧ ¬ Bracketed sync.calls) ∧
    ∃ sync, (system byId).run .new
        (.connect :: .frame (.snapshot (some [todo "a" "one"]) none) :: .done :: .connect ::
          actions evicted publicSnapshot) = some sync ∧
      sync.driver.seen = ∅ ∧ (sync.committed byId).lookup "a" = some (todo "a" "one") := by
  refine ⟨⟨_, rfl, rfl, ?_⟩, _, rfl, rfl, rfl⟩
  decide

end Bracket

end PgPaw.Client
