/-
# After the cleanup function

The function `sync` returns sets `stopped` and aborts the controller of the connection.  Only
`run` looks at `stopped`, between two connections: the loop over the frames goes on with what
the source still yields, and the `catch` of `run` signals readiness whether it is stopped or not.
A source may well yield more: `readSse` gives the frames it has buffered before it reads again,
and the read that was aborted throws.

So what a stopped `sync` still calls depends on the source alone.  `silent_iff` says which
sources leave it silent (`Quiet`); `writes_after_stop` is a run of one that does not.
-/
import PgPaw.Client.Confirm
import PgPaw.Client.Source

namespace PgPaw.Client

open Transition

/-- One of the five functions handed to `sync`.  The tracker of ids is not one of them. -/
def Call.isCollection : Call → Bool
  | record _ => false
  | begin | write _ | commit | truncate | markReady => true

/-- The calls made to the collection. -/
def Sync.collectionCalls (sync : Sync) : List Call := sync.calls.filter Call.isCollection

/-- **What a source may still do without a call to the collection**: yield a change with a key,
yield an up-to-date frame when no change is pending, end; or throw, once `sync` is ready. -/
def Quiet (config : Config) (sync : Sync) : Action → Prop
  | .frame (.snapshot _ _) | .frame (.reset _) => False
  | .frame (.upToDate _) => sync.driver.pending = []
  | .frame (.change op row key txid) =>
    (SyncFrame.change op row key txid).Keyed config ∨ sync.driver.signalledReady = true
  | .fail => sync.driver.signalledReady = true
  | .connect | .done | .stop => True

section Silent

variable {config : Config} {sync sync' : Sync}

theorem calls_ready_iff (driver : Driver) :
    (ready driver).2 = [] ↔ driver.signalledReady = true := by
  unfold ready
  cases driver.signalledReady <;> simp

theorem collectionCalls_caught (sync : Sync) :
    sync.caught.collectionCalls = sync.collectionCalls ++ (ready sync.driver).2 := by
  have hready : (ready sync.driver).2.filter Call.isCollection = (ready sync.driver).2 := by
    unfold ready
    cases sync.driver.signalledReady <;> rfl
  rw [Sync.collectionCalls, Sync.caught, List.filter_append, hready]
  rfl

/-- The calls a frame adds. -/
theorem collectionCalls_onFrame (sync : Sync) (frame : SyncFrame) :
    (sync.onFrame config frame).collectionCalls = sync.collectionCalls ++
      ((handleFrame config sync.driver frame).calls.filter Call.isCollection ++
        if (handleFrame config sync.driver frame).exit = .threw
        then (ready (handleFrame config sync.driver frame).driver).2 else []) := by
  have hrecord : (frame.txid.toList.map Call.record).filter Call.isCollection = [] := by
    cases frame.txid <;> rfl
  rw [Sync.onFrame]
  cases hexit : (handleFrame config sync.driver frame).exit with
  | threw =>
    rw [if_pos rfl, collectionCalls_caught, Sync.collectionCalls, List.filter_append,
      List.filter_append, hrecord, List.append_nil, List.append_assoc]
    rfl
  | _ =>
    rw [if_neg (by simp), Sync.collectionCalls, List.filter_append, List.filter_append, hrecord]
    simp [Sync.collectionCalls]

/-- The frames that add none. -/
theorem silent_frame_iff (frame : SyncFrame) :
    (sync.onFrame config frame).collectionCalls = sync.collectionCalls ↔
      Quiet config sync (.frame frame) := by
  rw [collectionCalls_onFrame, List.append_right_eq_self, List.append_eq_nil_iff]
  cases frame with
  | snapshot rows txid =>
    simp only [handleFrame, Quiet, iff_false, not_and]
    intro hcalls
    exfalso
    cases rows with
    | none => cases hcalls
    | some rows =>
      rw [applyRows] at hcalls
      split at hcalls <;> cases hcalls
  | reset txid => simp [handleFrame, Quiet, Call.isCollection]
  | upToDate txid =>
    simp only [handleFrame, Quiet, flush, reduceCtorEq, if_false, and_true]
    cases hpending : sync.driver.pending with
    | nil => simp
    | cons entry pending => simp [Call.isCollection]
  | change op row key txid =>
    simp only [handleFrame, Quiet, SyncFrame.Keyed]
    cases row with
    | none => cases op <;> simp [handleChange, upsertKey]
    | some row =>
      cases hkey : config.getKey row <;> cases op <;>
        simp [handleChange, upsertKey, hkey, calls_ready_iff]

/-- **A step is silent** exactly if it is a quiet one. -/
theorem silent_step_iff {action : Action} (hstep : step config sync action = some sync') :
    sync'.collectionCalls = sync.collectionCalls ↔ Quiet config sync action := by
  cases action with
  | connect =>
    simp only [step, Option.ite_none_left_eq_some, Option.some.injEq] at hstep
    rw [← hstep.2]
    exact iff_of_true rfl trivial
  | frame frame =>
    simp only [step, Option.ite_none_right_eq_some, Option.some.injEq] at hstep
    rw [← hstep.2]
    exact silent_frame_iff frame
  | done =>
    simp only [step, Option.ite_none_right_eq_some, Option.some.injEq] at hstep
    rw [← hstep.2]
    exact iff_of_true rfl trivial
  | fail =>
    simp only [step, Option.ite_none_right_eq_some, Option.some.injEq] at hstep
    rw [← hstep.2, collectionCalls_caught, List.append_right_eq_self, calls_ready_iff]
    rfl
  | stop =>
    cases hstep
    exact iff_of_true rfl trivial

/-- No step takes a call back. -/
theorem collectionCalls_kept {action : Action} (hstep : step config sync action = some sync') :
    sync.collectionCalls <+: sync'.collectionCalls := by
  cases action with
  | frame frame =>
    simp only [step, Option.ite_none_right_eq_some, Option.some.injEq] at hstep
    rw [← hstep.2, collectionCalls_onFrame]
    exact List.prefix_append _ _
  | fail =>
    simp only [step, Option.ite_none_right_eq_some, Option.some.injEq] at hstep
    rw [← hstep.2, collectionCalls_caught]
    exact List.prefix_append _ _
  | _ => rw [(silent_step_iff hstep).mpr trivial]

/-- Nor does a run. -/
theorem collectionCalls_run_kept {actions : List Action}
    (hrun : (system config).run sync actions = some sync') :
    sync.collectionCalls <+: sync'.collectionCalls := by
  induction actions generalizing sync with
  | nil =>
    cases hrun
    exact List.prefix_refl _
  | cons action actions ih =>
    obtain ⟨next, hstep, hrest⟩ := Option.bind_eq_some_iff.mp hrun
    exact (collectionCalls_kept hstep).trans (ih hrest)

/-- **A run is silent** exactly if all its steps are quiet. -/
theorem silent_run_iff {actions : List Action}
    (hrun : (system config).run sync actions = some sync') :
    sync'.collectionCalls = sync.collectionCalls ↔
      (system config).Along (Quiet config) sync actions := by
  induction actions generalizing sync with
  | nil =>
    cases hrun
    exact iff_of_true rfl trivial
  | cons action actions ih =>
    obtain ⟨next, hstep, hrest⟩ := Option.bind_eq_some_iff.mp hrun
    rw [System.Along, hstep, ← silent_step_iff hstep]
    change _ ↔ _ ∧ (system config).Along (Quiet config) next actions
    rw [← ih hrest]
    constructor
    · intro hall
      -- the calls in between are as many
      have hmiddle : next.collectionCalls = sync.collectionCalls :=
        ((collectionCalls_kept hstep).eq_of_length_le
          (hall ▸ (collectionCalls_run_kept hrest).length_le)).symm
      exact ⟨hmiddle, hall.trans hmiddle.symm⟩
    · rintro ⟨hmiddle, hall⟩
      exact hall.trans hmiddle

end Silent

/-- **Nothing happens after the cleanup function is called** exactly if what the source does from
then on is quiet. -/
theorem silent_iff (config : Config) (before after : List Action) (stopped : Sync)
    (hrun : (system config).run .new (before ++ .stop :: after) = some stopped) :
    ∃ sync, (system config).run .new before = some sync ∧
      (stopped.collectionCalls = sync.collectionCalls ↔
        (system config).Along (Quiet config) sync (.stop :: after)) := by
  rw [run_append] at hrun
  obtain ⟨sync, hbefore, hafter⟩ := Option.bind_eq_some_iff.mp hrun
  exact ⟨sync, hbefore, silent_run_iff hafter⟩

/-- Before the cleanup a snapshot and a batch; after it a change that was buffered, and the end. -/
def stoppedInBatch : List Action × List Action :=
  ([.connect, .frame (.snapshot (some [todo "a" "one"]) (some 1)),
      .frame (.change .update (some (todo "a" "two")) (some "a") (some 2)),
      .frame (.upToDate (some 2))],
    [.frame (.change .insert (some (todo "b" "three")) (some "b") (some 3)), .done])

/-- Nothing is written after the cleanup, and the calls before it are still there. -/
theorem silent_iff_stoppedInBatch : ∃ sync stopped,
    (system byId).run .new stoppedInBatch.1 = some sync ∧
    (system byId).run .new (stoppedInBatch.1 ++ .stop :: stoppedInBatch.2) = some stopped ∧
    stopped.collectionCalls = sync.collectionCalls ∧
    stopped.collectionCalls = [.begin, .write (.insert (todo "a" "one")), .commit, .markReady,
      .begin, .write (.update (todo "a" "two")), .commit] := by
  have hrun : ((system byId).run .new
      (stoppedInBatch.1 ++ .stop :: stoppedInBatch.2)).isSome = true := by rfl
  obtain ⟨stopped, hstopped⟩ := Option.isSome_iff_exists.mp hrun
  obtain ⟨sync, hsync, hiff⟩ := silent_iff byId stoppedInBatch.1 stoppedInBatch.2 stopped hstopped
  have hcalls : ((system byId).run .new stoppedInBatch.1).map Sync.collectionCalls =
      some [.begin, .write (.insert (todo "a" "one")), .commit, .markReady,
        .begin, .write (.update (todo "a" "two")), .commit] := by rfl
  rw [hsync] at hcalls
  have hsame : stopped.collectionCalls = sync.collectionCalls := by
    refine hiff.mpr (along_of_forall ?_)
    rintro a ha t
    simp only [stoppedInBatch, List.mem_cons, List.not_mem_nil, or_false] at ha
    rcases ha with rfl | rfl | rfl
    · trivial
    · refine Or.inl fun row hrow => ?_
      obtain rfl := Option.some.inj hrow
      rfl
    · trivial
  exact ⟨sync, stopped, hsync, hstopped, hsame, hsame.trans (Option.some.inj hcalls)⟩

/-- **A buffered snapshot is written after the cleanup function was called**, and an abort before
the first frame marks the collection as ready.  Neither collection had a call before. -/
theorem writes_after_stop :
    ((system byId).run .new [.connect, .stop]).map Sync.collectionCalls = some [] ∧
    ((system byId).run .new
        [.connect, .stop, .frame (.snapshot (some [todo "a" "one"]) none)]).map
      Sync.collectionCalls =
        some [.begin, .write (.insert (todo "a" "one")), .commit, .markReady] ∧
    ((system byId).run .new [.connect, .stop, .fail]).map Sync.collectionCalls =
      some [.markReady] :=
  ⟨rfl, rfl, rfl⟩

end PgPaw.Client
