/-
# `db/primary.rs`: whose directory it is

`recover_primary` looks for the process that a directory's `postmaster.pid` names, and removes the
file if there is no such process.  What `open_primary_db` may do is said of the calls made so far
(`Careful`): the file is removed only of a process that is known to be gone, and the engine is
started only where there was no file, or it was removed so.  A process is asked after only by a
number of its own, since 0, 1 and the negative ones stand for others.

Between the question and the answer another process may come; nothing is said of that here.
-/
import PgPaw.Db.Lifecycle

namespace PgPaw.Lifecycle

open Program

/-- The calls made so far. -/
abbrev Calls := Trace LifeOp (Except Fault Answer)

/-! ## 1. What may be done -/

/-- The file names a process, and there is no such process. -/
def Gone (calls : Calls) : Prop :=
  ∃ read answer pid asked fault, calls = [(.readPidFile, read), (.kill pid, asked)] ∧
    read.reply = some (.ok answer) ∧ pidOf (answer.text.getD "") = some pid ∧ 1 < pid ∧
    asked.reply = some (.error fault) ∧ fault.kind = .noSuchProcess

/-- There is no file. -/
def NoFile (calls : Calls) : Prop :=
  ∃ read fault, calls = [(.readPidFile, read)] ∧ read.reply = some (.error fault) ∧
    fault.kind = .notFound

/-- There was one, and it has been removed. -/
def Removed (calls : Calls) : Prop :=
  ∃ gone removed reply, calls = gone ++ [(.removePidFile, removed)] ∧ Gone gone ∧
    removed.reply = some reply ∧ ∀ fault, reply = .error fault → fault.kind = .notFound

/-- The directory has been found without an owner. -/
def Unowned (calls : Calls) : Prop := ∃ check, check <+: calls ∧ (NoFile check ∨ Removed check)

/-- What may be done after these calls. -/
def Careful (calls : Calls) : LifeOp → Prop
  | .removePidFile => Gone calls
  | .kill pid => 1 < pid
  | .openMultiProcess _ => Unowned calls
  | _ => True

def careful : Contract LifeOp (Except Fault Answer) := ⟨Careful, fun _ _ => True⟩

theorem Unowned.append {calls : Calls} (h : Unowned calls) (more : Calls) :
    Unowned (calls ++ more) := by
  obtain ⟨check, hprefix, hcheck⟩ := h
  exact ⟨check, hprefix.trans (List.prefix_append _ _), hcheck⟩

/-! ## 2. The check -/

/-- One more call, and what is made of its answer. -/
def Answered (pre : Calls → Prop) (op : LifeOp) (failure : Fault → OpenError)
    (result : Except OpenError Answer) (calls : Calls) : Prop :=
  ∃ before await reply, pre before ∧ calls = before ++ [(op, await)] ∧
    await.reply = some reply ∧ result = reply.mapError failure

section Check

variable {α : Type} {pre : Calls → Prop} {post : Except OpenError α → Calls → Prop}

/-- A call whose failure is looked at. -/
theorem obeys_attempt_call {op : LifeOp} {failure : Fault → OpenError}
    (hallows : ∀ before, pre before → Careful before op) :
    careful.Obeys pre (Life.attempt (Life.call op failure)).run
      (Contract.goingOn (Answered pre op failure) post) :=
  Contract.Obeys.map (Contract.Obeys.map (Contract.Obeys.perform hallows
    fun before await reply h hreply _ => ⟨before, await, reply, h, rfl, hreply, rfl⟩))

/-- The failure that is looked at is the call's. -/
theorem Answered.error {op : LifeOp} {failure : Fault → OpenError} {error : OpenError}
    {calls : Calls} (h : Answered pre op failure (.error error) calls) :
    ∃ before await fault, pre before ∧ calls = before ++ [(op, await)] ∧
      await.reply = some (.error fault) ∧ error = failure fault := by
  obtain ⟨before, await, reply, hpre, hcalls, hreply, hresult⟩ := h
  cases reply with
  | ok answer => cases hresult
  | error fault => exact ⟨before, await, fault, hpre, hcalls, hreply, Except.error.inj hresult⟩

/-- `process_is_alive`, and what a no means. -/
theorem obeys_processIsAlive (pid : Int) :
    careful.Obeys pre (processIsAlive pid).run (Contract.goingOn (fun alive calls =>
      alive = false → 1 < pid ∧ ∃ before asked fault, pre before ∧
        calls = before ++ [(.kill pid, asked)] ∧ asked.reply = some (.error fault) ∧
        fault.kind = .noSuchProcess) post) := by
  unfold processIsAlive
  split
  · exact Contract.Obeys.done fun _ _ h => by cases h
  next hpid =>
    have hpid : 1 < pid := by omega
    refine Contract.Obeys.fallible_bind _ (obeys_attempt_call fun _ _ => hpid) fun result => ?_
    split
    · exact Contract.Obeys.done fun _ _ h => by cases h
    next fault =>
      refine Contract.Obeys.done fun calls hcalls halive => ⟨hpid, ?_⟩
      obtain ⟨before, asked, fault', hpre, rfl, hreply, herror⟩ := hcalls.error
      obtain rfl : fault = fault' := OpenError.io.inj herror
      exact ⟨before, asked, fault, hpre, rfl, hreply, by simpa using halive⟩
    · exact Contract.Obeys.done fun _ _ h => by cases h

/-- `remove_pid_file`: where it succeeds, there is no file. -/
theorem obeys_removePidFile :
    careful.Obeys Gone removePidFile.run (Contract.goingOn (fun _ => Removed)
      fun (_ : Except OpenError α) _ => True) := by
  refine Contract.Obeys.fallible_bind _ (obeys_attempt_call fun _ h => h) fun result => ?_
  split
  next answer =>
    refine Contract.Obeys.done fun calls hcalls => ?_
    obtain ⟨before, removed, reply, hgone, rfl, hreply, hresult⟩ := hcalls
    refine ⟨before, removed, reply, rfl, hgone, hreply, ?_⟩
    rintro fault rfl
    cases hresult
  next fault =>
    split
    next hkind =>
      refine Contract.Obeys.done fun calls hcalls => ?_
      obtain ⟨before, removed, fault', hgone, rfl, hreply, herror⟩ := hcalls.error
      obtain rfl : fault = fault' := OpenError.io.inj herror
      refine ⟨before, removed, _, rfl, hgone, hreply, ?_⟩
      rintro _ ⟨⟩
      simpa using hkind
    · exact Contract.Obeys.done fun _ _ => trivial
  · exact Contract.Obeys.done fun _ _ => trivial

/-- **`recover_primary`**: where it succeeds, the directory has no owner. -/
theorem obeys_recoverPrimary (dataDir : String) :
    careful.Obeys (· = []) (recoverPrimary dataDir).run (Contract.goingOn (fun _ => Unowned)
      fun (_ : Except OpenError α) _ => True) := by
  refine Contract.Obeys.fallible_bind _ (obeys_attempt_call fun _ _ => trivial) fun result => ?_
  split
  next fault =>
    split
    next hkind =>
      refine Contract.Obeys.done fun calls hcalls => ?_
      obtain ⟨_, read, fault', rfl, rfl, hreply, herror⟩ := hcalls.error
      obtain rfl : fault = fault' := OpenError.io.inj herror
      exact ⟨_, List.prefix_refl _, Or.inl ⟨read, fault, rfl, hreply, by simpa using hkind⟩⟩
    · exact Contract.Obeys.done fun _ _ => trivial
  · exact Contract.Obeys.done fun _ _ => trivial
  next answer =>
    split
    · exact Contract.Obeys.done fun _ _ => trivial
    next pid hpid =>
      refine Contract.Obeys.fallible_bind _ (obeys_processIsAlive pid) fun alive => ?_
      split
      · exact Contract.Obeys.done fun _ _ => trivial
      next halive =>
        have hremove : careful.Obeys Gone removePidFile.run
            (Contract.goingOn (fun _ => Removed) fun (_ : Except OpenError Unit) _ => True) :=
          obeys_removePidFile
        refine hremove.weaken (fun calls hcalls => ?_) fun result calls h => ?_
        · obtain ⟨hpid', _, asked, fault, ⟨_, read, reply, rfl, rfl, hreply, hresult⟩, rfl, hasked,
            hkind⟩ := hcalls (by simpa using halive)
          cases reply with
          | ok answer' =>
            obtain rfl : answer = answer' := Except.ok.inj hresult
            exact ⟨read, answer, pid, asked, fault, rfl, hreply, hpid, hpid', hasked, hkind⟩
          | error fault' => cases hresult
        · cases result with
          | ok _ => exact ⟨calls, List.prefix_refl _, Or.inr h⟩
          | error _ => trivial

end Check

/-! ## 3. After it -/

section Cautious

variable {α β : Type}

/-- What is done to a directory without an owner. -/
def Cautious (p : Life α) : Prop := careful.Obeys Unowned p.run fun _ => Unowned

namespace Cautious

variable {p : Life α} {op : LifeOp}

theorem pure (a : α) : Cautious (pure a : Life α) := Contract.Obeys.done fun _ h => h

theorem throw (error : OpenError) : Cautious (throw error : Life α) :=
  Contract.Obeys.done fun _ h => h

theorem bind {f : α → Life β} (hp : Cautious p) (hf : ∀ a, Cautious (f a)) :
    Cautious (p >>= f) := by
  refine Contract.Obeys.fallible_bind (fun _ => Unowned) (Contract.Obeys.weaken hp
    (fun _ h => h) fun result calls h => ?_) hf
  cases result <;> exact h

theorem discard (hp : Cautious p) : Cautious (discard p) := hp.bind fun _ => pure _

theorem attempt (hp : Cautious p) : Cautious (Life.attempt p) := Contract.Obeys.map hp

theorem perform (hop : ∀ calls, Unowned calls → Careful calls op) :
    careful.Obeys Unowned (Program.perform op) fun _ => Unowned :=
  Contract.Obeys.perform hop fun _ _ _ h _ _ => h.append _

theorem call {failure : Fault → OpenError} (hop : ∀ calls, Unowned calls → Careful calls op) :
    Cautious (Life.call op failure) := Contract.Obeys.map (perform hop)

theorem ignore (hop : ∀ calls, Unowned calls → Careful calls op) : Cautious (Life.ignore op) :=
  Contract.Obeys.map (perform hop)

theorem orError (result : Except OpenError α) : Cautious (Life.orError result) :=
  Contract.Obeys.done fun _ h => h

end Cautious

open Cautious in
theorem cautious_processIsAlive (pid : Int) : Cautious (processIsAlive pid) := by
  unfold processIsAlive
  split
  · exact pure true
  next hpid =>
    have hpid : 1 < pid := by omega
    refine bind (attempt (call fun _ _ => hpid)) fun result => ?_
    split <;> exact pure _

open Cautious in
theorem cautious_primaryStartError (fault : Fault) (dataDir : String) :
    Cautious (primaryStartError fault dataDir) := by
  have hbusy : Cautious primaryIsBusy := by
    refine bind (attempt (call fun _ _ => trivial)) fun result => ?_
    split
    · exact pure _
    · split
      · exact pure _
      · exact cautious_processIsAlive _
  unfold primaryStartError
  refine Cautious.bind ?_ fun busy => ?_
  · split
    · exact hbusy
    · exact pure _
  · split <;> exact pure _

open Cautious in
theorem cautious_openMultiProcess (dataDir database : String) :
    Cautious (openMultiProcess dataDir database) := by
  unfold openMultiProcess
  refine Cautious.bind (attempt (call fun _ h => h)) fun result => ?_
  split
  · exact pure _
  · exact Cautious.bind (cautious_primaryStartError _ dataDir) fun error => throw error
  · exact throw _

open Cautious in
theorem cautious_openDatabase (source : EmbeddedPrimarySource) (bootstrap : Nat) :
    Cautious (openDatabase source bootstrap) := by
  have hensure : Cautious (ensureDatabase bootstrap source.database) := by
    unfold ensureDatabase
    refine Cautious.bind (call fun _ _ => trivial) fun found => ?_
    split
    · exact discard (call fun _ _ => trivial)
    · exact pure _
  unfold openDatabase
  split
  · exact pure _
  refine Cautious.bind (attempt hensure) fun result => ?_
  split
  · exact Cautious.bind (ignore fun _ _ => trivial) fun _ => throw _
  · exact Cautious.bind (discard (call fun _ _ => trivial)) fun _ =>
      cautious_openMultiProcess source.dataDir source.database

open Cautious in
theorem cautious_prepareDsn (db : Nat) (database : String) :
    Cautious (prepareDsn db database) := by
  unfold prepareDsn
  refine Cautious.bind (call fun _ _ => trivial) fun answer => ?_
  split
  · exact throw _
  · exact orError _

end Cautious

/-- **`open_primary_db` is careful**: in any run of it, with whatever failures, the file of an
owner is removed only when there is no such process, the engine is started, once or twice, only in
a directory that was found without an owner, and no process is asked after but by a number of its
own. -/
theorem open_primary_is_careful (source : EmbeddedPrimarySource)
    (script : List (Await (Except Fault Answer))) :
    ∀ before op await after,
      ((openPrimaryDb source).run.play script).2 = before ++ (op, await) :: after →
        Careful before op := by
  intro before op await after hsplit
  have hobeys : careful.Obeys (· = []) (openPrimaryDb source).run fun _ _ => True := by
    have hcheck : careful.Obeys (· = []) (Life.orError (checkPrimary source)).run
        (Contract.goingOn (fun _ => (· = []))
          fun (_ : Except OpenError (Nat × String)) _ => True) := by
      refine Contract.Obeys.done fun calls h => ?_
      cases checkPrimary source with
      | ok _ => exact h
      | error _ => trivial
    refine Contract.Obeys.fallible_bind _ hcheck fun _ => ?_
    refine Contract.Obeys.fallible_bind _ (obeys_recoverPrimary source.dataDir) fun _ => ?_
    refine Contract.Obeys.weaken ?_ (fun _ h => h) fun _ calls (_ : Unowned calls) => trivial
    refine Cautious.bind (cautious_openMultiProcess source.dataDir "postgres") fun bootstrap => ?_
    refine Cautious.bind (cautious_openDatabase source bootstrap) fun db => ?_
    refine Cautious.bind (Cautious.attempt (cautious_prepareDsn db source.database))
      fun result => ?_
    split
    · exact Cautious.pure _
    · exact Cautious.bind (Cautious.ignore fun _ _ => trivial) fun _ => Cautious.throw _
  exact hobeys.allows_of_split hsplit fun _ _ => trivial

/-- A file that a crash left is removed, and the engine is started. -/
theorem crashed_is_careful :
    Careful [(.readPidFile, ⟨true, some (.ok ⟨0, some "4242\n/data\n", []⟩)⟩),
        (.kill 4242, ⟨true, some (.error ⟨.noSuchProcess, "No such process"⟩)⟩),
        (.removePidFile, ⟨true, some (.ok ⟨0, none, []⟩)⟩)]
      (.openMultiProcess (some "postgres")) :=
  open_primary_is_careful ⟨"/data", "postgres", 0, 8⟩
    [⟨true, some (.ok ⟨0, some "4242\n/data\n", []⟩)⟩,
      ⟨true, some (.error ⟨.noSuchProcess, "No such process"⟩)⟩,
      ⟨true, some (.ok ⟨0, none, []⟩)⟩, ⟨true, none⟩] _ _ ⟨true, none⟩ [] (by rfl)

end PgPaw.Lifecycle
