/-
# `db/primary.rs`: opening an embedded primary

A program over the calls that acquire and release something: the engine, the file that says which
process owns its directory, the listener of the observer.  Each call may fail; a failure is known
by the kind of it that the code looks at, and its text.  Where the code depends on the platform,
it is that of `cfg(unix)`.

Threads and tasks are not among the handles here: a thread of a `CdcBridge` ends with the channel
it reads, and the task of a hub with the bridge.
-/
import PgPaw.Capability.Classify
import PgPaw.Db.Observer
import PgPaw.Lib.Ownership

namespace PgPaw.Lifecycle

open Program

/-! ## 1. Calls and failures -/

/-- What the code tells apart among the failures of the calls it makes. -/
inductive FaultKind
  /-- `pglite::Error::PostmasterStart`, `PoolExhausted`, `Closed`, `Protocol`. -/
  | postmasterStart
  | poolExhausted
  | closed
  | protocol
  /-- `std::io::ErrorKind::NotFound`. -/
  | notFound
  /-- `ESRCH`. -/
  | noSuchProcess
  /-- `tokio_postgres::Error`. -/
  | upstream
  | other
  deriving DecidableEq, Repr

/-- A failed call. -/
structure Fault where
  kind : FaultKind
  message : String
  deriving DecidableEq, Repr

/-- `LifecycleErrorKind`. -/
inductive LifecycleErrorKind
  | dataDirectoryBusy
  | invalidConfiguration
  | startup
  | connection
  | topology
  | shutdown
  | recovery
  deriving DecidableEq, Repr

/-- The errors of `open` and `shutdown`: `CacheError`, with the variants that carry an engine's or
an operating system's error, or a kind. -/
inductive OpenError
  | cache (error : CacheError)
  | pglite (fault : Fault)
  | upstream (fault : Fault)
  | io (fault : Fault)
  | lifecycle (kind : LifecycleErrorKind) (message : String)
  deriving DecidableEq, Repr

/-- What is given back. -/
inductive Handle
  | database (n : Nat)
  | listener (n : Nat)
  | replica (n : Nat)
  | server (n : Nat)
  | serverTask (n : Nat)
  | topology (n : Nat)
  deriving DecidableEq, Repr

/-- The calls. -/
inductive LifeOp
  /-- `std::fs::read_to_string` and `remove_file`, of `postmaster.pid`. -/
  | readPidFile
  | removePidFile
  /-- `kill(pid, 0)`. -/
  | kill (pid : Int)
  /-- `PGlite::open_multi_process`. -/
  | openMultiProcess (database : Option String)
  | connectionUri (db : Nat)
  | query (db : Nat) (sql : String)
  | exec (db : Nat) (sql : String)
  | close (db : Nat)
  | shutdown (db : Nat)
  /-- `std::thread::Builder::spawn`, of `pgpaw-cdc`. -/
  | spawn
  | listen (db : Nat) (channel : String)
  | unlistenToken (db : Nat) (channel : String) (token : Nat)
  /-- `SchemaOps::handoff_legacy_ledgers`. -/
  | handoffLegacyLedgers (db : Nat)
  /-- `setup::preflight`. -/
  | preflight
  | startReplica (db : Nat)
  | stopReplica (replica : Nat)
  | stopCdc
  /-- `HttpServer::bind`. -/
  | bind
  | stopServer (server : Nat)
  /-- Of its task: `is_finished`, and awaiting it. -/
  | serverFinished (server : Nat)
  | joinServer (server : Nat)
  /-- `NodeBuilder::build`, of the node at a place of the configuration. -/
  | buildNode (config : Nat)
  | startTopology (config : Nat)
  | topologyFinished (topology : Nat)
  | waitTopology (topology : Nat)
  | shutdownTopology (topology : Nat)
  deriving DecidableEq, Repr

/-- What is answered: a call looks at what it asked for.  Of a row, what `get` says at a place, as a
text. -/
structure Answer where
  handle : Nat
  text : Option String
  rows : List (Nat → Except Fault String)

/-- A program over the calls, with `?`. -/
abbrev Life := ExceptT OpenError (Program LifeOp (Except Fault Answer))

namespace Life

variable {α : Type}

/-- A call, and what its failure is turned into. -/
def call (op : LifeOp) (failure : Fault → OpenError) : Life Answer :=
  ExceptT.mk (Except.mapError failure <$> Program.perform op)

/-- `let _ =`. -/
def ignore (op : LifeOp) : Life Unit :=
  ExceptT.mk ((fun _ => .ok ()) <$> Program.perform op)

/-- The result of a block, its error included. -/
def attempt (block : Life α) : Life (Except OpenError α) :=
  ExceptT.mk (Except.ok <$> block.run)

/-- A question: its failure is a no. -/
def asks (op : LifeOp) : Life Bool :=
  ExceptT.mk ((fun reply => .ok reply.isOk) <$> Program.perform op)

/-- A value that may be an error, and `?`. -/
def orError (result : Except OpenError α) : Life α := ExceptT.mk (pure result)

end Life

/-- `CacheError::lifecycle`, of a failed call. -/
def lifecycle (kind : LifecycleErrorKind) (fault : Fault) : OpenError :=
  .lifecycle kind fault.message

/-! ## 2. The owner of a directory -/

/-- `str::parse`, of a signed integer of so many bits. -/
def parseSigned (bits : Nat) (text : String) : Option Int :=
  match text.toList with
  | '-' :: digits => (parseUsize (String.ofList digits)).bind fun n =>
      if digits.head?.any Char.isDigit ∧ n ≤ 2 ^ (bits - 1) then some (-(n : Int)) else none
  | _ => (parseUsize text).bind fun n => if n < 2 ^ (bits - 1) then some (n : Int) else none

/-- The process of a `postmaster.pid`: the number in its first line. -/
def pidOf (text : String) : Option Int :=
  parseSigned 32 (String.ofList
    (((text.toList.takeWhile (· != '\n')).dropWhile isWhitespace).rdropWhile isWhitespace))

/-- `process_is_alive`. -/
def processIsAlive (pid : Int) : Life Bool :=
  if pid ≤ 1 then pure true
  else do
    match ← Life.attempt (Life.call (.kill pid) .io) with
    | .ok _ => return true
    | .error (.io fault) => return fault.kind != .noSuchProcess
    | .error _ => return true

/-- `remove_pid_file`. -/
def removePidFile : Life Unit := do
  match ← Life.attempt (Life.call .removePidFile .io) with
  | .ok _ => return
  | .error (.io fault) =>
    if fault.kind == .notFound then return else throw (lifecycle .recovery fault)
  | .error error => throw error

/-- `Path::join`, of the name of a file. -/
def joinPath (dir file : String) : String :=
  if dir.isEmpty || dir.toList.getLast? == some '/' then dir ++ file else dir ++ "/" ++ file

/-- `recover_primary_inner`. -/
def recoverPrimary (dataDir : String) : Life Unit := do
  match ← Life.attempt (Life.call .readPidFile .io) with
  | .error (.io fault) =>
    if fault.kind == .notFound then return else throw (lifecycle .recovery fault)
  | .error error => throw error
  | .ok answer => match pidOf (answer.text.getD "") with
    | none => throw (.lifecycle .recovery
        ("invalid ownership metadata in " ++ joinPath dataDir "postmaster.pid"))
    | some pid =>
      if ← processIsAlive pid then throw (.lifecycle .dataDirectoryBusy dataDir)
      else removePidFile

/-- `primary_is_busy`. -/
def primaryIsBusy : Life Bool := do
  match ← Life.attempt (Life.call .readPidFile .io) with
  | .error _ => return false
  | .ok answer => match pidOf (answer.text.getD "") with
    | none => return false
    | some pid => processIsAlive pid

/-- `primary_start_error`. -/
def primaryStartError (fault : Fault) (dataDir : String) : Life OpenError := do
  let busy ← (if fault.kind == .postmasterStart then primaryIsBusy else pure false : Life Bool)
  if busy then return .lifecycle .dataDirectoryBusy dataDir
  return match fault.kind with
    | .poolExhausted | .closed | .protocol => lifecycle .connection fault
    | _ => lifecycle .startup fault

/-! ## 3. `open_primary_db` -/

/-- `EmbeddedPrimarySource`, but for the addresses and the port, which go to the engine as they
are. -/
structure EmbeddedPrimarySource where
  dataDir : String
  database : String
  minConnections : Nat
  maxConnections : Nat

/-- The open of a database. -/
def openMultiProcess (dataDir database : String) : Life Nat := do
  match ← Life.attempt (Life.call (.openMultiProcess (some database)) .pglite) with
  | .ok answer => return answer.handle
  | .error (.pglite fault) => throw (← primaryStartError fault dataDir)
  | .error error => throw error

/-- The database that is asked for exists. -/
def ensureDatabase (bootstrap : Nat) (database : String) : Life Unit := do
  let literal := String.ofList (doubled '\'' database.toList)
  let ident := String.ofList (doubled '"' database.toList)
  let found ← Life.call (.query bootstrap
    ("SELECT 1 FROM pg_database WHERE datname = '" ++ literal ++ "'")) .pglite
  if found.rows.isEmpty then
    discard (Life.call (.exec bootstrap ("CREATE DATABASE \"" ++ ident ++ "\"")) .pglite)

/-- The address of a database on the engine of another. -/
def dsnOf (base database : String) : Except OpenError String :=
  let address := base.toList.takeWhile (· != '?')
  let query := base.toList.drop address.length
  if '/' ∈ address then
    let before := address.reverse.dropWhile (· != '/')
    .ok (String.ofList before.reverse ++ database ++ String.ofList query)
  else .error (.cache (.config "primary engine exposes an invalid connection_uri"))

/-- The engine's address that is not there. -/
def noConnectionUri : OpenError := .cache (.config "primary engine exposes no connection_uri")

/-- The `prepared` block.  `connection_uri` asks nothing of the engine and has no error: its failure
is a `None`. -/
def prepareDsn (db : Nat) (database : String) : Life String := do
  let answer ← Life.call (.connectionUri db) fun _ => noConnectionUri
  match answer.text with
  | none => throw noConnectionUri
  | some base => Life.orError (dsnOf base database)

/-- The database that is asked for, once the engine runs. -/
def openDatabase (source : EmbeddedPrimarySource) (bootstrap : Nat) : Life Nat :=
  if source.database == "postgres" then pure bootstrap
  else do
    match ← Life.attempt (ensureDatabase bootstrap source.database) with
    | .error error =>
      Life.ignore (.close bootstrap)
      throw error
    | .ok () =>
      discard (Life.call (.close bootstrap) .pglite)
      openMultiProcess source.dataDir source.database

/-- What is asked of a source. -/
def checkPrimary (source : EmbeddedPrimarySource) : Except OpenError Unit := do
  if source.maxConnections == 0 || source.maxConnections < source.minConnections then
    throw (.cache (.config ("primary connections require max_connections greater than zero and " ++
      "min_connections no greater than max_connections")))
  if source.database.isEmpty || 63 < source.database.utf8ByteSize ||
      !(source.database.toList.all fun c => c.isAlphanum || c == '_') then
    throw (.cache (.config ("primary database must use letters, digits, or underscores and " ++
      "contain at most 63 bytes")))

/-- `open_primary_db`. -/
def openPrimaryDb (source : EmbeddedPrimarySource) : Life (Nat × String) := do
  Life.orError (checkPrimary source)
  recoverPrimary source.dataDir
  let bootstrap ← openMultiProcess source.dataDir "postgres"
  let db ← openDatabase source bootstrap
  match ← Life.attempt (prepareDsn db source.database) with
  | .ok dsn => return (db, dsn)
  | .error error =>
    Life.ignore (.close db)
    throw error

/-! ## 4. The observer -/

/-- `PrimaryObserver::start`: the channel, and the token of its listener. -/
def startObserver (db pid : Nat) (tables : List String) : Life (String × Nat) := do
  let channel := Observer.channelName pid
  let token := (← Life.call (.listen db channel) .pglite).handle
  match ← Life.attempt (Life.call (.exec db (Observer.installation channel tables)) .pglite) with
  | .ok _ => return (channel, token)
  | .error error =>
    discard (Life.call (.unlistenToken db channel token) .pglite)
    throw error

/-- `PrimaryObserver::shutdown`. -/
def shutdownObserver (db : Nat) (observer : String × Nat) : Life Unit := do
  Life.ignore .stopCdc
  discard (Life.call (.unlistenToken db observer.1 observer.2) .pglite)

/-! ## 5. What they own -/

namespace LifeOp

/-- The handles that a call needs. -/
def uses : LifeOp → Multiset Handle
  | connectionUri db | query db _ | exec db _ | close db | shutdown db | listen db _
  | handoffLegacyLedgers db | startReplica db => {.database db}
  | unlistenToken db _ token => {.database db, .listener token}
  | stopReplica replica => {.replica replica}
  | stopServer server => {.server server}
  | serverFinished server | joinServer server => {.serverTask server}
  | topologyFinished topology | waitTopology topology | shutdownTopology topology =>
    {.topology topology}
  | readPidFile | removePidFile | kill _ | openMultiProcess _ | spawn | preflight | stopCdc | bind
  | buildNode _ | startTopology _ => 0

/-- The handles that are gone after it, whether it fails or not. -/
def releases : LifeOp → Multiset Handle
  | close db | shutdown db => {.database db}
  | unlistenToken _ _ token => {.listener token}
  | stopReplica replica => {.replica replica}
  | stopServer server => {.server server}
  | joinServer server => {.serverTask server}
  | shutdownTopology topology => {.topology topology}
  | _ => 0

/-- The handles that it brings: of an answer that is numbered so. -/
def brings : LifeOp → Nat → Multiset Handle
  | openMultiProcess _, n => {.database n}
  | listen _ _, n => {.listener n}
  | startReplica _, n => {.replica n}
  | bind, n => {.server n} + {.serverTask n}
  | startTopology _, n => {.topology n}
  | _, _ => 0

/-- And what it has brought, if it has not failed. -/
def acquires (op : LifeOp) : Except Fault Answer → Multiset Handle
  | .ok answer => op.brings answer.handle
  | .error _ => 0

theorem releases_le (op : LifeOp) : op.releases ≤ op.uses := by
  cases op with
  | unlistenToken db channel token =>
    exact Multiset.le_add_left {Handle.listener token} {Handle.database db}
  | close | shutdown | stopReplica | stopServer | joinServer | shutdownTopology => exact le_rfl
  | _ => exact Multiset.zero_le _

end LifeOp

/-- The ownership of the handles. -/
def handles : Ownership LifeOp (Except Fault Answer) Handle :=
  ⟨LifeOp.uses, LifeOp.releases, LifeOp.acquires, LifeOp.releases_le⟩

section Calls

variable {α : Type} {owned needs : Multiset Handle} {op : LifeOp}

/-- A call: what it gives up is gone, and what it brings is there if it succeeds. -/
theorem leaves_op {failure : Fault → OpenError} {left : Answer → Multiset Handle}
    {failed : Multiset Handle} (huses : op.uses ≤ owned)
    (hleft : ∀ answer, owned - op.releases + op.acquires (.ok answer) = left answer)
    (hfailed : owned - op.releases = failed) :
    handles.Leaves owned (Life.call op failure) left failed := by
  refine Ownership.Owns.map (Ownership.Owns.perform huses fun reply => ?_)
  cases reply with
  | ok answer => exact hleft answer
  | error fault => exact (add_zero _).trans hfailed

theorem borrows_call {failure : Fault → OpenError} (huses : op.uses ≤ needs)
    (hreleases : op.releases = 0) (hbrings : ∀ n, op.brings n = 0) :
    handles.Borrows needs (Life.call op failure) := by
  intro owned hneeds
  refine leaves_op (huses.trans hneeds) (fun answer => ?_) (by rw [hreleases, tsub_zero])
  rw [hreleases, tsub_zero, LifeOp.acquires, hbrings, add_zero]

/-- A call that brings a handle. -/
theorem leaves_acquire {failure : Fault → OpenError} (huses : op.uses ≤ owned)
    (hreleases : op.releases = 0) :
    handles.Leaves owned (Life.call op failure) (fun answer => owned + op.brings answer.handle)
      owned := by
  refine leaves_op huses (fun answer => ?_) (by rw [hreleases, tsub_zero])
  rw [hreleases, tsub_zero, LifeOp.acquires]

/-- A call that gives a handle up. -/
theorem leaves_release {failure : Fault → OpenError} {handle : Handle} {rest : Multiset Handle}
    (huses : op.uses ≤ owned) (howned : owned = rest + {handle})
    (hreleases : op.releases = {handle}) (hbrings : ∀ n, op.brings n = 0) :
    handles.Leaves owned (Life.call op failure) (fun _ => rest) rest := by
  subst howned
  refine leaves_op huses (fun answer => ?_) (by rw [hreleases, add_tsub_cancel_right])
  rw [hreleases, add_tsub_cancel_right, LifeOp.acquires, hbrings, add_zero]

/-- A call that brings nothing, and whose answer only says whether it failed. -/
theorem owns_perform {left : Multiset Handle} (huses : op.uses ≤ owned)
    (hleft : owned - op.releases = left) (hbrings : ∀ n, op.brings n = 0) :
    handles.Owns owned (Program.perform op) fun _ => left := by
  refine Ownership.Owns.perform huses fun reply => ?_
  change owned - op.releases + op.acquires reply = left
  rw [hleft]
  cases reply with
  | ok answer => rw [LifeOp.acquires, hbrings, add_zero]
  | error fault => exact add_zero left

/-- A call that gives a handle up, and whose failure is not looked at. -/
theorem leaves_ignore {handle : Handle} {rest failed : Multiset Handle}
    (huses : op.uses ≤ owned) (howned : owned = rest + {handle})
    (hreleases : op.releases = {handle}) (hbrings : ∀ n, op.brings n = 0) :
    handles.Leaves owned (Life.ignore op) (fun _ => rest) failed := by
  subst howned
  have hleft : rest + {handle} - op.releases = rest := by rw [hreleases, add_tsub_cancel_right]
  exact Ownership.Owns.map (owns_perform huses hleft hbrings)

/-- One that gives nothing up. -/
theorem leaves_skip {failed : Multiset Handle} (huses : op.uses ≤ owned)
    (hreleases : op.releases = 0) (hbrings : ∀ n, op.brings n = 0) :
    handles.Leaves owned (Life.ignore op) (fun _ => owned) failed := by
  have hleft : owned - op.releases = owned := by rw [hreleases, tsub_zero]
  exact Ownership.Owns.map (owns_perform huses hleft hbrings)

theorem leaves_asks {failed : Multiset Handle} (huses : op.uses ≤ owned)
    (hreleases : op.releases = 0) (hbrings : ∀ n, op.brings n = 0) :
    handles.Leaves owned (Life.asks op) (fun _ => owned) failed := by
  have hleft : owned - op.releases = owned := by rw [hreleases, tsub_zero]
  exact Ownership.Owns.map (owns_perform huses hleft hbrings)

theorem borrows_orError (result : Except OpenError α) :
    handles.Borrows needs (Life.orError result) := by
  cases result with
  | ok a => exact .pure a
  | error error => exact .throw error

theorem borrows_attempt {block : Life α} (h : handles.Borrows needs block) :
    handles.Borrows needs (Life.attempt block) :=
  Ownership.Borrows.attempt h

theorem leaves_attempt {block : Life α} {left : α → Multiset Handle}
    {failed failed' : Multiset Handle} (h : handles.Leaves owned block left failed) :
    handles.Leaves owned (Life.attempt block) (Ownership.leftOf left failed) failed' :=
  Ownership.Leaves.attempt h

/-- And one that gives a handle up, whether it fails or not. -/
theorem leaves_attempt_release {failure : Fault → OpenError} {handle : Handle}
    {rest failed : Multiset Handle} (huses : op.uses ≤ owned) (howned : owned = rest + {handle})
    (hreleases : op.releases = {handle}) (hbrings : ∀ n, op.brings n = 0) :
    handles.Leaves owned (Life.attempt (discard (Life.call op failure))) (fun _ => rest) failed :=
  Ownership.Leaves.settle
    (Ownership.Leaves.discard (leaves_release huses howned hreleases hbrings))

end Calls

/-! ## 6. Opening -/

theorem borrows_processIsAlive (pid : Int) : handles.Borrows 0 (processIsAlive pid) := by
  unfold processIsAlive
  split
  · exact .pure true
  · refine .bind (borrows_attempt (borrows_call le_rfl rfl fun _ => rfl)) fun result => ?_
    split <;> exact .pure _

theorem borrows_removePidFile : handles.Borrows 0 removePidFile := by
  refine .bind (borrows_attempt (borrows_call le_rfl rfl fun _ => rfl)) fun result => ?_
  split
  · exact .pure _
  · split
    · exact .pure _
    · exact .throw _
  · exact .throw _

theorem borrows_recoverPrimary (dataDir : String) :
    handles.Borrows 0 (recoverPrimary dataDir) := by
  refine .bind (borrows_attempt (borrows_call le_rfl rfl fun _ => rfl)) fun result => ?_
  split
  · split
    · exact .pure _
    · exact .throw _
  · exact .throw _
  · split
    · exact .throw _
    · refine .bind (borrows_processIsAlive _) fun alive => ?_
      split
      · exact .throw _
      · exact borrows_removePidFile

theorem borrows_primaryIsBusy : handles.Borrows 0 primaryIsBusy := by
  refine .bind (borrows_attempt (borrows_call le_rfl rfl fun _ => rfl)) fun result => ?_
  split
  · exact .pure _
  · split
    · exact .pure _
    · exact borrows_processIsAlive _

theorem borrows_primaryStartError (fault : Fault) (dataDir : String) :
    handles.Borrows 0 (primaryStartError fault dataDir) := by
  unfold primaryStartError
  refine Ownership.Borrows.bind ?_ fun busy => ?_
  · split
    · exact borrows_primaryIsBusy
    · exact .pure _
  · split
    · exact .pure _
    · exact .pure _

theorem leaves_openMultiProcess (dataDir database : String) :
    handles.Leaves 0 (openMultiProcess dataDir database) (fun db => {.database db}) 0 := by
  unfold openMultiProcess
  refine Ownership.Leaves.bind (leaves_attempt (leaves_acquire le_rfl rfl)) fun result => ?_
  split
  · exact Ownership.Leaves.pure (zero_add _)
  · exact (borrows_primaryStartError _ dataDir 0 le_rfl).bind fun _ => Ownership.Leaves.throw rfl
  · exact Ownership.Leaves.throw rfl

theorem borrows_ensureDatabase (bootstrap : Nat) (database : String) :
    handles.Borrows {.database bootstrap} (ensureDatabase bootstrap database) := by
  unfold ensureDatabase
  refine Ownership.Borrows.bind (borrows_call le_rfl rfl fun _ => rfl) fun found => ?_
  split
  · exact Ownership.Borrows.discard (borrows_call le_rfl rfl fun _ => rfl)
  · exact .pure _

theorem borrows_prepareDsn (db : Nat) (database : String) :
    handles.Borrows {.database db} (prepareDsn db database) := by
  unfold prepareDsn
  refine Ownership.Borrows.bind (borrows_call le_rfl rfl fun _ => rfl) fun answer => ?_
  split
  · exact .throw _
  · exact borrows_orError _

theorem leaves_openDatabase (source : EmbeddedPrimarySource) (bootstrap : Nat) :
    handles.Leaves {.database bootstrap} (openDatabase source bootstrap)
      (fun db => {.database db}) 0 := by
  unfold openDatabase
  split
  · exact Ownership.Leaves.pure rfl
  refine Ownership.Leaves.bind
    (leaves_attempt (borrows_ensureDatabase bootstrap source.database _ le_rfl)) fun result => ?_
  split
  · exact Ownership.Leaves.bind (leaves_ignore le_rfl (zero_add _).symm rfl fun _ => rfl)
      fun _ => Ownership.Leaves.throw rfl
  · exact Ownership.Leaves.bind
      (Ownership.Leaves.discard (leaves_release le_rfl (zero_add _).symm rfl fun _ => rfl))
      fun _ => leaves_openMultiProcess source.dataDir source.database

/-- **`open_primary_db` leaves the database open, or nothing.** -/
theorem leaves_openPrimaryDb (source : EmbeddedPrimarySource) :
    handles.Leaves 0 (openPrimaryDb source) (fun opened => {.database opened.1}) 0 := by
  unfold openPrimaryDb
  refine Ownership.Leaves.bind (borrows_orError (checkPrimary source) 0 le_rfl) fun _ => ?_
  refine Ownership.Leaves.bind (borrows_recoverPrimary source.dataDir 0 le_rfl) fun _ => ?_
  refine Ownership.Leaves.bind (leaves_openMultiProcess source.dataDir "postgres")
    fun bootstrap => ?_
  refine Ownership.Leaves.bind (leaves_openDatabase source bootstrap) fun db => ?_
  refine Ownership.Leaves.bind
    (leaves_attempt (borrows_prepareDsn db source.database _ le_rfl)) fun result => ?_
  split
  · exact Ownership.Leaves.pure rfl
  · exact Ownership.Leaves.bind (leaves_ignore le_rfl (zero_add _).symm rfl fun _ => rfl)
      fun _ => Ownership.Leaves.throw rfl

theorem leaves_startObserver (db pid : Nat) (tables : List String) :
    handles.Leaves {.database db} (startObserver db pid tables)
      (fun observer => {.database db} + {.listener observer.2}) {.database db} := by
  unfold startObserver
  refine Ownership.Leaves.bind (leaves_acquire le_rfl rfl) fun answer => ?_
  refine Ownership.Leaves.bind (leaves_attempt (borrows_call le_rfl rfl (fun _ => rfl) _
    (Multiset.le_add_right _ _))) fun result => ?_
  split
  · exact Ownership.Leaves.pure rfl
  · exact Ownership.Leaves.bind
      (Ownership.Leaves.discard (leaves_release le_rfl rfl rfl fun _ => rfl))
      fun _ => Ownership.Leaves.throw rfl

theorem leaves_shutdownObserver (db : Nat) (observer : String × Nat) :
    handles.Leaves ({.database db} + {.listener observer.2}) (shutdownObserver db observer)
      (fun _ => {.database db}) {.database db} := by
  unfold shutdownObserver
  refine Ownership.Leaves.bind (leaves_skip (Multiset.zero_le _) rfl fun _ => rfl) fun _ => ?_
  exact Ownership.Leaves.discard (leaves_release le_rfl rfl rfl fun _ => rfl)

end PgPaw.Lifecycle
