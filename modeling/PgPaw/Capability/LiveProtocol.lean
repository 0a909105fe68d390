/-
# The protocol of a live subscription

Beside a run of the hub, `Log` notes what happened to each subscription: which transactions
selected it while it was registered, for which of them its query ran again, and what ended it.
`Stream` is the grammar of the events sent to a subscription, read against this log: a snapshot,
a batch for every transaction that selected it and whose query ran (`due`), and a reset if the
channel lagged or its query failed.  As long as it is registered neither has happened, but for an
error the worker has yet to answer.  A subscription that was dropped may miss the batches that
were still due.

A batch is sent under one lock, and a subscription in the map has its receiver (`Hub`), so a batch
is sent whole or not at all.
-/
import PgPaw.Capability.Frame
import PgPaw.Capability.LiveStream

namespace PgPaw.Live

open Transition MapDiff

variable {γ : Type} {env : Env γ}

/-! ## 1. What is noted beside a run -/

/-- What happened to the subscriptions, by their ids. -/
structure Log where
  /-- A commit selected the subscription's job while it was registered. -/
  selected : Nat → Nat → Bool
  /-- Its query ran for the commit. -/
  succeeded : Nat → Nat → Bool
  /-- Its query failed. -/
  failed : Nat → Bool
  /-- It was registered when the channel had lagged. -/
  lagged : Nat → Bool
  /-- `LiveSubscription::drop` was called. -/
  dropped : Nat → Bool

def Log.empty : Log :=
  ⟨fun _ _ => false, fun _ _ => false, fun _ => false, fun _ => false, fun _ => false⟩

/-- The subscription is registered, and the commit changed one of its tables, in whatever case
the names are written. -/
def concerns (s : State γ) (commit id : Nat) : Bool :=
  match s.core.history.label commit, s.subs id with
  | some txn, some sub => txn.changes.any fun change =>
      sub.tables.any fun table => eqIgnoreAsciiCase (changeTable change) table
  | _, _ => false

/-- `on_commit` selects exactly these. -/
theorem matched_touched (sub : Subscription) (txn : CommittedTransaction) :
    sub.matched txn.touched = txn.changes.any fun change =>
      sub.tables.any fun table => eqIgnoreAsciiCase (changeTable change) table := by
  rw [Bool.eq_iff_iff]
  simp only [Subscription.matched, CommittedTransaction.touched, List.any_eq_true,
    List.contains_iff_mem, List.mem_map, eqIgnoreAsciiCase, beq_iff_eq]
  constructor
  · rintro ⟨table, ht, change, hc, he⟩
    exact ⟨change, hc, table, ht, he⟩
  · rintro ⟨change, hc, table, ht, he⟩
    exact ⟨table, ht, change, hc, he⟩

/-- What a step adds to the log. -/
def Log.record (env : Env γ) (s : State γ) (log : Log) : Action γ → Log
  | .receive _ => match s.queue with
    | m :: _ => { log with
        selected := fun id k => log.selected id k || (k == m && concerns s m id) }
    | [] => log
  | .requery => match s.worker with
    | .busy m (job :: _) none => match job.result env.engine s.core.history.current with
      | .ok _ => { log with
          succeeded := fun id k => log.succeeded id k || (id == job.id && k == m) }
      | .error _ => { log with failed := fun id => log.failed id || id == job.id }
    | _ => log
  | .resetAll => { log with lagged := fun id => log.lagged id || (s.subs id).isSome }
  | .drop id => { log with dropped := fun i => log.dropped i || i == id }
  | _ => log

/-- The runs of the hub, with the log. -/
def logged (env : Env γ) (pk : List (String × String)) (full : List String) :
    System (State γ × Log) (Action γ) where
  init s := Fresh pk full s.1 ∧ s.2 = Log.empty
  step s a := (step env s.1 a).map fun s' => (s', s.2.record env s.1 a)

/-! ## 2. The grammar -/

/-- What a transaction sent to a subscription. -/
structure Batch where
  commit : Nat
  txid : Nat
  deltas : List Delta

namespace Batch

def events (b : Batch) : List Event := batch b.deltas b.txid

/-- One change for a key at most, and the id of the transaction. -/
def Ok (s : State γ) (b : Batch) : Prop :=
  (b.deltas.map Delta.key).Nodup ∧
    ∃ txn, s.core.history.label b.commit = some txn ∧ b.txid = txn.xid

end Batch

/-- The first event of a stream. -/
def Event.isSnapshot : Event → Bool
  | .snapshotRows _ _ | .snapshotUrl _ _ => true
  | .delta _ _ | .upToDate _ | .reset => false

/-- The delivered transactions a subscription is due a batch for, in the order of delivery. -/
def due (s : State γ) (log : Log) (id : Nat) : List Nat :=
  s.delivered.filter fun m => log.selected id m && log.succeeded id m

/-- The batch the worker is about to send. -/
def inHand (s : State γ) (id : Nat) : List Nat :=
  match s.worker with
  | .busy m (job :: _) (some (.ok _)) => if job.id = id then [m] else []
  | _ => []

/-- A snapshot, and then batches. -/
structure Batches (s : State γ) (id : Nat) (batches : List Batch) (ending : List Event) : Prop where
  sent : ∃ first, first.isSnapshot = true ∧
    s.sent id = first :: batches.flatMap Batch.events ++ ending
  ok : ∀ b ∈ batches, b.Ok s

/-- The worker holds the error of the subscription's query. -/
def Failing (s : State γ) (id : Nat) : Prop :=
  ∃ m job jobs e, s.worker = .busy m (job :: jobs) (some (.error e)) ∧ job.id = id

/-- The subscription saw no lag, and no error but the one the worker holds. -/
structure Unharmed (s : State γ) (log : Log) (id : Nat) : Prop where
  lagged : log.lagged id = false
  failed : log.failed id = true → Failing s id

/-- **The events of a subscription**, by what has become of it. -/
inductive Stream (s : State γ) (log : Log) (id : Nat) : Prop
  /-- It has a batch for every transaction it is due one for, but for one being sent, and there
  was no reason to reset it. -/
  | registered {batches : List Batch} (hbatches : Batches s id batches [])
      (hsub : s.subs id ≠ none)
      (hdue : due s log id = batches.map Batch.commit ++ inHand s id)
      (hunharmed : Unharmed s log id)
  /-- It had them all when it was reset. -/
  | reset {batches : List Batch} (hbatches : Batches s id batches [.reset])
      (hsub : s.subs id = none) (hdue : due s log id = batches.map Batch.commit)
      (hwhy : log.lagged id = true ∨ log.failed id = true)
      (hjobs : ∀ job ∈ s.worker.jobs, job.id ≠ id)
  /-- The batches sent before it was dropped. -/
  | dropped {batches : List Batch} (hbatches : Batches s id batches [])
      (hsub : s.subs id = none) (hdue : batches.map Batch.commit <+: due s log id)
      (hdropped : log.dropped id = true)

/-! ## 3. What a stream depends on -/

section Frame

variable {s s' : State γ} {log log' : Log} {id : Nat}

theorem Batch.Ok.extends {b : Batch} (h : b.Ok s) (hx : Read.Extends s.core s'.core) : b.Ok s' := by
  obtain ⟨hnodup, txn, hlabel, htxid⟩ := h
  exact ⟨hnodup, txn, by rw [hx.label _ (History.lt_length_of_label hlabel), hlabel], htxid⟩

theorem Batches.of_sent {batches : List Batch} {ending : List Event}
    (h : Batches s id batches ending) (hx : Read.Extends s.core s'.core)
    (hsent : s'.sent id = s.sent id) : Batches s' id batches ending :=
  ⟨by rw [hsent]; exact h.sent, fun b hb => (h.ok b hb).extends hx⟩

/-- A log that notes more. -/
structure Log.Le (log log' : Log) (id : Nat) : Prop where
  lagged : log.lagged id = true → log'.lagged id = true
  failed : log.failed id = true → log'.failed id = true
  dropped : log.dropped id = true → log'.dropped id = true

theorem Log.Le.of_eq (hlagged : log'.lagged = log.lagged) (hfailed : log'.failed = log.failed)
    (hdropped : log'.dropped = log.dropped) : log.Le log' id :=
  ⟨fun h => hlagged ▸ h, fun h => hfailed ▸ h, fun h => hdropped ▸ h⟩

/-- The worker holds the same. -/
theorem Unharmed.of_worker (h : Unharmed s log id) (hworker : s'.worker = s.worker)
    (hlagged : log'.lagged id = log.lagged id) (hfailed : log'.failed id = log.failed id) :
    Unharmed s' log' id where
  lagged := hlagged.trans h.lagged
  failed hf := by
    obtain ⟨m, job, jobs, e, hheld, hid⟩ := h.failed (hfailed ▸ hf)
    exact ⟨m, job, jobs, e, hworker.trans hheld, hid⟩

/-- The worker holds no error of the subscription: its query has not failed. -/
theorem Unharmed.of_not_failing (h : Unharmed s log id) (hnot : ¬ Failing s id)
    (hlagged : log'.lagged id = log.lagged id) (hfailed : log'.failed id = log.failed id) :
    Unharmed s' log' id where
  lagged := hlagged.trans h.lagged
  failed hf := absurd (h.failed (hfailed ▸ hf)) hnot

theorem not_failing_of_worker {worker : Worker} (h : s.worker = worker)
    (hno : ∀ m jobs e, worker ≠ .busy m jobs (some (.error e))) : ¬ Failing s id := by
  rintro ⟨m, job, jobs, e, hheld, -⟩
  exact hno m (job :: jobs) e (h.symm.trans hheld)

theorem not_failing_of_ne (h : ∀ job ∈ s.worker.jobs.head?, job.id ≠ id) : ¬ Failing s id := by
  rintro ⟨m, job, jobs, e, hheld, hid⟩
  rw [hheld] at h
  exact h job rfl hid

/-- A step that sends nothing to a subscription and does not touch it. -/
theorem Stream.of_same (h : Stream s log id) (hx : Read.Extends s.core s'.core)
    (hsent : s'.sent id = s.sent id) (hsubs : s'.subs id = none ↔ s.subs id = none)
    (hdue : due s' log' id = due s log id) (hhand : s.subs id ≠ none → inHand s' id = inHand s id)
    (hunharmed : s.subs id ≠ none → Unharmed s log id → Unharmed s' log' id)
    (hjobs : ∀ job ∈ s'.worker.jobs, job ∈ s.worker.jobs ∨ s.subs job.id ≠ none)
    (hlog : log.Le log' id) : Stream s' log' id := by
  cases h with
  | registered hbatches hsub hd hok =>
    exact .registered (hbatches.of_sent hx hsent) (fun hnone => hsub (hsubs.mp hnone))
      (by rw [hdue, hhand hsub, hd]) (hunharmed hsub hok)
  | reset hbatches hsub hd hwhy hno =>
    refine .reset (hbatches.of_sent hx hsent) (hsubs.mpr hsub) (hdue.trans hd)
      (hwhy.imp hlog.lagged hlog.failed) fun job hjob => ?_
    rcases hjobs job hjob with hold | hopen
    · exact hno job hold
    · rintro rfl
      exact hopen hsub
  | dropped hbatches hsub hd hdropped =>
    exact .dropped (hbatches.of_sent hx hsent) (hsubs.mpr hsub) (hdue ▸ hd)
      (hlog.dropped hdropped)

end Frame

/-! ## 4. What the log knows -/

/-- The transactions that were delivered, with those on their way to the hub. -/
def inTransit (s : State γ) : List Nat := s.delivered ++ s.queue ++ s.sending.toList

/-- The jobs whose query has not run. -/
def waiting (jobs : List LiveJob) : Option (Except CacheError String) → List LiveJob
  | none => jobs
  | some _ => jobs.tail

/-- The worker is at the last transaction delivered, which selected its jobs. -/
structure Working (s : State γ) (log : Log) (m : Nat) (jobs : List LiveJob)
    (fresh : Option (Except CacheError String)) : Prop where
  last : ∃ before, s.delivered = before ++ [m]
  selected : ∀ job ∈ jobs, log.selected job.id m = true
  waiting : ∀ job ∈ waiting jobs fresh, log.succeeded job.id m = false
  failed : ∀ job ∈ jobs.head?, ∀ e, fresh = some (.error e) → log.failed job.id = true

/-- **The invariant of the log.** -/
structure Noted (s : State γ) (log : Log) : Prop where
  once : (inTransit s).Nodup
  known : ∀ id m, log.selected id m = true → id < s.nextId
  ended : ∀ id, log.lagged id = true ∨ log.failed id = true → id < s.nextId
  heard : ∀ id m, log.succeeded id m = true → m ∈ s.delivered
  working : ∀ m jobs fresh, s.worker = .busy m jobs fresh → Working s log m jobs fresh

section Record

variable {s : State γ} {log : Log}

theorem record_receive {m : Nat} {queue order : List Nat} (hqueue : s.queue = m :: queue) :
    log.record env s (.receive order) = { log with
      selected := fun id k => log.selected id k || (k == m && concerns s m id) } := by
  simp only [Log.record, hqueue]

theorem record_requery_ok {m : Nat} {job : LiveJob} {jobs : List LiveJob} {body : String}
    (hbusy : s.worker = .busy m (job :: jobs) none)
    (hrun : job.result env.engine s.core.history.current = .ok body) :
    log.record env s .requery = { log with
      succeeded := fun id k => log.succeeded id k || (id == job.id && k == m) } := by
  simp only [Log.record, hbusy, hrun]

theorem record_requery_error {m : Nat} {job : LiveJob} {jobs : List LiveJob} {e : CacheError}
    (hbusy : s.worker = .busy m (job :: jobs) none)
    (hrun : job.result env.engine s.core.history.current = .error e) :
    log.record env s .requery =
      { log with failed := fun id => log.failed id || id == job.id } := by
  simp only [Log.record, hbusy, hrun]

end Record

namespace Noted

variable {s s' : State γ} {log log' : Log}

/-- Steps that deliver nothing and run no query. -/
theorem mono (h : Noted s log) (hdelivered : s'.delivered = s.delivered)
    (hadded : (inTransit s').Nodup) (hnext : s.nextId ≤ s'.nextId)
    (hselected : log'.selected = log.selected) (hsucceeded : log'.succeeded = log.succeeded)
    (hlagged : ∀ id, log'.lagged id = true → log.lagged id = true ∨ id < s.nextId)
    (hfailed : log'.failed = log.failed)
    (hworker : ∀ m jobs fresh, s'.worker = .busy m jobs fresh →
      s.worker = .busy m jobs fresh ∨
        fresh = none ∧ ∃ job got, s.worker = .busy m (job :: jobs) (some got)) :
    Noted s' log' where
  once := hadded
  known id m hm := Nat.lt_of_lt_of_le (h.known id m (hselected ▸ hm)) hnext
  ended id hend := by
    refine Nat.lt_of_lt_of_le ?_ hnext
    rcases hend with hl | hf
    · exact (hlagged id hl).elim (fun hold => h.ended id (Or.inl hold)) fun hlt => hlt
    · exact h.ended id (Or.inr (hfailed ▸ hf))
  heard id m hm := by
    rw [hdelivered]
    exact h.heard id m (hsucceeded ▸ hm)
  working m jobs fresh hb := by
    rcases hworker m jobs fresh hb with hold | ⟨rfl, job, got, hold⟩
    · have hw := h.working m jobs fresh hold
      exact ⟨hdelivered ▸ hw.last, hselected ▸ hw.selected, hsucceeded ▸ hw.waiting,
        hfailed ▸ hw.failed⟩
    · have hw := h.working m (job :: jobs) (some got) hold
      exact ⟨hdelivered ▸ hw.last,
        fun j hj => hselected ▸ hw.selected j (List.mem_cons_of_mem _ hj),
        hsucceeded ▸ hw.waiting, fun _ _ _ he => by cases he⟩

/-- Steps that leave the worker and the transactions alone. -/
theorem of_eq (h : Noted s log) (hdelivered : s'.delivered = s.delivered)
    (hqueue : s'.queue = s.queue) (hsending : s'.sending = s.sending)
    (hworker : s'.worker = s.worker) (hnext : s.nextId ≤ s'.nextId)
    (hselected : log'.selected = log.selected) (hsucceeded : log'.succeeded = log.succeeded)
    (hlagged : ∀ id, log'.lagged id = true → log.lagged id = true ∨ id < s.nextId)
    (hfailed : log'.failed = log.failed) : Noted s' log' :=
  h.mono hdelivered (by rw [inTransit, hdelivered, hqueue, hsending]; exact h.once) hnext
    hselected hsucceeded hlagged hfailed fun _ _ _ hb => Or.inl (hworker ▸ hb)

/-- The transaction in the bridge reaches the channel, which may drop its oldest one. -/
theorem broadcast (h : Noted s log) {m : Nat} {queue : List Nat} {lagged : Bool}
    (hsending : s.sending = some m) (hqueue : queue.Sublist (s.queue ++ [m])) :
    Noted { s with sending := none, queue, lagged } log := by
  refine h.mono rfl ?_ (Nat.le_refl _) rfl rfl (fun _ => Or.inl) rfl fun _ _ _ hb => Or.inl hb
  have hbefore : inTransit s = s.delivered ++ (s.queue ++ [m]) := by
    simp [inTransit, hsending]
  have hafter : inTransit { s with sending := none, queue, lagged } = s.delivered ++ queue := by
    simp [inTransit]
  rw [hafter]
  exact (hbefore ▸ h.once).sublist (hqueue.append_left _)

/-- The worker ends a job. -/
theorem popJob (h : Noted s log) {m : Nat} {job : LiveJob} {jobs : List LiveJob}
    {got : Except CacheError String} (hbusy : s.worker = .busy m (job :: jobs) (some got))
    (hdelivered : s'.delivered = s.delivered) (hqueue : s'.queue = s.queue)
    (hsending : s'.sending = s.sending) (hworker : s'.worker = .busy m jobs none)
    (hnext : s.nextId ≤ s'.nextId) : Noted s' log := by
  refine h.mono hdelivered (by rw [inTransit, hdelivered, hqueue, hsending]; exact h.once) hnext
    rfl rfl (fun _ => Or.inl) rfl fun m' jobs' fresh' hb => ?_
  rw [hworker] at hb
  cases hb
  exact Or.inr ⟨rfl, job, got, hbusy⟩

/-- No query has run for a transaction in the channel. -/
theorem unheard (h : Noted s log) {m : Nat} {queue : List Nat} (hqueue : s.queue = m :: queue)
    (id : Nat) : log.succeeded id m = false := by
  have honce : (s.delivered ++ (m :: (queue ++ s.sending.toList))).Nodup := by
    simpa [inTransit, hqueue] using h.once
  rw [Bool.eq_false_iff]
  intro hs
  exact List.disjoint_of_nodup_append honce (h.heard id m hs) List.mem_cons_self

/-- `on_commit` starts. -/
theorem receive (h : Noted s log) (hub : Hub env s) {m : Nat} {queue order : List Nat}
    {txn : CommittedTransaction} (hqueue : s.queue = m :: queue)
    (hlabel : s.core.history.label m = some txn)
    (horder : order.Perm (s.matching txn.touched)) :
    Noted { s with
        queue
        worker := .busy m (selectJobs s order) none
        delivered := s.delivered ++ [m] }
      { log with selected := fun id k => log.selected id k || (k == m && concerns s m id) } := by
  constructor
  case once => simpa [inTransit, hqueue] using h.once
  case known =>
    intro id k hk
    rcases Bool.or_eq_true_iff.mp hk with hold | hconcerns
    · exact h.known id k hold
    · have hconcerns := (Bool.and_eq_true_iff.mp hconcerns).2
      cases hsub : s.subs id with
      | none => simp [concerns, hsub] at hconcerns
      | some sub => exact (hub.ids id sub hsub).1
  case ended => exact h.ended
  case heard =>
    intro id k hk
    exact List.mem_append_left _ (h.heard id k hk)
  case working =>
    intro m' jobs fresh hb
    cases hb
    refine ⟨⟨s.delivered, rfl⟩, fun job hj => ?_, fun job hj => ?_, fun _ _ _ he => by cases he⟩
    · -- a selected job is one of a registered subscription the commit concerns
      obtain ⟨id, hid, sub, hsub, rfl⟩ := Hub.mem_selectJobs.mp hj
      have hmatched : ((s.subs id).map (·.matched txn.touched)).getD false = true :=
        (List.mem_filter.mp (horder.mem_iff.mp hid)).2
      rw [hsub] at hmatched
      have hconcerns : concerns s m id = true := by
        simpa only [concerns, hlabel, hsub, Option.map_some, Option.getD_some, matched_touched]
          using hmatched
      simp [Subscription.job, hconcerns]
    · exact h.unheard hqueue job.id

/-- The query of the next job runs. -/
theorem requery (h : Noted s log) (hub : Hub env s) {m : Nat} {job : LiveJob}
    {jobs : List LiveJob} (hbusy : s.worker = .busy m (job :: jobs) none) :
    Noted { s with
        worker := .busy m (job :: jobs) (some (job.result env.engine s.core.history.current)) }
      (log.record env s .requery) := by
  have hw := h.working m (job :: jobs) none hbusy
  have hnodup : job.id ∉ jobs.map LiveJob.id := by
    have hnodup := hub.nodup
    rw [hbusy] at hnodup
    exact (List.nodup_cons.mp hnodup).1
  obtain ⟨before, hlast⟩ := hw.last
  cases hrun : job.result env.engine s.core.history.current with
  | ok body =>
    rw [record_requery_ok hbusy hrun]
    constructor
    case once => exact h.once
    case known => exact h.known
    case ended => exact h.ended
    case heard =>
      intro id k hk
      rcases Bool.or_eq_true_iff.mp hk with hold | hnew
      · exact h.heard id k hold
      · obtain ⟨-, hk⟩ := Bool.and_eq_true_iff.mp hnew
        obtain rfl := beq_iff_eq.mp hk
        rw [hlast]
        exact List.mem_append_right _ (List.mem_singleton_self _)
    case working =>
      intro m' jobs' fresh hb
      cases hb
      refine ⟨hw.last, hw.selected, fun j hj => ?_, fun _ _ _ he => by cases he⟩
      have hne : j.id ≠ job.id := fun he => hnodup (he ▸ List.mem_map_of_mem hj)
      have hold : log.succeeded j.id m = false := hw.waiting j (List.mem_cons_of_mem _ hj)
      simp [hold, hne]
  | error e =>
    rw [record_requery_error hbusy hrun]
    constructor
    case once => exact h.once
    case known => exact h.known
    case ended =>
      intro id hend
      rcases hend with hl | hf
      · exact h.ended id (Or.inl hl)
      · rcases Bool.or_eq_true_iff.mp hf with hold | hnew
        · exact h.ended id (Or.inr hold)
        · obtain rfl := beq_iff_eq.mp hnew
          exact hub.known job (by rw [hbusy]; exact List.mem_cons_self)
    case heard => exact h.heard
    case working =>
      intro m' jobs' fresh hb
      cases hb
      refine ⟨hw.last, hw.selected, fun j hj => hw.waiting j (List.mem_cons_of_mem _ hj),
        fun j hj _ _ => ?_⟩
      obtain rfl := Option.some.inj hj
      simp

theorem taken {a : Action γ} (h : Noted s log) (hub : Hub env s) (flow : Flow env s)
    (ht : Taken env s a s') : Noted s' (log.record env s a) := by
  cases ht with
  | core _ _ | subscribePublic _ _ _ | subscribeScoped _ _ | fetch _ _ | fetchError _
  | registerError _ | drop _ | release _ _ =>
    exact h.of_eq rfl rfl rfl rfl (Nat.le_refl _) rfl rfl (fun _ => Or.inl) rfl
  | registerPublic _ _ | registerScoped _ =>
    exact h.of_eq rfl rfl rfl rfl (Nat.le_succ _) rfl rfl (fun _ => Or.inl) rfl
  | @advance m core hsending hcore =>
    refine h.mono rfl ?_ (Nat.le_refl _) rfl rfl (fun _ => Or.inl) rfl fun _ _ _ hb => Or.inl hb
    -- the bridge had not advanced this one
    have hnew : m ∉ inTransit s := by
      intro hm
      simp only [inTransit, hsending, Option.toList_none, List.append_nil, List.mem_append] at hm
      cases Read.taken_of_step hcore with
      | advance hpending _ _ =>
        exact (flow.advanced m (hm.imp_right Or.inl)).2 hpending
    have honce := h.once
    simp only [inTransit, hsending, Option.toList_none, List.append_nil] at honce hnew
    simpa [inTransit] using List.nodup_append'.mpr
      ⟨honce, List.nodup_singleton m, List.disjoint_singleton.mpr hnew⟩
  | @broadcast m hsending hroom =>
    exact h.broadcast hsending (List.Sublist.refl _)
  | @overflow m hsending hfull =>
    exact h.broadcast hsending (List.tail_sublist _)
  | receive hidle hqueue hlabel hlagged horder =>
    rw [record_receive hqueue]
    exact h.receive hub hqueue hlabel horder
  | resetAll hidle hlagged =>
    refine h.of_eq rfl rfl rfl rfl (Nat.le_refl _) rfl rfl (fun id hl => ?_) rfl
    rcases Bool.or_eq_true_iff.mp hl with hold | hsome
    · exact Or.inl hold
    · obtain ⟨sub, hsub⟩ := Option.isSome_iff_exists.mp hsome
      exact Or.inr (hub.ids id sub hsub).1
  | requery hbusy => exact h.requery hub hbusy
  | @emit m job jobs body txn prev next hbusy hlabel hprev hnext =>
    obtain ⟨subs, sent, heq⟩ := emitDeltas_eq s job txn.xid (diff prev next) next.toFinmap
    rw [heq]
    exact h.popJob hbusy rfl rfl rfl rfl (Nat.le_refl _)
  | @discard m job jobs e hbusy =>
    obtain ⟨subs, sent, heq⟩ := discardSub_eq s job
    rw [heq]
    exact h.popJob hbusy rfl rfl rfl rfl (Nat.le_refl _)
  | finish hbusy =>
    exact h.mono rfl h.once (Nat.le_refl _) rfl rfl (fun _ => Or.inl) rfl
      fun _ _ _ hb => by cases hb

end Noted

/-! ## 5. What a step does to a stream -/

section Streams

variable {s s' : State γ} {log : Log} {id : Nat}

theorem isSnapshot_first (scope : Bool) (hash : String) (version : Nat) (rows : Json) :
    (if scope then Event.snapshotUrl hash version else .snapshotRows rows version).isSnapshot =
      true := by
  cases scope <;> rfl

/-- A registered subscription has all its batches. -/
theorem Stream.of_sub (h : Stream s log id) {sub : Subscription} (hsub : s.subs id = some sub) :
    ∃ batches, Batches s id batches [] ∧
      due s log id = batches.map Batch.commit ++ inHand s id ∧ Unharmed s log id := by
  cases h with
  | registered hbatches _ hdue hok => exact ⟨_, hbatches, hdue, hok⟩
  | reset _ hnone _ _ _ => exact absurd (hsub.symm.trans hnone) (fun he => by cases he)
  | dropped _ hnone _ _ => exact absurd (hsub.symm.trans hnone) (fun he => by cases he)

/-- A new batch at the end. -/
theorem Batches.snoc {batches : List Batch} (h : Batches s id batches []) {b : Batch}
    (hx : Read.Extends s.core s'.core) (hok : b.Ok s')
    (hsent : s'.sent id = s.sent id ++ b.events) : Batches s' id (batches ++ [b]) [] := by
  obtain ⟨first, hfirst, hold⟩ := h.sent
  refine ⟨⟨first, hfirst, ?_⟩, fun b' hb' => ?_⟩
  · rw [hsent, hold]
    simp
  · rcases List.mem_append.mp hb' with hb' | hb'
    · exact (h.ok b' hb').extends hx
    · exact List.mem_singleton.mp hb' ▸ hok

/-- A reset at the end. -/
theorem Batches.close {batches : List Batch} (h : Batches s id batches [])
    (hx : Read.Extends s.core s'.core) (hsent : s'.sent id = s.sent id ++ [.reset]) :
    Batches s' id batches [.reset] := by
  obtain ⟨first, hfirst, hold⟩ := h.sent
  refine ⟨⟨first, hfirst, ?_⟩, fun b hb => (h.ok b hb).extends hx⟩
  rw [hsent, hold, List.append_nil]

/-- With the worker between two commits or two jobs, no batch is in hand. -/
theorem inHand_of_idle (h : s.worker = .idle) : inHand s id = [] := by simp only [inHand, h]

theorem inHand_of_waiting {m : Nat} {jobs : List LiveJob} (h : s.worker = .busy m jobs none) :
    inHand s id = [] := by
  cases jobs <;> simp only [inHand, h]

theorem inHand_of_error {m : Nat} {jobs : List LiveJob} {e : CacheError}
    (h : s.worker = .busy m jobs (some (.error e))) : inHand s id = [] := by
  cases jobs <;> simp only [inHand, h]

theorem inHand_of_ok {m : Nat} {job : LiveJob} {jobs : List LiveJob} {body : String}
    (h : s.worker = .busy m (job :: jobs) (some (.ok body))) :
    inHand s id = if job.id = id then [m] else [] := by
  simp only [inHand, h]

/-- No batch is in hand for a subscription that has no job. -/
theorem inHand_of_ne (h : ∀ job ∈ s.worker.jobs, job.id ≠ id) : inHand s id = [] := by
  cases hworker : s.worker with
  | idle => exact inHand_of_idle hworker
  | busy m jobs fresh =>
    rw [hworker] at h
    rcases jobs with _ | ⟨job, jobs⟩
    · simp only [inHand, hworker]
    · rcases fresh with _ | e | body
      · exact inHand_of_waiting hworker
      · exact inHand_of_error hworker
      · rw [inHand_of_ok hworker, if_neg (h job List.mem_cons_self)]

/-- The subscription is closed with a reset. -/
theorem Stream.close (h : Stream s log id) {sub : Subscription} (hsub : s.subs id = some sub)
    {log' : Log} (hx : Read.Extends s.core s'.core) (hhand : inHand s id = [])
    (hsent : s'.sent id = s.sent id ++ [.reset]) (hgone : s'.subs id = none)
    (hdue : due s' log' id = due s log id) (hwhy : log'.lagged id = true ∨ log'.failed id = true)
    (hjobs : ∀ job ∈ s'.worker.jobs, job.id ≠ id) : Stream s' log' id := by
  obtain ⟨batches, hbatches, hd, -⟩ := h.of_sub hsub
  refine .reset (hbatches.close hx hsent) hgone ?_ hwhy hjobs
  rw [hdue, hd, hhand, List.append_nil]

/-- `on_commit` starts: what it selects is not due before its query ran. -/
theorem due_receive {m : Nat} {queue : List Nat} {worker : Worker}
    (hnew : ∀ id, log.succeeded id m = false) :
    due { s with queue, worker, delivered := s.delivered ++ [m] }
      { log with selected := fun id k => log.selected id k || (k == m && concerns s m id) } id =
        due s log id := by
  have hold : ∀ k ∈ s.delivered, ((log.selected id k || (k == m && concerns s m id)) &&
      log.succeeded id k) = (log.selected id k && log.succeeded id k) := by
    intro k _
    rcases eq_or_ne k m with rfl | hkm
    · rw [hnew, Bool.and_false, Bool.and_false]
    · rw [beq_eq_false_iff_ne.mpr hkm, Bool.false_and, Bool.or_false]
  simp only [due, List.filter_append, List.filter_congr hold]
  simp [hnew]

/-- The query of a job ran: its subscription is due the batch of the commit. -/
theorem due_requery (hn : Noted s log) {m : Nat} {job : LiveJob} {jobs : List LiveJob}
    (hbusy : s.worker = .busy m (job :: jobs) none) (worker : Worker)
    (id : Nat) : due { s with worker }
      { log with succeeded := fun id k => log.succeeded id k || (id == job.id && k == m) } id =
        due s log id ++ if job.id = id then [m] else [] := by
  have hw := hn.working m (job :: jobs) none hbusy
  obtain ⟨before, hlast⟩ := hw.last
  by_cases hid : job.id = id
  · subst hid
    have hnotin : m ∉ before := by
      have honce : (before ++ ([m] ++ (s.queue ++ s.sending.toList))).Nodup := by
        simpa [inTransit, hlast] using hn.once
      exact fun hm => List.disjoint_of_nodup_append honce hm List.mem_cons_self
    have hold : ∀ k ∈ before, (log.selected job.id k && (log.succeeded job.id k ||
        (job.id == job.id && k == m))) = (log.selected job.id k && log.succeeded job.id k) := by
      intro k hk
      have hkm : k ≠ m := fun he => hnotin (he ▸ hk)
      rw [beq_eq_false_iff_ne.mpr hkm, Bool.and_false, Bool.or_false]
    have hselected : log.selected job.id m = true := hw.selected job List.mem_cons_self
    have hwaiting : log.succeeded job.id m = false := hw.waiting job List.mem_cons_self
    simp only [due, hlast, List.filter_append, List.filter_congr hold]
    simp [hselected, hwaiting]
  · simp [due, beq_eq_false_iff_ne.mpr (Ne.symm hid), hid]

end Streams

/-! ## 6. The streams over a run -/

namespace Stream

variable {s s' : State γ} {log : Log} {id : Nat}

/-- `on_commit` starts. -/
theorem receive (h : Stream s log id) (hn : Noted s log) {m : Nat} {queue order : List Nat}
    (hidle : s.worker = .idle) (hqueue : s.queue = m :: queue) :
    Stream { s with
        queue
        worker := .busy m (selectJobs s order) none
        delivered := s.delivered ++ [m] }
      { log with selected := fun id k => log.selected id k || (k == m && concerns s m id) } id := by
  refine h.of_same (.refl _) rfl Iff.rfl (due_receive (hn.unheard hqueue)) (fun _ => ?_)
    (fun _ hok => hok.of_not_failing (not_failing_of_worker hidle (by simp)) rfl rfl)
    (fun job hj => Or.inr ?_) (.of_eq rfl rfl rfl)
  · rw [inHand_of_idle hidle, inHand_of_waiting rfl]
  · obtain ⟨id, -, sub, hsub, rfl⟩ := Hub.mem_selectJobs.mp hj
    exact fun hnone => by cases hsub.symm.trans hnone

/-- The query of a job runs. -/
theorem requery (h : Stream s log id) (hn : Noted s log) {m : Nat} {job : LiveJob}
    {jobs : List LiveJob} (hbusy : s.worker = .busy m (job :: jobs) none) :
    Stream { s with
        worker := .busy m (job :: jobs) (some (job.result env.engine s.core.history.current)) }
      (log.record env s .requery) id := by
  have hjobs : ∀ j ∈ job :: jobs, j ∈ s.worker.jobs ∨ s.subs j.id ≠ none := by
    intro j hj
    rw [hbusy]
    exact Or.inl hj
  have hnot : ¬ Failing s id := not_failing_of_worker hbusy (by simp)
  cases hrun : job.result env.engine s.core.history.current with
  | error e =>
    rw [record_requery_error hbusy hrun]
    refine h.of_same (.refl _) rfl Iff.rfl rfl (fun _ => ?_) (fun _ hok => ?_) hjobs
      ⟨fun h => h, fun h => by simp [h], fun h => h⟩
    · rw [inHand_of_error rfl, inHand_of_waiting hbusy]
    · refine ⟨hok.lagged, fun hf => ?_⟩
      rcases Bool.or_eq_true_iff.mp hf with hold | hnew
      · exact absurd (hok.failed hold) hnot
      · exact ⟨m, job, jobs, e, rfl, (beq_iff_eq.mp hnew).symm⟩
  | ok body =>
    rw [record_requery_ok hbusy hrun]
    by_cases hid : job.id = id
    · have hdue := due_requery hn hbusy (.busy m (job :: jobs) (some (.ok body))) id
      rw [if_pos hid] at hdue
      cases h with
      | registered hbatches hsub hd hok =>
        refine .registered (hbatches.of_sent (.refl _) rfl) hsub ?_
          (hok.of_not_failing hnot rfl rfl)
        rw [hdue, hd, inHand_of_waiting hbusy, List.append_nil, inHand_of_ok rfl, if_pos hid]
      | reset hbatches hsub hd hwhy hno =>
        exact absurd hid (hno job (by rw [hbusy]; exact List.mem_cons_self))
      | dropped hbatches hsub hd hdropped =>
        refine .dropped (hbatches.of_sent (.refl _) rfl) hsub ?_ hdropped
        rw [hdue]
        exact hd.trans (List.prefix_append _ _)
    · have hdue := due_requery hn hbusy (.busy m (job :: jobs) (some (.ok body))) id
      rw [if_neg hid, List.append_nil] at hdue
      refine h.of_same (.refl _) rfl Iff.rfl hdue (fun _ => ?_)
        (fun _ hok => hok.of_not_failing hnot rfl rfl) hjobs
        (.of_eq rfl rfl rfl)
      rw [inHand_of_ok rfl, if_neg hid, inHand_of_waiting hbusy]

/-- The batch of the head job is sent. -/
theorem emit (h : Stream s log id) (hub : Hub env s) {m : Nat} {job : LiveJob}
    {jobs : List LiveJob} {body : String} {txn : CommittedTransaction} {prev next : RowIter}
    (hbusy : s.worker = .busy m (job :: jobs) (some (.ok body)))
    (hlabel : s.core.history.label m = some txn) :
    Stream { emitDeltas s job txn.xid (diff prev next) next.toFinmap with
      worker := .busy m jobs none } log id := by
  have hjobs : ∀ j ∈ jobs, j ∈ s.worker.jobs ∨ s.subs j.id ≠ none := by
    intro j hj
    rw [hbusy]
    exact Or.inl (List.mem_cons_of_mem _ hj)
  have hhand : inHand s id = if job.id = id then [m] else [] := inHand_of_ok hbusy
  have hnot : ¬ Failing s id := not_failing_of_worker hbusy (by simp)
  cases hsub : s.subs job.id with
  | none =>
    rw [emitDeltas_of_none hsub]
    refine h.of_same (.refl _) rfl Iff.rfl rfl (fun hopen => ?_)
      (fun _ hok => hok.of_not_failing hnot rfl rfl) hjobs
      (.of_eq rfl rfl rfl)
    have hid : job.id ≠ id := fun he => hopen (he ▸ hsub)
    rw [hhand, if_neg hid, inHand_of_waiting rfl]
  | some sub =>
    rw [emitDeltas_of_sub hsub (hub.ids job.id sub hsub).2]
    by_cases hid : job.id = id
    · subst hid
      obtain ⟨batches, hbatches, hdue, hunharmed⟩ := h.of_sub hsub
      rw [hhand, if_pos rfl] at hdue
      -- one more batch, for the commit the worker is at
      have hok : (Batch.mk m txn.xid (diff prev next)).Ok s :=
        ⟨nodup_keys_diff prev next, txn, hlabel, rfl⟩
      refine .registered (hbatches.snoc (.refl _) hok (Function.update_self ..)) ?_ ?_
        (hunharmed.of_not_failing hnot rfl rfl)
      · simp
      · rw [inHand_of_waiting rfl, List.append_nil, List.map_append]
        exact hdue
    · have hne : id ≠ job.id := Ne.symm hid
      refine h.of_same (.refl _) (Function.update_of_ne hne _ _) ?_ rfl (fun _ => ?_)
        (fun _ hok => hok.of_not_failing hnot rfl rfl) hjobs
        (.of_eq rfl rfl rfl)
      · exact iff_of_eq (congrArg (· = none) (Function.update_of_ne hne _ _))
      · rw [hhand, if_neg hid, inHand_of_waiting rfl]

/-- The subscription of the head job is removed with a reset. -/
theorem discard (h : Stream s log id) (hub : Hub env s) (hn : Noted s log) {m : Nat}
    {job : LiveJob} {jobs : List LiveJob} {e : CacheError}
    (hbusy : s.worker = .busy m (job :: jobs) (some (.error e))) :
    Stream { discardSub s job with worker := .busy m jobs none } log id := by
  have hjobs : ∀ j ∈ jobs, j ∈ s.worker.jobs ∨ s.subs j.id ≠ none := by
    intro j hj
    rw [hbusy]
    exact Or.inl (List.mem_cons_of_mem _ hj)
  have hhand : inHand s id = [] := inHand_of_error hbusy
  have hnot (hid : job.id ≠ id) : ¬ Failing s id := by
    refine not_failing_of_ne fun j hj => ?_
    rw [hbusy] at hj
    exact Option.some.inj hj ▸ hid
  cases hsub : s.subs job.id with
  | none =>
    rw [discardSub_of_none hsub]
    refine h.of_same (.refl _) rfl Iff.rfl rfl (fun _ => ?_) (fun hopen hok => ?_) hjobs
      (.of_eq rfl rfl rfl)
    · rw [hhand, inHand_of_waiting rfl]
    · exact hok.of_not_failing (hnot fun he => hopen (he ▸ hsub)) rfl rfl
  | some sub =>
    rw [discardSub_of_sub hsub (hub.ids job.id sub hsub).2]
    by_cases hid : job.id = id
    · subst hid
      have hnodup := hub.nodup
      rw [hbusy] at hnodup
      have hfailed : log.failed job.id = true :=
        (hn.working m _ _ hbusy).failed job rfl e rfl
      refine h.close hsub (.refl _) hhand (Function.update_self ..) (Function.update_self ..) rfl
        (Or.inr hfailed) fun j hj he => ?_
      exact (List.nodup_cons.mp hnodup).1 (he ▸ List.mem_map_of_mem hj)
    · have hne : id ≠ job.id := Ne.symm hid
      refine h.of_same (.refl _) (Function.update_of_ne hne _ _) ?_ rfl (fun _ => ?_)
        (fun _ hok => hok.of_not_failing (hnot hid) rfl rfl) hjobs (.of_eq rfl rfl rfl)
      · exact iff_of_eq (congrArg (· = none) (Function.update_of_ne hne _ _))
      · rw [hhand, inHand_of_waiting rfl]

/-- The channel lagged: everybody is removed with a reset. -/
theorem resetAll (h : Stream s log id) (hub : Hub env s) (hidle : s.worker = .idle) :
    Stream { Live.resetAll s with lagged := false }
      { log with lagged := fun id => log.lagged id || (s.subs id).isSome } id := by
  have hnojobs : ∀ job ∈ s.worker.jobs, job.id ≠ id := by
    rw [hidle]
    exact fun job hj => absurd hj List.not_mem_nil
  cases hsub : s.subs id with
  | none =>
    have hsent : (Live.resetAll s).sent id = s.sent id := by simp [Live.resetAll, hsub]
    refine h.of_same (.refl _) hsent (iff_of_true rfl hsub) rfl (fun _ => rfl)
      (fun hopen _ => absurd hsub hopen) (fun job hj => Or.inl hj)
      ⟨fun h => by simp [h], fun h => h, fun h => h⟩
  | some sub =>
    have hopen := (hub.ids id sub hsub).2
    have hsent : (Live.resetAll s).sent id = s.sent id ++ [.reset] := by
      simp [Live.resetAll, hsub, hopen]
    exact h.close hsub (.refl _) (inHand_of_idle hidle) hsent rfl rfl (Or.inl (by simp [hsub]))
      hnojobs

/-- The subscriber leaves. -/
theorem drop (h : Stream s log id) (gone : Nat) :
    Stream (s.setSub gone none) { log with dropped := fun i => log.dropped i || i == gone } id := by
  have hle : log.Le { log with dropped := fun i => log.dropped i || i == gone } id :=
    ⟨fun h => h, fun h => h, fun h => by simp [h]⟩
  have hsame (hsubs : (s.setSub gone none).subs id = none ↔ s.subs id = none) :
      Stream (s.setSub gone none) { log with dropped := fun i => log.dropped i || i == gone } id :=
    h.of_same (.refl _) rfl hsubs rfl (fun _ => rfl) (fun _ hok => hok.of_worker rfl rfl rfl)
      (fun job hj => Or.inl hj) hle
  by_cases hid : id = gone
  · subst hid
    have hnone : (s.setSub id none).subs id = none := Function.update_self ..
    cases h with
    | registered hbatches hsub hdue _ =>
      refine .dropped (hbatches.of_sent (.refl _) rfl) hnone ?_ (by simp)
      exact ⟨inHand s id, hdue.symm⟩
    | reset _ hsub _ _ _ => exact hsame (iff_of_true hnone hsub)
    | dropped _ hsub _ _ => exact hsame (iff_of_true hnone hsub)
  · exact hsame (iff_of_eq (congrArg (· = none) (Function.update_of_ne hid _ _)))

theorem setRequest (h : Stream s log id) (call : Nat) (read : PreparedRead) (request : Request) :
    Stream (s.setRequest call read request) log id :=
  h.of_same (.refl _) rfl Iff.rfl rfl (fun _ => rfl) (fun _ hok => hok.of_worker rfl rfl rfl)
    (fun _ hj => Or.inl hj) (.of_eq rfl rfl rfl)

/-- A subscription is registered. -/
theorem hubSubscribe (h : id < s.nextId → Stream s log id) (hub : Hub env s) (hn : Noted s log)
    (query : CacheableQuery) (hash : String) (version : Nat) (body : String)
    (principal : Option Principal) (headers : Option String) (hid : id < s.nextId + 1) :
    Stream (hubSubscribe env s query hash version body principal headers) log id := by
  by_cases hnew : id = s.nextId
  · subst hnew
    have hdue : due s log s.nextId = [] := by
      refine List.filter_eq_nil_iff.mpr ?_
      intro m _ hm
      exact Nat.lt_irrefl _ (hn.known _ m (Bool.and_eq_true_iff.mp hm).1)
    have hsent : (hubSubscribe env s query hash version body principal headers).sent s.nextId =
      [if ownerScope principal headers then Event.snapshotUrl hash version
        else .snapshotRows ((env.serde.fromStr body).getD (.array [])) version] :=
      Function.update_self ..
    have hbatches : Batches (hubSubscribe env s query hash version body principal headers)
        s.nextId [] [] :=
      ⟨⟨_, isSnapshot_first _ _ _ _, hsent⟩, fun b hb => absurd hb List.not_mem_nil⟩
    have hunharmed : Unharmed (hubSubscribe env s query hash version body principal headers) log
        s.nextId := by
      refine ⟨?_, fun hf => absurd (hn.ended _ (Or.inr hf)) (Nat.lt_irrefl _)⟩
      rw [Bool.eq_false_iff]
      exact fun hl => Nat.lt_irrefl _ (hn.ended _ (Or.inl hl))
    refine .registered hbatches ?_ ?_ hunharmed
    · simp [hubSubscribe]
    · have hhand : inHand s s.nextId = [] :=
        inHand_of_ne fun job hj => Nat.ne_of_lt (hub.known job hj)
      exact hdue.trans hhand.symm
  · refine (h (by omega)).of_same (.refl _) (Function.update_of_ne hnew _ _) ?_ rfl (fun _ => rfl)
      (fun _ hok => hok.of_worker rfl rfl rfl) (fun job hj => Or.inl hj) (.of_eq rfl rfl rfl)
    exact iff_of_eq (congrArg (· = none) (Function.update_of_ne hnew _ _))

/-- **A step keeps every stream.** -/
theorem taken {a : Action γ} (h : ∀ id < s.nextId, Stream s log id) (hub : Hub env s)
    (hn : Noted s log) (ht : Taken env s a s') (hid : id < s'.nextId) :
    Stream s' (log.record env s a) id := by
  have hx := ht.extends
  cases ht with
  | core _ _ | advance _ _ | broadcast _ _ | overflow _ _ | subscribePublic _ _ _
  | subscribeScoped _ _ | fetch _ _ | fetchError _ | registerError _ | release _ _ =>
    exact (h id hid).of_same hx rfl Iff.rfl rfl (fun _ => rfl)
      (fun _ hok => hok.of_worker rfl rfl rfl) (fun _ hj => Or.inl hj) (.of_eq rfl rfl rfl)
  | receive hidle hqueue hlabel hlagged horder =>
    rw [record_receive hqueue]
    exact (h id hid).receive hn hidle hqueue
  | resetAll hidle hlagged => exact (h id hid).resetAll hub hidle
  | requery hbusy => exact (h id hid).requery hn hbusy
  | @emit m job jobs body txn prev next hbusy hlabel hprev hnext =>
    have hnextId : id < s.nextId := by
      obtain ⟨subs, sent, heq⟩ := emitDeltas_eq s job txn.xid (diff prev next) next.toFinmap
      rwa [heq] at hid
    exact (h id hnextId).emit hub hbusy hlabel
  | @discard m job jobs e hbusy =>
    have hnextId : id < s.nextId := by
      obtain ⟨subs, sent, heq⟩ := discardSub_eq s job
      rwa [heq] at hid
    exact (h id hnextId).discard hub hn hbusy
  | @finish m fresh hbusy =>
    -- everybody in the map has a receiver
    have hretain : (retain s).subs id = s.subs id := by
      cases hsub : s.subs id with
      | none => simp [retain, hsub]
      | some sub => simp [retain, hsub, (hub.ids id sub hsub).2]
    have hnojobs : ∀ job ∈ s.worker.jobs, job.id ≠ id := by
      rw [hbusy]
      exact fun job hj => absurd hj List.not_mem_nil
    have hnot : ¬ Failing s id :=
      not_failing_of_ne fun job hj => hnojobs job (List.mem_of_mem_head? hj)
    refine (h id hid).of_same hx rfl (iff_of_eq (congrArg (· = none) hretain)) rfl (fun _ => ?_)
      (fun _ hok => hok.of_not_failing hnot rfl rfl)
      (fun job hj => absurd hj List.not_mem_nil) (.of_eq rfl rfl rfl)
    rw [inHand_of_idle rfl, inHand_of_ne hnojobs]
  | @registerPublic call version read q snapshot hrequest hcall =>
    exact (hubSubscribe (h id) hub hn read.query (lowerHex read.query.fingerprint) version
      snapshot.body none none hid).setRequest call read .done
  | @registerScoped call version read body hrequest =>
    exact (hubSubscribe (h id) hub hn read.query "" version body read.principal read.headers
      hid).setRequest call read .done
  | @drop gone hgone => exact (h id hid).drop gone

end Stream

/-! ## 7. Every stream follows the protocol -/

section Runs

variable {pk : List (String × String)} {full : List String} {s s' : State γ} {log : Log}

theorem reachable_of_logged {p : State γ × Log} (h : (logged env pk full).Reachable free p) :
    (system env pk full).Reachable free p.1 := by
  refine Reachable.induction (P := fun p => (system env pk full).Reachable free p.1)
    (fun p h0 => ?_) (fun p a p' _ ih _ hs => ?_) h
  · have hfresh : (system env pk full).init p.1 := h0.1
    exact Reachable.start hfresh
  · obtain ⟨t, ht, rfl⟩ := Option.map_eq_some_iff.mp hs
    exact Reachable.next ih trivial ht

/-- The log leaves out no run. -/
theorem exists_log (h : (system env pk full).Reachable free s) :
    ∃ log, (logged env pk full).Reachable free (s, log) := by
  refine Reachable.induction (P := fun s => ∃ log, (logged env pk full).Reachable free (s, log))
    (fun s h0 => ?_) (fun s a s' _ ih _ hs => ?_) h
  · have hfresh : (logged env pk full).init (s, .empty) := ⟨h0, rfl⟩
    exact ⟨_, Reachable.start hfresh⟩
  · obtain ⟨log, hlog⟩ := ih
    have hs : step env s a = some s' := hs
    have hlogged : (logged env pk full).step (s, log) a = some (s', log.record env s a) := by
      simp only [logged, hs, Option.map_some]
    exact ⟨_, Reachable.next hlog trivial hlogged⟩

/-- The invariants of a run with its log. -/
structure Followed (s : State γ) (log : Log) : Prop where
  noted : Noted s log
  streams : ∀ id < s.nextId, Stream s log id

theorem Followed.of_reachable (h : (logged env pk full).Reachable free (s, log)) :
    Followed s log := by
  refine Reachable.induction (P := fun p => Followed p.1 p.2) (fun p h0 => ?_)
    (fun p a p' hr ih _ hs => ?_) h
  · obtain ⟨hfresh, hlog⟩ := h0
    constructor
    case noted =>
      constructor <;>
        simp [hlog, Log.empty, inTransit, hfresh.delivered, hfresh.queue, hfresh.sending,
          hfresh.worker]
    case streams =>
      intro id hid
      simp [hfresh.nextId] at hid
  · have hreach := reachable_of_logged hr
    have hub : Hub env p.1 := .of_reachable hreach
    obtain ⟨t, ht, rfl⟩ := Option.map_eq_some_iff.mp hs
    have htaken := taken_of_step ht
    exact ⟨ih.noted.taken hub (.of_reachable hreach) htaken,
      fun id hid => .taken ih.streams hub ih.noted htaken hid⟩

/-- Nothing is sent to a subscription that is gone, and it does not come back. -/
theorem Taken.quiet {a : Action γ} {id : Nat} (hub : Hub env s) (ht : Taken env s a s')
    (hid : id < s.nextId) (hgone : s.subs id = none) :
    s'.sent id = s.sent id ∧ s'.subs id = none ∧ id < s'.nextId := by
  cases ht with
  | core _ _ | advance _ _ | broadcast _ _ | overflow _ _ | receive _ _ _ _ _ | requery _
  | subscribePublic _ _ _ | subscribeScoped _ _ | fetch _ _ | fetchError _ | registerError _
  | release _ _ => exact ⟨rfl, hgone, hid⟩
  | resetAll _ _ => exact ⟨by simp [Live.resetAll, hgone], rfl, hid⟩
  | finish _ => exact ⟨rfl, by simp [retain, hgone], hid⟩
  | @emit m job jobs body txn prev next hbusy hlabel hprev hnext =>
    cases hsub : s.subs job.id with
    | none =>
      rw [emitDeltas_of_none hsub]
      exact ⟨rfl, hgone, hid⟩
    | some sub =>
      have hne : id ≠ job.id := by
        rintro rfl
        cases hsub.symm.trans hgone
      rw [emitDeltas_of_sub hsub (hub.ids job.id sub hsub).2]
      exact ⟨Function.update_of_ne hne _ _, (Function.update_of_ne hne _ _).trans hgone, hid⟩
  | @discard m job jobs e hbusy =>
    cases hsub : s.subs job.id with
    | none =>
      rw [discardSub_of_none hsub]
      exact ⟨rfl, hgone, hid⟩
    | some sub =>
      have hne : id ≠ job.id := by
        rintro rfl
        cases hsub.symm.trans hgone
      rw [discardSub_of_sub hsub (hub.ids job.id sub hsub).2]
      exact ⟨Function.update_of_ne hne _ _, (Function.update_of_ne hne _ _).trans hgone, hid⟩
  | registerPublic _ _ | registerScoped _ =>
    have hne : id ≠ s.nextId := Nat.ne_of_lt hid
    exact ⟨Function.update_of_ne hne _ _, (Function.update_of_ne hne _ _).trans hgone,
      Nat.lt_succ_of_lt hid⟩
  | @drop gone hgone' =>
    refine ⟨rfl, ?_, hid⟩
    by_cases he : id = gone
    · exact he ▸ Function.update_self ..
    · exact (Function.update_of_ne he _ _).trans hgone

theorem quiet_of_leads {id : Nat} (h : (system env pk full).Reachable free s)
    (hid : id < s.nextId) (hgone : s.subs id = none)
    (hl : (system env pk full).Leads free s s') :
    s'.sent id = s.sent id ∧ s'.subs id = none := by
  have hrun : (system env pk full).Reachable free s' ∧ s'.sent id = s.sent id ∧
      s'.subs id = none ∧ id < s'.nextId := by
    refine Leads.invariant (P := fun t => (system env pk full).Reachable free t ∧
      t.sent id = s.sent id ∧ t.subs id = none ∧ id < t.nextId) hl ⟨h, rfl, hgone, hid⟩ ?_
    rintro t a t' ⟨hreach, hsent, hsubs, hlt⟩ _ hs
    obtain ⟨hsent', hgone', hid'⟩ := (taken_of_step hs).quiet (.of_reachable hreach) hlt hsubs
    exact ⟨Reachable.next hreach trivial hs, hsent'.trans hsent, hgone', hid'⟩
  exact ⟨hrun.2.1, hrun.2.2.1⟩

/-- **The events of every subscription follow the protocol**, wherever a run of the hub is: a
snapshot, a batch for each transaction it is due one for, in the order of delivery, and a reset
if it was reset.  A subscription that was dropped has the first of its batches.  Once a
subscription is out of the map nothing is sent to it any more. -/
theorem stream_protocol (h : (logged env pk full).Reachable free (s, log)) :
    (∀ id < s.nextId, Stream s log id) ∧ s.delivered.Nodup ∧
      ∀ id < s.nextId, s.subs id = none → ∀ s', (system env pk full).Leads free s s' →
        s'.sent id = s.sent id ∧ s'.subs id = none := by
  have hfollowed := Followed.of_reachable h
  refine ⟨hfollowed.streams, ?_, fun id hid hgone s' hl => ?_⟩
  · have honce := hfollowed.noted.once
    rw [inTransit, List.append_assoc] at honce
    exact honce.of_append_left
  · exact quiet_of_leads (reachable_of_logged h) hid hgone hl

end Runs

/-- Someone subscribes, a row is committed and its batch is sent; then they leave. -/
theorem stream_of_subscribeThenCommit :
    ∃ p, (logged usersEnv [("users", "id")] []).run (usersStart, .empty)
        (subscribeThenCommit ++ [.emit ∅ (AList.singleton "1" userRow), .finish, .drop 0]) =
          some p ∧
      (p.1.sent 0).tail = [.delta (.insert "1" userRow) 7, .upToDate 7] ∧ p.1.nextId = 1 ∧
        Stream p.1 p.2 0 ∧ ∀ s', (system usersEnv [("users", "id")] []).Leads free p.1 s' →
          s'.sent 0 = p.1.sent 0 := by
  have hrun : ((logged usersEnv [("users", "id")] []).run (usersStart, .empty)
      (subscribeThenCommit ++ [.emit ∅ (AList.singleton "1" userRow), .finish, .drop 0])).map
        (fun p => ((p.1.sent 0).tail, p.1.nextId, (p.1.subs 0).isNone)) =
          some ([.delta (.insert "1" userRow) 7, .upToDate 7], 1, true) := by decide
  obtain ⟨p, hp, hsent⟩ := Option.map_eq_some_iff.mp hrun
  simp only [Prod.mk.injEq] at hsent
  obtain ⟨htail, hnext, hgone⟩ := hsent
  have hinit : (logged usersEnv [("users", "id")] []).init (usersStart, .empty) :=
    ⟨fresh_start _ _ _, rfl⟩
  have hfree : (logged usersEnv [("users", "id")] []).Along free (usersStart, .empty)
      (subscribeThenCommit ++ [.emit ∅ (AList.singleton "1" userRow), .finish, .drop 0]) :=
    along_of_forall fun _ _ _ => trivial
  have hreach := reachable_of_run hinit hfree hp
  have hprotocol := stream_protocol hreach
  have hid : 0 < p.1.nextId := by omega
  have hnone : p.1.subs 0 = none := by simpa using hgone
  exact ⟨p, hp, htail, hnext, hprotocol.1 0 hid,
    fun s' hl => (hprotocol.2.2 0 hid hnone s' hl).1⟩

end PgPaw.Live
