/-
# `db/setup.rs`: preparing the upstream

`pgpaw init` changes what logical replication needs, and `preflight` asks for it before `serve`
opens anything.  Settings change with a restart of the server only, and what the server is started
with on its command line goes before its configuration files, which `ALTER SYSTEM` writes.

What `init` leaves is what `preflight` wants: at once where it says that all is ready, and after a
restart where it says so, if the command line gives nothing that is too little and no setting that
`init` found in order is changed by the restart (`preflight_after_init`).  And then a second `init`
changes nothing.
-/
import Mathlib.Logic.Function.Basic
import PgPaw.Capability.LocalScope
import PgPaw.Db.Lifecycle

namespace PgPaw.Setup

open Program

/-! ## 1. `prepare` and `preflight` -/

/-- The settings. -/
inductive Param
  | walLevel
  | maxWalSenders
  | maxReplicationSlots
  deriving DecidableEq, Repr

def Param.name : Param → String
  | walLevel => "wal_level"
  | maxWalSenders => "max_wal_senders"
  | maxReplicationSlots => "max_replication_slots"

/-- What is asked of the upstream. -/
inductive SetupOp
  | connect
  /-- `select current_setting($1)`. -/
  | setting (param : Param)
  /-- `select exists(select 1 from pg_publication where pubname = $1)`. -/
  | publicationExists (publication : String)
  | alterSystem (param : Param) (value : String)
  /-- `CREATE PUBLICATION "…" FOR ALL TABLES`. -/
  | createPublication (publication : String)
  | installDdlTrigger
  deriving DecidableEq

/-- What is answered. -/
inductive SetupAnswer
  | done
  | text (value : String)
  | flag (value : Bool)

namespace SetupAnswer

/-- `get(0)`, as a text. -/
def asText : SetupAnswer → String
  | text value => value
  | _ => ""

/-- `get(0)`, as a Boolean. -/
def asBool : SetupAnswer → Bool
  | flag value => value
  | _ => false

end SetupAnswer

/-- `CacheError::Config` and `CacheError::Upstream`. -/
inductive SetupError
  | config (message : String)
  | upstream (message : String)
  deriving DecidableEq

abbrev SetupReply := Except String SetupAnswer

abbrev Preparing := ExceptT SetupError (Program SetupOp SetupReply)

/-- An answer, and `?`. -/
def ask (op : SetupOp) : Preparing SetupAnswer :=
  ExceptT.mk (Except.mapError .upstream <$> Program.perform op)

/-- Whether it was done. -/
def succeeds (op : SetupOp) : Preparing Bool :=
  ExceptT.mk ((fun reply => .ok reply.isOk) <$> Program.perform op)

/-- `setting`. -/
def setting (param : Param) : Preparing String := do return (← ask (.setting param)).asText

/-- `parse().unwrap_or(0)`. -/
def limitOf (text : String) : Int := (Lifecycle.parseSigned 64 text).getD 0

/-- `is_identifier`. -/
def isIdentifier (name : String) : Bool :=
  !name.isEmpty && name.toList.all fun c => c.isAlphanum || c == '_'

/-- What has been done about a setting. -/
inductive Change
  | kept
  | changed
  | manual
  deriving DecidableEq

/-- A setting that is not as it should be. -/
def alter (param : Param) (value : String) : Preparing Change := do
  return if ← succeeds (.alterSystem param value) then .changed else .manual

def applyWalLevel : Preparing Change := do
  if (← setting .walLevel) == "logical" then return .kept else alter .walLevel "logical"

def applyLimit (param : Param) : Preparing Change := do
  if limitOf (← setting param) < 10 then alter param "10" else return .kept

def applyPublication (publication : String) : Preparing Unit := do
  let found ← ask (.publicationExists publication)
  if found.asBool then return else discard (ask (.createPublication publication))

/-- What `init` says in the end. -/
inductive Report
  | ready
  | restartRequired
  | manualSettings
  deriving DecidableEq

def reportOf (changes : List Change) : Report :=
  if .manual ∈ changes then .manualSettings
  else if .changed ∈ changes then .restartRequired
  else .ready

/-- `apply`. -/
def apply (publication : String) : Preparing Report := do
  let wal ← applyWalLevel
  let senders ← applyLimit .maxWalSenders
  let slots ← applyLimit .maxReplicationSlots
  applyPublication publication
  discard (succeeds .installDdlTrigger)
  return reportOf [wal, senders, slots]

/-- `prepare`, of someone who confirms or does not. -/
def prepare (publication : String) (confirmed : Bool) : Preparing (Option Report) :=
  if !isIdentifier publication then
    throw (.config ("Invalid publication name \x60" ++ publication ++
      "\x60. Use only letters, digits, and underscore."))
  else if !confirmed then return none
  else do
    discard (ask .connect)
    return some (← apply publication)

/-- A limit that is asked for. -/
def checkLimit (param : Param) : Preparing Unit := do
  let value := limitOf (← setting param)
  if value < 1 then
    throw (.config ("Upstream Postgres has " ++ param.name ++ "=" ++ toString value ++
      ", but PgPaw requires at least 1. Run \x60pgpaw init\x60; if it changes WAL settings, " ++
      "restart Postgres before \x60pgpaw serve\x60."))
  else return

/-- `preflight`; who connects to what stands in the error of `connect` as well. -/
def preflight (publication : String) : Preparing Unit := do
  discard (ExceptT.mk (Except.mapError (fun message => SetupError.config
    ("Could not connect to upstream Postgres (" ++ message ++
      "). Check --pg-host, --pg-port, --pg-user, and --pg-password."))
    <$> Program.perform SetupOp.connect) : Preparing SetupAnswer)
  let walLevel ← setting .walLevel
  if walLevel != "logical" then
    throw (.config ("Upstream Postgres has wal_level='" ++ walLevel ++
      "', but PgPaw requires 'logical'. Run \x60pgpaw init\x60; if it changes WAL settings, " ++
      "restart Postgres before \x60pgpaw serve\x60."))
  else do
    checkLimit .maxWalSenders
    checkLimit .maxReplicationSlots
    let found ← ask (.publicationExists publication)
    if found.asBool then return
    else throw (.config ("Publication \"" ++ publication ++ "\" does not exist on upstream " ++
      "Postgres. Run \x60pgpaw init\x60 to create it, or pass --publication with an existing " ++
      "publication."))

/-! ## 2. The upstream -/

/-- The upstream, as far as it matters, and what it lets the user do. -/
structure Upstream where
  reachable : Bool
  running : Param → String
  /-- What the configuration files have, `postgresql.auto.conf` last. -/
  configured : Param → String
  /-- What the server is started with, as in `postgres -c wal_level=replica`. -/
  commandLine : Param → Option String
  publications : List String
  ddlTrigger : Bool
  mayAlter : Param → Bool
  mayPublish : Bool
  mayTrigger : Bool

namespace Upstream

/-- What is refused. -/
def refused : SetupReply := .error "permission denied"

/-- What it does.  A name that is too long is refused as a value of `name`. -/
def exec (op : SetupOp) (u : Upstream) : SetupReply × Upstream :=
  match op with
  | .connect => (if u.reachable then .ok .done else .error "connection refused", u)
  | .setting param => (.ok (.text (u.running param)), u)
  | .publicationExists name =>
    (if nameBytes name.toList ≤ NAME_BYTES then .ok (.flag (u.publications.contains name))
      else .error "identifier too long", u)
  | .alterSystem param value =>
    if u.mayAlter param then
      (.ok .done, { u with configured := Function.update u.configured param value })
    else (refused, u)
  | .createPublication name =>
    if u.publications.contains (truncatedName name) then (.error "already exists", u)
    else if u.mayPublish then
      (.ok .done, { u with publications := truncatedName name :: u.publications })
    else (refused, u)
  | .installDdlTrigger =>
    if u.mayTrigger then (.ok .done, { u with ddlTrigger := true }) else (refused, u)

/-- A restart: the command line goes before the files. -/
def restart (u : Upstream) : Upstream :=
  { u with running := fun param => (u.commandLine param).getD (u.configured param) }

end Upstream

/-- What comes of a program. -/
def runOn {α : Type} (p : Preparing α) (u : Upstream) : Except SetupError α × Upstream :=
  p.run.run Upstream.exec u

variable {α β : Type} {u u' : Upstream} {publication : String}

theorem runOn_bind (p : Preparing α) (f : α → Preparing β) (u : Upstream) :
    runOn (p >>= f) u = match (runOn p u).1 with
      | .ok a => runOn (f a) (runOn p u).2
      | .error e => (.error e, (runOn p u).2) := by
  unfold runOn
  rw [Program.run_fallible_bind]
  cases (p.run.run Upstream.exec u).1 <;> rfl

theorem runOn_pure (a : α) (u : Upstream) : runOn (pure a) u = (.ok a, u) := rfl

theorem runOn_throw (e : SetupError) (u : Upstream) :
    runOn (throw e : Preparing α) u = (.error e, u) := rfl

theorem runOn_discard (p : Preparing α) (u : Upstream) :
    runOn (discard p) u = ((runOn p u).1.map fun _ => (), (runOn p u).2) := by
  have h : (discard p : Preparing Unit) = p >>= fun _ => pure () := rfl
  rw [h, runOn_bind]
  cases (runOn p u).1 <;> rfl

theorem runOn_ask (op : SetupOp) (u : Upstream) :
    runOn (ask op) u = ((u.exec op).1.mapError .upstream, (u.exec op).2) := rfl

theorem runOn_succeeds (op : SetupOp) (u : Upstream) :
    runOn (succeeds op) u = (.ok (u.exec op).1.isOk, (u.exec op).2) := rfl

theorem runOn_setting (param : Param) (u : Upstream) :
    runOn (setting param) u = (.ok (u.running param), u) := rfl

/-! ## 3. A setting -/

/-- What `init` leaves alone. -/
def InOrder : Param → String → Prop
  | .walLevel, value => value = "logical"
  | _, value => 10 ≤ limitOf value

/-- What `preflight` lets pass. -/
def Enough : Param → String → Prop
  | .walLevel, value => value = "logical"
  | _, value => 1 ≤ limitOf value

instance : ∀ param value, Decidable (InOrder param value)
  | .walLevel, _ | .maxWalSenders, _ | .maxReplicationSlots, _ => by
    unfold InOrder
    infer_instance

/-- What `init` makes of a setting. -/
def wanted : Param → String
  | .walLevel => "logical"
  | _ => "10"

theorem InOrder.enough {param : Param} {value : String} (h : InOrder param value) :
    Enough param value := by
  cases param with
  | walLevel => exact h
  | maxWalSenders | maxReplicationSlots => exact le_trans (by decide) h

theorem inOrder_wanted (param : Param) : InOrder param (wanted param) := by
  cases param with
  | walLevel => rfl
  | maxWalSenders | maxReplicationSlots =>
    have h : limitOf "10" = 10 := by decide
    exact h.ge

/-- What `init` does about a setting. -/
def changeOf (u : Upstream) (param : Param) : Change :=
  if InOrder param (u.running param) then .kept
  else if u.mayAlter param then .changed
  else .manual

/-- What it is configured as then. -/
def settled (u : Upstream) (param : Param) : String :=
  if changeOf u param = .changed then wanted param else u.configured param

/-- After one setting. -/
def withSettled (u : Upstream) (param : Param) : Upstream :=
  { u with configured := Function.update u.configured param (settled u param) }

theorem withSettled_of_unchanged {param : Param} (h : changeOf u param ≠ .changed) :
    withSettled u param = u := by
  rw [withSettled, settled, if_neg h, Function.update_eq_self]

theorem runOn_alter {param : Param} (h : ¬InOrder param (u.running param)) :
    runOn (alter param (wanted param)) u = (.ok (changeOf u param), withSettled u param) := by
  rw [alter, runOn_bind, runOn_succeeds]
  by_cases hmay : u.mayAlter param
  · have hchange : changeOf u param = .changed := by rw [changeOf, if_neg h, if_pos hmay]
    have hexec : u.exec (.alterSystem param (wanted param)) =
        (.ok .done, withSettled u param) := by
      rw [withSettled, settled, if_pos hchange]
      exact if_pos hmay
    rw [hexec, hchange]
    rfl
  · have hchange : changeOf u param = .manual := by rw [changeOf, if_neg h, if_neg hmay]
    have hexec : u.exec (.alterSystem param (wanted param)) = (Upstream.refused, u) := if_neg hmay
    rw [hexec, withSettled_of_unchanged (by rw [hchange]; decide), hchange]
    rfl

theorem runOn_applyWalLevel :
    runOn applyWalLevel u = (.ok (changeOf u .walLevel), withSettled u .walLevel) := by
  rw [applyWalLevel, runOn_bind, runOn_setting]
  by_cases h : u.running .walLevel = "logical"
  · have hkept : changeOf u .walLevel = .kept := if_pos h
    rw [withSettled_of_unchanged (by rw [hkept]; decide), hkept]
    simp only [h, beq_self_eq_true, if_true, runOn_pure]
  · simp only [beq_iff_eq, h, if_false]
    exact runOn_alter h

theorem runOn_applyLimit {param : Param} (hparam : param ≠ .walLevel) :
    runOn (applyLimit param) u = (.ok (changeOf u param), withSettled u param) := by
  have hin : InOrder param (u.running param) ↔ ¬limitOf (u.running param) < 10 := by
    cases param with
    | walLevel => exact absurd rfl hparam
    | maxWalSenders | maxReplicationSlots => exact not_lt.symm
  have hwanted : wanted param = "10" := by
    cases param with
    | walLevel => exact absurd rfl hparam
    | maxWalSenders | maxReplicationSlots => rfl
  rw [applyLimit, runOn_bind, runOn_setting]
  by_cases h : limitOf (u.running param) < 10
  · have halter := runOn_alter (hin.not.mpr (not_not.mpr h))
    rw [hwanted] at halter
    simpa only [h, if_true] using halter
  · have hkept : changeOf u param = .kept := if_pos (hin.mpr h)
    rw [withSettled_of_unchanged (by rw [hkept]; decide), hkept]
    simp only [h, if_false, runOn_pure]

/-- The settings do not get into each other's way. -/
theorem withSettled_all : withSettled (withSettled (withSettled u .walLevel) .maxWalSenders)
    .maxReplicationSlots = { u with configured := settled u } := by
  have h : ∀ param, (withSettled (withSettled (withSettled u .walLevel) .maxWalSenders)
      .maxReplicationSlots).configured param = settled u param := by
    intro param
    cases param <;> rfl
  rw [← funext h]
  rfl

/-! ## 4. `init`, and `preflight` -/

/-- The upstream with the publication. -/
def withPublication (u : Upstream) (publication : String) : Upstream :=
  if u.publications.contains publication then u
  else { u with publications := publication :: u.publications }

theorem contains_withPublication :
    (withPublication u publication).publications.contains publication := by
  unfold withPublication
  split <;> rename_i h
  · exact h
  · simp

theorem runOn_publicationExists (h : nameBytes publication.toList ≤ NAME_BYTES) :
    runOn (ask (.publicationExists publication)) u =
      (.ok (.flag (u.publications.contains publication)), u) := by
  rw [runOn_ask, Upstream.exec, if_pos h]
  rfl

/-- A publication that is asked for is there afterwards, and its name was short enough. -/
theorem runOn_applyPublication (h : runOn (applyPublication publication) u = (.ok (), u')) :
    nameBytes publication.toList ≤ NAME_BYTES ∧ u' = withPublication u publication := by
  rw [applyPublication, runOn_bind] at h
  by_cases hname : nameBytes publication.toList ≤ NAME_BYTES
  · refine ⟨hname, ?_⟩
    rw [runOn_publicationExists hname] at h
    unfold withPublication
    cases hfound : u.publications.contains publication with
    | true =>
      simp only [hfound, SetupAnswer.asBool, if_true, runOn_pure, Prod.mk.injEq, true_and] at h
      exact h.symm
    | false =>
      simp only [hfound, SetupAnswer.asBool, Bool.false_eq_true, if_false, runOn_discard,
        runOn_ask, Upstream.exec, truncatedName_of_le hname] at h
      by_cases hmay : u.mayPublish
      · rw [if_pos hmay] at h
        exact (Prod.mk.inj h).2.symm
      · rw [if_neg hmay] at h
        cases (Prod.mk.inj h).1
  · have hexec : u.exec (.publicationExists publication) = (.error "identifier too long", u) := by
      rw [Upstream.exec, if_neg hname]
    rw [runOn_ask, hexec] at h
    cases h

/-- What `apply` does about the settings. -/
def changesOf (u : Upstream) : List Change :=
  [changeOf u .walLevel, changeOf u .maxWalSenders, changeOf u .maxReplicationSlots]

theorem changeOf_mem (u : Upstream) (param : Param) : changeOf u param ∈ changesOf u := by
  cases param <;> simp [changesOf]

/-- After `apply`. -/
def applied (u : Upstream) (publication : String) : Upstream :=
  { withPublication { u with configured := settled u } publication with
    ddlTrigger := u.mayTrigger || u.ddlTrigger }

@[simp] theorem applied_reachable : (applied u publication).reachable = u.reachable := by
  unfold applied withPublication
  split <;> rfl

@[simp] theorem applied_running : (applied u publication).running = u.running := by
  unfold applied withPublication
  split <;> rfl

@[simp] theorem applied_configured : (applied u publication).configured = settled u := by
  unfold applied withPublication
  split <;> rfl

@[simp] theorem applied_commandLine : (applied u publication).commandLine = u.commandLine := by
  unfold applied withPublication
  split <;> rfl

theorem contains_applied : (applied u publication).publications.contains publication :=
  contains_withPublication

theorem runOn_apply_of
    (h : runOn (applyPublication publication) { u with configured := settled u } =
      (.ok (), withPublication { u with configured := settled u } publication)) :
    runOn (apply publication) u = (.ok (reportOf (changesOf u)), applied u publication) := by
  rw [apply, runOn_bind, runOn_applyWalLevel]
  simp only
  rw [runOn_bind, runOn_applyLimit (by decide)]
  simp only
  rw [runOn_bind, runOn_applyLimit (by decide)]
  simp only [withSettled_all]
  rw [runOn_bind, h]
  simp only [runOn_bind, runOn_discard, runOn_succeeds, Except.map, runOn_pure, Upstream.exec]
  refine Prod.ext rfl ?_
  unfold applied withPublication
  cases u.mayTrigger <;> split <;> simp

/-- `apply` goes through where the publication can be had, and does what it says then. -/
theorem runOn_apply {report : Report} (h : runOn (apply publication) u = (.ok report, u')) :
    nameBytes publication.toList ≤ NAME_BYTES ∧ report = reportOf (changesOf u) ∧
      u' = applied u publication := by
  rcases hpublication : runOn (applyPublication publication) { u with configured := settled u }
    with ⟨_ | _, v⟩
  · rw [apply, runOn_bind, runOn_applyWalLevel] at h
    simp only at h
    rw [runOn_bind, runOn_applyLimit (by decide)] at h
    simp only at h
    rw [runOn_bind, runOn_applyLimit (by decide)] at h
    simp only [withSettled_all] at h
    rw [runOn_bind, hpublication] at h
    cases h
  · obtain ⟨hname, rfl⟩ := runOn_applyPublication hpublication
    obtain ⟨hreport, hafter⟩ := Prod.mk.inj ((runOn_apply_of hpublication).symm.trans h)
    exact ⟨hname, (Except.ok.inj hreport).symm, hafter.symm⟩

theorem runOn_prepare_of (hident : isIdentifier publication = true) (hreach : u.reachable = true) :
    runOn (prepare publication true) u = runOn (some <$> apply publication) u := by
  have hexec : u.exec .connect = (.ok .done, u) := by
    rw [Upstream.exec, if_pos hreach]
  simp only [prepare, hident, Bool.not_true, Bool.false_eq_true, if_false]
  rw [runOn_bind, runOn_discard, runOn_ask, hexec]
  rfl

/-- `init` has gone through: what was done about the settings, and what the upstream is then. -/
theorem runOn_prepare {report : Report}
    (h : runOn (prepare publication true) u = (.ok (some report), u')) :
    isIdentifier publication = true ∧ u.reachable = true ∧
      nameBytes publication.toList ≤ NAME_BYTES ∧ report = reportOf (changesOf u) ∧
      u' = applied u publication := by
  cases hident : isIdentifier publication with
  | false => simp [prepare, hident, runOn_throw] at h
  | true =>
    cases hreach : u.reachable with
    | false =>
      have hexec : u.exec .connect = (.error "connection refused", u) := by
        simp only [Upstream.exec, hreach, Bool.false_eq_true, if_false]
      simp only [prepare, hident, Bool.not_true, Bool.false_eq_true, if_false] at h
      rw [runOn_bind, runOn_discard, runOn_ask, hexec] at h
      cases h
    | true =>
      rw [runOn_prepare_of hident hreach] at h
      have hmap : runOn (some <$> apply publication) u =
          ((runOn (apply publication) u).1.map some, (runOn (apply publication) u).2) := by
        have hbind : some <$> apply publication = apply publication >>= fun a => pure (some a) :=
          rfl
        rw [hbind, runOn_bind]
        cases (runOn (apply publication) u).1 <;> rfl
      rw [hmap] at h
      obtain ⟨hreport, hafter⟩ := Prod.mk.inj h
      rcases hresult : (runOn (apply publication) u).1 with e | found
      · rw [hresult] at hreport
        cases hreport
      · rw [hresult] at hreport
        cases hreport
        exact ⟨rfl, rfl, runOn_apply (Prod.ext hresult hafter)⟩

theorem runOn_checkLimit {param : Param} (hparam : param ≠ .walLevel) :
    (Enough param (u.running param) → runOn (checkLimit param) u = (.ok (), u)) ∧
      (¬Enough param (u.running param) → (runOn (checkLimit param) u).1 ≠ .ok ()) := by
  have hthrough : Enough param (u.running param) ↔ ¬limitOf (u.running param) < 1 := by
    cases param with
    | walLevel => exact absurd rfl hparam
    | maxWalSenders | maxReplicationSlots => exact not_lt.symm
  rw [hthrough, checkLimit, runOn_bind, runOn_setting]
  by_cases h : limitOf (u.running param) < 1
  · simp [h, runOn_throw]
  · simp [h, runOn_pure]

theorem runOn_checkLimit_bind {param : Param} (hparam : param ≠ .walLevel) (p : Preparing Unit) :
    (runOn (checkLimit param >>= fun _ => p) u).1 = .ok () ↔
      Enough param (u.running param) ∧ (runOn p u).1 = .ok () := by
  obtain ⟨hpasses, hfails⟩ := runOn_checkLimit (u := u) hparam
  rw [runOn_bind]
  by_cases h : Enough param (u.running param)
  · simp [hpasses h, h]
  · have hresult := hfails h
    rcases hrun : (runOn (checkLimit param) u).1 with e | ⟨⟩
    · simp [h]
    · exact absurd hrun hresult

/-- What `preflight` asks for, of an upstream that has the publication. -/
theorem runOn_preflight (hreach : u.reachable = true)
    (hname : nameBytes publication.toList ≤ NAME_BYTES)
    (hpublication : u.publications.contains publication = true) :
    (runOn (preflight publication) u).1 = .ok () ↔ ∀ param, Enough param (u.running param) := by
  have hconnect (f : String → SetupError) :
      runOn (ExceptT.mk (Except.mapError f <$> Program.perform SetupOp.connect) :
        Preparing SetupAnswer) u = (.ok .done, u) := by
    have hexec : u.exec .connect = (.ok .done, u) := by
      rw [Upstream.exec, if_pos hreach]
    have hrun : runOn (ExceptT.mk (Except.mapError f <$> Program.perform SetupOp.connect) :
        Preparing SetupAnswer) u = ((u.exec .connect).1.mapError f, (u.exec .connect).2) := rfl
    rw [hrun, hexec]
    rfl
  have hfound (p : Preparing Unit) : (runOn (ask (.publicationExists publication) >>= fun found =>
      if found.asBool then pure () else p) u).1 = .ok () := by
    rw [runOn_bind, runOn_publicationExists hname]
    simp only [SetupAnswer.asBool, hpublication, if_true, runOn_pure]
  rw [preflight, runOn_bind, runOn_discard, hconnect]
  simp only [Except.map]
  rw [runOn_bind, runOn_setting]
  by_cases hwal : u.running .walLevel = "logical"
  · have hnot : (u.running .walLevel != "logical") = false := by simp [hwal]
    simp only [hnot, Bool.false_eq_true, if_false]
    rw [runOn_checkLimit_bind (by decide), runOn_checkLimit_bind (by decide)]
    constructor
    · rintro ⟨hsenders, hslots, -⟩ param
      cases param with
      | walLevel => exact hwal
      | maxWalSenders => exact hsenders
      | maxReplicationSlots => exact hslots
    · intro h
      exact ⟨h .maxWalSenders, h .maxReplicationSlots, hfound _⟩
  · have hnot : (u.running .walLevel != "logical") = true := by simp [hwal]
    simp only [hnot, if_true, runOn_throw]
    constructor
    · rintro ⟨⟩
    · intro h
      exact absurd (h .walLevel) hwal

/-! ## 5. From `init` to `serve` -/

theorem inOrder_of_kept {param : Param} (h : changeOf u param = .kept) :
    InOrder param (u.running param) := by
  by_contra hnot
  rw [changeOf, if_neg hnot] at h
  split at h <;> cases h

theorem inOrder_of_ready (h : reportOf (changesOf u) = .ready) (param : Param) :
    InOrder param (u.running param) := by
  have hmem := changeOf_mem u param
  unfold reportOf at h
  split at h
  · cases h
  · split at h
    · cases h
    · rename_i hmanual hchanged
      refine inOrder_of_kept ?_
      cases hchange : changeOf u param with
      | kept => rfl
      | changed => exact absurd (hchange ▸ hmem) hchanged
      | manual => exact absurd (hchange ▸ hmem) hmanual

/-- What is configured where all that was not in order could be changed. -/
theorem settled_eq (h : reportOf (changesOf u) ≠ .manualSettings) (param : Param) :
    settled u param =
      if InOrder param (u.running param) then u.configured param else wanted param := by
  have hmem := changeOf_mem u param
  have hmanual : changeOf u param ≠ .manual := by
    intro hchange
    rw [hchange] at hmem
    exact h (if_pos hmem)
  unfold settled
  unfold changeOf at hmanual ⊢
  by_cases hin : InOrder param (u.running param) <;>
    by_cases hmay : u.mayAlter param <;> simp_all

theorem runOn_map {f : α → β} {p : Preparing α} {a : α} (h : runOn p u = (.ok a, u')) :
    runOn (f <$> p) u = (.ok (f a), u') := by
  have hbind : f <$> p = p >>= fun a => pure (f a) := rfl
  rw [hbind, runOn_bind, h]
  rfl

/-- Where there is nothing to do, `init` does nothing. -/
theorem runOn_prepare_again (hident : isIdentifier publication = true)
    (hreach : u.reachable = true) (hname : nameBytes publication.toList ≤ NAME_BYTES)
    (hpublication : u.publications.contains publication = true)
    (htrigger : u.mayTrigger = true → u.ddlTrigger = true)
    (h : ∀ param, InOrder param (u.running param)) :
    runOn (prepare publication true) u = (.ok (some .ready), u) := by
  have hkept (param : Param) : changeOf u param = .kept := if_pos (h param)
  have hsettled : { u with configured := settled u } = u := by
    have hsame : settled u = u.configured := by
      funext param
      rw [settled, hkept]
      rfl
    rw [hsame]
  have hwith : withPublication u publication = u := if_pos hpublication
  have happlied : applied u publication = u := by
    have htriggered : (u.mayTrigger || u.ddlTrigger) = u.ddlTrigger := by
      cases hmay : u.mayTrigger with
      | false => rfl
      | true => rw [htrigger hmay, Bool.true_or]
    rw [applied, hsettled, hwith, htriggered]
  have hreport : reportOf (changesOf u) = .ready := by
    rw [changesOf, hkept, hkept, hkept]
    rfl
  have happly : runOn (apply publication) u = (.ok .ready, u) := by
    have hfound : runOn (applyPublication publication) u = (.ok (), u) := by
      rw [applyPublication, runOn_bind, runOn_publicationExists hname]
      simp only [SetupAnswer.asBool, hpublication, if_true, runOn_pure]
    rw [runOn_apply_of (by rw [hsettled, hwith, hfound]), hreport, happlied]
  rw [runOn_prepare_of hident hreach, runOn_map happly]

/-- What the command line gives is right, and what it does not give and runs in order is
configured as is right. -/
def KeepsAcross (u : Upstream) (right : Param → String → Prop) : Prop :=
  ∀ param, match u.commandLine param with
    | some value => right param value
    | none => InOrder param (u.running param) → right param (u.configured param)

/-- What a restart after `init` brings, where all that was not in order could be changed. -/
theorem restarted_iff {right : Param → String → Prop}
    (hwanted : ∀ param, right param (wanted param))
    (h : reportOf (changesOf u) ≠ .manualSettings) :
    (∀ param, right param ((u.commandLine param).getD (settled u param))) ↔
      KeepsAcross u right := by
  refine forall_congr' fun param => ?_
  cases u.commandLine param with
  | some value => rfl
  | none =>
    rw [Option.getD_none, settled_eq h]
    split <;> rename_i hin
    · exact ⟨fun hright _ => hright, fun hright => hright hin⟩
    · exact ⟨fun _ hnot => absurd hnot hin, fun _ => hwanted param⟩

/-- **`preflight` after `init`.**  An `init` that goes through and says that all is ready has made
the upstream pass at once.  One that asks for nothing but a restart has made it pass after the
restart, exactly where the command line gives nothing that is too little and no other setting that
it found in order is configured as too little; and where all of these are in order, another `init`
after the restart finds nothing to do. -/
theorem preflight_after_init {u u' : Upstream} {publication : String} {report : Report}
    (h : runOn (prepare publication true) u = (.ok (some report), u')) :
    (report = .ready → (runOn (preflight publication) u').1 = .ok ()) ∧
      (report ≠ .manualSettings →
        ((runOn (preflight publication) u'.restart).1 = .ok () ↔ KeepsAcross u Enough) ∧
        (KeepsAcross u InOrder →
          runOn (prepare publication true) u'.restart = (.ok (some .ready), u'.restart))) := by
  obtain ⟨hident, hreach, hname, rfl, rfl⟩ := runOn_prepare h
  refine ⟨fun hready => ?_, fun hmanual => ⟨?_, fun hkeeps => ?_⟩⟩
  · rw [runOn_preflight (applied_reachable.trans hreach) hname contains_applied]
    intro param
    rw [applied_running]
    exact (inOrder_of_ready hready param).enough
  · have hpreflight := runOn_preflight (u := (applied u publication).restart)
      (applied_reachable.trans hreach) hname contains_applied
    have hwanted (param : Param) : Enough param (wanted param) := (inOrder_wanted param).enough
    rw [hpreflight, ← restarted_iff hwanted hmanual]
    simp only [Upstream.restart, applied_configured, applied_commandLine]
  · refine runOn_prepare_again hident (applied_reachable.trans hreach) hname contains_applied
      ?_ ?_
    · intro hmay
      have hsame : (applied u publication).restart.mayTrigger = u.mayTrigger := by
        unfold Upstream.restart applied withPublication
        split <;> rfl
      rw [hsame] at hmay
      simp [Upstream.restart, applied, hmay]
    · intro param
      simp only [Upstream.restart, applied_configured, applied_commandLine]
      exact (restarted_iff inOrder_wanted hmanual).mpr hkeeps param

/-- A server as it is installed, started with `-c max_wal_senders=20`. -/
def installed : Upstream where
  reachable := true
  running
    | .walLevel => "replica"
    | .maxWalSenders => "20"
    | .maxReplicationSlots => "10"
  configured
    | .walLevel => "replica"
    | _ => "10"
  commandLine
    | .maxWalSenders => some "20"
    | _ => none
  publications := []
  ddlTrigger := false
  mayAlter _ := true
  mayPublish := true
  mayTrigger := true

/-- It passes after a restart. -/
theorem installed_passes :
    (runOn (preflight "pgpaw") (runOn (prepare "pgpaw" true) installed).2.restart).1 = .ok () := by
  have hinit : runOn (prepare "pgpaw" true) installed =
      (.ok (some .restartRequired), (runOn (prepare "pgpaw" true) installed).2) :=
    Prod.ext (by decide) rfl
  refine ((preflight_after_init hinit).2 (by decide)).1.mpr ?_
  intro param
  cases param with
  | walLevel => exact fun hin => hin.enough
  | maxWalSenders =>
    have h : limitOf "20" = 20 := by decide
    exact le_trans (by decide) h.ge
  | maxReplicationSlots => exact fun hin => hin.enough

/-- The same server, started with `-c wal_level=replica`. -/
def pinned : Upstream :=
  { installed with commandLine := Function.update installed.commandLine .walLevel (some "replica") }

-- `init` asks for a restart, and it does not help
example : (runOn (prepare "pgpaw" true) pinned).1 = .ok (some .restartRequired) ∧
    (runOn (preflight "pgpaw") (runOn (prepare "pgpaw" true) pinned).2.restart).1.isOk = false := by
  decide

end PgPaw.Setup
