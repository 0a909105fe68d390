/-
# `db/primary.rs`: the observer of an embedded primary

A statement trigger on each replicated table notifies `<txid>:<table>`.  The callback of
`PrimaryObserver::start` decodes the payload and publishes a transaction that truncates the
table, at the next value of `security_version`; the bridge advances the index by it and sends it
to the hub.

The trigger writes `txid_current()`, which has 64 bits, and the callback parses a `u32`.  A
payload it cannot parse is dropped without a word, so from transaction `2 ^ 32` on no
notification takes effect (`notifications_take_effect_iff`).
-/
import PgPaw.Capability.LiveStream
import PgPaw.Capability.Restart

namespace PgPaw

/-! ## 1. The payload -/

/-- `str::split_once(':')`. -/
def splitOnceColon (text : String) : Option (String × String) :=
  match text.toList.span (· != ':') with
  | (before, ':' :: after) => some (String.ofList before, String.ofList after)
  | _ => none

/-- `str::parse::<u32>`. -/
def parseU32 (text : String) : Option Nat := (parseUsize text).filter (· < 2 ^ 32)

/-- One execution of the trigger. -/
structure Notification where
  txid : Nat
  table : String
  deriving DecidableEq, Repr

/-- What the trigger notifies: `txid_current()::text || ':' || TG_TABLE_NAME`. -/
def Notification.payload (n : Notification) : String := decimal n.txid ++ ":" ++ n.table

example : (Notification.mk 712 "Odd:Name").payload = "712:Odd:Name" := by decide

theorem splitOnceColon_payload (n : Notification) :
    splitOnceColon n.payload = some (decimal n.txid, n.table) := by
  have hdigits : ∀ c ∈ Nat.toDigits 10 n.txid, (c != ':') = true := by
    intro c hc
    simp only [bne_iff_ne, ne_eq]
    rintro rfl
    exact colon_notMem_toDigits (by decide) (by decide) n.txid hc
  have hspan : n.payload.toList.span (· != ':') =
      (Nat.toDigits 10 n.txid, ':' :: n.table.toList) := by
    have hcolon : (":" : String).toList = [':'] := by decide
    have hpayload : n.payload.toList = Nat.toDigits 10 n.txid ++ ':' :: n.table.toList := by
      simp only [Notification.payload, decimal, String.toList_append, String.toList_ofList,
        hcolon, List.append_assoc, List.singleton_append]
    rw [hpayload, List.span_eq_takeWhile_dropWhile, List.takeWhile_append_of_pos hdigits,
      List.dropWhile_append_of_pos hdigits]
    simp
  simp only [splitOnceColon, hspan, decimal, String.ofList_toList]

/-- `usize::parse` reads what `Display` writes. -/
theorem parseUsize_decimal (n : Nat) :
    parseUsize (decimal n) = if n < 2 ^ 64 then some n else none := by
  have hdigit : ∀ c ∈ Nat.toDigits 10 n, c.isDigit = true := fun c hc =>
    Nat.isDigit_of_mem_toDigits (by decide) (by decide) hc
  have hall : (Nat.toDigits 10 n).all Char.isDigit = true := List.all_eq_true.mpr hdigit
  have hne : (Nat.toDigits 10 n).isEmpty = false := by simp [Nat.toDigits_ne_nil]
  unfold parseUsize
  rw [decimal, String.toList_ofList]
  split
  · rename_i digits hsign
    exact absurd (hdigit '+' (hsign ▸ List.mem_cons_self)) (by decide)
  · simp only [hall, hne, Bool.not_true, Bool.or_self, Bool.false_eq_true, if_false,
      Nat.ofDigitChars_ten_toDigits]

/-- **A number survives the callback exactly when it fits 32 bits.** -/
theorem parseU32_decimal (n : Nat) :
    parseU32 (decimal n) = if n < 2 ^ 32 then some n else none := by
  rw [parseU32, parseUsize_decimal]
  by_cases h : n < 2 ^ 32
  · have h64 : n < 2 ^ 64 := by omega
    rw [if_pos h, if_pos h64, Option.filter_some, if_pos (decide_eq_true h)]
  · rw [if_neg h]
    split
    · rw [Option.filter_some, if_neg (by simpa using h)]
    · rfl

/-! ## 2. The callback -/

/-- What the callback and the bridge share: the counter and the index. -/
structure PrimaryObserver where
  securityVersion : Nat
  versions : VersionIndex

namespace PrimaryObserver

/-- A primary that has just started. -/
def start (pk : List (String × String)) (full : List String) : PrimaryObserver :=
  ⟨0, .new pk full⟩

/-- The transaction the callback publishes for a payload, if any: `fetch_add` and the addition
after it wrap. -/
def published (self : PrimaryObserver) (payload : String) : Option CommittedTransaction :=
  (splitOnceColon payload).bind fun (txid, table) => (parseU32 txid).map fun xid =>
    ⟨xid, (self.securityVersion + 1) % 2 ^ 64, [.truncate table]⟩

/-- The callback, and the bridge after it. -/
def notify (self : PrimaryObserver) (n : Notification) : PrimaryObserver :=
  match self.published n.payload with
  | some txn => ⟨(self.securityVersion + 1) % 2 ^ 64, self.versions.advance txn⟩
  | none => self

/-- A query is over a table, in whatever case it writes the name. -/
def isOver (table : String) (tables : List String) : Prop :=
  ∃ t ∈ tables, toAsciiLowercase t = toAsciiLowercase table

/-- **A notification takes effect**: it is published as a transaction of its own id that
changes its table and nothing else, the version of every query over the table strictly
increases, and a hub that receives the transaction makes a job of every subscription over it. -/
structure TakesEffect (self : PrimaryObserver) (n : Notification) : Prop where
  published : ∃ lsn, self.published n.payload = some ⟨n.txid, lsn, [.truncate n.table]⟩
  increases : ∀ tables eqFilters, isOver n.table tables →
    self.versions.versionOf tables eqFilters < (self.notify n).versions.versionOf tables eqFilters
  requeried : ∀ {γ : Type} (env : Live.Env γ) (pk : List (String × String)) (full : List String)
    (hub hub' : Live.State γ) (m : Nat) (order : List Nat),
    (Live.system env pk full).Reachable Transition.free hub →
    hub.core.history.label m = self.published n.payload → hub.queue.head? = some m →
    Live.step env hub (.receive order) = some hub' →
    ∃ jobs, hub'.worker = .busy m jobs none ∧
      ∀ id sub, hub.subs id = some sub → isOver n.table sub.tables → sub.job id ∈ jobs

/-! ## 3. Which notifications take effect -/

variable {self : PrimaryObserver} {n : Notification}

theorem published_payload : self.published n.payload =
    if n.txid < 2 ^ 32 then some ⟨n.txid, (self.securityVersion + 1) % 2 ^ 64, [.truncate n.table]⟩
    else none := by
  simp only [published, splitOnceColon_payload, Option.bind_some, parseU32_decimal]
  split <;> rfl

/-- The transaction of a notification concerns every query over the table. -/
theorem hears_of_over {index : VersionIndex} {xid lsn : Nat} {table : String}
    {tables : List String} (h : isOver table tables) (eqFilters : List (String × String)) :
    index.hears ⟨xid, lsn, [.truncate table]⟩ tables eqFilters = true := by
  obtain ⟨t, ht, hlower⟩ := h
  unfold VersionIndex.hears
  split
  · rename_i key hanchor
    unfold VersionIndex.anchor at hanchor
    split at hanchor
    · rename_i t'
      obtain ⟨_, -, rfl⟩ := Option.map_eq_some_iff.mp hanchor
      obtain rfl := List.mem_singleton.mp ht
      simp [CommittedTransaction.truncated, hlower]
    · cases hanchor
  · rw [List.any_eq_true]
    exact ⟨t, ht, by simp [CommittedTransaction.touched, changeTable, hlower]⟩

/-- A notification that is decoded, while the counter has not wrapped. -/
theorem takesEffect_of_lt (hbound : self.versions.BoundedBy self.securityVersion)
    (htxid : n.txid < 2 ^ 32) (hlsn : self.securityVersion + 1 < 2 ^ 64) :
    self.TakesEffect n := by
  have hpub : self.published n.payload =
      some ⟨n.txid, self.securityVersion + 1, [.truncate n.table]⟩ := by
    rw [published_payload, if_pos htxid, Nat.mod_eq_of_lt hlsn]
  refine ⟨⟨_, hpub⟩, ?_, ?_⟩
  · intro tables eqFilters hover
    have hle := hbound.versionOf_le tables eqFilters
    simp only [notify, hpub]
    rw [VersionIndex.versionOf_advance hbound (Nat.le_succ _), if_pos (hears_of_over hover _)]
    exact Nat.lt_succ_of_le hle
  · intro γ env pk full hub hub' m order hreach hlabel hqueue hstep
    cases Live.taken_of_step hstep with
    | receive hidle hq hl hlagged horder =>
      rename_i m' queue txn
      obtain rfl : m' = m := by simpa [hq] using hqueue
      obtain rfl : txn = _ := Option.some.inj (hl.symm.trans (hlabel.trans hpub))
      refine ⟨_, rfl, ?_⟩
      intro id sub hsub hover
      have hid := ((Live.Hub.of_reachable hreach).ids id sub hsub).1
      have hmatched : id ∈ hub.matching (CommittedTransaction.touched
          ⟨n.txid, self.securityVersion + 1, [.truncate n.table]⟩) := by
        obtain ⟨t, ht, hlower⟩ := hover
        simp only [Live.State.matching, List.mem_filter, List.mem_range, hsub, Option.map_some,
          Option.getD_some, Live.Subscription.matched, List.any_eq_true]
        exact ⟨hid, t, ht, by simp [CommittedTransaction.touched, changeTable, hlower]⟩
      exact List.mem_filterMap.mpr ⟨id, horder.mem_iff.mpr hmatched, by simp [hsub]⟩

/-- A notification that is not decoded takes no effect. -/
theorem TakesEffect.txid_lt (h : self.TakesEffect n) : n.txid < 2 ^ 32 := by
  obtain ⟨⟨lsn, hpub⟩, -, -⟩ := h
  rw [published_payload] at hpub
  split at hpub
  · assumption
  · cases hpub

/-- Nor does one whose LSN is the counter's first value again. -/
theorem not_takesEffect_of_wrap (hlsn : self.securityVersion + 1 = 2 ^ 64) :
    ¬ self.TakesEffect n := by
  intro h
  have htxid := h.txid_lt
  obtain ⟨-, hincreases, -⟩ := h
  have hlt := hincreases [n.table] [] ⟨n.table, List.mem_singleton_self _, rfl⟩
  have hanchor : ∀ index : VersionIndex, index.anchor [n.table] [] = none := fun _ => rfl
  have hpub : self.published n.payload = some ⟨n.txid, 0, [.truncate n.table]⟩ := by
    rw [published_payload, if_pos htxid, hlsn, Nat.mod_self]
  simp only [notify, hpub] at hlt
  rw [VersionIndex.versionOf_eq_tableVersion (hanchor _),
    VersionIndex.versionOf_eq_tableVersion (hanchor _)] at hlt
  refine absurd hlt (Nat.not_lt.mpr (VersionIndex.tableVersion_le.mpr fun t ht => ?_))
  have hold := VersionIndex.tableVersion_le.mp
    (Nat.le_refl (self.versions.tableVersion [n.table])) t ht
  rw [VersionIndex.advance_tables, VersionIndex.advance_structural]
  simp only [Nat.max_zero, ite_self]
  exact hold

/-- What the notifications so far have left, while all were decoded and the counter has not
wrapped: it counts them, and no version is beyond it. -/
theorem counts_notifications (pk : List (String × String)) (full : List String)
    (ns : List Notification) (htxids : ∀ n ∈ ns, n.txid < 2 ^ 32) (hlength : ns.length < 2 ^ 64) :
    (ns.foldl notify (start pk full)).securityVersion = ns.length ∧
      (ns.foldl notify (start pk full)).versions.BoundedBy ns.length := by
  induction ns using List.reverseRecOn with
  | nil => exact ⟨rfl, VersionIndex.BoundedBy.new pk full⟩
  | append_singleton ns n ih =>
    rw [List.length_append, List.length_singleton] at hlength
    obtain ⟨hcount, hbound⟩ := ih (fun m hm => htxids m (List.mem_append_left _ hm)) (by omega)
    have htxid := htxids n (List.mem_append_right _ (List.mem_singleton_self n))
    have hpub : (ns.foldl notify (start pk full)).published n.payload =
        some ⟨n.txid, ns.length + 1, [.truncate n.table]⟩ := by
      rw [published_payload, if_pos htxid, hcount, Nat.mod_eq_of_lt hlength]
    rw [List.foldl_append, List.foldl_cons, List.foldl_nil, notify, hpub, hcount,
      Nat.mod_eq_of_lt hlength, List.length_append, List.length_singleton]
    exact ⟨rfl, hbound.advance (Nat.le_succ _)⟩

/-- **Every notification takes effect exactly when all transaction ids fit 32 bits** (and there
are fewer than `2 ^ 64` notifications).  The table's name does not matter. -/
theorem notifications_take_effect_iff (pk : List (String × String)) (full : List String)
    (ns : List Notification) :
    (∀ earlier n later, ns = earlier ++ n :: later →
        (earlier.foldl notify (start pk full)).TakesEffect n) ↔
      (∀ n ∈ ns, n.txid < 2 ^ 32) ∧ ns.length < 2 ^ 64 := by
  constructor
  · intro h
    have htxids : ∀ n ∈ ns, n.txid < 2 ^ 32 := by
      intro n hn
      obtain ⟨earlier, later, hns⟩ := List.append_of_mem hn
      exact (h earlier n later hns).txid_lt
    refine ⟨htxids, Nat.lt_of_not_le fun hlong => ?_⟩
    have hsplit : ∀ k < ns.length, ∃ earlier n later,
        ns = earlier ++ n :: later ∧ earlier.length = k := by
      intro k hk
      refine ⟨ns.take k, ns[k], ns.drop (k + 1), ?_, List.length_take_of_le (Nat.le_of_lt hk)⟩
      rw [← List.drop_eq_getElem_cons hk, List.take_append_drop]
    obtain ⟨earlier, n, later, hns, hlen⟩ := hsplit (2 ^ 64 - 1) (by omega)
    have hcount := (counts_notifications pk full earlier
      (fun m hm => htxids m (hns ▸ List.mem_append_left _ hm)) (by omega)).1
    exact not_takesEffect_of_wrap (by omega) (h earlier n later hns)
  · rintro ⟨htxids, hlength⟩ earlier n later rfl
    rw [List.length_append, List.length_cons] at hlength
    obtain ⟨hcount, hbound⟩ := counts_notifications pk full earlier
      (fun m hm => htxids m (List.mem_append_left _ hm)) (by omega)
    refine takesEffect_of_lt (hcount ▸ hbound) (htxids n (by simp)) (by omega)

/-- The notifications of one transaction, while its id fits 32 bits: the primary of
`Restart.lean`, which observes them all. -/
theorem notify_eq_observeAll {xid : Nat} (hxid : xid < 2 ^ 32) (tables : List String)
    (self : PrimaryObserver) (hlsn : self.securityVersion + tables.length < 2 ^ 64) :
    (tables.map (Notification.mk xid)).foldl notify self =
      ⟨self.securityVersion + tables.length, Restart.advanceAll self.versions
        (Restart.observeAll self.securityVersion xid tables)⟩ := by
  induction tables generalizing self with
  | nil => rfl
  | cons table tables ih =>
    rw [List.length_cons] at hlsn
    have hnotify : self.notify ⟨xid, table⟩ = ⟨self.securityVersion + 1,
        self.versions.advance ⟨xid, self.securityVersion + 1, [.truncate table]⟩⟩ := by
      have hmod : (self.securityVersion + 1) % 2 ^ 64 = self.securityVersion + 1 :=
        Nat.mod_eq_of_lt (by omega)
      simp only [notify, published_payload, if_pos hxid, hmod]
    have hrest : self.securityVersion + 1 + tables.length =
        self.securityVersion + (tables.length + 1) := by omega
    rw [List.map_cons, List.foldl_cons, hnotify, ih _ (hrest ▸ hlsn), List.length_cons, hrest]
    rfl

/-- **The first transaction beyond 32 bits is not observed**: its payload is dropped, so the
version of `users` stays and no subscriber is told. -/
theorem notification_dropped :
    (Notification.mk (2 ^ 32) "users").payload = "4294967296:users" ∧
      (start [("users", "id")] []).published "4294967296:users" = none ∧
      ((start [("users", "id")] []).notify ⟨2 ^ 32, "users"⟩).versions.versionOf ["users"] [] = 0 ∧
      ¬ (start [("users", "id")] []).TakesEffect ⟨2 ^ 32, "users"⟩ := by
  have hpayload : (Notification.mk (2 ^ 32) "users").payload = "4294967296:users" := by
    decide +kernel
  have hpub : (start [("users", "id")] []).published (Notification.mk (2 ^ 32) "users").payload =
      none := by
    rw [published_payload, if_neg (Nat.lt_irrefl _)]
  refine ⟨hpayload, hpayload ▸ hpub, ?_, fun h => Nat.lt_irrefl _ h.txid_lt⟩
  simp only [notify, hpub]
  rfl

end PrimaryObserver

end PgPaw
