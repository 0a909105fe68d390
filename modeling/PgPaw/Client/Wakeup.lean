/-
# `tanstack-db/src/txid.ts`: who is woken, and when

`TxidTracker` with its two sets as they are, the timers and the promises.  `record` walks the set
of the waiters, and each `check` that finds its key deletes itself from the set on the way.

The walk misses no waiter, since a deletion leaves the slots of the others where they are.  So
`record` and the tracker of `Txid.lean`, which filters its waiters, do the same
(`coarse_recorded`), and what holds of that one holds here: whatever came before, a call of
`record` resolves the pending calls with its key and no others (`no_wakeup_lost`).

`normalize` is any function.  What a promise's callbacks do comes after the step that settles it.
-/
import PgPaw.Client.Txid
import PgPaw.Lib.OrderedSet
import PgPaw.Lib.Transition

namespace PgPaw.Client.Wakeup

/-! ## 1. The tracker -/

/-- What a promise is. -/
inductive Status
  | pending
  | resolved
  | rejected (message : String)
  deriving DecidableEq, Repr

/-- A call of `awaitTxId`, and the promise it returned. -/
structure Call (τ : Type) where
  txid : τ
  status : Status
  deriving DecidableEq

/-- A promise is settled once. -/
def Call.settle {τ : Type} (status : Status) (call : Call τ) : Call τ :=
  if call.status = .pending then { call with status } else call

/-- A timer that is set, and what its callback refers to. -/
structure Timer where
  check : Waiter
  timeoutMs : Nat
  deriving DecidableEq

/-- `TxidTracker`.  The callers are numbers of calls. -/
structure Tracker (τ : Type) where
  seen : OrderedSet String
  waiters : OrderedSet Waiter
  timers : List Timer
  calls : List (Call τ)

/-- The loop of `record` over `seen.values().next().value`. -/
def evict (seen : OrderedSet String) : OrderedSet String :=
  if maxSeen < seen.size then
    match _ : seen.first with
    | none => seen
    | some oldest => evict (seen.delete oldest)
  else seen
termination_by seen.size
decreasing_by exact seen.size_delete_first oldest ‹_›

namespace Tracker

variable {τ : Type} (normalize : τ → String)

def new : Tracker τ := ⟨.empty, .empty, [], []⟩

/-- `has`. -/
def has (txid : τ) (t : Tracker τ) : Bool := t.seen.contains (normalize txid)

/-- `clearTimeout`, of the timer of a call. -/
def clearTimeout (call : Nat) (timers : List Timer) : List Timer :=
  timers.filter fun timer => timer.check.caller != call

/-- The `check` of a waiter. -/
def check (waiter : Waiter) (t : Tracker τ) : Tracker τ :=
  if t.seen.contains waiter.key then { t with
    timers := clearTimeout waiter.caller t.timers
    waiters := t.waiters.delete waiter
    calls := t.calls.modify waiter.caller (.settle .resolved) }
  else t

/-- `record`. -/
def record (txid : τ) (t : Tracker τ) : Option (Tracker τ) :=
  let t := { t with seen := evict (t.seen.add (normalize txid)) }
  OrderedSet.walk waiters check t.waiters.slots.length 0 t

/-- `awaitTxId`. -/
def awaitTxId (txid : τ) (timeoutMs : Nat) (t : Tracker τ) : Tracker τ :=
  let key := normalize txid
  if t.seen.contains key then { t with calls := t.calls ++ [⟨txid, .resolved⟩] }
  else
    let check := ⟨t.calls.length, key⟩
    { t with
      timers := t.timers ++ [⟨check, timeoutMs⟩]
      waiters := t.waiters.add check
      calls := t.calls ++ [⟨txid, .pending⟩] }

/-- The callback of the timer of a call; a timer that is not set does not go off. -/
def timeout (call : Nat) (t : Tracker τ) : Tracker τ :=
  match t.timers.find? fun timer => timer.check.caller == call with
  | none => t
  | some timer => { t with
      timers := clearTimeout call t.timers
      waiters := t.waiters.delete timer.check
      calls := t.calls.modify call (.settle (.rejected ("awaitTxId timed out after " ++
        decimal timer.timeoutMs ++ "ms waiting for txid " ++ timer.check.key))) }

end Tracker

/-- What happens to a tracker. -/
inductive Event (τ : Type)
  | record (txid : τ)
  | awaitTxId (txid : τ) (timeoutMs : Option Nat)
  | timeout (call : Nat)

/-- The runs of a tracker. -/
def system {τ : Type} (normalize : τ → String) : Transition.System (Tracker τ) (Event τ) where
  init t := t = .new
  step t
    | .record txid => t.record normalize txid
    | .awaitTxId txid timeoutMs => some (t.awaitTxId normalize txid (timeoutMs.getD 30000))
    | .timeout call => some (t.timeout call)

/-! ## 2. The tracker of `Txid.lean` -/

theorem elements_add (seen : OrderedSet String) (key : String) :
    (seen.add key).elements = addSeen seen.elements key := seen.elements_add key

theorem elements_evict (seen : OrderedSet String) :
    (evict seen).elements = Client.evict seen.elements := by
  generalize hkeys : seen.elements = keys
  induction keys generalizing seen with
  | nil =>
    have hfirst : seen.first = none := by rw [OrderedSet.first, hkeys]; rfl
    have hsize : ¬ maxSeen < seen.size := by
      rw [OrderedSet.size, hkeys]
      exact Nat.not_lt_zero _
    rw [evict, if_neg hsize, hkeys]
    rfl
  | cons oldest keys ih =>
    have hfirst : seen.first = some oldest := by rw [OrderedSet.first, hkeys]; rfl
    have hsize : seen.size = keys.length + 1 := by rw [OrderedSet.size, hkeys]; rfl
    rw [evict, Client.evict, hsize]
    split
    · split
      · rename_i hnone
        rw [hfirst] at hnone
        cases hnone
      · rename_i first hsome
        rw [hfirst, Option.some.injEq] at hsome
        subst hsome
        exact ih _ (seen.elements_delete_first oldest hkeys)
    · exact hkeys

namespace Tracker

variable {τ : Type}

/-- What `Txid.lean` has of a tracker. -/
def coarse (t : Tracker τ) : TxidTracker := ⟨t.seen.elements, t.waiters.elements.reverse⟩

/-! ## 3. The walk -/

/-- The walk of `record`, as a fold. -/
def wake (waiters : List Waiter) (t : Tracker τ) : Tracker τ :=
  waiters.foldl (fun t waiter => t.check waiter) t

/-- A waiter of the call, in the list, finds its key. -/
def woken (t : Tracker τ) (waiters : List Waiter) (call : Nat) : Bool :=
  waiters.any fun waiter => waiter.caller == call && t.seen.contains waiter.key

theorem settle_settle (status : Status) (call : Call τ) (hsettled : status ≠ .pending) :
    (call.settle status).settle status = call.settle status := by
  unfold Call.settle
  by_cases hpending : call.status = .pending
  · rw [if_pos hpending, if_neg hsettled]
  · rw [if_neg hpending, if_neg hpending]

section Walk

variable (waiter : Waiter) (waiters : List Waiter) (t : Tracker τ)

theorem check_of_found (h : t.seen.contains waiter.key = true) : t.check waiter = { t with
    timers := clearTimeout waiter.caller t.timers
    waiters := t.waiters.delete waiter
    calls := t.calls.modify waiter.caller (.settle .resolved) } := if_pos h

theorem check_of_not_found (h : t.seen.contains waiter.key = false) : t.check waiter = t := by
  rw [check, h]
  rfl

@[simp] theorem seen_check : (t.check waiter).seen = t.seen := by
  cases h : t.seen.contains waiter.key with
  | true => rw [check_of_found waiter t h]
  | false => rw [check_of_not_found waiter t h]

/-- A `check` deletes nothing but itself. -/
theorem waiters_check :
    (t.check waiter).waiters = t.waiters ∨ (t.check waiter).waiters = t.waiters.delete waiter := by
  cases h : t.seen.contains waiter.key with
  | true => exact .inr (by rw [check_of_found waiter t h])
  | false => exact .inl (by rw [check_of_not_found waiter t h])

theorem wake_cons : t.wake (waiter :: waiters) = (t.check waiter).wake waiters := rfl

@[simp] theorem seen_wake : (t.wake waiters).seen = t.seen := by
  induction waiters generalizing t with
  | nil => rfl
  | cons waiter waiters ih => rw [wake_cons, ih, seen_check]

theorem woken_cons (call : Nat) : t.woken (waiter :: waiters) call =
    (waiter.caller == call && t.seen.contains waiter.key || t.woken waiters call) := rfl

theorem woken_check (call : Nat) : (t.check waiter).woken waiters call = t.woken waiters call := by
  rw [woken, woken, seen_check]

/-- The waiters that are left. -/
theorem elements_wake : (t.wake waiters).waiters.elements = t.waiters.elements.filter fun w =>
    !(waiters.contains w && t.seen.contains w.key) := by
  induction waiters generalizing t with
  | nil => simp [wake]
  | cons waiter waiters ih =>
    rw [wake_cons, ih, seen_check]
    cases h : t.seen.contains waiter.key with
    | true =>
      rw [check_of_found waiter t h]
      simp only [OrderedSet.elements_delete, List.filter_filter]
      refine List.filter_congr ?_
      intro w _
      by_cases hw : w = waiter
      · simp [hw, h]
      · simp [hw]
    | false =>
      rw [check_of_not_found waiter t h]
      refine List.filter_congr ?_
      intro w _
      by_cases hw : w = waiter
      · simp [hw, h]
      · simp [hw]

/-- The timers that are left. -/
theorem timers_wake : (t.wake waiters).timers = t.timers.filter fun timer =>
    !t.woken waiters timer.check.caller := by
  induction waiters generalizing t with
  | nil => simp [wake, woken]
  | cons waiter waiters ih =>
    rw [wake_cons, ih]
    simp only [woken_check, woken_cons]
    cases h : t.seen.contains waiter.key with
    | true =>
      rw [check_of_found waiter t h]
      simp only [clearTimeout, List.filter_filter]
      refine List.filter_congr ?_
      intro timer _
      by_cases hcaller : waiter.caller = timer.check.caller
      · simp [hcaller]
      · have hbeq : (waiter.caller == timer.check.caller) = false := beq_false_of_ne hcaller
        have hbne : (timer.check.caller != waiter.caller) = true := bne_iff_ne.mpr (Ne.symm hcaller)
        rw [hbeq, hbne, Bool.and_true, Bool.false_and, Bool.false_or]
    | false =>
      rw [check_of_not_found waiter t h]
      simp

/-- The promises that are resolved. -/
theorem calls_wake (i : Nat) : (t.wake waiters).calls[i]? = t.calls[i]?.map fun call =>
    if t.woken waiters i then call.settle .resolved else call := by
  induction waiters generalizing t with
  | nil => simp [wake, woken]
  | cons waiter waiters ih =>
    rw [wake_cons, ih]
    simp only [woken_check, woken_cons]
    rcases Bool.eq_false_or_eq_true (t.seen.contains waiter.key) with h | h
    · rw [check_of_found waiter t h]
      simp only [List.getElem?_modify, Option.map_eq_map, Option.map_map, h, Bool.and_true]
      congr 1
      funext call
      by_cases hcaller : waiter.caller = i
      · simp [hcaller, settle_settle]
      · simp [hcaller]
    · rw [check_of_not_found waiter t h]
      simp [h]

end Walk

/-- The tracker of `record`, before the walk. -/
def added (normalize : τ → String) (txid : τ) (t : Tracker τ) : Tracker τ :=
  { t with seen := evict (t.seen.add (normalize txid)) }

/-- What the walk of `record` leaves. -/
def recorded (normalize : τ → String) (txid : τ) (t : Tracker τ) : Tracker τ :=
  (t.added normalize txid).wake t.waiters.elements

/-- **`record` ends**, and checks each waiter there was. -/
theorem record_eq (normalize : τ → String) (txid : τ) (t : Tracker τ) :
    t.record normalize txid = some (t.recorded normalize txid) :=
  OrderedSet.walk_eq_foldl (fun waiter t => waiters_check waiter t) (t.added normalize txid)

/-! ## 4. One step -/

/-- What every tracker keeps. -/
structure Sound (normalize : τ → String) (t : Tracker τ) : Prop where
  coarse : t.coarse.Sound
  /-- The waiters are the pending calls. -/
  waiting : ∀ waiter : Waiter, waiter ∈ t.waiters.elements ↔ ∃ call,
    t.calls[waiter.caller]? = some call ∧ call.status = .pending ∧
      normalize call.txid = waiter.key
  armed : ∀ timer ∈ t.timers, timer.check ∈ t.waiters.elements

theorem Sound.new (normalize : τ → String) : Sound normalize (new : Tracker τ) where
  coarse := TxidTracker.Sound.new
  waiting waiter := by simp [Tracker.new]
  armed timer h := by cases h

section Step

variable {normalize : τ → String} {t : Tracker τ}

theorem mem_coarse_waiters {waiter : Waiter} :
    waiter ∈ t.coarse.waiters ↔ waiter ∈ t.waiters.elements := List.mem_reverse

theorem elements_added (txid : τ) : (t.added normalize txid).seen.elements =
    Client.evict (addSeen t.seen.elements (normalize txid)) := by
  rw [added, elements_evict, elements_add]

/-- **`record` does what the tracker of `Txid.lean` does.** -/
theorem coarse_recorded (txid : τ) :
    (t.recorded normalize txid).coarse = (t.coarse.record (normalize txid)).1 := by
  have hseen : (t.recorded normalize txid).seen.elements =
      Client.evict (addSeen t.seen.elements (normalize txid)) := by
    rw [recorded, seen_wake, elements_added]
  have hwaiters : (t.recorded normalize txid).waiters.elements = t.waiters.elements.filter
      fun w => !(Client.evict (addSeen t.seen.elements (normalize txid))).contains w.key := by
    rw [recorded, elements_wake]
    refine List.filter_congr ?_
    intro w hw
    have hw' : t.waiters.elements.contains w = true := List.contains_iff_mem.mpr hw
    rw [hw', Bool.true_and, OrderedSet.contains_eq, elements_added]
  rw [coarse, hseen, hwaiters, ← List.filter_reverse]
  rfl

/-- `record` wakes the pending calls with its key. -/
theorem Sound.woken_iff (h : Sound normalize t) (txid : τ) (i : Nat) :
    (t.added normalize txid).woken t.waiters.elements i = true ↔ ∃ call,
      t.calls[i]? = some call ∧ call.status = .pending ∧
        normalize call.txid = normalize txid := by
  simp only [woken, List.any_eq_true, Bool.and_eq_true, beq_iff_eq, OrderedSet.contains_iff,
    elements_added]
  constructor
  · rintro ⟨waiter, hw, rfl, hkey⟩
    have hsame := (h.coarse.wakes_iff (mem_coarse_waiters.mpr hw) _).mp hkey
    rw [← hsame]
    exact (h.waiting waiter).mp hw
  · rintro ⟨call, hcall, hpending, hkey⟩
    have hw := (h.waiting ⟨i, normalize txid⟩).mpr ⟨call, hcall, hpending, hkey⟩
    exact ⟨_, hw, rfl, (h.coarse.wakes_iff (mem_coarse_waiters.mpr hw) _).mpr rfl⟩

/-- **`record` resolves the pending calls with its key and changes no other.** -/
theorem Sound.calls_recorded (h : Sound normalize t) (txid : τ) :
    (t.recorded normalize txid).calls = t.calls.map fun call =>
      if call.status = .pending ∧ normalize call.txid = normalize txid then
        { call with status := .resolved }
      else call := by
  refine List.ext_getElem? ?_
  intro i
  rw [recorded, calls_wake, List.getElem?_map]
  show t.calls[i]?.map _ = _
  cases hcall : t.calls[i]? with
  | none => rfl
  | some call =>
    have hwoken := h.woken_iff txid i
    simp only [hcall, Option.some.injEq, exists_eq_left'] at hwoken
    simp only [Option.map_some, hwoken, Call.settle]
    by_cases hpending : call.status = .pending
    · simp [hpending]
    · simp [hpending]

theorem Sound.recorded (h : Sound normalize t) (txid : τ) :
    Sound normalize (t.recorded normalize txid) where
  coarse := by
    rw [coarse_recorded]
    exact TxidTracker.Sound.record _
  waiting waiter := by
    rw [← mem_coarse_waiters, coarse_recorded, h.coarse.mem_waiters_record, mem_coarse_waiters,
      h.waiting, h.calls_recorded, List.getElem?_map]
    constructor
    · rintro ⟨⟨call, hcall, hpending, hkey⟩, hne⟩
      have hother : ¬ (call.status = .pending ∧ normalize call.txid = normalize txid) := by
        rintro ⟨-, hsame⟩
        exact hne (hkey.symm.trans hsame)
      exact ⟨call, by rw [hcall, Option.map_some, if_neg hother], hpending, hkey⟩
    · rintro ⟨call', hcall', hpending', hkey'⟩
      obtain ⟨call, hcall, rfl⟩ := Option.map_eq_some_iff.mp hcall'
      by_cases hsame : call.status = .pending ∧ normalize call.txid = normalize txid
      · rw [if_pos hsame] at hpending'
        cases hpending'
      · rw [if_neg hsame] at hpending' hkey'
        refine ⟨⟨call, hcall, hpending', hkey'⟩, fun hkey => ?_⟩
        exact hsame ⟨hpending', hkey'.trans hkey⟩
  armed timer htimer := by
    rw [Tracker.recorded, timers_wake] at htimer
    obtain ⟨hset, hasleep⟩ := List.mem_filter.mp htimer
    have hw := h.armed timer hset
    rw [Tracker.recorded, elements_wake]
    refine List.mem_filter.mpr ⟨hw, ?_⟩
    rw [Bool.not_eq_true', Bool.and_eq_false_iff]
    right
    -- otherwise the walk would have cleared the timer
    by_contra hfound
    have hwoken : (t.added normalize txid).woken t.waiters.elements timer.check.caller = true := by
      refine List.any_eq_true.mpr ⟨timer.check, hw, ?_⟩
      rw [beq_self_eq_true, Bool.true_and]
      simpa using hfound
    rw [hwoken] at hasleep
    cases hasleep

/-- A new call has no waiter yet. -/
theorem Sound.notMem_waiters (h : Sound normalize t) (key : String) :
    (⟨t.calls.length, key⟩ : Waiter) ∉ t.waiters.elements := by
  intro hw
  obtain ⟨call, hcall, -⟩ := (h.waiting _).mp hw
  rw [List.getElem?_eq_none (Nat.le_refl _)] at hcall
  cases hcall

/-- A call that finds its key makes no waiter. -/
theorem awaitTxId_of_has {txid : τ} (hkey : t.has normalize txid = true) (timeoutMs : Nat) :
    t.awaitTxId normalize txid timeoutMs = { t with calls := t.calls ++ [⟨txid, .resolved⟩] } :=
  if_pos hkey

theorem awaitTxId_of_not_has {txid : τ} (hkey : t.has normalize txid = false) (timeoutMs : Nat) :
    t.awaitTxId normalize txid timeoutMs = { t with
      timers := t.timers ++ [⟨⟨t.calls.length, normalize txid⟩, timeoutMs⟩]
      waiters := t.waiters.add ⟨t.calls.length, normalize txid⟩
      calls := t.calls ++ [⟨txid, .pending⟩] } := by
  have hseen : ¬ t.seen.contains (normalize txid) = true := Bool.eq_false_iff.mp hkey
  exact if_neg hseen

/-- The waiter of a call comes last. -/
theorem Sound.coarse_awaitTxId (h : Sound normalize t) {txid : τ}
    (hkey : t.has normalize txid = false) (timeoutMs : Nat) :
    (t.awaitTxId normalize txid timeoutMs).coarse =
      t.coarse.wait t.calls.length (normalize txid) := by
  rw [awaitTxId_of_not_has hkey, Tracker.coarse]
  simp only [OrderedSet.elements_add, if_neg (h.notMem_waiters _), List.reverse_append,
    List.reverse_singleton, List.singleton_append]
  rfl

theorem Sound.awaitTxId (h : Sound normalize t) (txid : τ) (timeoutMs : Nat) :
    Sound normalize (t.awaitTxId normalize txid timeoutMs) := by
  have hold (status : Status) (i : Nat) (call : Call τ) :
      (t.calls ++ [⟨txid, status⟩])[i]? = some call ↔
        t.calls[i]? = some call ∨ i = t.calls.length ∧ ⟨txid, status⟩ = call := by
    rcases Nat.lt_trichotomy i t.calls.length with hi | rfl | hi
    · simp [List.getElem?_append_left hi, Nat.ne_of_lt hi]
    · simp
    · simp [List.getElem?_append_right (Nat.le_of_lt hi), List.getElem?_eq_none (Nat.le_of_lt hi),
        Nat.ne_of_gt hi, Nat.sub_ne_zero_of_lt hi]
  cases hkey : t.has normalize txid with
  | true =>
    rw [awaitTxId_of_has hkey]
    refine ⟨h.coarse, fun waiter => ?_, h.armed⟩
    show waiter ∈ t.waiters.elements ↔ _
    rw [h.waiting]
    simp only [hold]
    constructor
    · rintro ⟨call, hcall, hpending, hsame⟩
      exact ⟨call, .inl hcall, hpending, hsame⟩
    · rintro ⟨call, hcall | ⟨-, rfl⟩, hpending, hsame⟩
      · exact ⟨call, hcall, hpending, hsame⟩
      · cases hpending
  | false =>
    have hcoarse := h.coarse_awaitTxId hkey timeoutMs
    have hwaiters : (t.waiters.add ⟨t.calls.length, normalize txid⟩).elements =
        t.waiters.elements ++ [⟨t.calls.length, normalize txid⟩] := by
      rw [OrderedSet.elements_add, if_neg (h.notMem_waiters _)]
    have hcoarseKey : t.coarse.has (normalize txid) = false := by
      rw [← hkey, has, OrderedSet.contains_eq]
      rfl
    refine ⟨by rw [hcoarse]; exact h.coarse.wait hcoarseKey, fun waiter => ?_, fun timer ht => ?_⟩
    · rw [awaitTxId_of_not_has hkey]
      show waiter ∈ (t.waiters.add _).elements ↔ _
      rw [hwaiters, List.mem_append, List.mem_singleton, h.waiting]
      simp only [hold]
      constructor
      · rintro (⟨call, hcall, hpending, hsame⟩ | rfl)
        · exact ⟨call, .inl hcall, hpending, hsame⟩
        · exact ⟨_, .inr ⟨rfl, rfl⟩, rfl, rfl⟩
      · rintro ⟨call, hcall | ⟨hcaller, rfl⟩, hpending, hsame⟩
        · exact .inl ⟨call, hcall, hpending, hsame⟩
        · obtain ⟨caller, key⟩ := waiter
          cases hcaller
          cases hsame
          exact .inr rfl
    · rw [awaitTxId_of_not_has hkey] at ht ⊢
      show timer.check ∈ (t.waiters.add _).elements
      rw [hwaiters]
      rcases List.mem_append.mp ht with ht | ht
      · exact List.mem_append_left _ (h.armed timer ht)
      · rw [List.mem_singleton] at ht
        rw [ht]
        exact List.mem_append_right _ List.mem_cons_self

/-- The waiter of a call is the one of its timer. -/
theorem Sound.eq_check (h : Sound normalize t) {timer : Timer} (htimer : timer ∈ t.timers)
    {waiter : Waiter} (hw : waiter ∈ t.waiters.elements)
    (hcaller : waiter.caller = timer.check.caller) : waiter = timer.check := by
  obtain ⟨call, hcall, -, hkey⟩ := (h.waiting waiter).mp hw
  obtain ⟨call', hcall', -, hkey'⟩ := (h.waiting timer.check).mp (h.armed timer htimer)
  rw [hcaller, hcall', Option.some.injEq] at hcall
  have hsame : waiter.key = timer.check.key := by rw [← hkey, ← hkey', hcall]
  calc
    waiter = ⟨waiter.caller, waiter.key⟩ := rfl
    _ = ⟨timer.check.caller, timer.check.key⟩ := by rw [hcaller, hsame]
    _ = timer.check := rfl

/-- A timer that goes off takes the waiters of its call away. -/
theorem Sound.coarse_timeout (h : Sound normalize t) {call : Nat} {timer : Timer}
    (hfind : t.timers.find? (fun timer => timer.check.caller == call) = some timer) :
    (t.timeout call).coarse = t.coarse.forget call := by
  have hcall : timer.check.caller = call := by simpa using List.find?_some hfind
  have hmem := List.mem_of_find?_eq_some hfind
  have hwaiters : t.waiters.elements.filter (· != timer.check) =
      t.waiters.elements.filter fun waiter => waiter.caller != call := by
    refine List.filter_congr ?_
    intro waiter hw
    rw [Bool.eq_iff_iff, bne_iff_ne, bne_iff_ne, ← hcall]
    constructor
    · intro hne hcaller
      exact hne (h.eq_check hmem hw hcaller)
    · rintro hne rfl
      exact hne rfl
  rw [Tracker.timeout, hfind, Tracker.coarse]
  simp only [OrderedSet.elements_delete, hwaiters, ← List.filter_reverse]
  rfl

theorem Sound.timeout (h : Sound normalize t) (call : Nat) : Sound normalize (t.timeout call) := by
  cases hfind : t.timers.find? fun timer => timer.check.caller == call with
  | none =>
    rw [Tracker.timeout, hfind]
    exact h
  | some timer =>
    have hcoarse := h.coarse_timeout hfind
    have hcall : timer.check.caller = call := by simpa using List.find?_some hfind
    have hleft (waiter : Waiter) : waiter ∈ (t.timeout call).waiters.elements ↔
        waiter ∈ t.waiters.elements ∧ waiter.caller ≠ call := by
      rw [← mem_coarse_waiters, hcoarse, TxidTracker.forget, List.mem_filter, mem_coarse_waiters,
        bne_iff_ne]
    have hcalls (i : Nat) : (t.timeout call).calls[i]? = t.calls[i]?.map fun c =>
        if call = i then c.settle (.rejected ("awaitTxId timed out after " ++
          decimal timer.timeoutMs ++ "ms waiting for txid " ++ timer.check.key)) else c := by
      rw [Tracker.timeout, hfind]
      exact List.getElem?_modify ..
    refine ⟨by rw [hcoarse]; exact h.coarse.forget call, fun waiter => ?_, fun timer' ht => ?_⟩
    · rw [hleft, h.waiting, hcalls]
      by_cases hcaller : call = waiter.caller
      · -- the call is settled now
        simp only [if_pos hcaller, Option.map_eq_some_iff]
        constructor
        · rintro ⟨-, hne⟩
          exact absurd hcaller.symm hne
        · rintro ⟨_, ⟨c, -, rfl⟩, hpending, -⟩
          unfold Call.settle at hpending
          split at hpending
          · cases hpending
          · rename_i hsettled
            exact absurd hpending hsettled
      · simp only [if_neg hcaller, Option.map_id']
        constructor
        · rintro ⟨hold, -⟩
          exact hold
        · intro hold
          exact ⟨hold, Ne.symm hcaller⟩
    · rw [Tracker.timeout, hfind] at ht
      obtain ⟨hset, hne⟩ := List.mem_filter.mp ht
      exact (hleft _).mpr ⟨h.armed timer' hset, bne_iff_ne.mp hne⟩

end Step

end Tracker

/-! ## 5. Any run -/

open Tracker

variable {τ : Type} {normalize : τ → String}

/-- A step that an event makes keeps the tracker sound, and there is one. -/
theorem step_sound {t : Tracker τ} (h : t.Sound normalize) (event : Event τ) :
    ∃ t', (system normalize).step t event = some t' ∧ t'.Sound normalize := by
  cases event with
  | record txid => exact ⟨_, t.record_eq normalize txid, h.recorded txid⟩
  | awaitTxId txid timeoutMs => exact ⟨_, rfl, h.awaitTxId txid _⟩
  | timeout call => exact ⟨_, rfl, h.timeout call⟩

theorem run_sound {t : Tracker τ} (h : t.Sound normalize) (events : List (Event τ)) :
    ∃ t', (system normalize).run t events = some t' ∧ t'.Sound normalize := by
  induction events generalizing t with
  | nil => exact ⟨t, rfl, h⟩
  | cons event events ih =>
    obtain ⟨s, hs, hsound⟩ := step_sound h event
    obtain ⟨t', hrun, hsound'⟩ := ih hsound
    refine ⟨t', ?_, hsound'⟩
    rw [Transition.System.run, hs]
    exact hrun

/-- **No wakeup is lost.**  After any calls and timeouts no pending call has a key that is there.
Then a call of `record` ends with at most `MAX_SEEN` keys, and of the calls it resolves exactly
the pending ones that have its key. -/
theorem no_wakeup_lost (normalize : τ → String) (events : List (Event τ)) :
    ∃ t, (system normalize).run .new events = some t ∧
      (∀ call ∈ t.calls, call.status = .pending → t.has normalize call.txid = false) ∧
      ∀ txid, ∃ t', t.record normalize txid = some t' ∧ t'.seen.size ≤ maxSeen ∧
        t'.calls = t.calls.map fun call =>
          if call.status = .pending ∧ normalize call.txid = normalize txid then
            { call with status := .resolved }
          else call := by
  obtain ⟨t, hrun, h⟩ := run_sound (Sound.new normalize) events
  refine ⟨t, hrun, ?_, fun txid => ?_⟩
  · intro call hcall hpending
    obtain ⟨i, hi⟩ := List.mem_iff_getElem?.mp hcall
    have hw := (h.waiting ⟨i, normalize call.txid⟩).mpr ⟨call, hi, hpending, rfl⟩
    rw [has, OrderedSet.contains_eq_false]
    exact h.coarse.absent _ (mem_coarse_waiters.mpr hw)
  · exact ⟨_, t.record_eq normalize txid, (h.recorded txid).coarse.bounded, h.calls_recorded txid⟩

end PgPaw.Client.Wakeup
