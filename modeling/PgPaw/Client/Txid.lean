/-
# `tanstack-db/src/txid.ts`

`TxidTracker` remembers the last transaction ids of the frames, and the callers of `awaitTxId`
whose id has not come.  A `Set` is kept in insertion order, which is what `record` evicts by.

A waiter is added only when its key is not there and leaves in the step that records it, so no
waiter's key is ever there (`TxidTracker.Sound`) and `record` wakes exactly the callers of the
id it records (`mem_record`).  How `record` walks the waiters is in `Wakeup.lean`.
-/
import PgPaw.Text

namespace PgPaw.Client

/-- `txid >>> 0`, as a string. -/
def low32 (txid : Int) : String := decimal (txid % 2 ^ 32).toNat

example : low32 (2 ^ 32 + 7) = low32 7 := by decide

/-- `MAX_SEEN`. -/
def maxSeen : Nat := 4096

/-- The `check` of a call of `awaitTxId`. -/
structure Waiter where
  caller : Nat
  key : String
  deriving DecidableEq

structure TxidTracker where
  seen : List String
  waiters : List Waiter

/-- `seen.add(key)`. -/
def addSeen (seen : List String) (key : String) : List String :=
  if key ∈ seen then seen else seen ++ [key]

/-- The loop of `record` over the oldest keys. -/
def evict : List String → List String
  | [] => []
  | oldest :: seen => if maxSeen < seen.length + 1 then evict seen else oldest :: seen

namespace TxidTracker

/-- No key, no waiter. -/
def new : TxidTracker := ⟨[], []⟩

/-- `has`, of a normalized id. -/
def has (tracker : TxidTracker) (key : String) : Bool := tracker.seen.contains key

/-- `record`, of a normalized id: the tracker after it, and the callers that are resolved. -/
def record (tracker : TxidTracker) (key : String) : TxidTracker × List Nat :=
  let seen := evict (addSeen tracker.seen key)
  (⟨seen, tracker.waiters.filter fun waiter => !seen.contains waiter.key⟩,
    (tracker.waiters.filter fun waiter => seen.contains waiter.key).map Waiter.caller)

/-- The part of `awaitTxId` after its key was not found. -/
def wait (tracker : TxidTracker) (caller : Nat) (key : String) : TxidTracker :=
  { tracker with waiters := ⟨caller, key⟩ :: tracker.waiters }

/-- `waiters.delete(check)`, at the timeout. -/
def forget (tracker : TxidTracker) (caller : Nat) : TxidTracker :=
  { tracker with waiters := tracker.waiters.filter fun waiter => waiter.caller != caller }

end TxidTracker

/-! ## What `record` keeps -/

theorem mem_addSeen {seen : List String} {key k : String} :
    k ∈ addSeen seen key ↔ k ∈ seen ∨ k = key := by
  unfold addSeen
  split
  · rename_i hkey
    constructor
    · intro h
      exact Or.inl h
    · rintro (h | rfl)
      · exact h
      · exact hkey
  · simp

theorem mem_of_mem_evict {k : String} : ∀ {seen : List String}, k ∈ evict seen → k ∈ seen
  | [], h => h
  | oldest :: seen, h => by
    rw [evict] at h
    split at h
    · exact List.mem_cons_of_mem _ (mem_of_mem_evict h)
    · exact h

theorem length_evict (seen : List String) : (evict seen).length ≤ maxSeen := by
  induction seen with
  | nil => exact Nat.zero_le _
  | cons oldest seen ih =>
    rw [evict]
    split
    · exact ih
    · rename_i h
      exact Nat.le_of_not_lt h

/-- Nothing is evicted below the bound. -/
theorem evict_of_le {seen : List String} (h : seen.length ≤ maxSeen) : evict seen = seen := by
  cases seen with
  | nil => rfl
  | cons oldest seen => exact if_neg (Nat.not_lt.mpr h)

/-- The newest key is never evicted. -/
theorem mem_evict_append (seen : List String) (key : String) : key ∈ evict (seen ++ [key]) := by
  induction seen with
  | nil =>
    have hone : [key].length ≤ maxSeen := by
      rw [List.length_singleton]
      decide
    rw [List.nil_append, evict_of_le hone]
    exact List.mem_singleton_self key
  | cons oldest seen ih =>
    rw [List.cons_append, evict]
    split
    · exact ih
    · exact List.mem_cons_of_mem _ (List.mem_append_right _ (List.mem_singleton_self key))

/-- The key just added is there. -/
theorem mem_evict_addSeen {seen : List String} (hlen : seen.length ≤ maxSeen) (key : String) :
    key ∈ evict (addSeen seen key) := by
  unfold addSeen
  split
  · rename_i hkey
    rwa [evict_of_le hlen]
  · exact mem_evict_append seen key

namespace TxidTracker

/-- What every tracker keeps. -/
structure Sound (tracker : TxidTracker) : Prop where
  bounded : tracker.seen.length ≤ maxSeen
  absent : ∀ waiter ∈ tracker.waiters, waiter.key ∉ tracker.seen

theorem Sound.new : Sound .new where
  bounded := Nat.zero_le maxSeen
  absent _ h := absurd h List.not_mem_nil

variable {tracker : TxidTracker}

@[simp] theorem has_iff {key : String} : tracker.has key = true ↔ key ∈ tracker.seen := by
  rw [has, List.contains_iff_mem]

theorem Sound.record (key : String) : Sound (tracker.record key).1 where
  bounded := length_evict (addSeen tracker.seen key)
  absent waiter h := by
    have hseen := (List.mem_filter.mp h).2
    rwa [Bool.not_eq_true', ← Bool.not_eq_true, List.contains_iff_mem] at hseen

theorem Sound.wait (h : tracker.Sound) {caller : Nat} {key : String}
    (hkey : tracker.has key = false) : (tracker.wait caller key).Sound where
  bounded := h.bounded
  absent waiter hw := by
    rcases List.mem_cons.mp hw with rfl | hw
    · intro hseen
      have hseen : tracker.has key = true := has_iff.mpr hseen
      rw [hkey] at hseen
      cases hseen
    · exact h.absent waiter hw

theorem Sound.forget (h : tracker.Sound) (caller : Nat) : (tracker.forget caller).Sound where
  bounded := h.bounded
  absent waiter hw := h.absent waiter (List.mem_of_mem_filter hw)

/-- Of the waiters, `record` wakes those of the id it records. -/
theorem Sound.wakes_iff (h : tracker.Sound) {waiter : Waiter} (hw : waiter ∈ tracker.waiters)
    (key : String) : waiter.key ∈ evict (addSeen tracker.seen key) ↔ waiter.key = key := by
  constructor
  · intro hseen
    exact (mem_addSeen.mp (mem_of_mem_evict hseen)).resolve_left (h.absent waiter hw)
  · rintro rfl
    exact mem_evict_addSeen h.bounded _

/-- **`record` resolves exactly the callers that wait for the id.** -/
theorem Sound.mem_record (h : tracker.Sound) {key : String} {caller : Nat} :
    caller ∈ (tracker.record key).2 ↔ ⟨caller, key⟩ ∈ tracker.waiters := by
  simp only [TxidTracker.record, List.mem_map, List.mem_filter, List.contains_iff_mem]
  constructor
  · rintro ⟨waiter, ⟨hw, hseen⟩, rfl⟩
    rw [← (h.wakes_iff hw key).mp hseen]
    exact hw
  · intro hw
    exact ⟨_, ⟨hw, (h.wakes_iff hw key).mpr rfl⟩, rfl⟩

/-- And the others keep waiting. -/
theorem Sound.mem_waiters_record (h : tracker.Sound) {key : String} {waiter : Waiter} :
    waiter ∈ (tracker.record key).1.waiters ↔ waiter ∈ tracker.waiters ∧ waiter.key ≠ key := by
  simp only [TxidTracker.record, List.mem_filter, Bool.not_eq_true', ← Bool.not_eq_true,
    List.contains_iff_mem]
  constructor
  · rintro ⟨hw, hseen⟩
    exact ⟨hw, fun he => hseen ((h.wakes_iff hw key).mpr he)⟩
  · rintro ⟨hw, hne⟩
    exact ⟨hw, fun hseen => hne ((h.wakes_iff hw key).mp hseen)⟩

end TxidTracker

end PgPaw.Client
