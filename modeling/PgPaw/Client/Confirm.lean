/-
# When a write is confirmed

`awaitTxId` and the wrapped write handlers wait for a transaction id in the frames.  `connect`
hands the id of a frame to the tracker before it looks at the frame, and keeps the rows of a
change in `pending` until the next up-to-date frame.  So a caller may be resolved by the first
change of its transaction, while that change is not in the collection (`confirmed_early`).

The frames of the connection are kept beside the state of the source, newest first.  Those not
flushed are the changes since the last up-to-date frame (`unflushed`), and `pending` is what
they make of an empty map (`pending_eq`).  `confirmed_iff` says which runs confirm a write only
after it is visible (`InOrder`).
-/
import PgPaw.Client.Reconnect
import PgPaw.Client.Txid

namespace PgPaw.Client

open Transition

/-! ## 1. Callers -/

/-- A call of `awaitTxId`, or of a handler that `confirm` wraps. -/
inductive Caller
  /-- The handler given by the user is running. -/
  | handling
  | waiting (txid : Int)
  /-- With the connection whose frames had the id, if it was open. -/
  | resolved (txid : Int) (connection : Option Nat)
  /-- The handler gave no id. -/
  | returned
  | rejected
  deriving DecidableEq

namespace SyncFrame

/-- The frame has this id, as the tracker compares ids. -/
def carries (normalize : Int → String) (txid : Int) (frame : SyncFrame) : Bool :=
  frame.txid.any fun t => normalize t == normalize txid

def isChange : SyncFrame → Bool
  | change _ _ _ _ => true
  | _ => false

def isUpToDate : SyncFrame → Bool
  | upToDate _ => true
  | _ => false

/-- `getKey` accepts the rows of the frame. -/
def Keyed (config : Config) : SyncFrame → Prop
  | snapshot rows _ => ∃ rs, rows = some rs ∧ ∀ row ∈ rs, (config.getKey row).isSome = true
  | change _ row _ _ => ∀ r ∈ row, (config.getKey r).isSome = true
  | upToDate _ | reset _ => True

end SyncFrame

namespace Confirm

/-- `collectionOptionsFromSource`: the source, the tracker, and the calls made.  The last two
fields, the number of connections so far and the frames of the last, are history. -/
structure State where
  sync : Sync
  txids : TxidTracker
  callers : Nat → Option Caller
  connection : Nat
  received : List SyncFrame

def State.new : State := ⟨.new, .new, fun _ => none, 0, []⟩

inductive Action
  | sync (action : Client.Action)
  | awaitTxId (caller : Nat) (txid : Int)
  /-- A wrapped handler is called. -/
  | handler (caller : Nat)
  /-- The handler given by the user throws, or returns a result with or without an id. -/
  | settle (caller : Nat) (result : Option (Option Int))
  | timeout (caller : Nat)

/-- The changes among the frames since the last flush. -/
def unflushed (received : List SyncFrame) : List SyncFrame :=
  (received.takeWhile fun frame => !frame.isUpToDate).filter SyncFrame.isChange

/-- A call moves on. -/
def State.setCaller (s : State) (caller : Nat) (now : Caller) : State :=
  { s with callers := Function.update s.callers caller (some now) }

theorem setCaller_callers (s : State) (caller : Nat) (now : Caller) (id : Nat) :
    (s.setCaller caller now).callers id = if id = caller then some now else s.callers id :=
  Function.update_apply _ _ _ _

section Step

variable (config : Config) (normalize : Int → String)

/-- The promises of these callers are resolved by a frame of the connection. -/
def wake (callers : Nat → Option Caller) (woken : List Nat) (connection : Nat) :
    Nat → Option Caller := fun caller => match callers caller with
  | some (.waiting txid) =>
    if caller ∈ woken then some (.resolved txid (some connection)) else some (.waiting txid)
  | other => other

/-- `txids.record(frame.txid)`. -/
def State.record (s : State) (frame : SyncFrame) : State := match frame.txid with
  | some txid =>
    let (txids, woken) := s.txids.record (normalize txid)
    { s with txids, callers := wake s.callers woken s.connection }
  | none => s

/-- The open connection, if it had a frame with this id. -/
def State.origin (s : State) (txid : Int) : Option Nat :=
  if s.sync.connected && s.received.any (SyncFrame.carries normalize txid) then some s.connection
  else none

/-- `txids.awaitTxId(txid)`. -/
def State.awaitTxId (s : State) (caller : Nat) (txid : Int) : State :=
  if s.txids.has (normalize txid) then
    s.setCaller caller (.resolved txid (s.origin normalize txid))
  else { s.setCaller caller (.waiting txid) with txids := s.txids.wait caller (normalize txid) }

/-- The source moves. -/
def State.advance (s : State) (sync : Sync) : Client.Action → State
  | .connect => { s with sync, connection := s.connection + 1, received := [] }
  | .frame frame => { s.record normalize frame with sync, received := frame :: s.received }
  | .done | .fail | .stop => { s with sync }

def step (s : State) : Action → Option State
  | .sync action => (Client.step config s.sync action).map (s.advance normalize · action)
  | .awaitTxId caller txid => match s.callers caller with
    | none => some (s.awaitTxId normalize caller txid)
    | some _ => none
  | .handler caller => match s.callers caller with
    | none => some (s.setCaller caller .handling)
    | some _ => none
  | .settle caller result => match s.callers caller, result with
    | some .handling, none => some (s.setCaller caller .rejected)
    | some .handling, some none => some (s.setCaller caller .returned)
    | some .handling, some (some txid) => some (s.awaitTxId normalize caller txid)
    | _, _ => none
  | .timeout caller => match s.callers caller with
    | some (.waiting _) =>
      some { s.setCaller caller .rejected with txids := s.txids.forget caller }
    | _ => none

def system : System State Action where
  init := (· = .new)
  step := step config normalize

/-! ## 2. The statement -/

/-- No change with the id of a caller resolved by this connection waits for its flush. -/
def Confirmed (s : State) : Prop :=
  s.sync.connected = true → ∀ caller txid,
    s.callers caller = some (.resolved txid (some s.connection)) →
      ∀ frame ∈ unflushed s.received, frame.carries normalize txid = false

/-- The action leaves it so. -/
def Confirms (s : State) (action : Action) : Prop :=
  ∀ s', step config normalize s action = some s' → Confirmed normalize s'

/-- No change with an id that was recorded waits for its flush. -/
def Flushed (s : State) (txid : Int) : Prop :=
  s.sync.connected = true → s.txids.has (normalize txid) = true →
    ∀ frame ∈ unflushed s.received, frame.carries normalize txid = false

/-- The order that is safe.  A change arrives when nobody waits for its id, nor was resolved by
it on the connection; an id is asked for when its changes are flushed; and a snapshot with the
id of a waiting caller comes after the flush too. -/
def InOrder (s : State) : Action → Prop
  | .sync (.frame frame) => s.sync.connected = true → frame.Keyed config → match frame with
    | .change _ _ _ _ => ∀ caller txid, s.callers caller = some (.waiting txid) ∨
        s.callers caller = some (.resolved txid (some s.connection)) →
          frame.carries normalize txid = false
    | .snapshot _ _ => ∀ caller txid, s.callers caller = some (.waiting txid) →
        frame.carries normalize txid = true →
          ∀ frame ∈ unflushed s.received, frame.carries normalize txid = false
    | .upToDate _ | .reset _ => True
  | .awaitTxId caller txid => s.callers caller = none → Flushed normalize s txid
  | .settle caller (some (some txid)) => s.callers caller = some .handling →
      Flushed normalize s txid
  | .sync _ | .handler _ | .settle _ _ | .timeout _ => True

end Step

/-! ## 3. The steps -/

section Runs

variable {config : Config} {normalize : Int → String} {s s' : State}

/-- What an action finds, and what it makes of the state. -/
inductive Taken (config : Config) (normalize : Int → String) (s : State) : Action → State → Prop
  | sync {action : Client.Action} {sync : Sync}
      (hsync : Client.step config s.sync action = some sync) :
      Taken config normalize s (.sync action) (s.advance normalize sync action)
  | awaitTxId {caller : Nat} {txid : Int} (hfree : s.callers caller = none) :
      Taken config normalize s (.awaitTxId caller txid) (s.awaitTxId normalize caller txid)
  | handler {caller : Nat} (hfree : s.callers caller = none) :
      Taken config normalize s (.handler caller) (s.setCaller caller .handling)
  | threw {caller : Nat} (hcaller : s.callers caller = some .handling) :
      Taken config normalize s (.settle caller none) (s.setCaller caller .rejected)
  | returned {caller : Nat} (hcaller : s.callers caller = some .handling) :
      Taken config normalize s (.settle caller (some none)) (s.setCaller caller .returned)
  | confirm {caller : Nat} {txid : Int} (hcaller : s.callers caller = some .handling) :
      Taken config normalize s (.settle caller (some (some txid)))
        (s.awaitTxId normalize caller txid)
  | timeout {caller : Nat} {txid : Int} (hcaller : s.callers caller = some (.waiting txid)) :
      Taken config normalize s (.timeout caller)
        { s.setCaller caller .rejected with txids := s.txids.forget caller }

theorem step_iff {action : Action} :
    step config normalize s action = some s' ↔ Taken config normalize s action s' := by
  constructor
  · intro hs
    cases action with
    | sync action =>
      obtain ⟨sync, hsync, rfl⟩ := Option.map_eq_some_iff.mp hs
      exact .sync hsync
    | awaitTxId caller txid =>
      simp only [Confirm.step] at hs
      split at hs
      · cases hs
        exact .awaitTxId ‹_›
      · cases hs
    | handler caller =>
      simp only [Confirm.step] at hs
      split at hs
      · cases hs
        exact .handler ‹_›
      · cases hs
    | settle caller result =>
      simp only [Confirm.step] at hs
      split at hs <;> cases hs
      · exact .threw ‹_›
      · exact .returned ‹_›
      · exact .confirm ‹_›
    | timeout caller =>
      simp only [Confirm.step] at hs
      split at hs <;> cases hs
      exact .timeout ‹_›
  · intro ht
    cases ht with
    | sync hsync => simp [Confirm.step, hsync]
    | awaitTxId h | handler h | threw h | returned h | confirm h | timeout h =>
      simp [Confirm.step, h]

/-! ## 4. The tracker and its callers -/

/-- The waiters of the tracker are the waiting callers. -/
structure Sound (normalize : Int → String) (s : State) : Prop where
  txids : s.txids.Sound
  waits : ∀ caller txid, s.callers caller = some (.waiting txid) →
    ⟨caller, normalize txid⟩ ∈ s.txids.waiters
  waiters : ∀ waiter ∈ s.txids.waiters, ∃ txid,
    s.callers waiter.caller = some (.waiting txid) ∧ normalize txid = waiter.key
  connections : ∀ caller txid n, s.callers caller = some (.resolved txid (some n)) →
    n ≤ s.connection

theorem Sound.new : Sound normalize .new where
  txids := .new
  waits _ _ h := by cases h
  waiters _ h := absurd h List.not_mem_nil
  connections _ _ _ h := by cases h

theorem carries_iff {txid t : Int} {frame : SyncFrame} (h : frame.txid = some t) :
    frame.carries normalize txid = true ↔ normalize t = normalize txid := by
  simp [SyncFrame.carries, h]

theorem carries_of_none {txid : Int} {frame : SyncFrame} (h : frame.txid = none) :
    frame.carries normalize txid = false := by
  simp [SyncFrame.carries, h]

/-- **A frame resolves the callers that wait for its id**, and no others. -/
theorem Sound.callers_record (h : Sound normalize s) (frame : SyncFrame) (caller : Nat) :
    (s.record normalize frame).callers caller = match s.callers caller with
      | some (.waiting txid) => if frame.carries normalize txid
          then some (.resolved txid (some s.connection)) else some (.waiting txid)
      | other => other := by
  cases hframe : frame.txid with
  | none =>
    rw [State.record, hframe]
    cases s.callers caller with
    | none => rfl
    | some c => cases c <;> simp [carries_of_none hframe]
  | some t =>
    rw [State.record, hframe]
    simp only [wake]
    cases hcaller : s.callers caller with
    | none => rfl
    | some c =>
      cases c with
      | waiting txid =>
        have hwoken : caller ∈ (s.txids.record (normalize t)).2 ↔
            frame.carries normalize txid = true := by
          rw [h.txids.mem_record, carries_iff hframe]
          constructor
          · intro hw
            obtain ⟨txid', hwaiting, hkey⟩ := h.waiters _ hw
            rw [hcaller] at hwaiting
            cases hwaiting
            exact hkey.symm
          · intro hkey
            rw [hkey]
            exact h.waits caller txid hcaller
        simp only [hwoken]
      | _ => rfl

theorem Sound.record (h : Sound normalize s) (frame : SyncFrame) :
    Sound normalize (s.record normalize frame) := by
  have hcallers := h.callers_record frame
  cases hframe : frame.txid with
  | none =>
    rw [State.record, hframe]
    exact h
  | some t =>
    have htxids : (s.record normalize frame).txids = (s.txids.record (normalize t)).1 := by
      rw [State.record, hframe]
    have hconnection : (s.record normalize frame).connection = s.connection := by
      rw [State.record, hframe]
    constructor
    · rw [htxids]
      exact .record _
    · intro caller txid hwaiting
      rw [hcallers] at hwaiting
      split at hwaiting
      · rename_i hs
        split at hwaiting
        · cases hwaiting
        · rename_i hother
          cases hwaiting
          rw [htxids, h.txids.mem_waiters_record]
          refine ⟨h.waits caller txid hs, fun he => hother ?_⟩
          exact (carries_iff hframe).mpr he.symm
      · rename_i hother
        exact absurd hwaiting (hother txid)
    · intro waiter hw
      rw [htxids, h.txids.mem_waiters_record] at hw
      obtain ⟨txid, hs, hkey⟩ := h.waiters waiter hw.1
      refine ⟨txid, ?_, hkey⟩
      have hother : frame.carries normalize txid = false := by
        rw [← Bool.not_eq_true, carries_iff hframe, hkey]
        exact fun he => hw.2 he.symm
      rw [hcallers, hs]
      simp [hother]
    · intro caller txid n hresolved
      rw [hconnection]
      rw [hcallers] at hresolved
      split at hresolved
      · split at hresolved
        · cases hresolved
          exact le_rfl
        · cases hresolved
      · exact h.connections caller txid n hresolved

/-- A caller that did not wait gets an answer, or starts. -/
theorem Sound.setCaller (h : Sound normalize s) {caller : Nat} {now : Caller}
    (hold : ∀ txid, s.callers caller ≠ some (.waiting txid)) (hnow : ∀ txid, now ≠ .waiting txid)
    (hconnection : ∀ txid n, now = .resolved txid (some n) → n ≤ s.connection) :
    Sound normalize (s.setCaller caller now) where
  txids := h.txids
  waits id txid hs := by
    rw [setCaller_callers] at hs
    split at hs
    · exact absurd (Option.some.inj hs) (hnow txid)
    · exact h.waits id txid hs
  waiters waiter hw := by
    obtain ⟨txid, hs, hkey⟩ := h.waiters waiter hw
    have hne : waiter.caller ≠ caller := by
      rintro rfl
      exact hold txid hs
    exact ⟨txid, by rw [setCaller_callers, if_neg hne, hs], hkey⟩
  connections id txid n hs := by
    rw [setCaller_callers] at hs
    split at hs
    · exact hconnection txid n (Option.some.inj hs)
    · exact h.connections id txid n hs

theorem origin_le {txid : Int} {n : Nat} (h : s.origin normalize txid = some n) :
    n ≤ s.connection := by
  unfold State.origin at h
  split at h
  · cases h
    exact le_rfl
  · cases h

theorem Sound.awaitTxId (h : Sound normalize s) {caller : Nat} (txid : Int)
    (hold : ∀ txid, s.callers caller ≠ some (.waiting txid)) :
    Sound normalize (s.awaitTxId normalize caller txid) := by
  unfold State.awaitTxId
  split
  · refine h.setCaller hold (fun _ he => ?_) fun _ n he => ?_
    · cases he
    · simp only [Caller.resolved.injEq] at he
      exact origin_le he.2
  · rename_i hhas
    rw [Bool.not_eq_true] at hhas
    constructor
    · exact h.txids.wait hhas
    · intro id t hs
      replace hs : (s.setCaller caller (.waiting txid)).callers id = some (.waiting t) := hs
      rw [setCaller_callers] at hs
      split at hs
      · rename_i hid
        cases hs
        rw [hid]
        exact List.mem_cons_self
      · exact List.mem_cons_of_mem _ (h.waits id t hs)
    · intro waiter hw
      rcases List.mem_cons.mp hw with rfl | hw
      · exact ⟨txid, Function.update_self _ _ _, rfl⟩
      · obtain ⟨t, hs, hkey⟩ := h.waiters waiter hw
        have hne : waiter.caller ≠ caller := by
          rintro rfl
          exact hold t hs
        refine ⟨t, ?_, hkey⟩
        rw [← hs]
        exact Function.update_of_ne hne _ _
    · intro id t n hs
      replace hs : (s.setCaller caller (.waiting txid)).callers id =
        some (.resolved t (some n)) := hs
      rw [setCaller_callers] at hs
      split at hs
      · cases hs
      · exact h.connections id t n hs

theorem Sound.timeout (h : Sound normalize s) (caller : Nat) : Sound normalize
    { s.setCaller caller .rejected with txids := s.txids.forget caller } where
  txids := h.txids.forget caller
  waits id txid hs := by
    replace hs : (s.setCaller caller .rejected).callers id = some (.waiting txid) := hs
    rw [setCaller_callers] at hs
    split at hs
    · cases hs
    · rename_i hne
      refine List.mem_filter.mpr ⟨h.waits id txid hs, ?_⟩
      simpa using hne
  waiters waiter hw := by
    obtain ⟨hw, hne⟩ := List.mem_filter.mp hw
    obtain ⟨txid, hs, hkey⟩ := h.waiters waiter hw
    refine ⟨txid, ?_, hkey⟩
    rw [← hs]
    exact Function.update_of_ne (by simpa using hne) _ _
  connections id txid n hs := by
    replace hs : (s.setCaller caller .rejected).callers id = some (.resolved txid (some n)) := hs
    rw [setCaller_callers] at hs
    split at hs
    · cases hs
    · exact h.connections id txid n hs

theorem Sound.step (h : Sound normalize s) {action : Action}
    (ht : Taken config normalize s action s') : Sound normalize s' := by
  cases ht with
  | @sync action sync hsync =>
    cases action with
    | connect =>
      exact ⟨h.txids, h.waits, h.waiters, fun caller txid n hn =>
        Nat.le_succ_of_le (h.connections caller txid n hn)⟩
    | frame frame =>
      have hrecord := h.record frame
      exact ⟨hrecord.txids, hrecord.waits, hrecord.waiters, hrecord.connections⟩
    | done | fail | stop => exact ⟨h.txids, h.waits, h.waiters, h.connections⟩
  | awaitTxId hfree => exact h.awaitTxId _ (by simp [hfree])
  | handler hfree => exact h.setCaller (by simp [hfree]) (by simp) (by simp)
  | threw hcaller | returned hcaller =>
    exact h.setCaller (by simp [hcaller]) (by simp) (by simp)
  | confirm hcaller => exact h.awaitTxId _ (by simp [hcaller])
  | timeout hcaller => exact h.timeout _

/-! ## 5. `pending` is made by the changes that are not flushed -/

/-- What a change makes of `pending`. -/
def mergeFrame (config : Config) (frame : SyncFrame) (pending : Pending) : Pending :=
  (handleFrame config ⟨∅, false, pending⟩ frame).driver.pending

/-- Flushing comes with an up-to-date frame only. -/
theorem unflushed_cons (frame : SyncFrame) (received : List SyncFrame) :
    unflushed (frame :: received) = match frame with
      | .change _ _ _ _ => frame :: unflushed received
      | .upToDate _ => []
      | .snapshot _ _ | .reset _ => unflushed received := by
  cases frame <;> rfl

/-- The loops of `applyRows` ends when every row has a key. -/
theorem writeRows_done (config : Config) : ∀ (rows : List Row) (seen : Finset String),
    (writeRows config rows seen).2.2 = true ↔ ∀ row ∈ rows, (config.getKey row).isSome = true
  | [], seen => by simp [writeRows]
  | row :: rows, seen => by
    rw [writeRows]
    cases hkey : config.getKey row with
    | none => simp [hkey]
    | some key => simp [hkey, writeRows_done config rows]

/-- The loop over the frames goes on after a frame whose rows have keys, if it is no reset. -/
theorem exit_eq_next_iff (config : Config) (driver : Driver) (frame : SyncFrame) :
    (handleFrame config driver frame).exit = .next ↔
      frame.Keyed config ∧ ∀ txid, frame ≠ .reset txid := by
  cases frame with
  | snapshot rows txid =>
    cases rows with
    | none => simp [handleFrame, applyRows, SyncFrame.Keyed]
    | some rows =>
      have hdone := writeRows_done config rows ∅
      rw [handleFrame, applyRows]
      split
      · rename_i hwrite
        simpa [hwrite, SyncFrame.Keyed] using hdone
      · rename_i hwrite
        simpa [hwrite, SyncFrame.Keyed] using hdone
  | change op row key txid =>
    cases row with
    | none => cases op <;> simp [handleFrame, handleChange, upsertKey, SyncFrame.Keyed]
    | some row =>
      cases hkey : config.getKey row <;>
        cases op <;> simp [handleFrame, handleChange, upsertKey, SyncFrame.Keyed, hkey]
  | upToDate txid => simp [handleFrame, SyncFrame.Keyed]
  | reset txid => simp [handleFrame]

/-- **The connection stays open** exactly then. -/
theorem connected_onFrame {sync : Sync} (hc : sync.connected = true) (frame : SyncFrame) :
    (sync.onFrame config frame).connected = true ↔
      frame.Keyed config ∧ ∀ txid, frame ≠ .reset txid := by
  rw [← exit_eq_next_iff config sync.driver frame, Sync.onFrame]
  split
  · rename_i hexit
    simp [hexit, hc]
  · rename_i hexit
    simp [hexit]
  · rename_i hexit
    simp [hexit, Sync.caught]

/-- On the open connection, `pending` is what the changes not flushed make of an empty map. -/
def PendingMatches (config : Config) (s : State) : Prop :=
  s.sync.connected = true →
    s.sync.driver.pending = (unflushed s.received).foldr (mergeFrame config) []

/-- `pending` after a change only depends on `pending`. -/
theorem mergeFrame_eq (driver : Driver) {frame : SyncFrame} (h : frame.isChange = true) :
    (handleFrame config driver frame).driver.pending = mergeFrame config frame driver.pending := by
  cases frame with
  | change op row key txid =>
    cases row with
    | none => cases op <;> rfl
    | some row =>
      cases hkey : config.getKey row <;>
        cases op <;> simp [mergeFrame, handleFrame, handleChange, upsertKey, hkey]
  | snapshot _ _ | upToDate _ | reset _ => cases h

theorem pending_flush (driver : Driver) : (flush driver).1.pending = [] := by
  unfold flush
  split
  · rename_i hempty
    exact List.isEmpty_iff.mp hempty
  · rfl

/-- While the connection stays open, its `pending` is the one the loop body leaves. -/
theorem onFrame_driver {sync : Sync} {frame : SyncFrame}
    (hc : (sync.onFrame config frame).connected = true) :
    (sync.onFrame config frame).driver = (handleFrame config sync.driver frame).driver := by
  unfold Sync.onFrame at hc ⊢
  cases hexit : (handleFrame config sync.driver frame).exit with
  | next | returned => simp [hexit]
  | threw => simp [hexit, Sync.caught] at hc

theorem pending_applyRows (config : Config) (driver : Driver) (rows : Option (List Row)) :
    (applyRows config driver rows).driver.pending = driver.pending := by
  unfold applyRows
  split
  · rfl
  · split
    · simp only [ready]
      split <;> rfl
    · rfl

theorem PendingMatches.step (h : PendingMatches config s) {action : Action}
    (ht : Taken config normalize s action s') : PendingMatches config s' := by
  cases ht with
  | @sync action sync hsync =>
    cases action with
    | connect =>
      intro hc
      simp only [Client.step] at hsync
      split at hsync
      · cases hsync
      · cases hsync
        rfl
    | frame frame =>
      simp only [Client.step] at hsync
      split at hsync
      · rename_i hconnected
        cases hsync
        intro hc
        replace hc : (s.sync.onFrame config frame).connected = true := hc
        have hpending := h hconnected
        have hreset := ((connected_onFrame hconnected frame).mp hc).2
        show (s.sync.onFrame config frame).driver.pending =
          (unflushed (frame :: s.received)).foldr (mergeFrame config) []
        rw [onFrame_driver hc, unflushed_cons]
        cases frame with
        | snapshot rows txid => rw [handleFrame, pending_applyRows, hpending]
        | change op row key txid =>
          rw [mergeFrame_eq s.sync.driver rfl, hpending]
          rfl
        | upToDate txid => exact pending_flush s.sync.driver
        | reset txid => exact absurd rfl (hreset txid)
      · cases hsync
    | done =>
      intro hc
      simp only [Client.step] at hsync
      split at hsync <;> cases hsync
      cases hc
    | fail =>
      intro hc
      simp only [Client.step] at hsync
      split at hsync <;> cases hsync
      cases hc
    | stop =>
      cases hsync
      exact h
  | @awaitTxId caller txid _ | @confirm caller txid _ =>
    unfold State.awaitTxId
    split <;> exact h
  | handler _ | threw _ | returned _ | timeout _ => exact h

/-- **`pending` holds the changes that are not flushed**, and nothing else. -/
theorem pending_eq (h : (system config normalize).Reachable free s) : PendingMatches config s := by
  refine Reachable.induction (P := PendingMatches config) ?_ ?_ h
  · rintro _ rfl hc
    cases hc
  · intro t action t' _ hmatches _ hstep
    exact hmatches.step (step_iff.mp hstep)

/-! ## 6. What each step confirms -/

/-- A call moves on, and no frame arrives. -/
theorem confirmed_setCaller (h : Confirmed normalize s) (caller : Nat) (now : Caller) :
    Confirmed normalize (s.setCaller caller now) ↔
      (s.sync.connected = true → ∀ txid, now = .resolved txid (some s.connection) →
        ∀ frame ∈ unflushed s.received, frame.carries normalize txid = false) := by
  constructor
  · intro hnow hc txid he
    exact hnow hc caller txid (by rw [setCaller_callers, if_pos rfl, he]; rfl)
  · intro hnow hc id txid hid
    rw [setCaller_callers] at hid
    split at hid
    · exact hnow hc txid (Option.some.inj hid)
    · exact h hc id txid hid

/-- An id may be asked for when its changes are flushed. -/
theorem confirmed_awaitTxId (h : Confirmed normalize s) (caller : Nat) (txid : Int) :
    Confirmed normalize (s.awaitTxId normalize caller txid) ↔ Flushed normalize s txid := by
  unfold State.awaitTxId
  split
  · rename_i hhas
    rw [confirmed_setCaller h]
    constructor
    · intro hresolved hc _ frame hframe
      by_contra hcarries
      rw [Bool.not_eq_false] at hcarries
      have hreceived : s.received.any (SyncFrame.carries normalize txid) = true :=
        List.any_eq_true.mpr ⟨frame, (List.takeWhile_subset _) (List.mem_of_mem_filter hframe),
          hcarries⟩
      have horigin : s.origin normalize txid = some s.connection := by
        rw [State.origin, hc, hreceived]
        rfl
      rw [hresolved hc txid (by rw [horigin]) frame hframe] at hcarries
      cases hcarries
    · intro hflushed hc t he
      rw [Caller.resolved.injEq] at he
      rw [← he.1]
      exact hflushed hc hhas
  · rename_i hhas
    constructor
    · intro _ _ hhas'
      exact absurd hhas' hhas
    · intro _
      exact (confirmed_setCaller h caller (.waiting txid)).mpr fun _ _ he => by cases he

theorem record_connection (frame : SyncFrame) :
    (s.record normalize frame).connection = s.connection := by
  unfold State.record
  split <;> rfl

/-- The callers that a frame leaves resolved by the connection. -/
theorem Sound.resolved_record (h : Sound normalize s) (frame : SyncFrame) (caller : Nat)
    (txid : Int) :
    (s.record normalize frame).callers caller = some (.resolved txid (some s.connection)) ↔
      s.callers caller = some (.resolved txid (some s.connection)) ∨
        s.callers caller = some (.waiting txid) ∧ frame.carries normalize txid = true := by
  rw [h.callers_record]
  cases hcaller : s.callers caller with
  | none => simp
  | some c =>
    cases c with
    | waiting t =>
      constructor
      · intro hnow
        simp only at hnow
        split at hnow
        · rename_i hcarries
          cases hnow
          exact Or.inr ⟨rfl, hcarries⟩
        · cases hnow
      · rintro (hs | ⟨hs, hcarries⟩)
        · cases hs
        · cases hs
          simp only [hcarries, if_true]
    | handling | resolved _ _ | returned | rejected => simp

/-- **A frame is in order exactly when it confirms nothing too early.** -/
theorem confirmed_frame (hsound : Sound normalize s) (h : Confirmed normalize s)
    (hc : s.sync.connected = true) (frame : SyncFrame) :
    Confirmed normalize (s.advance normalize (s.sync.onFrame config frame) (.frame frame)) ↔
      InOrder config normalize s (.sync (.frame frame)) := by
  have hresolved := hsound.resolved_record frame
  have hconfirmed : Confirmed normalize
      (s.advance normalize (s.sync.onFrame config frame) (.frame frame)) ↔
      ((s.sync.onFrame config frame).connected = true → ∀ caller txid,
        (s.record normalize frame).callers caller = some (.resolved txid (some s.connection)) →
          ∀ f ∈ unflushed (frame :: s.received), f.carries normalize txid = false) := by
    have hconnection : (s.record normalize frame).connection = s.connection :=
      record_connection frame
    rw [← hconnection]
    exact Iff.rfl
  rw [hconfirmed, connected_onFrame hc, unflushed_cons]
  cases frame with
  | snapshot rows txid =>
    constructor
    · intro hframe _ hkeyed caller t hwaiting hcarries
      exact hframe ⟨hkeyed, by simp⟩ caller t ((hresolved caller t).mpr (.inr ⟨hwaiting, hcarries⟩))
    · rintro horder ⟨hkeyed, -⟩ caller t hs f hf
      rcases (hresolved caller t).mp hs with hs | ⟨hwaiting, hcarries⟩
      · exact h hc caller t hs f hf
      · exact horder hc hkeyed caller t hwaiting hcarries f hf
  | change op row key txid =>
    constructor
    · rintro hframe _ hkeyed caller t (hwaiting | hs)
      · by_contra hcarries
        rw [Bool.not_eq_false] at hcarries
        have hnow := (hresolved caller t).mpr (.inr ⟨hwaiting, hcarries⟩)
        rw [hframe ⟨hkeyed, by simp⟩ caller t hnow _ List.mem_cons_self] at hcarries
        cases hcarries
      · exact hframe ⟨hkeyed, by simp⟩ caller t ((hresolved caller t).mpr (.inl hs)) _
          List.mem_cons_self
    · rintro horder ⟨hkeyed, -⟩ caller t hs f hf
      rcases (hresolved caller t).mp hs with hs | ⟨hwaiting, hcarries⟩
      · rcases List.mem_cons.mp hf with rfl | hf
        · exact horder hc hkeyed caller t (.inr hs)
        · exact h hc caller t hs f hf
      · rw [horder hc hkeyed caller t (.inl hwaiting)] at hcarries
        cases hcarries
  | upToDate txid =>
    constructor
    · intro _ _ _
      trivial
    · intro _ _ caller t _ f hf
      cases hf
  | reset txid =>
    constructor
    · intro _ _ _
      trivial
    · rintro - ⟨-, hreset⟩
      exact absurd rfl (hreset txid)

/-- An action that can be taken decides alone. -/
theorem confirms_of_taken {action : Action} (ht : Taken config normalize s action s') :
    Confirms config normalize s action ↔ Confirmed normalize s' := by
  constructor
  · intro h
    exact h s' (step_iff.mpr ht)
  · intro h t hs
    cases (step_iff.mpr ht).symm.trans hs
    exact h

/-- An action that cannot be taken confirms nothing. -/
theorem confirms_of_none {action : Action} (hs : step config normalize s action = none) :
    Confirms config normalize s action := by
  intro t ht
  rw [hs] at ht
  cases ht

/-- The source moves, and no frame arrives. -/
theorem confirmed_source (hsound : Sound normalize s) (h : Confirmed normalize s)
    {action : Client.Action} {sync : Sync} (hsync : Client.step config s.sync action = some sync)
    (hframe : ∀ frame, action ≠ .frame frame) :
    Confirmed normalize (s.advance normalize sync action) := by
  cases action with
  | connect =>
    -- nobody was resolved by a connection that did not exist
    intro _ caller txid hs
    exact absurd (hsound.connections caller txid _ hs) (Nat.not_succ_le_self _)
  | frame frame => exact absurd rfl (hframe frame)
  | done =>
    simp only [Client.step] at hsync
    split at hsync <;> cases hsync
    intro hc
    cases hc
  | fail =>
    simp only [Client.step] at hsync
    split at hsync <;> cases hsync
    intro hc
    cases hc
  | stop =>
    cases hsync
    exact h

/-- **One step.** -/
theorem confirms_iff (hsound : Sound normalize s) (h : Confirmed normalize s) (action : Action) :
    Confirms config normalize s action ↔ InOrder config normalize s action := by
  have hset : ∀ caller now, (∀ txid connection, now ≠ .resolved txid connection) →
      Confirmed normalize (s.setCaller caller now) := by
    intro caller now hnow
    exact (confirmed_setCaller h caller now).mpr fun _ txid he => absurd he (hnow txid _)
  cases action with
  | sync action =>
    by_cases hframe : ∃ frame, action = .frame frame
    · obtain ⟨frame, rfl⟩ := hframe
      cases hc : s.sync.connected with
      | true =>
        have hsync : Client.step config s.sync (.frame frame) =
            some (s.sync.onFrame config frame) := if_pos hc
        rw [confirms_of_taken (.sync hsync), confirmed_frame hsound h hc]
      | false =>
        refine iff_of_true (confirms_of_none ?_) fun hc' => ?_
        · simp [Confirm.step, Client.step, hc]
        · rw [hc] at hc'
          cases hc'
    · push Not at hframe
      refine iff_of_true (fun s' hs => ?_) ?_
      · obtain ⟨sync, hsync, rfl⟩ := Option.map_eq_some_iff.mp hs
        exact confirmed_source hsound h hsync hframe
      · cases action with
        | frame frame => exact absurd rfl (hframe frame)
        | connect | done | fail | stop => trivial
  | awaitTxId caller txid =>
    cases hfree : s.callers caller with
    | none =>
      rw [confirms_of_taken (.awaitTxId hfree), confirmed_awaitTxId h]
      exact ⟨fun hflushed _ => hflushed, fun horder => horder hfree⟩
    | some c =>
      refine iff_of_true (confirms_of_none ?_) fun hnone => ?_
      · simp [Confirm.step, hfree]
      · rw [hfree] at hnone
        cases hnone
  | handler caller =>
    refine iff_of_true (fun s' hs => ?_) trivial
    cases step_iff.mp hs
    exact hset caller _ fun _ _ he => by cases he
  | settle caller result =>
    by_cases hcaller : s.callers caller = some .handling
    · rcases result with _ | _ | txid
      · rw [confirms_of_taken (.threw hcaller)]
        exact iff_of_true (hset caller _ fun _ _ he => by cases he) trivial
      · rw [confirms_of_taken (.returned hcaller)]
        exact iff_of_true (hset caller _ fun _ _ he => by cases he) trivial
      · rw [confirms_of_taken (.confirm hcaller), confirmed_awaitTxId h]
        exact ⟨fun hflushed _ => hflushed, fun horder => horder hcaller⟩
    · refine iff_of_true (fun s' hs => ?_) ?_
      · cases step_iff.mp hs <;> exact absurd ‹_› hcaller
      · rcases result with _ | _ | txid
        · trivial
        · trivial
        · exact fun hc => absurd hc hcaller
  | timeout caller =>
    refine iff_of_true (fun s' hs => ?_) trivial
    cases step_iff.mp hs
    exact hset caller .rejected fun _ _ he => by cases he

end Runs

/-- **A write is confirmed only after it is visible, in every state of a run, exactly when the
steps of the run are in order.** -/
theorem confirmed_iff (config : Config) (normalize : Int → String) (actions : List Action) :
    (system config normalize).Along (Confirms config normalize) .new actions ↔
      (system config normalize).Along (InOrder config normalize) .new actions := by
  have hinit : Sound normalize .new ∧ Confirmed normalize .new :=
    ⟨.new, fun hc => by cases hc⟩
  have hstep : ∀ s, Sound normalize s ∧ Confirmed normalize s → ∀ action,
      Confirms config normalize s action → ∀ s', step config normalize s action = some s' →
        Sound normalize s' ∧ Confirmed normalize s' :=
    fun s hs action h s' hs' => ⟨hs.1.step (step_iff.mp hs'), h s' hs'⟩
  constructor
  · intro h
    refine h.of_invariant (P := fun s => Sound normalize s ∧ Confirmed normalize s) ?_ hinit
    intro s action _ hs hconfirms
    exact ⟨(confirms_iff hs.1 hs.2 action).mp hconfirms, hstep s hs action hconfirms⟩
  · intro h
    refine h.of_invariant (P := fun s => Sound normalize s ∧ Confirmed normalize s) ?_ hinit
    intro s action _ hs horder
    have hconfirms := (confirms_iff hs.1 hs.2 action).mpr horder
    exact ⟨hconfirms, hstep s hs action hconfirms⟩

/-! ## 7. A run -/

/-- A caller waits for the transaction whose first change arrives. -/
def awaitedInsert : List Action :=
  [.sync .connect, .sync (.frame (.snapshot (some []) none)), .awaitTxId 0 7,
    .sync (.frame (.change .insert (some (todo "a" "one")) (some "a") (some 7)))]

/-- **A write is confirmed while its row is still in `pending`.** -/
theorem confirmed_early : ∃ s, (system byId low32).run .new awaitedInsert = some s ∧
    s.callers 0 = some (.resolved 7 (some s.connection)) ∧
    s.sync.collection byId = ∅ ∧ ¬ Confirmed low32 s := by
  refine ⟨_, rfl, by decide, rfl, fun h => ?_⟩
  have hcarries := h rfl 0 7 (by decide) _ List.mem_cons_self
  exact absurd hcarries (by decide)

end Confirm

end PgPaw.Client
