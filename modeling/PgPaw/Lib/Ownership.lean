/-
# What a program owns

Operations use handles, give them up, and bring new ones.  What is held after a trace is counted
(`held`), so that a handle given up twice is missing the second time.

`Owns owned p left` says of a program that it can do with `owned`: every handle it uses is held
when it uses it, and what it leaves when it returns is `left` of its result, whatever else is held
besides (`Owns.frame`).  Nothing is asked of the answers: an operation may fail anywhere.
-/
import Mathlib.Data.Multiset.AddSub
import Mathlib.Algebra.Order.Group.Multiset
import Mathlib.Algebra.Order.Sub.Basic
import PgPaw.Lib.Contract

namespace Program

variable {ω ρ η α β ε : Type}

/-- What operations do to handles.  A handle is given up when the operation is begun, and brought
when it is answered. -/
structure Ownership (ω ρ η : Type) where
  uses : ω → Multiset η
  releases : ω → Multiset η
  acquires : ω → ρ → Multiset η
  releases_le : ∀ op, releases op ≤ uses op

namespace Ownership

variable [DecidableEq η] (o : Ownership ω ρ η)

/-- What is held after one more operation. -/
def heldAfter (held : Multiset η) (e : ω × Await ρ) : Multiset η :=
  held - o.releases e.1 + e.2.reply.elim 0 (o.acquires e.1)

/-- What is held after a trace. -/
def held (trace : Trace ω ρ) : Multiset η := trace.foldl o.heldAfter 0

/-- An operation is allowed when all it uses is held. -/
def contract : Contract ω ρ where
  allows before op := o.uses op ≤ o.held before
  relies _ _ := True

/-- **What a program can do with, and what it leaves.** -/
def Owns (owned : Multiset η) (p : Program ω ρ α) (left : α → Multiset η) : Prop :=
  ∀ frame, o.contract.Obeys (fun trace => o.held trace = owned + frame) p
    fun a trace => o.held trace = left a + frame

variable {o} {owned : Multiset η} {left : α → Multiset η} {p : Program ω ρ α}

theorem held_snoc (trace : Trace ω ρ) (e : ω × Await ρ) :
    o.held (trace ++ [e]) = o.heldAfter (o.held trace) e := by
  rw [held, List.foldl_append]
  rfl

theorem kept_all (trace : Trace ω ρ) : o.contract.Kept trace := fun _ _ => trivial

/-! ## 1. The rules -/

theorem Owns.done {a : α} (h : owned = left a) : o.Owns owned (.done a) left :=
  fun _ => Contract.Obeys.done fun _ hheld => h ▸ hheld

theorem Owns.perform {op : ω} {left : ρ → Multiset η} (huses : o.uses op ≤ owned)
    (hleft : ∀ reply, owned - o.releases op + o.acquires op reply = left reply) :
    o.Owns owned (perform op) left := by
  intro frame
  have hreleases : o.releases op ≤ owned := (o.releases_le op).trans huses
  refine Contract.Obeys.perform (fun before hheld => ?_)
    fun before await reply hheld hreply _ => ?_
  · show o.uses op ≤ o.held before
    rw [hheld]
    exact huses.trans (Multiset.le_add_right owned frame)
  · have hframe : owned + frame - o.releases op = owned - o.releases op + frame :=
      (tsub_add_eq_add_tsub hreleases).symm
    rw [held_snoc, heldAfter, hheld, hreply, Option.elim_some, hframe, add_right_comm,
      hleft reply]

/-- **Sequencing**: what the first part leaves is what the second can do with. -/
theorem Owns.bind {f : α → Program ω ρ β} {left' : β → Multiset η} (hp : o.Owns owned p left)
    (hf : ∀ a, o.Owns (left a) (f a) left') : o.Owns owned (p >>= f) left' :=
  fun frame => Contract.Obeys.bind (hp frame) fun a => hf a frame

/-- **The frame rule**: what a program does not need stays. -/
theorem Owns.frame (h : o.Owns owned p left) (extra : Multiset η) :
    o.Owns (owned + extra) p fun a => left a + extra := by
  intro frame
  refine (h (extra + frame)).weaken (fun before hheld => ?_) fun a before hheld => ?_
  · rw [hheld, add_assoc]
  · rw [hheld, add_assoc]

theorem Owns.congr {owned' : Multiset η} {left' : α → Multiset η} (h : o.Owns owned' p left')
    (howned : owned = owned') (hleft : ∀ a, left' a = left a) : o.Owns owned p left := by
  subst howned
  exact fun frame => (h frame).weaken (fun _ h => h) fun a _ hheld => hleft a ▸ hheld

theorem Owns.map {left : β → Multiset η} {f : α → β} (h : o.Owns owned p fun a => left (f a)) :
    o.Owns owned (f <$> p) left :=
  Owns.bind h fun _ => Owns.done rfl

/-! ## 2. Programs that fail -/

section Fallible

variable {p : ExceptT ε (Program ω ρ) α} {failed : Multiset η}

/-- What is left of a result: the one or the other. -/
def leftOf (left : α → Multiset η) (failed : Multiset η) : Except ε α → Multiset η
  | .ok a => left a
  | .error _ => failed

variable (o) in
/-- What a program can do with, what it leaves where it succeeds, and where it fails. -/
def Leaves (owned : Multiset η) (p : ExceptT ε (Program ω ρ) α) (left : α → Multiset η)
    (failed : Multiset η) : Prop :=
  o.Owns owned p.run (leftOf left failed)

theorem Leaves.pure {a : α} (h : owned = left a) :
    o.Leaves owned (pure a : ExceptT ε (Program ω ρ) α) left failed :=
  Owns.done h

theorem Leaves.throw {e : ε} (h : owned = failed) :
    o.Leaves owned (throw e : ExceptT ε (Program ω ρ) α) left failed :=
  Owns.done h

/-- **Sequencing what may fail.** -/
theorem Leaves.bind {f : α → ExceptT ε (Program ω ρ) β} {left' : β → Multiset η}
    (hp : o.Leaves owned p left failed) (hf : ∀ a, o.Leaves (left a) (f a) left' failed) :
    o.Leaves owned (p >>= f) left' failed := by
  unfold Leaves
  rw [Program.fallible_bind]
  refine Owns.bind hp fun result => ?_
  cases result with
  | ok a => exact hf a
  | error e => exact Owns.done rfl

theorem Leaves.discard {left' : Multiset η} (hp : o.Leaves owned p (fun _ => left') failed) :
    o.Leaves owned (discard p) (fun _ => left') failed :=
  hp.bind fun _ => Leaves.pure rfl

theorem Leaves.congr {owned' failed' : Multiset η} {left' : α → Multiset η}
    (h : o.Leaves owned' p left' failed') (howned : owned = owned')
    (hleft : ∀ a, left' a = left a) (hfailed : failed' = failed) :
    o.Leaves owned p left failed := by
  refine Owns.congr h howned fun result => ?_
  cases result with
  | ok a => exact hleft a
  | error e => exact hfailed

theorem Leaves.frame (h : o.Leaves owned p left failed) (extra : Multiset η) :
    o.Leaves (owned + extra) p (fun a => left a + extra) (failed + extra) := by
  refine (Owns.frame h extra).congr rfl fun result => ?_
  cases result <;> rfl

/-- A block whose result is looked at. -/
theorem Leaves.attempt {ε' : Type} {failed' : Multiset η} (h : o.Leaves owned p left failed) :
    o.Leaves owned (ExceptT.mk (Except.ok <$> p.run) : ExceptT ε' (Program ω ρ) (Except ε α))
      (leftOf left failed) failed' :=
  Owns.map (h.congr rfl (fun _ => rfl) rfl)

/-- And one that leaves the same, whether it fails or not. -/
theorem Leaves.settle {ε' : Type} {left failed' : Multiset η}
    (h : o.Leaves owned p (fun _ => left) left) :
    o.Leaves owned (ExceptT.mk (Except.ok <$> p.run) : ExceptT ε' (Program ω ρ) (Except ε α))
      (fun _ => left) failed' := by
  refine h.attempt.congr rfl (fun result => ?_) rfl
  cases result <;> rfl

variable (o) in
/-- **What a program borrows**: it needs these handles, and leaves what there was. -/
def Borrows (needs : Multiset η) (p : ExceptT ε (Program ω ρ) α) : Prop :=
  ∀ owned, needs ≤ owned → o.Leaves owned p (fun _ => owned) owned

variable {needs : Multiset η}

theorem Borrows.pure (a : α) : o.Borrows needs (pure a : ExceptT ε (Program ω ρ) α) :=
  fun _ _ => Leaves.pure rfl

theorem Borrows.throw (e : ε) : o.Borrows needs (throw e : ExceptT ε (Program ω ρ) α) :=
  fun _ _ => Leaves.throw rfl

theorem Borrows.bind {f : α → ExceptT ε (Program ω ρ) β} (hp : o.Borrows needs p)
    (hf : ∀ a, o.Borrows needs (f a)) : o.Borrows needs (p >>= f) :=
  fun owned hneeds => (hp owned hneeds).bind fun a => hf a owned hneeds

theorem Borrows.discard (hp : o.Borrows needs p) : o.Borrows needs (discard p) :=
  hp.bind fun _ => Borrows.pure _

theorem Borrows.attempt {ε' : Type} (hp : o.Borrows needs p) :
    o.Borrows needs (ExceptT.mk (Except.ok <$> p.run) :
      ExceptT ε' (Program ω ρ) (Except ε α)) := by
  intro owned hneeds
  exact (hp owned hneeds).settle

theorem Borrows.mono {needs' : Multiset η} (hp : o.Borrows needs' p) (h : needs' ≤ needs) :
    o.Borrows needs p :=
  fun owned hneeds => hp owned (h.trans hneeds)

end Fallible

/-! ## 3. What it means for a run -/

/-- **A program that starts with nothing** uses only what is held, and what is held when it
returns is what it leaves. -/
theorem Owns.run (h : o.Owns 0 p left) (script : List (Await ρ)) :
    (∀ before op await after, (p.play script).2 = before ++ (op, await) :: after →
      o.uses op ≤ o.held before) ∧
    ∀ a, (p.play script).1 = some a → o.held (p.play script).2 = left a := by
  have hobeys : o.contract.Obeys (· = []) p fun a trace => o.held trace = left a := by
    refine (h 0).weaken (fun before hbefore => ?_) fun a trace hheld => ?_
    · rw [hbefore, add_zero]
      rfl
    · rw [hheld, add_zero]
  exact ⟨fun before op await after hsplit => hobeys.allows_of_split hsplit (kept_all before),
    fun a ha => hobeys.post_of_result ha (kept_all _)⟩

end Ownership

end Program
