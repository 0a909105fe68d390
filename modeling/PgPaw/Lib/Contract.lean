/-
# Contracts for programs that call out

A contract speaks of the operations that a program has performed so far, with their answers.  It
says which operation is allowed after them, and which answers are relied on.  A program obeys it,
from a precondition to a postcondition, when every operation it begins is allowed where it is
begun, as long as all answers before it were as relied on (`Obeys`).

The scripts are those of `Program.play`: an operation may fail, and the program may be dropped at
any of them.  `Obeys.bind` and `Obeys.fallible_bind` are the rules for sequencing, and
`allows_of_split` is what is read off a run.
-/
import PgPaw.Lib.Program

namespace Program

variable {ω ρ α β ε : Type}

/-- The operations begun so far, with what happened at each. -/
abbrev Trace (ω ρ : Type) := List (ω × Await ρ)

/-- What a program may perform after a trace, and what it relies on in return. -/
structure Contract (ω ρ : Type) where
  allows : Trace ω ρ → ω → Prop
  relies : ω → Await ρ → Prop

namespace Contract

/-- Every operation is allowed where it is begun, while the answers are as relied on. -/
def Follows (c : Contract ω ρ) : Trace ω ρ → Trace ω ρ → Prop
  | _, [] => True
  | before, (op, await) :: trace =>
    c.allows before op ∧ (c.relies op await → c.Follows (before ++ [(op, await)]) trace)

/-- All answers are as relied on. -/
def Kept (c : Contract ω ρ) (trace : Trace ω ρ) : Prop := ∀ e ∈ trace, c.relies e.1 e.2

variable {c : Contract ω ρ} {before trace trace' : Trace ω ρ}

theorem kept_append : c.Kept (trace ++ trace') ↔ c.Kept trace ∧ c.Kept trace' :=
  List.forall_mem_append

theorem Follows.append (h : c.Follows before trace)
    (h' : c.Kept trace → c.Follows (before ++ trace) trace') :
    c.Follows before (trace ++ trace') := by
  induction trace generalizing before with
  | nil => simpa using h' (by simp [Kept])
  | cons e trace ih =>
    refine ⟨h.1, fun hrely => ih (h.2 hrely) fun hkept => ?_⟩
    simpa using h' (List.forall_mem_cons.mpr ⟨hrely, hkept⟩)

/-- **What a trace says at one operation of it.** -/
theorem Follows.at_split {op : ω} {await : Await ρ} {after : Trace ω ρ}
    (h : c.Follows before (trace ++ (op, await) :: after)) (hkept : c.Kept trace) :
    c.allows (before ++ trace) op := by
  induction trace generalizing before with
  | nil => simpa using h.1
  | cons e trace ih =>
    obtain ⟨hrely, hkept⟩ := List.forall_mem_cons.mp hkept
    simpa using ih (h.2 hrely) hkept

/-! ## 1. Programs -/

/-- **From a trace as `pre` says**, the program keeps to the contract, and what it returns is as
`post` says of the trace then. -/
def Obeys (c : Contract ω ρ) (pre : Trace ω ρ → Prop) (p : Program ω ρ α)
    (post : α → Trace ω ρ → Prop) : Prop :=
  ∀ before, pre before → ∀ script, c.Follows before (p.play script).2 ∧
    ∀ a, (p.play script).1 = some a → c.Kept (p.play script).2 →
      post a (before ++ (p.play script).2)

variable {pre : Trace ω ρ → Prop} {post : α → Trace ω ρ → Prop}

theorem Obeys.done {a : α} (h : ∀ before, pre before → post a before) :
    c.Obeys pre (.done a) post := by
  intro before hpre script
  refine ⟨trivial, ?_⟩
  rintro _ ⟨⟩ -
  simpa [play] using h before hpre

theorem Obeys.perform {op : ω} {post : ρ → Trace ω ρ → Prop}
    (hallows : ∀ before, pre before → c.allows before op)
    (hpost : ∀ before await reply, pre before → await.reply = some reply → c.relies op await →
      post reply (before ++ [(op, await)])) : c.Obeys pre (perform op) post := by
  intro before hpre script
  cases script with
  | nil => exact ⟨trivial, fun _ h => by cases h⟩
  | cons await script =>
    rcases hreply : await.reply with _ | reply
    · simp only [Program.perform, play, hreply]
      exact ⟨⟨hallows before hpre, fun _ => trivial⟩, fun _ h => by cases h⟩
    · simp only [Program.perform, play, hreply]
      refine ⟨⟨hallows before hpre, fun _ => trivial⟩, ?_⟩
      rintro _ ⟨⟩ hkept
      exact hpost before await reply hpre hreply (hkept _ List.mem_cons_self)

theorem Obeys.weaken {pre' : Trace ω ρ → Prop} {post' : α → Trace ω ρ → Prop}
    {p : Program ω ρ α} (h : c.Obeys pre' p post') (hpre : ∀ before, pre before → pre' before)
    (hpost : ∀ a before, post' a before → post a before) : c.Obeys pre p post := by
  intro before hbefore script
  obtain ⟨hfollows, hresult⟩ := h before (hpre before hbefore) script
  exact ⟨hfollows, fun a ha hkept => hpost a _ (hresult a ha hkept)⟩

/-- What is not gone on with obeys everything. -/
theorem Obeys.of_false {p : Program ω ρ α} : c.Obeys (fun _ => False) p post :=
  fun _ h => h.elim

/-- A fact that is known before. -/
theorem Obeys.assuming {fact : Prop} {p : Program ω ρ α} (h : fact → c.Obeys pre p post) :
    c.Obeys (fun before => pre before ∧ fact) p post :=
  fun before hbefore => h hbefore.2 before hbefore.1

/-- What holds from every trace that is given. -/
theorem Obeys.of_start {p : Program ω ρ α} (h : ∀ start, pre start → c.Obeys (· = start) p post) :
    c.Obeys pre p post :=
  fun before hbefore => h before hbefore before rfl

/-- **The rule for sequencing.** -/
theorem Obeys.bind {middle : α → Trace ω ρ → Prop} {post : β → Trace ω ρ → Prop}
    {p : Program ω ρ α} {f : α → Program ω ρ β} (hp : c.Obeys pre p middle)
    (hf : ∀ a, c.Obeys (middle a) (f a) post) : c.Obeys pre (p >>= f) post := by
  intro before hpre script
  obtain ⟨hfollows, hmiddle⟩ := hp before hpre script
  rw [play_bind]
  rcases hresult : (p.play script).1 with _ | a
  · exact ⟨hfollows, fun _ h => by cases h⟩
  · have hnext (hkept : c.Kept (p.play script).2) :=
      hf a _ (hmiddle a hresult hkept) (script.drop (p.play script).2.length)
    refine ⟨hfollows.append fun hkept => (hnext hkept).1, fun b hb hkept => ?_⟩
    obtain ⟨hfirst, hrest⟩ := kept_append.mp hkept
    have hpost := (hnext hfirst).2 b hb hrest
    rwa [List.append_assoc] at hpost

theorem Obeys.map {post : β → Trace ω ρ → Prop} {p : Program ω ρ α} {f : α → β}
    (h : c.Obeys pre p fun a => post (f a)) : c.Obeys pre (f <$> p) post :=
  Obeys.bind h fun _ => Obeys.done fun _ h => h

/-! ## 2. Programs that fail -/

/-- The postcondition of a part: how its value is gone on from, and what holds if it fails. -/
def goingOn (middle : α → Trace ω ρ → Prop) (post : Except ε β → Trace ω ρ → Prop) :
    Except ε α → Trace ω ρ → Prop
  | .ok a => middle a
  | .error e => post (.error e)

theorem goingOn_true (result : Except ε α) (trace : Trace ω ρ) :
    goingOn (fun _ _ => True) (fun (_ : Except ε β) _ => True) result trace := by
  cases result <;> trivial

/-- **The rule for sequencing what may fail.** -/
theorem Obeys.fallible_bind {post : Except ε β → Trace ω ρ → Prop}
    {p : ExceptT ε (Program ω ρ) α} {f : α → ExceptT ε (Program ω ρ) β}
    (middle : α → Trace ω ρ → Prop) (hp : c.Obeys pre p.run (goingOn middle post))
    (hf : ∀ a, c.Obeys (middle a) (f a).run post) : c.Obeys pre (p >>= f).run post := by
  rw [Program.fallible_bind]
  refine Obeys.bind hp fun result => ?_
  cases result with
  | ok a => exact hf a
  | error e => exact Obeys.done fun _ h => h

theorem Obeys.throw {middle : α → Trace ω ρ → Prop} {post : Except ε β → Trace ω ρ → Prop} {e : ε}
    (h : ∀ before, pre before → post (.error e) before) :
    c.Obeys pre (MonadExcept.throw e : ExceptT ε (Program ω ρ) α).run (goingOn middle post) :=
  Obeys.done h

theorem Obeys.discard {middle : Trace ω ρ → Prop} {post : Except ε β → Trace ω ρ → Prop}
    {p : ExceptT ε (Program ω ρ) α} (hp : c.Obeys pre p.run (goingOn (fun _ => middle) post)) :
    c.Obeys pre (Functor.discard p).run (goingOn (fun _ => middle) post) :=
  Obeys.fallible_bind _ hp fun _ => Obeys.done fun _ h => h

/-! ## 3. Straight-line code -/

section Straight

variable {γ : Type}

/-- An operation that may fail, and `?`. -/
def request (op : ω) : ExceptT ε (Program ω (Except ε γ)) γ := ExceptT.mk (Program.perform op)

/-- Operations one after the other, up to the first that fails. -/
def requestAll : List ω → ExceptT ε (Program ω (Except ε γ)) Unit
  | [] => pure ()
  | op :: ops => do
    discard (request op)
    requestAll ops

theorem bind_pure_unit (p : ExceptT ε (Program ω ρ) Unit) : (p >>= fun _ => pure ()) = p := by
  refine ExceptT.ext ?_
  rw [Program.fallible_bind]
  induction p.run with
  | done result => cases result <;> rfl
  | call op next ih => exact congrArg (Program.call op) (funext ih)

/-- These operations, all of them answered, and as relied on. -/
structure Ran (c : Contract ω (Except ε γ)) (ops : List ω) (trace : Trace ω (Except ε γ)) :
    Prop where
  ops : trace.map Prod.fst = ops
  answered : ∀ e ∈ trace, ∃ value, e.2.reply = some (.ok value)
  kept : c.Kept trace

variable {c : Contract ω (Except ε γ)} {ops : List ω} {op : ω}
  {trace : Trace ω (Except ε γ)}

theorem Ran.snoc {await : Await (Except ε γ)} {value : γ} (h : c.Ran ops trace)
    (hreply : await.reply = some (.ok value)) (hrely : c.relies op await) :
    c.Ran (ops ++ [op]) (trace ++ [(op, await)]) where
  ops := by rw [List.map_append, h.ops]; rfl
  answered := List.forall_mem_append.mpr
    ⟨h.answered, List.forall_mem_singleton.mpr ⟨value, hreply⟩⟩
  kept := kept_append.mpr ⟨h.kept, List.forall_mem_singleton.mpr hrely⟩

theorem Ran.length (h : c.Ran ops trace) : trace.length = ops.length := by
  rw [← h.ops, List.length_map]

theorem ran_nil : c.Ran [] trace ↔ trace = [] := by
  refine ⟨fun h => List.map_eq_nil_iff.mp h.ops, ?_⟩
  rintro rfl
  exact ⟨rfl, fun _ he => absurd he List.not_mem_nil, fun _ he => absurd he List.not_mem_nil⟩

theorem ran_cons {e : ω × Await (Except ε γ)} : c.Ran (op :: ops) (e :: trace) ↔
    e.1 = op ∧ (∃ value, e.2.reply = some (.ok value)) ∧ c.relies e.1 e.2 ∧ c.Ran ops trace := by
  constructor
  · intro h
    obtain ⟨hop, hops⟩ := List.cons.inj h.ops
    obtain ⟨hfirst, hanswered⟩ := List.forall_mem_cons.mp h.answered
    obtain ⟨hrely, hkept⟩ := List.forall_mem_cons.mp h.kept
    exact ⟨hop, hfirst, hrely, hops, hanswered, hkept⟩
  · rintro ⟨rfl, hfirst, hrely, h⟩
    exact ⟨by rw [List.map_cons, h.ops], List.forall_mem_cons.mpr ⟨hfirst, h.answered⟩,
      List.forall_mem_cons.mpr ⟨hrely, h.kept⟩⟩

/-- After a trace that is given, these operations. -/
def RanFrom (c : Contract ω (Except ε γ)) (start : Trace ω (Except ε γ)) (ops : List ω)
    (trace : Trace ω (Except ε γ)) : Prop :=
  ∃ more, trace = start ++ more ∧ c.Ran ops more

/-- And then one that fails. -/
def FailedFrom (c : Contract ω (Except ε γ)) (start : Trace ω (Except ε γ)) (ops : List ω)
    (op : ω) (e : ε) (trace : Trace ω (Except ε γ)) : Prop :=
  ∃ before await, trace = before ++ [(op, await)] ∧ c.RanFrom start ops before ∧
    await.reply = some (.error e)

variable {start : Trace ω (Except ε γ)}

theorem ranFrom_nil : c.RanFrom start [] trace ↔ trace = start := by
  constructor
  · rintro ⟨more, rfl, hmore⟩
    rw [ran_nil.mp hmore, List.append_nil]
  · rintro rfl
    exact ⟨[], (List.append_nil _).symm, ran_nil.mpr rfl⟩

theorem RanFrom.snoc {await : Await (Except ε γ)} {value : γ} (h : c.RanFrom start ops trace)
    (hreply : await.reply = some (.ok value)) (hrely : c.relies op await) :
    c.RanFrom start (ops ++ [op]) (trace ++ [(op, await)]) := by
  obtain ⟨more, rfl, hmore⟩ := h
  exact ⟨more ++ [(op, await)], List.append_assoc _ _ _, hmore.snoc hreply hrely⟩

/-- **The rule for operations one after the other.** -/
theorem obeys_requestAll {all : List ω} {post : Except ε β → Trace ω (Except ε γ) → Prop}
    (hallows : ∀ done op rest, all = done ++ op :: rest →
      ∀ before, c.RanFrom start (ops ++ done) before → c.allows before op)
    (herror : ∀ done op rest, all = done ++ op :: rest →
      ∀ e trace, c.FailedFrom start (ops ++ done) op e trace → post (.error e) trace) :
    c.Obeys (c.RanFrom start ops) (requestAll all).run
      (goingOn (fun _ => c.RanFrom start (ops ++ all)) post) := by
  induction all generalizing ops with
  | nil => exact Obeys.done fun before h => by simpa [goingOn] using h
  | cons op all ih =>
    have hfirst : c.Obeys (c.RanFrom start ops) (discard (request op)).run
        (goingOn (fun _ : Unit => c.RanFrom start (ops ++ [op])) post) := by
      refine Obeys.discard (Obeys.perform
        (fun before h => hallows [] op all rfl before (by simpa using h))
        fun before await reply hran hreply hrely => ?_)
      cases reply with
      | ok value => exact hran.snoc hreply hrely
      | error e => exact herror [] op all rfl e _ ⟨before, await, rfl, by simpa using hran, hreply⟩
    refine Obeys.fallible_bind _ hfirst fun _ => ?_
    have hrest : c.Obeys (c.RanFrom start (ops ++ [op])) (requestAll all).run
        (goingOn (fun _ => c.RanFrom start (ops ++ [op] ++ all)) post) :=
      ih (fun done op' rest hall before h => hallows (op :: done) op' rest (by rw [hall]; rfl)
          before (by simpa using h))
        fun done op' rest hall e trace h => herror (op :: done) op' rest (by rw [hall]; rfl) e
          trace (by simpa using h)
    simpa using hrest

end Straight

/-! ## 4. Code that goes on whatever it is answered -/

/-- **Whatever these operations are answered**, all of them are performed, and the program
returns. -/
def Completes (pre : Trace ω ρ → Prop) (p : Program ω ρ α) (ops : List ω)
    (post : α → Trace ω ρ → Prop) : Prop :=
  ∀ before, pre before → ∀ awaits rest : List (Await ρ), awaits.length = ops.length →
    (∀ await ∈ awaits, await.reply.isSome) →
      ∃ a, p.play (awaits ++ rest) = (some a, ops.zip awaits) ∧ post a (before ++ ops.zip awaits)

section Completion

variable {p : Program ω ρ α} {ops ops' : List ω}

theorem Completes.done {a : α} (h : ∀ before, pre before → post a before) :
    Completes pre (.done a) [] post := by
  intro before hpre awaits rest hlength hanswered
  obtain rfl := List.eq_nil_of_length_eq_zero hlength
  exact ⟨a, rfl, by simpa using h before hpre⟩

theorem Completes.perform {op : ω} {post : ρ → Trace ω ρ → Prop}
    (h : ∀ before await reply, pre before → await.reply = some reply →
      post reply (before ++ [(op, await)])) : Completes pre (perform op) [op] post := by
  intro before hpre awaits rest hlength hanswered
  obtain ⟨await, rfl⟩ := List.length_eq_one_iff.mp hlength
  obtain ⟨reply, hreply⟩ := Option.isSome_iff_exists.mp (hanswered await List.mem_cons_self)
  refine ⟨reply, ?_, h before await reply hpre hreply⟩
  simp [Program.perform, play, hreply]

/-- **The rule for sequencing.** -/
theorem Completes.bind {middle : α → Trace ω ρ → Prop} {post : β → Trace ω ρ → Prop}
    {f : α → Program ω ρ β} (hp : Completes pre p ops middle)
    (hf : ∀ a, Completes (middle a) (f a) ops' post) :
    Completes pre (p >>= f) (ops ++ ops') post := by
  intro before hpre awaits rest hlength hanswered
  rw [List.length_append] at hlength
  have htake : (awaits.take ops.length).length = ops.length := by
    rw [List.length_take]
    omega
  have hdrop : (awaits.drop ops.length).length = ops'.length := by
    rw [List.length_drop]
    omega
  obtain ⟨a, hplay, hmiddle⟩ := hp before hpre (awaits.take ops.length)
    (awaits.drop ops.length ++ rest) htake fun await h => hanswered await (List.mem_of_mem_take h)
  obtain ⟨b, hplay', hpost⟩ := hf a _ hmiddle (awaits.drop ops.length) rest hdrop
    fun await h => hanswered await (List.mem_of_mem_drop h)
  rw [← List.append_assoc, List.take_append_drop] at hplay
  have hzip : (ops ++ ops').zip awaits =
      ops.zip (awaits.take ops.length) ++ ops'.zip (awaits.drop ops.length) := by
    conv_lhs => rw [← List.take_append_drop ops.length awaits]
    exact List.zip_append htake.symm
  have hrest : (awaits ++ rest).drop (ops.zip (awaits.take ops.length)).length =
      awaits.drop ops.length ++ rest := by
    rw [List.length_zip, htake, Nat.min_self, List.drop_append_of_le_length (by omega)]
  refine ⟨b, ?_, ?_⟩
  · rw [play_bind, hplay]
    simp only [hrest, hplay', hzip]
  · rwa [hzip, ← List.append_assoc]

theorem Completes.map {post : β → Trace ω ρ → Prop} {f : α → β}
    (h : Completes pre p ops fun a => post (f a)) : Completes pre (f <$> p) ops post := by
  rw [← List.append_nil ops]
  exact Completes.bind h fun _ => Completes.done fun _ h => h

/-- **The rule for sequencing what may fail**, and does not here. -/
theorem Completes.fallible_bind {post : Except ε β → Trace ω ρ → Prop}
    {p : ExceptT ε (Program ω ρ) α} {f : α → ExceptT ε (Program ω ρ) β}
    {middle : α → Trace ω ρ → Prop}
    (hp : Completes pre p.run ops (goingOn middle fun (_ : Except ε α) _ => False))
    (hf : ∀ a, Completes (middle a) (f a).run ops' post) :
    Completes pre (p >>= f).run (ops ++ ops') post := by
  rw [Program.fallible_bind]
  refine Completes.bind hp fun result => ?_
  cases result with
  | ok a => exact hf a
  | error e => exact fun _ h => h.elim

end Completion

/-- **What is read off a run**: an operation in it is allowed after what came before it. -/
theorem Obeys.allows_of_split {p : Program ω ρ α} {script : List (Await ρ)} {op : ω}
    {await : Await ρ} {after : Trace ω ρ} (h : c.Obeys (· = []) p post)
    (hsplit : (p.play script).2 = trace ++ (op, await) :: after) (hkept : c.Kept trace) :
    c.allows trace op := by
  have hfollows := (h [] rfl script).1
  rw [hsplit] at hfollows
  simpa using hfollows.at_split hkept

/-- And what the program returns is as its postcondition says. -/
theorem Obeys.post_of_result {p : Program ω ρ α} {script : List (Await ρ)} {a : α}
    (h : c.Obeys (· = []) p post) (hresult : (p.play script).1 = some a)
    (hkept : c.Kept (p.play script).2) : post a (p.play script).2 :=
  (h [] rfl script).2 a hresult hkept

end Contract

end Program
