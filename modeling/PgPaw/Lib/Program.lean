/-
# Programs that call out

A program of type `Program ω ρ α` returns an `α`, or performs an operation of `ω` and goes on
with the reply.  It says in which order a piece of code calls something else and what it does
with the answers, and nothing about what the operations do.  That is left to an interpretation:

* `run` gives each operation a reply and a new state.  `Agree` relates two runs that give one
  result; `Agree.bind` is its rule for sequencing.
* `play` takes the replies from a script, one per operation, and may be cut off at any of them:
  the operation was performed or not, and nobody hears of it.  `returns_bind` is the rule for
  what succeeds, `Avoids.bind` the one for what is never performed, and `Issues.bind` the one
  for code without a branch.
-/
import Mathlib.Data.List.Basic

/-- Code that performs operations `ω`, is replied `ρ`, and returns an `α`. -/
inductive Program (ω ρ α : Type)
  | done (a : α)
  | call (op : ω) (next : ρ → Program ω ρ α)

namespace Program

variable {ω ρ α β σ τ : Type}

/-- Going on with the result. -/
def bind : Program ω ρ α → (α → Program ω ρ β) → Program ω ρ β
  | done a, f => f a
  | call op next, f => call op fun r => (next r).bind f

instance : Monad (Program ω ρ) where
  pure := done
  bind := bind

/-- One operation, and its reply. -/
def perform (op : ω) : Program ω ρ ρ := call op done

@[simp] theorem pure_eq (a : α) : (pure a : Program ω ρ α) = done a := rfl

@[simp] theorem done_bind (a : α) (f : α → Program ω ρ β) : (done a >>= f) = f a := rfl

@[simp] theorem call_bind (op : ω) (next : ρ → Program ω ρ α) (f : α → Program ω ρ β) :
    (call op next >>= f) = call op fun r => next r >>= f := rfl

@[simp] theorem perform_bind (op : ω) (f : ρ → Program ω ρ β) :
    (perform op >>= f) = call op f := rfl

/-! ## 1. In an interpretation -/

/-- The result, and the state after it. -/
def run (h : ω → σ → ρ × σ) : Program ω ρ α → σ → α × σ
  | done a, s => (a, s)
  | call op next, s => (next (h op s).1).run h (h op s).2

@[simp] theorem run_done (h : ω → σ → ρ × σ) (a : α) (s : σ) :
    (done a : Program ω ρ α).run h s = (a, s) := rfl

@[simp] theorem run_call (h : ω → σ → ρ × σ) (op : ω) (next : ρ → Program ω ρ α) (s : σ) :
    (call op next).run h s = (next (h op s).1).run h (h op s).2 := rfl

/-- Sequencing. -/
theorem run_bind (h : ω → σ → ρ × σ) (p : Program ω ρ α) (f : α → Program ω ρ β) (s : σ) :
    (p >>= f).run h s = (f (p.run h s).1).run h (p.run h s).2 := by
  induction p generalizing s with
  | done a => rfl
  | call op next ih => exact ih _ _

/-- Two interpretations give one result, and relate the states after it, if they are related
before. -/
def Agree (h : ω → σ → ρ × σ) (h' : ω → τ → ρ × τ) (R : σ → τ → Prop) (p : Program ω ρ α)
    (R' : α → σ → τ → Prop) : Prop :=
  ∀ s t, R s t → (p.run h s).1 = (p.run h' t).1 ∧ R' (p.run h s).1 (p.run h s).2 (p.run h' t).2

section Agreement

variable {h : ω → σ → ρ × σ} {h' : ω → τ → ρ × τ} {R : σ → τ → Prop} {p : Program ω ρ α}
  {f : α → Program ω ρ β}

theorem Agree.done {a : α} {R' : α → σ → τ → Prop} (hR : ∀ s t, R s t → R' a s t) :
    Agree h h' R (.done a : Program ω ρ α) R' :=
  fun s t hst => ⟨rfl, hR s t hst⟩

theorem Agree.mono {R' R'' : α → σ → τ → Prop} (hp : Agree h h' R p R')
    (hR : ∀ a s t, R' a s t → R'' a s t) : Agree h h' R p R'' :=
  fun s t hst => ⟨(hp s t hst).1, hR _ _ _ (hp s t hst).2⟩

/-- **The rule for sequencing two runs.** -/
theorem Agree.bind {M : α → σ → τ → Prop} {R' : β → σ → τ → Prop} (hp : Agree h h' R p M)
    (hf : ∀ a, Agree h h' (M a) (f a) R') : Agree h h' R (p >>= f) R' := by
  intro s t hst
  obtain ⟨hresult, hnext⟩ := hp s t hst
  rw [run_bind, run_bind, hresult]
  rw [hresult] at hnext
  exact hf _ _ _ hnext

end Agreement

/-! ## 2. From a script, with interruptions -/

/-- What happens at an operation: whether it is performed, and the reply, which is absent when
the program is dropped while it waits. -/
structure Await (ρ : Type) where
  performed : Bool
  reply : Option ρ

/-- The result, absent when the program was dropped, and the operations it began, with what
happened at each.  A script that is too short drops the program before the next one. -/
def play : Program ω ρ α → List (Await ρ) → Option α × List (ω × Await ρ)
  | done a, _ => (some a, [])
  | call _ _, [] => (none, [])
  | call op next, a :: script => match a.reply with
    | none => (none, [(op, a)])
    | some r => (((next r).play script).1, (op, a) :: ((next r).play script).2)

/-- Sequencing, on a script: what comes after reads what is left of it. -/
theorem play_bind (p : Program ω ρ α) (f : α → Program ω ρ β) (script : List (Await ρ)) :
    (p >>= f).play script = match (p.play script).1 with
      | none => (none, (p.play script).2)
      | some a => (((f a).play (script.drop (p.play script).2.length)).1,
          (p.play script).2 ++ ((f a).play (script.drop (p.play script).2.length)).2) := by
  induction p generalizing script with
  | done a => simp [play]
  | call op next ih =>
    rw [call_bind]
    cases script with
    | nil => rfl
    | cons a script =>
      cases hr : a.reply with
      | none => simp only [play, hr]
      | some r =>
        simp only [play, hr, ih, List.length_cons, List.drop_succ_cons]
        cases ((next r).play script).1 <;> simp

/-! ## 3. Programs that fail -/

section Fallible

variable {ε : Type} {p : ExceptT ε (Program ω ρ) α} {f : α → ExceptT ε (Program ω ρ) β}

theorem fallible_bind : (p >>= f).run = p.run >>= fun r => match r with
    | .ok a => (f a).run
    | .error e => pure (.error e) := by
  refine congrArg (p.run >>= ·) (funext fun r => ?_)
  cases r <;> rfl

/-- Sequencing, in an interpretation. -/
theorem run_fallible_bind (h : ω → σ → ρ × σ) (s : σ) :
    (p >>= f).run.run h s = match (p.run.run h s).1 with
      | .ok a => (f a).run.run h (p.run.run h s).2
      | .error e => (.error e, (p.run.run h s).2) := by
  rw [fallible_bind, run_bind]
  cases (p.run.run h s).1 <;> rfl

/-- A sequence that succeeds has succeeded twice. -/
theorem run_fallible_bind_ok {h : ω → σ → ρ × σ} {s s' : σ} {b : β}
    (hrun : (p >>= f).run.run h s = (.ok b, s')) :
    ∃ a t, p.run.run h s = (.ok a, t) ∧ (f a).run.run h t = (.ok b, s') := by
  rw [run_fallible_bind] at hrun
  cases hp : p.run.run h s with
  | mk r t =>
    rw [hp] at hrun
    cases r with
    | ok a => exact ⟨a, t, rfl, hrun⟩
    | error e => cases hrun

theorem Agree.fallible_bind {h : ω → σ → ρ × σ} {h' : ω → τ → ρ × τ} {R : σ → τ → Prop}
    {M : α → σ → τ → Prop} {R' : Except ε β → σ → τ → Prop}
    (hp : Agree h h' R p.run fun r s t => match r with
      | .ok a => M a s t
      | .error e => R' (.error e) s t)
    (hf : ∀ a, Agree h h' (M a) (f a).run R') : Agree h h' R (p >>= f).run R' := by
  rw [Program.fallible_bind]
  refine Agree.bind hp ?_
  intro r
  cases r with
  | ok a => exact hf a
  | error e => exact Agree.done fun _ _ h => h

/-- Sequencing, on a script. -/
theorem play_fallible_bind (script : List (Await ρ)) :
    (p >>= f).run.play script = match (p.run.play script).1 with
      | none => (none, (p.run.play script).2)
      | some (.error e) => (some (.error e), (p.run.play script).2)
      | some (.ok a) => (((f a).run.play (script.drop (p.run.play script).2.length)).1,
          (p.run.play script).2 ++
            ((f a).run.play (script.drop (p.run.play script).2.length)).2) := by
  rw [fallible_bind, play_bind]
  rcases (p.run.play script).1 with _ | (e | a)
  · rfl
  · simp [play]
  · rfl

/-- The program succeeds on a script, and leaves the rest of it. -/
def Returns (p : ExceptT ε (Program ω ρ) α) (script : List (Await ρ)) (a : α)
    (rest : List (Await ρ)) : Prop :=
  (p.run.play script).1 = some (.ok a) ∧ script.drop (p.run.play script).2.length = rest

/-- **The rule for sequencing what succeeds.** -/
theorem returns_bind {script rest : List (Await ρ)} {b : β} : Returns (p >>= f) script b rest ↔
    ∃ a middle, Returns p script a middle ∧ Returns (f a) middle b rest := by
  unfold Returns
  rw [play_fallible_bind]
  rcases hp : (p.run.play script).1 with _ | (e | a)
  · simp
  · simp
  · simp only [List.length_append, ← List.drop_drop, Option.some.injEq, Except.ok.injEq]
    constructor
    · rintro ⟨hb, hrest⟩
      exact ⟨a, _, ⟨rfl, rfl⟩, hb, hrest⟩
    · rintro ⟨a', middle, ⟨rfl, rfl⟩, hb, hrest⟩
      exact ⟨hb, hrest⟩

/-- What succeeds is gone on from. -/
theorem play_of_returns {script rest : List (Await ρ)} {a : α} (h : Returns p script a rest) :
    (p >>= f).run.play script =
      (((f a).run.play rest).1, (p.run.play script).2 ++ ((f a).run.play rest).2) := by
  obtain ⟨hp, rfl⟩ := h
  rw [play_fallible_bind, hp]

/-- What a sequence performs, its first part performs, or its second part after the first has
succeeded. -/
theorem mem_play_bind {script : List (Await ρ)} {entry : ω × Await ρ}
    (h : entry ∈ ((p >>= f).run.play script).2) :
    entry ∈ (p.run.play script).2 ∨
      ∃ a rest, Returns p script a rest ∧ entry ∈ ((f a).run.play rest).2 := by
  rw [play_fallible_bind] at h
  rcases hp : (p.run.play script).1 with _ | (e | a) <;> rw [hp] at h
  · exact Or.inl h
  · exact Or.inl h
  · rcases List.mem_append.mp h with h | h
    · exact Or.inl h
    · exact Or.inr ⟨a, _, ⟨hp, rfl⟩, h⟩

theorem returns_pure {script rest : List (Await ρ)} {a b : α} :
    Returns (pure a : ExceptT ε (Program ω ρ) α) script b rest ↔ a = b ∧ script = rest := by
  unfold Returns
  change some (Except.ok a) = some (Except.ok b) ∧ script.drop 0 = rest ↔ _
  simp

/-- The program never performs some operation. -/
def Avoids (op : ω) (p : ExceptT ε (Program ω ρ) α) : Prop :=
  ∀ script, ∀ entry ∈ (p.run.play script).2, entry.1 ≠ op

theorem Avoids.bind {op : ω} (hp : Avoids op p) (hf : ∀ a, Avoids op (f a)) :
    Avoids op (p >>= f) := by
  intro script entry hentry
  rcases mem_play_bind hentry with h | ⟨a, rest, -, h⟩
  · exact hp script entry h
  · exact hf a rest entry h

/-- The program performs these operations one after the other, whatever it is replied, and stops
early only where it fails or is dropped. -/
def Issues (p : ExceptT ε (Program ω ρ) α) (ops : List ω) : Prop :=
  ∀ script, (p.run.play script).2.map Prod.fst <+: ops ∧
    ∀ a, (p.run.play script).1 = some (.ok a) → (p.run.play script).2.map Prod.fst = ops

theorem Issues.pure (a : α) : Issues (pure a : ExceptT ε (Program ω ρ) α) [] := by
  intro script
  exact ⟨List.prefix_refl _, fun _ _ => rfl⟩

/-- **The rule for sequencing straight-line code.** -/
theorem Issues.bind {ops ops' : List ω} (hp : Issues p ops) (hf : ∀ a, Issues (f a) ops') :
    Issues (p >>= f) (ops ++ ops') := by
  intro script
  obtain ⟨hbefore, hall⟩ := hp script
  rw [play_fallible_bind]
  rcases hresult : (p.run.play script).1 with _ | (e | a)
  · exact ⟨hbefore.trans (List.prefix_append _ _), fun _ h => by cases h⟩
  · exact ⟨hbefore.trans (List.prefix_append _ _), fun _ h => by cases h⟩
  · have hissued := hall a hresult
    obtain ⟨hnext, hnextAll⟩ := hf a (script.drop (p.run.play script).2.length)
    refine ⟨?_, fun b hb => ?_⟩
    · rw [List.map_append, hissued]
      exact (List.prefix_append_right_inj _).mpr hnext
    · rw [List.map_append, hissued, hnextAll b hb]

end Fallible

end Program
