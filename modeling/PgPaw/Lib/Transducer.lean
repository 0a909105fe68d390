/-
# Transducers with a final output

A machine that reads its input letter by letter and emits tokens as it goes.  What it has read
of a token that is still open sits in its state, and `finish` says what is emitted of it at the
end of the input: none, when the input may not end there.

The output of `as ++ bs` is that of `as` and then that of `bs` when `bs` closes the open token
just as the end of the input would (`Breaks`, `output_append_of_breaks`).  When the state
swallows `bs`, it is that of `as` alone (`output_append_of_swallows`).
-/
import Mathlib.Data.List.Basic

/-- A transducer: its start, its steps with the tokens they emit, and its final output. -/
structure Transducer (σ α β : Type*) where
  start : σ
  step : σ → α → σ × List β
  finish : σ → Option (List β)

namespace Transducer

variable {σ α β : Type*} (T : Transducer σ α β)

/-- The state after an input, and the tokens emitted on the way. -/
def run : σ → List α → σ × List β
  | s, [] => (s, [])
  | s, a :: as => match T.step s a with
    | (next, out) => match run next as with
      | (last, rest) => (last, out ++ rest)

@[simp] theorem run_nil (s : σ) : T.run s [] = (s, []) := rfl

theorem run_cons (s : σ) (a : α) (as : List α) : T.run s (a :: as) =
    ((T.run (T.step s a).1 as).1, (T.step s a).2 ++ (T.run (T.step s a).1 as).2) := rfl

theorem run_append (s : σ) (as bs : List α) : T.run s (as ++ bs) =
    ((T.run (T.run s as).1 bs).1, (T.run s as).2 ++ (T.run (T.run s as).1 bs).2) := by
  induction as generalizing s with
  | nil => rfl
  | cons a as ih =>
    rw [List.cons_append, run_cons, ih, run_cons, List.append_assoc]

/-- The state at the end of an input. -/
def state (as : List α) : σ := (T.run T.start as).1

theorem state_append (as bs : List α) : T.state (as ++ bs) = (T.run (T.state as) bs).1 := by
  rw [state, run_append]
  rfl

theorem state_snoc (as : List α) (a : α) : T.state (as ++ [a]) = (T.step (T.state as) a).1 :=
  T.state_append as [a]

/-- The tokens of an input that starts in a state. -/
def outputFrom (s : σ) (as : List α) : Option (List β) :=
  (T.finish (T.run s as).1).map ((T.run s as).2 ++ ·)

/-- The tokens of an input. -/
def output (as : List α) : Option (List β) := T.outputFrom T.start as

variable {T}

theorem outputFrom_append (s : σ) (as bs : List α) : T.outputFrom s (as ++ bs) =
    (T.outputFrom (T.run s as).1 bs).map ((T.run s as).2 ++ ·) := by
  unfold outputFrom
  rw [run_append, Option.map_map]
  congr 1
  funext ts
  exact List.append_assoc _ _ _

/-- The output, when the end of the input closes `f`. -/
theorem output_eq_some {as : List α} {ts : List β} : T.output as = some ts ↔
    ∃ f, T.finish (T.state as) = some f ∧ (T.run T.start as).2 ++ f = ts :=
  Option.map_eq_some_iff

theorem output_eq_none {as : List α} : T.output as = none ↔ T.finish (T.state as) = none :=
  Option.map_eq_none_iff

/-- One more letter: what is open goes to its step and to what is open after it. -/
theorem output_snoc {as : List α} {a : α} {f : List β}
    (h : T.finish (T.step (T.state as) a).1 = some f) :
    T.output (as ++ [a]) = some ((T.run T.start as).2 ++ ((T.step (T.state as) a).2 ++ f)) := by
  refine output_eq_some.mpr ⟨f, by rw [state_snoc, h], ?_⟩
  rw [run_append, List.append_assoc]
  show _ ++ (((T.step (T.state as) a).2 ++ []) ++ f) = _
  rw [List.append_nil]

/-- An input breaks off what is open in a state: it emits what the end of the input would, and
goes on as from the start. -/
def Breaks (T : Transducer σ α β) (s : σ) (as : List α) : Prop :=
  ∃ f, T.finish s = some f ∧ T.run s as = ((T.run T.start as).1, f ++ (T.run T.start as).2)

/-- Where it goes on from there makes no difference. -/
theorem Breaks.append {s : σ} {as : List α} (h : T.Breaks s as) (bs : List α) :
    T.Breaks s (as ++ bs) := by
  obtain ⟨f, hf, hrun⟩ := h
  refine ⟨f, hf, ?_⟩
  rw [run_append, hrun, run_append, List.append_assoc]

/-- What is open at the end of an input is broken off by the next one. -/
theorem run_append_of_breaks {as bs : List α} {s : σ} {ts f : List β}
    (has : T.run T.start as = (s, ts)) (hf : T.finish s = some f) (h : T.Breaks s bs) :
    T.run T.start (as ++ bs) = ((T.run T.start bs).1, ts ++ f ++ (T.run T.start bs).2) := by
  obtain ⟨f', hf', hrun⟩ := h
  rw [hf] at hf'
  cases hf'
  rw [run_append, has, hrun, List.append_assoc]

/-- An input is swallowed by a state: nothing is emitted, and what is open stays open. -/
def Swallows (T : Transducer σ α β) (s : σ) (as : List α) : Prop :=
  (T.run s as).2 = [] ∧ T.finish (T.run s as).1 = T.finish s

/-- **The tokens of two parts are those of the one and of the other**, when the second breaks
off what the first leaves open. -/
theorem output_append_of_breaks {as bs : List α} {ts : List β} (has : T.output as = some ts)
    (h : T.Breaks (T.state as) bs) :
    T.output (as ++ bs) = (T.output bs).map (ts ++ ·) := by
  obtain ⟨f, hf, hrun⟩ := h
  unfold state at hf hrun
  obtain ⟨f', hf', rfl⟩ := output_eq_some.mp has
  rw [state, hf] at hf'
  cases hf'
  unfold output
  rw [outputFrom_append]
  unfold outputFrom
  rw [hrun, Option.map_map, Option.map_map]
  congr 1
  funext ts
  simp only [Function.comp_apply, List.append_assoc]

/-- **And those of the first part alone** when the second is swallowed. -/
theorem output_append_of_swallows {as bs : List α} (h : T.Swallows (T.state as) bs) :
    T.output (as ++ bs) = T.output as := by
  unfold output
  rw [outputFrom_append]
  unfold outputFrom
  change T.Swallows (T.run T.start as).1 bs at h
  rw [h.1, h.2, Option.map_map]
  congr 1

/-- A part that ends where the machine starts is read on its own. -/
theorem output_append_of_restart {as : List α} (h : T.state as = T.start)
    (bs : List α) : T.output (as ++ bs) = (T.output bs).map ((T.run T.start as).2 ++ ·) := by
  unfold output
  change (T.run T.start as).1 = T.start at h
  rw [outputFrom_append, h]

end Transducer
