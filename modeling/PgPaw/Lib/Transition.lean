/-
# Runs of a system that takes actions

A system has initial states and a partial step function: an action is taken in a state, or is
not enabled there.  Everything a step leaves open (who moves, what a foreign component
answers, in which order a hash table is walked) is data of the action, so the step itself
computes and a concrete run can be evaluated.

`Reachable S ok` collects the states of the runs in which EVERY step meets the condition
`ok`, which reads the state before the step and the action.  `free` is the condition that
allows everything.  The rules here are the two inductions the models use: a property of
reachable states (`Reachable.induction`), and a property carried along a segment of a run
(`Leads.invariant`).
-/
import Mathlib.Logic.Relation

namespace Transition

/-- A system: where its runs may start, and what an action does. -/
structure System (σ α : Type*) where
  init : σ → Prop
  step : σ → α → Option σ

variable {σ α : Type*}

/-- The condition met by every step. -/
def free : σ → α → Prop := fun _ _ => True

namespace System

variable (S : System σ α)

/-- One step whose action meets `ok`. -/
def Next (ok : σ → α → Prop) (s s' : σ) : Prop := ∃ a, ok s a ∧ S.step s a = some s'

/-- A segment of a run, every step of which meets `ok`. -/
def Leads (ok : σ → α → Prop) : σ → σ → Prop := Relation.ReflTransGen (S.Next ok)

/-- The states of the runs whose every step meets `ok`. -/
def Reachable (ok : σ → α → Prop) (s : σ) : Prop := ∃ s₀, S.init s₀ ∧ S.Leads ok s₀ s

/-- Taking a list of actions, one after the other. -/
def run : σ → List α → Option σ
  | s, [] => some s
  | s, a :: as => (S.step s a).bind fun s' => run s' as

end System

variable {S : System σ α} {ok : σ → α → Prop}

/-- An initial state is reachable. -/
theorem Reachable.start {s : σ} (h : S.init s) : S.Reachable ok s :=
  ⟨s, h, Relation.ReflTransGen.refl⟩

/-- A step from a reachable state reaches a reachable state. -/
theorem Reachable.next {s s' : σ} {a : α} (h : S.Reachable ok s) (hok : ok s a)
    (hs : S.step s a = some s') : S.Reachable ok s' := by
  obtain ⟨s₀, h0, hl⟩ := h
  exact ⟨s₀, h0, hl.tail ⟨a, hok, hs⟩⟩

/-- **Induction over runs.**  A property that holds at the start and is kept by every step
that meets the condition holds in every reachable state.  The step may use that its source
is itself reachable, so invariants can be proved one after the other. -/
theorem Reachable.induction {P : σ → Prop} (hinit : ∀ s, S.init s → P s)
    (hstep : ∀ s a s', S.Reachable ok s → P s → ok s a → S.step s a = some s' → P s')
    {s : σ} (h : S.Reachable ok s) : P s := by
  obtain ⟨s₀, h0, hl⟩ := h
  induction hl with
  | refl => exact hinit s₀ h0
  | tail hl hn ih =>
    obtain ⟨a, hok, hs⟩ := hn
    exact hstep _ a _ ⟨s₀, h0, hl⟩ ih hok hs

/-- **Induction along a segment.**  What holds at its first state and is kept by each of its
steps holds at its last. -/
theorem Leads.invariant {P : σ → Prop} {s s' : σ} (hl : S.Leads ok s s') (h0 : P s)
    (hstep : ∀ t a t', P t → ok t a → S.step t a = some t' → P t') : P s' := by
  induction hl with
  | refl => exact h0
  | tail _ hn ih =>
    obtain ⟨a, hok, hs⟩ := hn
    exact hstep _ a _ ih hok hs

/-- A stronger condition leaves fewer runs. -/
theorem Reachable.mono {ok' : σ → α → Prop} (h : ∀ s a, ok s a → ok' s a) {s : σ}
    (hr : S.Reachable ok s) : S.Reachable ok' s :=
  Reachable.induction (P := S.Reachable ok') (fun _ h0 => Reachable.start h0)
    (fun s a _ _ ih hok hs => Reachable.next ih (h s a hok) hs) hr

/-- A segment of any run is a segment of a free run. -/
theorem Leads.mono {ok' : σ → α → Prop} (h : ∀ s a, ok s a → ok' s a) {s s' : σ}
    (hl : S.Leads ok s s') : S.Leads ok' s s' :=
  Relation.ReflTransGen.mono (fun _ _ ⟨a, hok, hs⟩ => ⟨a, h _ a hok, hs⟩) _ _ hl

/-- Every action of the list meets the condition in the state it is taken in. -/
def System.Along (S : System σ α) (ok : σ → α → Prop) : σ → List α → Prop
  | _, [] => True
  | s, a :: as => ok s a ∧ match S.step s a with
    | some s' => System.Along S ok s' as
    | none => True

instance decidableAlong [∀ s a, Decidable (ok s a)] : ∀ (s : σ) (as : List α),
    Decidable (S.Along ok s as)
  | _, [] => isTrue trivial
  | s, a :: as => by
    have : Decidable (match S.step s a with
        | some s' => S.Along ok s' as
        | none => True) := by
      split
      · exact decidableAlong _ as
      · exact isTrue trivial
    exact inferInstanceAs (Decidable (_ ∧ _))

/-- Actions that meet the condition wherever they are taken. -/
theorem along_of_forall : ∀ {as : List α} {s : σ}, (∀ a ∈ as, ∀ t, ok t a) → S.Along ok s as
  | [], _, _ => trivial
  | a :: as, s, hok => by
    refine ⟨hok a (by simp) s, ?_⟩
    split
    · exact along_of_forall fun b hb => hok b (List.mem_cons_of_mem _ hb)
    · trivial

/-- Two conditions along a list of actions. -/
theorem System.Along.and {ok' : σ → α → Prop} : ∀ {as : List α} {s : σ}, S.Along ok s as →
    S.Along ok' s as → S.Along (fun t a => ok t a ∧ ok' t a) s as
  | [], _, _, _ => trivial
  | a :: as, s, h, h' => by
    refine ⟨⟨h.1, h'.1⟩, ?_⟩
    have hrest := h.2
    have hrest' := h'.2
    cases hs : S.step s a with
    | none => trivial
    | some t =>
      rw [hs] at hrest hrest'
      exact hrest.and hrest'

/-- **Along a list of actions**, what each step guarantees while an invariant holds. -/
theorem System.Along.of_invariant {ok' : σ → α → Prop} {P : σ → Prop} : ∀ {as : List α} {s : σ},
    (∀ t, ∀ a ∈ as, P t → ok t a → ok' t a ∧ ∀ t', S.step t a = some t' → P t') →
      P s → S.Along ok s as → S.Along ok' s as
  | [], _, _, _, _ => trivial
  | a :: as, s, hstep, hs, hok => by
    obtain ⟨hhead, hnext⟩ := hstep s a List.mem_cons_self hs hok.1
    refine ⟨hhead, ?_⟩
    have hrest := hok.2
    cases h : S.step s a with
    | none => trivial
    | some t =>
      rw [h] at hrest
      exact of_invariant (fun t b hb => hstep t b (List.mem_cons_of_mem _ hb)) (hnext t h) hrest

/-- Two conditions that agree on every step agree along every run. -/
theorem System.Along.congr {ok' : σ → α → Prop}
    (h : ∀ s a s', S.step s a = some s' → (ok s a ↔ ok' s a)) : ∀ {as : List α} {s t : σ},
      S.run s as = some t → (S.Along ok s as ↔ S.Along ok' s as)
  | [], _, _, _ => Iff.rfl
  | a :: as, s, t, hrun => by
    obtain ⟨s', hs, hrest⟩ := Option.bind_eq_some_iff.mp hrun
    have htail := congr h hrest
    simp only [System.Along, hs, h s a s' hs, htail]

theorem run_append : ∀ (as bs : List α) (s : σ),
    S.run s (as ++ bs) = (S.run s as).bind fun t => S.run t bs
  | [], _, _ => rfl
  | a :: as, bs, s => by
    simp only [List.cons_append, System.run, Option.bind_assoc, run_append as bs]

/-- Evaluating a list of actions gives a segment of a run. -/
theorem leads_of_run : ∀ {as : List α} {s s' : σ}, S.Along ok s as → S.run s as = some s' →
    S.Leads ok s s'
  | [], s, s', _, h => by
    simp only [System.run, Option.some.injEq] at h
    subst h
    exact Relation.ReflTransGen.refl
  | a :: as, s, s', hok, h => by
    simp only [System.run, Option.bind_eq_some_iff] at h
    obtain ⟨t, ht, hr⟩ := h
    have hrest := hok.2
    rw [ht] at hrest
    exact Relation.ReflTransGen.head ⟨a, hok.1, ht⟩ (leads_of_run hrest hr)

/-- A run that evaluates, from an initial state, ends in a reachable state. -/
theorem reachable_of_run {as : List α} {s s' : σ} (h0 : S.init s) (hok : S.Along ok s as)
    (h : S.run s as = some s') : S.Reachable ok s' :=
  ⟨s, h0, leads_of_run hok h⟩

end Transition
