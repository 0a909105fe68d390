/-
# Codes that are read back one word at a time

A code writes a value as a word, and words are written one after the other.  `Separates code rest`
says that two values whose words are followed by some `rest` are told apart: the words are equal
and what follows them is equal, or the two texts differ.

A code with a reader separates (`separates_of_read`), and so does one whose words end in a letter
they do not have before (`separates_terminated`).  The words of a list, one after the other, are
a code again: with a terminator that starts no word (`separates_list`), or to the end of the
text (`flatMap_injective`).
-/
import Mathlib.Data.List.Basic

namespace PrefixCode

variable {α β γ : Type*}

/-- Words that are followed by a `rest` are told apart. -/
def Separates (code : α → List β) (rest : List β → Prop) : Prop :=
  ∀ a b r r', rest r → rest r' → code a ++ r = code b ++ r' → a = b ∧ r = r'

/-- Whatever follows. -/
def anything : List β → Prop := fun _ => True

/-- A text that starts with no letter of a kind. -/
def Ends (p : β → Bool) (rest : List β) : Prop := ∀ c ∈ rest.head?, p c = false

theorem ends_nil (p : β → Bool) : Ends p [] := by
  intro c hc
  cases hc

theorem ends_cons {p : β → Bool} {c : β} (h : p c = false) (rest : List β) :
    Ends p (c :: rest) := by
  intro d hd
  obtain rfl : c = d := by simpa using hd
  exact h

/-- Words of letters of one kind are told apart where a letter of another kind follows. -/
theorem append_inj_of_ends {p : β → Bool} {w w' r r' : List β} (hw : ∀ c ∈ w, p c = true)
    (hw' : ∀ c ∈ w', p c = true) (hr : Ends p r) (hr' : Ends p r') (h : w ++ r = w' ++ r') :
    w = w' ∧ r = r' := by
  have htake : ∀ {v s : List β}, (∀ c ∈ v, p c = true) → Ends p s →
      (v ++ s).takeWhile p = v := by
    intro v s hv hs
    rw [List.takeWhile_append_of_pos hv]
    cases s with
    | nil => rw [List.takeWhile_nil, List.append_nil]
    | cons c s =>
      rw [List.takeWhile_cons_of_neg (by simp [hs c rfl]), List.append_nil]
  have hword : w = w' := by rw [← htake hw hr, h, htake hw' hr']
  subst hword
  exact ⟨rfl, List.append_cancel_left h⟩

section Rules

variable {code : α → List β} {rest : List β → Prop}

/-- A code that separates is injective, if a word may be the last. -/
theorem Separates.injective (h : Separates code rest) (hnil : rest []) :
    Function.Injective code := by
  intro a b hab
  exact (h a b [] [] hnil hnil (by rw [hab])).1

/-- A code that is read back. -/
theorem separates_of_read {read : List β → Option (α × List β)}
    (h : ∀ a r, rest r → read (code a ++ r) = some (a, r)) : Separates code rest := by
  intro a b r r' hr hr' heq
  have ha := h a r hr
  rw [heq, h b r' hr', Option.some.injEq, Prod.mk.injEq] at ha
  exact ⟨ha.1.symm, ha.2.symm⟩

/-- Words that end where a letter comes that they do not have. -/
theorem separates_terminated {stop : β} (hinj : Function.Injective code)
    (hstop : ∀ a, stop ∉ code a) : Separates (fun a => code a ++ [stop]) anything := by
  classical
  intro a b r r' _ _ heq
  simp only [List.append_assoc, List.singleton_append] at heq
  have hne : ∀ a, ∀ c ∈ code a, decide (c ≠ stop) = true := by
    intro a c hc
    rw [decide_eq_true_eq]
    rintro rfl
    exact hstop a hc
  have hend : ∀ r : List β, Ends (fun c => decide (c ≠ stop)) (stop :: r) :=
    fun r => ends_cons (by simp) r
  obtain ⟨hcode, hrest⟩ := append_inj_of_ends (hne a) (hne b) (hend r) (hend r') heq
  exact ⟨hinj hcode, (List.cons.inj hrest).2⟩

/-- A list of words, and a letter that starts none of them. -/
theorem separates_list (h : Separates code anything) {stop : β}
    (hstop : ∀ a r r', code a ++ r ≠ stop :: r') :
    Separates (fun as : List α => as.flatMap code ++ [stop]) anything := by
  intro as bs r r' _ _ heq
  induction as generalizing bs with
  | nil =>
    cases bs with
    | nil =>
      simp only [List.flatMap_nil, List.nil_append, List.singleton_append, List.cons.injEq,
        true_and] at heq
      exact ⟨rfl, heq⟩
    | cons b bs =>
      simp only [List.flatMap_nil, List.flatMap_cons, List.nil_append, List.singleton_append,
        List.append_assoc] at heq
      exact absurd heq.symm (hstop b _ _)
  | cons a as ih =>
    cases bs with
    | nil =>
      simp only [List.flatMap_nil, List.flatMap_cons, List.nil_append, List.singleton_append,
        List.append_assoc] at heq
      exact absurd heq (hstop a _ _)
    | cons b bs =>
      simp only [List.flatMap_cons, List.append_assoc] at heq
      obtain ⟨rfl, htail⟩ := h a b _ _ trivial trivial heq
      obtain ⟨rfl, hrest⟩ := ih bs (by simpa only [List.append_assoc] using htail)
      exact ⟨rfl, hrest⟩

/-- A list of words, to the end of the text. -/
theorem flatMap_injective (h : Separates code anything) (hne : ∀ a, code a ≠ []) :
    Function.Injective fun as : List α => as.flatMap code := by
  intro as bs heq
  induction as generalizing bs with
  | nil =>
    cases bs with
    | nil => rfl
    | cons b bs =>
      simp only [List.flatMap_nil, List.flatMap_cons] at heq
      exact absurd (List.append_eq_nil_iff.mp heq.symm).1 (hne b)
  | cons a as ih =>
    cases bs with
    | nil =>
      simp only [List.flatMap_nil, List.flatMap_cons] at heq
      exact absurd (List.append_eq_nil_iff.mp heq).1 (hne a)
    | cons b bs =>
      simp only [List.flatMap_cons] at heq
      obtain ⟨rfl, htail⟩ := h a b _ _ trivial trivial heq
      rw [ih htail]

end Rules

end PrefixCode
