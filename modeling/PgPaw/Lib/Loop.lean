/-
# A loop that stops at the first error

`each f as s` runs `f` on the elements of a list, one after the other, on a state that survives
an error: the body of a `for` with `?` in it.  What a successful run of `f` says of one element
gives what a successful loop says of the list, with an invariant over the elements done so far
(`each_invariant`); where `f` succeeds on each, the loop does (`each_succeeds`).  What `f`
preserves, error or not, the loop preserves (`each_preserves`).
-/
import Mathlib.Data.List.Basic

namespace Loop

variable {ε α σ : Type*}

/-- The loop. -/
def each (f : α → σ → Except ε Unit × σ) : List α → σ → Except ε Unit × σ
  | [], s => (.ok (), s)
  | a :: as, s => match f a s with
    | (.ok (), t) => each f as t
    | (.error e, t) => (.error e, t)

variable {f : α → σ → Except ε Unit × σ} {a : α} {as bs : List α} {s s' : σ}

theorem each_congr {g : α → σ → Except ε Unit × σ} (h : ∀ a ∈ as, f a = g a) (s : σ) :
    each f as s = each g as s := by
  induction as generalizing s with
  | nil => rfl
  | cons a as ih =>
    have ih' := ih fun b hb => h b (List.mem_cons_of_mem a hb)
    simp only [each, h a List.mem_cons_self, ih']

theorem each_cons_ok : each f (a :: as) s = (.ok (), s') ↔
    ∃ t, f a s = (.ok (), t) ∧ each f as t = (.ok (), s') := by
  simp only [each]
  constructor
  · intro h
    split at h
    · rename_i t ht
      exact ⟨t, ht, h⟩
    · cases h
  · rintro ⟨t, ht, h⟩
    rw [ht]
    exact h

/-- **The rule for a loop that succeeds**: what holds of the elements done holds of all. -/
theorem each_invariant {P : List α → σ → Prop} (h : each f as s = (.ok (), s')) (h0 : P [] s)
    (hstep : ∀ done a rest t t', as = done ++ a :: rest → P done t → f a t = (.ok (), t') →
      P (done ++ [a]) t') : P as s' := by
  suffices ∀ done rest t, as = done ++ rest → P done t → each f rest t = (.ok (), s') → P as s' from
    this [] as s rfl h0 h
  intro done rest
  induction rest generalizing done with
  | nil =>
    intro t hsplit hdone hrest
    cases hrest
    rwa [hsplit, List.append_nil]
  | cons a rest ih =>
    intro t hsplit hdone hrest
    obtain ⟨t', ht, hrest⟩ := each_cons_ok.mp hrest
    exact ih (done ++ [a]) t' (by simpa using hsplit) (hstep done a rest t t' hsplit hdone ht) hrest

/-- **The rule for a loop that may stop.** -/
theorem each_preserves {P : σ → Prop} (h0 : P s)
    (hstep : ∀ a ∈ as, ∀ t, P t → P (f a t).2) : P (each f as s).2 := by
  induction as generalizing s with
  | nil => exact h0
  | cons a as ih =>
    have hnext := hstep a List.mem_cons_self s h0
    rw [each]
    split
    · rename_i t ht
      rw [ht] at hnext
      exact ih hnext fun b hb => hstep b (List.mem_cons_of_mem a hb)
    · rename_i e t ht
      rw [ht] at hnext
      exact hnext

/-- A loop succeeds when its body does wherever the invariant holds. -/
theorem each_succeeds {P : List α → σ → Prop} (h0 : P [] s)
    (hstep : ∀ done a rest t, as = done ++ a :: rest → P done t →
      ∃ t', f a t = (.ok (), t') ∧ P (done ++ [a]) t') :
    ∃ s', each f as s = (.ok (), s') ∧ P as s' := by
  suffices ∀ done rest t, as = done ++ rest → P done t →
      ∃ s', each f rest t = (.ok (), s') ∧ P as s' from this [] as s rfl h0
  intro done rest
  induction rest generalizing done with
  | nil =>
    intro t hsplit hdone
    rw [List.append_nil] at hsplit
    exact ⟨t, rfl, hsplit ▸ hdone⟩
  | cons a rest ih =>
    intro t hsplit hdone
    obtain ⟨t', ht, hnext⟩ := hstep done a rest t hsplit hdone
    obtain ⟨s', hrest, hall⟩ := ih (done ++ [a]) t' (by simpa using hsplit) hnext
    exact ⟨s', each_cons_ok.mpr ⟨t', ht, hrest⟩, hall⟩

end Loop
