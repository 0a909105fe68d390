/-
# Joins of lists, and selections on them

The joins of relational algebra, on lists: the rows of the right side may depend on the row of
the left side they are joined to (`inner`, `left`), and the rows of a side without a partner
are padded (`left`, `unmatched`).

A condition on the joined row that speaks of one side only is a condition on that side, which
may as well be applied first: `filter_inner_of_left`, `filter_inner_of_right` and so on.  A
side that fails the condition when it is padded is then not padded at all.
-/
import Mathlib.Data.List.Basic

namespace Join

variable {α β γ : Type*}

/-- Each row of the left side with its partners on the right. -/
def inner (ls : List α) (rs : α → List β) (on : α → β → Bool) (combine : α → β → γ) : List γ :=
  ls.flatMap fun l => ((rs l).filter (on l)).map (combine l)

/-- And each row of the left side without a partner, padded. -/
def left (ls : List α) (rs : α → List β) (on : α → β → Bool) (combine : α → β → γ)
    (pad : α → γ) : List γ :=
  ls.flatMap fun l =>
    if ((rs l).filter (on l)).isEmpty then [pad l] else ((rs l).filter (on l)).map (combine l)

/-- The rows of the right side without a partner, padded. -/
def unmatched (ls : List α) (rs : List β) (on : α → β → Bool) (pad : β → γ) : List γ :=
  (rs.filter fun r => !ls.any fun l => on l r).map pad

section Members

variable {ls : List α} {rs : α → List β} {on : α → β → Bool} {combine : α → β → γ}
  {pad : α → γ} {x : γ}

theorem mem_inner : x ∈ inner ls rs on combine ↔
    ∃ l ∈ ls, ∃ r ∈ rs l, on l r = true ∧ combine l r = x := by
  simp only [inner, List.mem_flatMap, List.mem_map, List.mem_filter, and_assoc]

/-- A row of a left join is a pair of partners or a padded row. -/
theorem mem_left (h : x ∈ left ls rs on combine pad) :
    (∃ l ∈ ls, ∃ r ∈ rs l, on l r = true ∧ combine l r = x) ∨ ∃ l ∈ ls, pad l = x := by
  obtain ⟨l, hl, hx⟩ := List.mem_flatMap.mp h
  split at hx
  · exact Or.inr ⟨l, hl, (List.mem_singleton.mp hx).symm⟩
  · obtain ⟨r, hr, rfl⟩ := List.mem_map.mp hx
    obtain ⟨hr, hon⟩ := List.mem_filter.mp hr
    exact Or.inl ⟨l, hl, r, hr, hon, rfl⟩

theorem mem_unmatched {rs : List β} {pad : β → γ} (h : x ∈ unmatched ls rs on pad) :
    ∃ r ∈ rs, pad r = x := by
  obtain ⟨r, hr, hx⟩ := List.mem_map.mp h
  exact ⟨r, (List.mem_filter.mp hr).1, hx⟩

end Members

/-! ## Selections -/

section Selections

variable {p : γ → Bool} {on : α → β → Bool} {combine : α → β → γ}

/-- A selection that all images of a row pass, or none. -/
theorem filter_flatMap_of_left {f : α → List γ} {q : α → Bool} : ∀ {ls : List α},
    (∀ l ∈ ls, ∀ x ∈ f l, p x = q l) → (ls.flatMap f).filter p = (ls.filter q).flatMap f
  | [], _ => rfl
  | l :: ls, h => by
    have ih := filter_flatMap_of_left fun l hl => h l (List.mem_cons_of_mem _ hl)
    have hl := h l List.mem_cons_self
    rw [List.flatMap_cons, List.filter_append, ih]
    by_cases hq : q l = true
    · rw [List.filter_cons_of_pos hq, List.flatMap_cons,
        List.filter_eq_self.mpr fun x hx => (hl x hx).trans hq]
    · rw [List.filter_cons_of_neg hq,
        List.filter_eq_nil_iff.mpr fun x hx hp => hq ((hl x hx).symm.trans hp), List.nil_append]

/-- A condition on the left side. -/
theorem filter_inner_of_left {ls : List α} {rs : α → List β} {q : α → Bool}
    (h : ∀ l ∈ ls, ∀ r ∈ rs l, p (combine l r) = q l) :
    (inner ls rs on combine).filter p = inner (ls.filter q) rs on combine := by
  refine filter_flatMap_of_left ?_
  intro l hl x hx
  obtain ⟨r, hr, rfl⟩ := List.mem_map.mp hx
  exact h l hl r (List.mem_filter.mp hr).1

/-- The partners of one row that pass a condition on the right side. -/
theorem filter_partners {l : α} {rs : List β} {q : β → Bool}
    (h : ∀ r ∈ rs, p (combine l r) = q r) :
    ((rs.filter (on l)).map (combine l)).filter p =
      ((rs.filter q).filter (on l)).map (combine l) := by
  rw [List.filter_map, List.filter_comm (on l) q]
  refine congrArg (List.map (combine l)) (List.filter_congr fun r hr => ?_)
  exact h r (List.mem_filter.mp hr).1

/-- A condition on the right side. -/
theorem filter_inner_of_right {ls : List α} {rs : α → List β} {q : β → Bool}
    (h : ∀ l ∈ ls, ∀ r ∈ rs l, p (combine l r) = q r) :
    (inner ls rs on combine).filter p = inner ls (fun l => (rs l).filter q) on combine := by
  rw [inner, List.filter_flatMap]
  exact List.flatMap_congr fun l hl => filter_partners (h l hl)

/-- A condition on the left side, of a left join. -/
theorem filter_left_of_left {ls : List α} {rs : α → List β} {pad : α → γ} {q : α → Bool}
    (h : ∀ l ∈ ls, ∀ r ∈ rs l, p (combine l r) = q l) (hpad : ∀ l ∈ ls, p (pad l) = q l) :
    (left ls rs on combine pad).filter p = left (ls.filter q) rs on combine pad := by
  refine filter_flatMap_of_left ?_
  intro l hl x hx
  split at hx
  · exact List.mem_singleton.mp hx ▸ hpad l hl
  · obtain ⟨r, hr, rfl⟩ := List.mem_map.mp hx
    exact h l hl r (List.mem_filter.mp hr).1

/-- A condition on the right side that padding fails turns a left join into an inner one. -/
theorem filter_left_of_right {ls : List α} {rs : α → List β} {pad : α → γ} {q : β → Bool}
    (h : ∀ l ∈ ls, ∀ r ∈ rs l, p (combine l r) = q r) (hpad : ∀ l ∈ ls, p (pad l) = false) :
    (left ls rs on combine pad).filter p = inner ls (fun l => (rs l).filter q) on combine := by
  rw [left, List.filter_flatMap]
  refine List.flatMap_congr ?_
  intro l hl
  rw [← filter_partners (h l hl)]
  split
  · rename_i hnone
    rw [List.isEmpty_iff.mp hnone, List.filter_cons_of_neg (by simp [hpad l hl])]
    rfl
  · rfl

/-- Padded rows that all fail the condition. -/
theorem filter_unmatched_eq_nil {ls : List α} {rs : List β} {pad : β → γ}
    (h : ∀ r ∈ rs, p (pad r) = false) : (unmatched ls rs on pad).filter p = [] := by
  refine List.filter_eq_nil_iff.mpr ?_
  intro x hx
  obtain ⟨r, hr, rfl⟩ := mem_unmatched hx
  simp [h r hr]

/-- A condition on the right side, of its padded rows. -/
theorem filter_unmatched {ls : List α} {rs : List β} {pad : β → γ} {q : β → Bool}
    (h : ∀ r ∈ rs, p (pad r) = q r) :
    (unmatched ls rs on pad).filter p = unmatched ls (rs.filter q) on pad := by
  rw [unmatched, unmatched, List.filter_map, List.filter_comm _ q]
  refine congrArg (List.map pad) (List.filter_congr fun r hr => ?_)
  exact h r (List.mem_filter.mp hr).1

end Selections

end Join
