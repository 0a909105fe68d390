/-
# Following a stream of batches

A stream brings the one who reads it from one version to the next, batch by batch, and inside a
batch still shows the version before it.  Wherever the stream is cut, some version is shown, and
what is shown never goes back (`Chain.shows`).

Versions are any preorder, and what is shown and settled are any two properties of the reader's
state: what is settled is shown, and a batch leads from one settled version to the next.
-/
import Mathlib.Order.Monotone.Basic
import PgPaw.Lib.Transition

namespace Following

open Transition

variable {σ α ν : Type*} [Preorder ν]

/-- What a reader shows of a version, at any time and between two batches. -/
structure Showing (σ ν : Type*) where
  shows : ν → σ → Prop
  settled : ν → σ → Prop
  shows_of_settled : ∀ {v s}, settled v s → shows v s

/-- **A batch** leads to a version that is not older, and shows the one before until its end. -/
structure Advances (S : System σ α) (view : Showing σ ν) (v v' : ν) (batch : List α) : Prop where
  le : v ≤ v'
  inside : ∀ {s as}, view.settled v s → as <+: batch → as ≠ batch →
    ∃ t, S.run s as = some t ∧ view.shows v t
  whole : ∀ {s}, view.settled v s → ∃ t, S.run s batch = some t ∧ view.settled v' t

/-- The batches of a stream, and the version they lead to. -/
inductive Chain (S : System σ α) (view : Showing σ ν) (v₀ : ν) : List α → ν → Prop
  | start : Chain S view v₀ [] v₀
  | batch {as batch : List α} {v v' : ν} (h : Chain S view v₀ as v)
      (hbatch : Advances S view v v' batch) : Chain S view v₀ (as ++ batch) v'

namespace Chain

variable {S : System σ α} {view : Showing σ ν} {v₀ v : ν} {as : List α} {s : σ}

/-- At the end of the stream its last version is settled. -/
theorem settled (h : Chain S view v₀ as v) (hs : view.settled v₀ s) :
    ∃ t, S.run s as = some t ∧ view.settled v t := by
  induction h with
  | start => exact ⟨s, rfl, hs⟩
  | batch _ hbatch ih =>
    obtain ⟨t, hrun, ht⟩ := ih
    obtain ⟨t', hrun', ht'⟩ := hbatch.whole ht
    exact ⟨t', by rw [run_append, hrun, Option.bind_some, hrun'], ht'⟩

/-- **Wherever the stream is cut, a version is shown**, and a longer part of the stream never
shows an older one. -/
theorem shows (h : Chain S view v₀ as v) (hs : view.settled v₀ s) :
    ∃ shown : ℕ → ν, Monotone shown ∧ (∀ k, as.length ≤ k → shown k = v) ∧
      ∀ bs, bs <+: as → ∃ t, S.run s bs = some t ∧ view.shows (shown bs.length) t := by
  induction h with
  | start =>
    refine ⟨fun _ => v₀, monotone_const, fun _ _ => rfl, fun bs hbs => ?_⟩
    rw [List.prefix_nil.mp hbs]
    exact ⟨s, rfl, view.shows_of_settled hs⟩
  | @batch as batch v v' h hbatch ih =>
    obtain ⟨shown, hmono, hend, hshows⟩ := ih
    obtain ⟨t, hrun, ht⟩ := h.settled hs
    have hbound : ∀ k, shown k ≤ v' := by
      intro k
      have hlast := hend (max k as.length) (le_max_right _ _)
      exact (hmono (le_max_left k as.length)).trans (hlast ▸ hbatch.le)
    refine ⟨fun k => if k < (as ++ batch).length then shown k else v', ?_, ?_, ?_⟩
    · intro k k' hk
      by_cases hk' : k' < (as ++ batch).length
      · simp only [if_pos hk', if_pos (hk.trans_lt hk')]
        exact hmono hk
      · simp only [if_neg hk']
        split
        · exact hbound k
        · exact le_refl v'
    · intro k hk
      exact if_neg (Nat.not_lt.mpr hk)
    · intro bs hbs
      by_cases hwhole : bs = as ++ batch
      · obtain ⟨t', hrun', ht'⟩ := hbatch.whole ht
        subst hwhole
        refine ⟨t', by rw [run_append, hrun, Option.bind_some, hrun'], ?_⟩
        simp only [if_neg (Nat.lt_irrefl _)]
        exact view.shows_of_settled ht'
      · have hlt : bs.length < (as ++ batch).length :=
          lt_of_le_of_ne hbs.length_le fun he => hwhole (hbs.eq_of_length he)
        simp only [if_pos hlt]
        rcases List.prefix_or_prefix_of_prefix hbs (List.prefix_append as batch) with
          hold | ⟨cs, rfl⟩
        · exact hshows bs hold
        · -- cut inside the last batch
          have hcs := (List.prefix_append_right_inj as).mp hbs
          have hne : cs ≠ batch := fun he => hwhole (he ▸ rfl)
          obtain ⟨t', hrun', ht'⟩ := hbatch.inside ht hcs hne
          refine ⟨t', by rw [run_append, hrun, Option.bind_some, hrun'], ?_⟩
          rw [hend _ (by simp)]
          exact ht'

end Chain

end Following
