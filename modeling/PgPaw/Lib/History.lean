/-
# A value that changes by labelled commits

A history is a starting value and the commits made to it, oldest first, each with its label
and the value it left.  `snapshot n` is the value after the first `n` commits, `current` the
value after all of them.  Committing never disturbs an earlier snapshot.

What a reader computed from `snapshot n` is still right now when none of the commits after
the first `n` changed it: `Keeps` says that of one commit, and `current_eq_of_keeps` is the
induction over the commits in between.

`Once` says that something held at some moment of an interval.  Where every commit raises a
number (`Rises`), the number tells moments apart: what was found at `v` or above, seen by a
reader that has read `v`, was found no earlier than that (`Rises.once`).
-/
import Mathlib.Data.List.Basic
import Mathlib.Data.Nat.Init

/-- A starting value and its commits, oldest first. -/
structure History (σ κ : Type*) where
  start : σ
  log : List (κ × σ)

namespace History

variable {σ κ ρ : Type*}

/-- The number of commits made. -/
def length (h : History σ κ) : Nat := h.log.length

/-- The value after the first `n` commits. -/
def snapshot (h : History σ κ) : Nat → σ
  | 0 => h.start
  | n + 1 => ((h.log[n]?).map Prod.snd).getD h.start

/-- The value now. -/
def current (h : History σ κ) : σ := h.snapshot h.length

/-- The label of commit `m`, counting from `0`. -/
def label (h : History σ κ) (m : Nat) : Option κ := (h.log[m]?).map Prod.fst

/-- One more commit. -/
def commit (h : History σ κ) (k : κ) (s : σ) : History σ κ := { h with log := h.log ++ [(k, s)] }

@[simp] theorem length_commit (h : History σ κ) (k : κ) (s : σ) :
    (h.commit k s).length = h.length + 1 := by simp [length, commit]

@[simp] theorem current_commit (h : History σ κ) (k : κ) (s : σ) :
    (h.commit k s).current = s := by simp [current, snapshot, length, commit]

/-- A commit leaves the earlier snapshots as they were. -/
theorem snapshot_commit (h : History σ κ) (k : κ) (s : σ) {n : Nat} (hn : n ≤ h.length) :
    (h.commit k s).snapshot n = h.snapshot n := by
  cases n with
  | zero => rfl
  | succ n =>
    have hlt : n < h.log.length := hn
    simp [snapshot, commit, List.getElem?_append_left hlt]

/-- A commit leaves the earlier labels as they were. -/
theorem label_commit (h : History σ κ) (k : κ) (s : σ) {m : Nat} (hm : m < h.length) :
    (h.commit k s).label m = h.label m := by
  have hlt : m < h.log.length := hm
  simp [label, commit, List.getElem?_append_left hlt]

@[simp] theorem label_commit_self (h : History σ κ) (k : κ) (s : σ) :
    (h.commit k s).label h.length = some k := by
  simp [label, commit, length]

/-- Every commit has a label. -/
theorem exists_label {h : History σ κ} {m : Nat} (hm : m < h.length) : ∃ k, h.label m = some k := by
  have hlt : m < h.log.length := hm
  exact ⟨(h.log[m]).1, by simp [label, hlt]⟩

/-- Only commits have labels. -/
theorem lt_length_of_label {h : History σ κ} {m : Nat} {k : κ} (hk : h.label m = some k) :
    m < h.length := by
  by_contra hge
  have : h.log.length ≤ m := Nat.le_of_not_lt hge
  simp [label, this] at hk

/-- Commit `m` leaves what `f` reads as it was. -/
def Keeps (h : History σ κ) (f : σ → ρ) (m : Nat) : Prop :=
  f (h.snapshot (m + 1)) = f (h.snapshot m)

/-- Later commits do not matter to whether commit `m` kept `f`. -/
theorem keeps_commit {h : History σ κ} {f : σ → ρ} (k : κ) (s : σ) {m : Nat} (hm : m < h.length) :
    (h.commit k s).Keeps f m ↔ h.Keeps f m := by
  simp only [Keeps, snapshot_commit h k s (n := m + 1) hm,
    snapshot_commit h k s (n := m) (Nat.le_of_lt hm)]

/-- What the newest commit has to satisfy to keep `f`. -/
theorem keeps_commit_self {h : History σ κ} {f : σ → ρ} (k : κ) (s : σ) :
    (h.commit k s).Keeps f h.length ↔ f s = f h.current := by
  have h1 : (h.commit k s).snapshot (h.length + 1) = s := by
    simpa [current] using current_commit h k s
  rw [Keeps, h1, snapshot_commit h k s (Nat.le_refl _), current]

/-- **What was read at a snapshot still holds later.**  If no commit from `n` up to `n'`
changed what `f` reads, `f` reads the same at both. -/
theorem snapshot_eq_of_keeps {h : History σ κ} {f : σ → ρ} {n n' : Nat} (hn : n ≤ n')
    (hk : ∀ m, n ≤ m → m < n' → h.Keeps f m) : f (h.snapshot n') = f (h.snapshot n) := by
  induction n', hn using Nat.le_induction with
  | base => rfl
  | succ p hp ih =>
    have hlast : f (h.snapshot (p + 1)) = f (h.snapshot p) := hk p hp (Nat.lt_succ_self p)
    exact hlast.trans (ih fun m h1 h2 => hk m h1 (Nat.lt_succ_of_lt h2))

/-- The same up to now. -/
theorem current_eq_of_keeps {h : History σ κ} {f : σ → ρ} {n : Nat} (hn : n ≤ h.length)
    (hk : ∀ m, n ≤ m → m < h.length → h.Keeps f m) : f h.current = f (h.snapshot n) :=
  snapshot_eq_of_keeps hn hk

/-! ## Moments -/

/-- At a moment from `m` to `n`. -/
def Once (h : History σ κ) (m n : Nat) (p : σ → Prop) : Prop :=
  ∃ i, m ≤ i ∧ i ≤ n ∧ p (h.snapshot i)

variable {h : History σ κ} {m n : Nat} {p q : σ → Prop}

/-- It holds now. -/
theorem Once.now (hm : m ≤ h.length) (hp : p h.current) : h.Once m h.length p :=
  ⟨h.length, hm, Nat.le_refl _, hp⟩

theorem Once.mono {m' n' : Nat} (ho : h.Once m n p) (hm : m' ≤ m) (hn : n ≤ n')
    (hp : ∀ s, p s → q s) : h.Once m' n' q := by
  obtain ⟨i, hmi, hin, hi⟩ := ho
  exact ⟨i, Nat.le_trans hm hmi, Nat.le_trans hin hn, hp _ hi⟩

/-- A commit does not touch the moments before it. -/
theorem Once.commit (ho : h.Once m n p) (hn : n ≤ h.length) (k : κ) (s : σ) :
    (h.commit k s).Once m n p := by
  obtain ⟨i, hmi, hin, hi⟩ := ho
  refine ⟨i, hmi, hin, ?_⟩
  rw [snapshot_commit h k s (Nat.le_trans hin hn)]
  exact hi

/-- Every commit raises the number. -/
def Rises (h : History σ κ) (f : σ → Nat) : Prop :=
  ∀ i j, i < j → j ≤ h.length → f (h.snapshot i) < f (h.snapshot j)

theorem Rises.commit {f : σ → Nat} (hr : h.Rises f) (k : κ) {s : σ} (hs : f h.current < f s) :
    (h.commit k s).Rises f := by
  intro i j hij hj
  rw [length_commit] at hj
  rw [snapshot_commit h k s (by omega)]
  rcases Nat.lt_or_ge h.length j with hlast | hbefore
  · obtain rfl : j = h.length + 1 := by omega
    have hnew : (h.commit k s).snapshot (h.length + 1) = s := by
      simpa [current] using current_commit h k s
    rw [hnew]
    rcases Nat.lt_or_ge i h.length with hi | hi
    · exact Nat.lt_trans (hr i h.length hi (Nat.le_refl _)) hs
    · obtain rfl : i = h.length := by omega
      exact hs
  · rw [snapshot_commit h k s hbefore]
    exact hr i j hij hbefore

/-- A reading is never above what it reads now. -/
theorem Rises.le_current {f : σ → Nat} (hr : h.Rises f) {v : Nat}
    (hread : h.Once m h.length fun s => f s = v) : v ≤ f h.current := by
  obtain ⟨i, -, hi, rfl⟩ := hread
  rcases Nat.lt_or_eq_of_le hi with hlt | rfl
  · exact Nat.le_of_lt (hr i h.length hlt (Nat.le_refl _))
  · exact Nat.le_refl _

/-- **What was found at `v` or above was found no earlier than a reading of `v`.** -/
theorem Rises.once {f : σ → Nat} (hr : h.Rises f) {v : Nat}
    (hread : h.Once m h.length fun s => f s = v)
    (hfound : h.Once 0 h.length fun s => v ≤ f s ∧ p s) : h.Once m h.length p := by
  obtain ⟨i, hmi, hi, rfl⟩ := hread
  obtain ⟨j, -, hj, hle, hp⟩ := hfound
  have hij : i ≤ j := by
    by_contra hlt
    have := hr j i (by omega) hi
    omega
  exact ⟨j, Nat.le_trans hmi hij, hj, hp⟩

end History
