/-
# Tables with a primary key

A table is a list of rows, no two of which have the same key.  A source is copied into a table by
inserting the rows whose keys the table lacks (`insertMissing`).

Two counts tell that nothing is lost by that.  The rows of a join that differ are none exactly if
the two agree on the keys they share (`conflicts_eq_zero_iff`); and as many rows of the table have
a key of the source as the source has rows exactly if all keys of the source are there
(`copied_eq_count_iff`).
-/
import Mathlib.Data.List.Perm.Subperm
import Mathlib.Data.List.Nodup

/-- A table. -/
structure Keyed (κ ν : Type*) where
  rows : List (κ × ν)
  nodup : (rows.map Prod.fst).Nodup

namespace Keyed

variable {κ ν μ : Type*}

def keys (t : Keyed κ ν) : List κ := t.rows.map Prod.fst

def empty : Keyed κ ν := ⟨[], List.nodup_nil⟩

/-- `SELECT count(*)`. -/
def count (t : Keyed κ ν) : Nat := t.rows.length

/-- The rows with another value. -/
def mapValues (f : ν → μ) (t : Keyed κ ν) : Keyed κ μ where
  rows := t.rows.map fun row => (row.1, f row.2)
  nodup := by
    have hkeys : Prod.fst ∘ (fun row : κ × ν => (row.1, f row.2)) = Prod.fst := rfl
    rw [List.map_map, hkeys]
    exact t.nodup

variable {t source : Keyed κ ν} {differ : ν → ν → Bool} {k : κ} {v w : ν}

theorem mem_keys : k ∈ t.keys ↔ ∃ v, (k, v) ∈ t.rows := by
  simp [keys]

/-- The tables agree on the keys they share. -/
def Agrees (differ : ν → ν → Bool) (t source : Keyed κ ν) : Prop :=
  ∀ k v w, (k, v) ∈ t.rows → (k, w) ∈ source.rows → differ v w = false

variable [DecidableEq κ]

/-- `INSERT .. SELECT .. ON CONFLICT DO NOTHING`. -/
def insertMissing (t source : Keyed κ ν) : Keyed κ ν where
  rows := t.rows ++ source.rows.filter fun row => decide (row.1 ∉ t.keys)
  nodup := by
    rw [List.map_append, List.nodup_append]
    refine ⟨t.nodup, source.nodup.sublist (List.filter_sublist.map _), ?_⟩
    rintro key hkey key' hkey' rfl
    obtain ⟨row, hrow, rfl⟩ := List.mem_map.mp hkey'
    exact of_decide_eq_true (List.mem_filter.mp hrow).2 hkey

/-- The values of the rows of a join over the key. -/
def join (t source : Keyed κ ν) : List (ν × ν) :=
  source.rows.flatMap fun row => (t.rows.filter fun other => other.1 == row.1).map fun other =>
    (other.2, row.2)

/-- How many rows of the join differ. -/
def conflicts (differ : ν → ν → Bool) (t source : Keyed κ ν) : Nat :=
  ((t.join source).filter fun pair => differ pair.1 pair.2).length

/-- How many rows have a key of the source. -/
def copied (t source : Keyed κ ν) : Nat :=
  (t.rows.filter fun row => source.rows.any fun other => other.1 == row.1).length

theorem mem_insertMissing {row : κ × ν} :
    row ∈ (t.insertMissing source).rows ↔ row ∈ t.rows ∨ row ∈ source.rows ∧ row.1 ∉ t.keys := by
  simp [insertMissing]

theorem mem_keys_insertMissing (h : k ∈ source.keys) : k ∈ (t.insertMissing source).keys := by
  by_cases hk : k ∈ t.keys
  · obtain ⟨v, hv⟩ := mem_keys.mp hk
    exact mem_keys.mpr ⟨v, mem_insertMissing.mpr (.inl hv)⟩
  · obtain ⟨v, hv⟩ := mem_keys.mp h
    exact mem_keys.mpr ⟨v, mem_insertMissing.mpr (.inr ⟨hv, hk⟩)⟩

theorem mem_join {pair : ν × ν} : pair ∈ t.join source ↔
    ∃ k, (k, pair.1) ∈ t.rows ∧ (k, pair.2) ∈ source.rows := by
  simp only [join, List.mem_flatMap, List.mem_map, List.mem_filter, beq_iff_eq]
  constructor
  · rintro ⟨⟨k, w⟩, hrow, ⟨k', v⟩, ⟨hother, rfl⟩, rfl⟩
    exact ⟨k', hother, hrow⟩
  · rintro ⟨k, hother, hrow⟩
    exact ⟨(k, pair.2), hrow, (k, pair.1), ⟨hother, rfl⟩, rfl⟩

/-- **No conflicts** are counted exactly if the tables agree. -/
theorem conflicts_eq_zero_iff : t.conflicts differ source = 0 ↔ t.Agrees differ source := by
  rw [conflicts, List.length_eq_zero_iff, List.filter_eq_nil_iff]
  constructor
  · intro h k v w hv hw
    exact Bool.eq_false_iff.mpr (h (v, w) (mem_join.mpr ⟨k, hv, hw⟩))
  · intro h pair hpair
    obtain ⟨k, hv, hw⟩ := mem_join.mp hpair
    exact Bool.eq_false_iff.mp (h k pair.1 pair.2 hv hw)

theorem copied_eq : t.copied source = (t.keys.filter fun k => decide (k ∈ source.keys)).length := by
  have hany : ∀ row : κ × ν, (source.rows.any fun other => other.1 == row.1) =
      decide (row.1 ∈ source.keys) := by
    intro row
    rw [Bool.eq_iff_iff, decide_eq_true_eq]
    simp [keys]
  have hkeys : t.keys = t.rows.map Prod.fst := rfl
  rw [copied, hkeys, List.filter_map, List.length_map]
  simp only [hany]
  rfl

/-- **The counts are the same** exactly if every key of the source is there. -/
theorem copied_eq_count_iff : t.copied source = source.count ↔ ∀ k ∈ source.keys, k ∈ t.keys := by
  have hnodup : (t.keys.filter fun k => decide (k ∈ source.keys)).Nodup := t.nodup.filter _
  have hcount : source.count = source.keys.length := (List.length_map _).symm
  rw [copied_eq, hcount]
  constructor
  · intro h k hk
    have hsubset : (t.keys.filter fun k => decide (k ∈ source.keys)) ⊆ source.keys :=
      fun k hk => of_decide_eq_true (List.mem_filter.mp hk).2
    have hperm := (List.subperm_of_subset hnodup hsubset).perm_of_length_le (Nat.le_of_eq h.symm)
    exact (List.mem_filter.mp (hperm.mem_iff.mpr hk)).1
  · intro h
    refine ((List.perm_ext_iff_of_nodup hnodup source.nodup).mpr fun k => ?_).length_eq
    constructor
    · intro hk
      exact of_decide_eq_true (List.mem_filter.mp hk).2
    · intro hk
      exact List.mem_filter.mpr ⟨h k hk, decide_eq_true hk⟩

/-- Nothing is missing after the rows that were missing are inserted. -/
theorem copied_insertMissing : (t.insertMissing source).copied source = source.count :=
  copied_eq_count_iff.mpr fun _ hk => mem_keys_insertMissing hk

/-- **The copy is lossless** where the tables agree: a row of the source is there, or one that does
not differ. -/
theorem exists_row (h : t.Agrees differ source) (hself : ∀ v, differ v v = false)
    (hrow : (k, w) ∈ source.rows) :
    ∃ v, (k, v) ∈ (t.insertMissing source).rows ∧ differ v w = false := by
  by_cases hk : k ∈ t.keys
  · obtain ⟨v, hv⟩ := mem_keys.mp hk
    exact ⟨v, mem_insertMissing.mpr (.inl hv), h k v w hv hrow⟩
  · exact ⟨w, mem_insertMissing.mpr (.inr ⟨hrow, hk⟩), hself w⟩

end Keyed
