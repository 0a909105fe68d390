/-
# Sets in insertion order, walked while they change

The sets of ECMAScript.  The elements are in slots, in the order they were added in.  One that is
deleted leaves its slot empty, so that the others stay where they are.  A walk goes through the
slots by number, and looks at each, and at how many there are, when it gets there: an element
deleted before its turn is left out, and one added on the way is visited too.

A body that deletes nothing but the element it is called with does not disturb the walk.  It
ends, and is a fold over the elements there were at its start (`walk_eq_foldl`).
-/
import Mathlib.Data.List.ReduceOption

/-- A set with its slots. -/
@[ext] structure OrderedSet (α : Type*) where
  slots : List (Option α)
  nodup : slots.reduceOption.Nodup

namespace OrderedSet

variable {α : Type*}

def empty : OrderedSet α := ⟨[], List.nodup_nil⟩

/-- The elements, in the order they were added in. -/
def elements (s : OrderedSet α) : List α := s.slots.reduceOption

/-- `size`. -/
def size (s : OrderedSet α) : Nat := s.elements.length

/-- `values().next().value`. -/
def first (s : OrderedSet α) : Option α := s.elements.head?

@[simp] theorem elements_empty : (empty : OrderedSet α).elements = [] := rfl

theorem nodup_elements (s : OrderedSet α) : s.elements.Nodup := s.nodup

/-! ## 1. Membership, `add` and `delete` -/

section Change

variable [DecidableEq α] (s : OrderedSet α) (a b : α)

/-- `has`. -/
def contains : Bool := s.slots.contains (some a)

variable {s a} in
@[simp] theorem contains_iff : s.contains a = true ↔ a ∈ s.elements := by
  rw [contains, List.contains_iff_mem, elements, List.reduceOption_mem_iff]

variable {s a} in
theorem contains_eq_false : s.contains a = false ↔ a ∉ s.elements := by
  rw [← contains_iff, Bool.not_eq_true]

theorem contains_eq : s.contains a = s.elements.contains a := by
  rw [Bool.eq_iff_iff, contains_iff, List.contains_iff_mem]

/-- The slots when an element is deleted. -/
def clear (slots : List (Option α)) : List (Option α) :=
  slots.map fun slot => if slot = some a then none else slot

theorem reduceOption_clear (slots : List (Option α)) :
    (clear a slots).reduceOption = slots.reduceOption.filter (· != a) := by
  induction slots with
  | nil => rfl
  | cons slot slots ih =>
    have htail : clear a (slot :: slots) =
        (if slot = some a then none else slot) :: clear a slots := rfl
    rw [htail]
    cases slot with
    | none =>
      rw [if_neg (by simp), List.reduceOption_cons_of_none, List.reduceOption_cons_of_none, ih]
    | some b =>
      by_cases hb : b = a
      · rw [if_pos (by rw [hb]), List.reduceOption_cons_of_none, List.reduceOption_cons_of_some,
          List.filter_cons_of_neg (by simp [hb]), ih]
      · rw [if_neg (by simpa using hb), List.reduceOption_cons_of_some,
          List.reduceOption_cons_of_some, List.filter_cons_of_pos (by simp [hb]), ih]

/-- `delete`. -/
def delete : OrderedSet α where
  slots := clear a s.slots
  nodup := by
    rw [reduceOption_clear]
    exact s.nodup.filter _

@[simp] theorem elements_delete : (s.delete a).elements = s.elements.filter (· != a) :=
  reduceOption_clear a s.slots

/-- `add`. -/
def add : OrderedSet α :=
  if h : s.contains a then s
  else ⟨s.slots ++ [some a], by
    have ha : a ∉ s.elements := contains_eq_false.mp (Bool.not_eq_true _ ▸ h)
    rw [List.reduceOption_append]
    refine List.nodup_append.mpr ⟨s.nodup, ?_, ?_⟩
    · exact List.nodup_cons.mpr ⟨List.not_mem_nil, List.nodup_nil⟩
    · intro b hb c hc hbc
      rw [List.mem_singleton.mp hc] at hbc
      exact ha (hbc ▸ hb)⟩

theorem elements_add :
    (s.add a).elements = if a ∈ s.elements then s.elements else s.elements ++ [a] := by
  unfold add
  by_cases ha : a ∈ s.elements
  · rw [dif_pos (contains_iff.mpr ha), if_pos ha]
  · have hfalse : ¬ s.contains a = true := fun h => ha (contains_iff.mp h)
    rw [dif_neg hfalse, if_neg ha, elements, List.reduceOption_append]
    rfl

/-- The first element is deleted. -/
theorem elements_delete_first {rest : List α} (h : s.elements = a :: rest) :
    (s.delete a).elements = rest := by
  have hnodup := s.nodup_elements
  rw [h, List.nodup_cons] at hnodup
  rw [elements_delete, h, List.filter_cons_of_neg (by simp), List.filter_eq_self]
  intro b hb
  rw [bne_iff_ne]
  rintro rfl
  exact hnodup.1 hb

theorem size_delete_first (h : s.first = some a) : (s.delete a).size < s.size := by
  obtain ⟨rest, hrest⟩ := List.head?_eq_some_iff.mp h
  rw [size, size, s.elements_delete_first a hrest, hrest, List.length_cons]
  exact Nat.lt_succ_self rest.length

end Change

/-! ## 2. Walks -/

section Walk

variable {σ : Type*} (get : σ → OrderedSet α) (body : α → σ → σ)

/-- `for (const a of set) body(a)`, from the slot of a number, for so many slots at most. -/
def walk : Nat → Nat → σ → Option σ
  | 0, index, s => if index < (get s).slots.length then none else some s
  | fuel + 1, index, s => match (get s).slots[index]? with
    | none => some s
    | some none => walk fuel (index + 1) s
    | some (some a) => walk fuel (index + 1) (body a s)

variable {get body} [DecidableEq α]

/-- From a slot on: the slots there do not change before their turn. -/
theorem walk_from (hbody : ∀ a s, get (body a s) = get s ∨ get (body a s) = (get s).delete a)
    (front rest : List (Option α)) (s : σ) (hslots : (get s).slots = front ++ rest) :
    walk get body rest.length front.length s =
      some (rest.reduceOption.foldl (fun s a => body a s) s) := by
  induction rest generalizing front s with
  | nil =>
    have hend : ¬ front.length < (get s).slots.length := by rw [hslots]; simp
    exact if_neg hend
  | cons slot rest ih =>
    have hslot : (get s).slots[front.length]? = some slot := by rw [hslots]; simp
    have hnext (front' : List (Option α)) (t : σ) (hlen : front'.length = front.length + 1)
        (ht : (get t).slots = front' ++ rest) : walk get body rest.length (front.length + 1) t =
          some (rest.reduceOption.foldl (fun s a => body a s) t) := by
      rw [← hlen]
      exact ih front' t ht
    rw [List.length_cons, walk, hslot]
    cases slot with
    | none =>
      rw [List.reduceOption_cons_of_none]
      exact hnext (front ++ [none]) s (by simp) (by simpa using hslots)
    | some a =>
      rw [List.reduceOption_cons_of_some, List.foldl_cons]
      rcases hbody a s with hsame | hdelete
      · exact hnext (front ++ [some a]) _ (by simp) (by rw [hsame]; simpa using hslots)
      · -- the element is in no later slot
        have hlater : some a ∉ rest := by
          intro hmem
          have hnodup := (get s).nodup
          rw [hslots, List.reduceOption_append, List.reduceOption_cons_of_some] at hnodup
          have htail := (List.nodup_append.mp hnodup).2.1
          exact (List.nodup_cons.mp htail).1 (List.reduceOption_mem_iff.mpr hmem)
        have hrest : clear a rest = rest := by
          have hkept : ∀ slot ∈ rest, (if slot = some a then none else slot) = id slot := by
            intro slot hmem
            have hne : slot ≠ some a := by
              rintro rfl
              exact hlater hmem
            rw [if_neg hne]
            rfl
          rw [clear, List.map_congr_left hkept, List.map_id]
        refine hnext (clear a front ++ [none]) _ (by simp [clear]) ?_
        rw [hdelete]
        show clear a (get s).slots = _
        rw [hslots, clear, List.map_append, List.map_cons, if_pos rfl]
        show clear a front ++ none :: clear a rest = _
        rw [hrest, List.append_assoc, List.singleton_append]

/-- **A walk whose body deletes nothing but its own element visits each element once.** -/
theorem walk_eq_foldl (hbody : ∀ a s, get (body a s) = get s ∨ get (body a s) = (get s).delete a)
    (s : σ) : walk get body (get s).slots.length 0 s =
      some ((get s).elements.foldl (fun s a => body a s) s) :=
  walk_from hbody [] (get s).slots s rfl

end Walk

end OrderedSet
