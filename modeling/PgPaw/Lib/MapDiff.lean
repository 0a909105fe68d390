/-
# Differences of finite maps

A finite map is a `Finmap`; an association list without repeated keys (`AList`) is one
iteration of it, in some order.  `diff` walks an iteration of the new map and one of the old
and lists what to insert, update and delete; `replay` applies such a list to a map.

Which value a key has after a list of changes is decided by the changes of that key alone
(`lookup_replay`).  A difference has at most one change for a key, so replaying it over the old
map gives the new one, whatever the two iterations are (`replay_diff`).
-/
import Mathlib.Data.Finmap

namespace MapDiff

variable {κ ν : Type*} [DecidableEq κ]

/-- A map built by putting in values under keys of their own. -/
theorem lookup_foldl_insert (key : ν → κ) {k : κ} {v : ν} : ∀ {values : List ν}
    {m : Finmap fun _ : κ => ν},
    (∀ a ∈ values, ∀ b ∈ values, key a = key b → a = b) →
      ((values.foldl (fun m a => m.insert (key a) a) m).lookup k = some v ↔
        (v ∈ values ∧ key v = k) ∨ (∀ a ∈ values, key a ≠ k) ∧ m.lookup k = some v)
  | [], m, _ => by simp
  | a :: values, m, hinj => by
    have hrest := fun b hb c hc => hinj b (List.mem_cons_of_mem a hb) c (List.mem_cons_of_mem a hc)
    rw [List.foldl_cons, lookup_foldl_insert key hrest]
    by_cases hk : k = key a
    · rw [hk, Finmap.lookup_insert, Option.some.injEq]
      constructor
      · rintro (⟨hmem, hkey⟩ | ⟨-, rfl⟩)
        · exact Or.inl ⟨List.mem_cons_of_mem a hmem, hkey⟩
        · exact Or.inl ⟨List.mem_cons_self, rfl⟩
      · rintro (⟨hmem, hkey⟩ | ⟨hnot, -⟩)
        · obtain rfl := hinj v hmem a List.mem_cons_self hkey
          by_cases hlater : v ∈ values
          · exact Or.inl ⟨hlater, rfl⟩
          · refine Or.inr ⟨fun b hb hkey => hlater ?_, rfl⟩
            rw [← hinj b (List.mem_cons_of_mem v hb) v List.mem_cons_self hkey]
            exact hb
        · exact absurd rfl (hnot a List.mem_cons_self)
    · rw [Finmap.lookup_insert_of_ne _ hk]
      simp only [List.mem_cons, forall_eq_or_imp]
      constructor
      · rintro (⟨hmem, hkey⟩ | ⟨hnot, hm⟩)
        · exact Or.inl ⟨Or.inr hmem, hkey⟩
        · exact Or.inr ⟨⟨Ne.symm hk, hnot⟩, hm⟩
      · rintro (⟨rfl | hmem, hkey⟩ | ⟨⟨-, hnot⟩, hm⟩)
        · exact absurd hkey.symm hk
        · exact Or.inl ⟨hmem, hkey⟩
        · exact Or.inr ⟨hnot, hm⟩

/-- What is found under a key was put in under it, or was there before. -/
theorem mem_of_lookup_foldl_insert (key : ν → κ) {k : κ} {v : ν} : ∀ {values : List ν}
    {m : Finmap fun _ : κ => ν},
    (values.foldl (fun m a => m.insert (key a) a) m).lookup k = some v →
      (v ∈ values ∧ key v = k) ∨ m.lookup k = some v
  | [], _, h => Or.inr h
  | a :: values, m, h => by
    rw [List.foldl_cons] at h
    rcases mem_of_lookup_foldl_insert key h with ⟨hmem, hkey⟩ | hm
    · exact Or.inl ⟨List.mem_cons_of_mem a hmem, hkey⟩
    · by_cases hk : k = key a
      · rw [hk, Finmap.lookup_insert, Option.some.injEq] at hm
        obtain rfl := hm
        exact Or.inl ⟨List.mem_cons_self, hk.symm⟩
      · rw [Finmap.lookup_insert_of_ne _ hk] at hm
        exact Or.inr hm

/-- Every value put in leaves its key in the map. -/
theorem key_mem_foldl_insert (key : ν → κ) {v : ν} : ∀ {values : List ν}
    {m : Finmap fun _ : κ => ν},
    v ∈ values ∨ key v ∈ m → key v ∈ values.foldl (fun m a => m.insert (key a) a) m
  | [], _, h => h.resolve_left List.not_mem_nil
  | a :: values, m, h => by
    rw [List.foldl_cons]
    refine key_mem_foldl_insert key ?_
    rcases h with hv | hm
    · rcases List.mem_cons.mp hv with rfl | hv
      · exact Or.inr (Finmap.mem_insert.mpr (Or.inl rfl))
      · exact Or.inl hv
    · exact Or.inr (Finmap.mem_insert.mpr (Or.inr hm))

/-- **A map built so has every value exactly when the keys tell the values apart.** -/
theorem values_foldl_insert_iff (key : ν → κ) {values : List ν} :
    (∀ v, v ∈ values ↔ ∃ k, (values.foldl (fun m a => m.insert (key a) a)
        (∅ : Finmap fun _ : κ => ν)).lookup k = some v) ↔
      ∀ a ∈ values, ∀ b ∈ values, key a = key b → a = b := by
  constructor
  · intro hvalues a ha b hb hkey
    have hfound : ∀ v ∈ values, (values.foldl (fun m a => m.insert (key a) a)
        (∅ : Finmap fun _ : κ => ν)).lookup (key v) = some v := by
      intro v hv
      obtain ⟨k, hk⟩ := (hvalues v).mp hv
      rcases mem_of_lookup_foldl_insert key hk with ⟨-, rfl⟩ | hempty
      · exact hk
      · exact absurd hempty (by simp)
    have hfa := hfound a ha
    rw [hkey, hfound b hb] at hfa
    exact (Option.some.inj hfa).symm
  · intro hinj v
    constructor
    · exact fun hv => ⟨key v, (lookup_foldl_insert key hinj).mpr (Or.inl ⟨hv, rfl⟩)⟩
    · rintro ⟨k, hk⟩
      rcases mem_of_lookup_foldl_insert key hk with ⟨hv, -⟩ | hempty
      · exact hv
      · exact absurd hempty (by simp)

/-- A change of one key. -/
inductive Delta (κ ν : Type*)
  | insert (key : κ) (value : ν)
  | update (key : κ) (value : ν)
  | delete (key : κ) (value : ν)
  deriving DecidableEq, Repr

namespace Delta

def key : Delta κ ν → κ
  | insert k _ | update k _ | delete k _ => k

/-- The value the key has afterwards. -/
def value : Delta κ ν → Option ν
  | insert _ v | update _ v => some v
  | delete _ _ => none

/-- The value that is put in or taken out. -/
def carried : Delta κ ν → ν
  | insert _ v | update _ v | delete _ v => v

/-- Setting a key, or removing it. -/
def apply (m : Finmap fun _ : κ => ν) (d : Delta κ ν) : Finmap fun _ : κ => ν :=
  match d.value with
  | some v => m.insert d.key v
  | none => m.erase d.key

end Delta

/-- Applying changes one after the other. -/
def replay (m : Finmap fun _ : κ => ν) (ds : List (Delta κ ν)) : Finmap fun _ : κ => ν :=
  ds.foldl Delta.apply m

theorem replay_append (m : Finmap fun _ : κ => ν) (ds es : List (Delta κ ν)) :
    replay m (ds ++ es) = replay (replay m ds) es := List.foldl_append

/-- What an entry of the new map asks for. -/
def ofNext [DecidableEq ν] (prev : AList fun _ : κ => ν) (entry : (_ : κ) × ν) :
    Option (Delta κ ν) :=
  match prev.lookup entry.1 with
  | none => some (.insert entry.1 entry.2)
  | some old => if old ≠ entry.2 then some (.update entry.1 entry.2) else none

/-- What an entry of the old map asks for. -/
def ofPrev (next : AList fun _ : κ => ν) (entry : (_ : κ) × ν) : Option (Delta κ ν) :=
  if entry.1 ∉ next then some (.delete entry.1 entry.2) else none

/-- The changes from one map to another. -/
def diff [DecidableEq ν] (prev next : AList fun _ : κ => ν) : List (Delta κ ν) :=
  next.entries.filterMap (ofNext prev) ++ prev.entries.filterMap (ofPrev next)

/-! ## One key at a time -/

/-- What a list of changes makes of the value of a key. -/
def effect (k : κ) (o : Option ν) (ds : List (Delta κ ν)) : Option ν :=
  ds.foldl (fun o d => if d.key = k then d.value else o) o

theorem lookup_apply (m : Finmap fun _ : κ => ν) (d : Delta κ ν) (k : κ) :
    (d.apply m).lookup k = if d.key = k then d.value else m.lookup k := by
  unfold Delta.apply
  split <;> rename_i hv
  · by_cases hk : d.key = k
    · rw [if_pos hk, ← hk, Finmap.lookup_insert, hv]
    · rw [if_neg hk, Finmap.lookup_insert_of_ne _ (Ne.symm hk)]
  · by_cases hk : d.key = k
    · rw [if_pos hk, ← hk, Finmap.lookup_erase, hv]
    · rw [if_neg hk, Finmap.lookup_erase_ne (Ne.symm hk)]

/-- **Only the changes of a key decide its value.** -/
theorem lookup_replay (k : κ) : ∀ (ds : List (Delta κ ν)) (m : Finmap fun _ : κ => ν),
    (replay m ds).lookup k = effect k (m.lookup k) ds
  | [], _ => rfl
  | d :: ds, m => by
    have ih := lookup_replay k ds (d.apply m)
    rw [lookup_apply] at ih
    exact ih

theorem effect_append (k : κ) (o : Option ν) (ds es : List (Delta κ ν)) :
    effect k o (ds ++ es) = effect k (effect k o ds) es := List.foldl_append

/-- Changes of other keys do nothing. -/
theorem effect_of_ne {k : κ} (o : Option ν) : ∀ {ds : List (Delta κ ν)},
    (∀ d ∈ ds, d.key ≠ k) → effect k o ds = o
  | [], _ => rfl
  | d :: ds, h => by
    have hd : d.key ≠ k := h d (by simp)
    have ih : effect k o ds = o := effect_of_ne o fun e he => h e (List.mem_cons_of_mem _ he)
    simpa only [effect, List.foldl_cons, if_neg hd] using ih

omit [DecidableEq κ] in
theorem filterMap_cons_toList (f : (_ : κ) × ν → Option (Delta κ ν)) (e : (_ : κ) × ν)
    (entries : List ((_ : κ) × ν)) :
    (e :: entries).filterMap f = (f e).toList ++ entries.filterMap f := by
  rw [List.filterMap_cons]
  cases f e <;> rfl

/-- Where every entry asks for a change of its own key at most, a key that occurs once is
changed by its own entry only. -/
theorem effect_filterMap {f : (_ : κ) × ν → Option (Delta κ ν)}
    (hf : ∀ e d, f e = some d → d.key = e.1) (k : κ) (o : Option ν) :
    ∀ {entries : List ((_ : κ) × ν)}, entries.NodupKeys →
      effect k o (entries.filterMap f) = match entries.dlookup k with
        | some v => effect k o (f ⟨k, v⟩).toList
        | none => o
  | [], _ => rfl
  | e :: entries, hn => by
    obtain ⟨hnotin, hrest⟩ := List.nodupKeys_cons.mp hn
    by_cases hk : e.1 = k
    · obtain ⟨k', v⟩ := e
      obtain rfl : k' = k := hk
      have hother : ∀ d ∈ entries.filterMap f, d.key ≠ k' := by
        intro d hd hkey
        obtain ⟨e', he', hfe⟩ := List.mem_filterMap.mp hd
        exact hnotin (List.mem_keys.mpr ⟨e'.2, by rw [← hkey, hf e' d hfe]; exact he'⟩)
      rw [List.dlookup_cons_eq, filterMap_cons_toList, effect_append, effect_of_ne _ hother]
    · have hhead : ∀ d ∈ (f e).toList, d.key ≠ k := by
        intro d hd
        rw [hf e d (by simpa using hd)]
        exact hk
      have hne : k ≠ e.1 := fun h => hk h.symm
      rw [List.dlookup_cons_ne _ _ hne, filterMap_cons_toList, effect_append,
        effect_of_ne _ hhead]
      exact effect_filterMap hf k o hrest

/-! ## The keys of a difference -/

theorem key_ofNext [DecidableEq ν] {prev : AList fun _ : κ => ν} (e : (_ : κ) × ν) (d : Delta κ ν)
    (h : ofNext prev e = some d) : d.key = e.1 := by
  unfold ofNext at h
  split at h
  · exact Option.some.inj h ▸ rfl
  · split at h
    · exact Option.some.inj h ▸ rfl
    · exact absurd h nofun

theorem key_ofPrev {next : AList fun _ : κ => ν} (e : (_ : κ) × ν) (d : Delta κ ν)
    (h : ofPrev next e = some d) : d.key = e.1 := by
  unfold ofPrev at h
  split at h
  · exact Option.some.inj h ▸ rfl
  · exact absurd h nofun

omit [DecidableEq κ] in
/-- At most one change for an entry, in the order of the entries. -/
theorem keys_filterMap_sublist {f : (_ : κ) × ν → Option (Delta κ ν)}
    (hf : ∀ e d, f e = some d → d.key = e.1) : ∀ entries : List ((_ : κ) × ν),
      ((entries.filterMap f).map Delta.key).Sublist entries.keys
  | [] => List.Sublist.slnil
  | e :: entries => by
    have ih := keys_filterMap_sublist hf entries
    rw [filterMap_cons_toList, List.map_append, List.keys_cons]
    cases hd : f e with
    | none => exact ih.cons e.1
    | some d =>
      rw [Option.toList_some, List.map_singleton, List.singleton_append, hf e d hd]
      exact ih.cons_cons e.1

/-- **A difference changes a key at most once.** -/
theorem nodup_keys_diff [DecidableEq ν] (prev next : AList fun _ : κ => ν) :
    ((diff prev next).map Delta.key).Nodup := by
  have hnext : next.entries.keys.Nodup := next.nodupKeys
  have hprev : prev.entries.keys.Nodup := prev.nodupKeys
  rw [diff, List.map_append]
  refine List.nodup_append.mpr ⟨?_, ?_, ?_⟩
  · exact hnext.sublist (keys_filterMap_sublist key_ofNext _)
  · exact hprev.sublist (keys_filterMap_sublist key_ofPrev _)
  · intro k hput k' hdeleted hkey
    subst hkey
    -- a deleted key is not one of the new map
    obtain ⟨d, hd, rfl⟩ := List.mem_map.mp hdeleted
    obtain ⟨e, -, hof⟩ := List.mem_filterMap.mp hd
    have hnot := (Option.ite_none_right_eq_some.mp hof).1
    rw [← key_ofPrev e d hof] at hnot
    exact hnot ((keys_filterMap_sublist key_ofNext _).subset hput)

/-! ## The values of a difference -/

/-- **A key is deleted only if the new map does not have it.** -/
theorem notMem_of_delete [DecidableEq ν] {prev next : AList fun _ : κ => ν} {k : κ} {v : ν}
    (h : Delta.delete k v ∈ diff prev next) : k ∉ next := by
  rcases List.mem_append.mp h with hnext | hprev
  · obtain ⟨e, -, hof⟩ := List.mem_filterMap.mp hnext
    unfold ofNext at hof
    split at hof
    · cases hof
    · split at hof <;> cases hof
  · obtain ⟨e, -, hof⟩ := List.mem_filterMap.mp hprev
    obtain ⟨hnot, hd⟩ := Option.ite_none_right_eq_some.mp hof
    cases hd
    exact hnot

/-! ## Replaying a difference -/

/-- **Replaying the changes over the old map gives the new one**, in whatever order the two
maps were walked. -/
theorem replay_diff [DecidableEq ν] (prev next : AList fun _ : κ => ν) :
    replay prev.toFinmap (diff prev next) = next.toFinmap := by
  refine Finmap.ext_lookup ?_
  intro k
  rw [lookup_replay, diff, effect_append, effect_filterMap key_ofNext k _ next.nodupKeys,
    effect_filterMap key_ofPrev k _ prev.nodupKeys, Finmap.lookup_toFinmap,
    Finmap.lookup_toFinmap, ← AList.lookup, ← AList.lookup]
  cases hnext : next.lookup k with
  | none =>
    have hmem : k ∉ next := AList.lookup_eq_none.mp hnext
    cases hprev : prev.lookup k with
    | none => rfl
    | some old => simp [ofPrev, hmem, effect, Delta.key, Delta.value]
  | some v =>
    have hmem : k ∈ next := AList.lookup_isSome.mp (by rw [hnext]; rfl)
    cases hprev : prev.lookup k with
    | none => simp [ofNext, hprev, effect, Delta.key, Delta.value]
    | some old =>
      by_cases hsame : old = v
      · simp [ofNext, ofPrev, hmem, hprev, hsame, effect]
      · simp [ofNext, ofPrev, hmem, hprev, hsame, effect, Delta.key, Delta.value]

end MapDiff
