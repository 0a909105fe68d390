/-
# Bodies that cannot be read

`keyed_map` turns whatever `serde_json` does not read as an array into the empty map.  A body
PostgreSQL returns is always an array, but `serde_json` refuses one with a number beyond the
range of a double, and `numeric` has such numbers.

`on_commit` resets a subscription when its query fails; a body that cannot be read is no
failure there.  It compares the last map with the empty one and sends a delete for every row,
although the rows are all still there (`phantom_delete_iff`).
-/
import PgPaw.Capability.LiveStream

namespace PgPaw.Live

open MapDiff Transition

variable {γ : Type}

/-! ## 1. What a step owes its subscribers -/

/-- `serde_json` reads the body as an array. -/
def Readable (serde : Serde) (body : String) : Prop :=
  ∃ rows, serde.fromStr body = some (.array rows)

/-- The job in hand and the body its query returned. -/
def Worker.fetched : Worker → Option (LiveJob × String)
  | .busy _ (job :: _) (some (.ok body)) => some (job, body)
  | _ => none

/-- What the second lock of `on_commit` owes the subscription of a job whose query returned a
body: it is sent a delete only for keys of no row of the body, and if the body cannot be read,
it is reset and sent nothing else. -/
structure HonestEmit (env : Env γ) (s s' : State γ) (job : LiveJob) (body : String) : Prop where
  deletes : ∀ rows, env.serde.fromStr body = some (.array rows) → ∀ key row txid,
    Event.delta (.delete key row) txid ∈ added s s' job.id →
      ∀ r ∈ rows, rowKey env.serde job.pk r ≠ key
  resets : ¬ Readable env.serde body → ∀ sub, s.subs job.id = some sub →
    s'.subs job.id = none ∧ added s s' job.id = [.reset]

/-- What `subscribe` owes a new subscription: its map is empty only if the snapshot is. -/
def HonestRegister (env : Env γ) (s s' : State γ) : Prop :=
  ∀ sub, s'.nextId = s.nextId + 1 → s'.subs s.nextId = some sub → sub.last = ∅ →
    env.serde.fromStr (s'.bodies s.nextId) = some (.array [])

/-- **No phantom delete, in one step.** -/
def NoPhantom (env : Env γ) (s : State γ) (a : Action γ) : Prop :=
  ∀ s', step env s a = some s' → match a with
    | .emit _ _ => ∀ job body, s.worker.fetched = some (job, body) → HonestEmit env s s' job body
    | .register _ => HonestRegister env s s'
    | _ => True

/-- The body `subscribe` is about to register a subscription with. -/
def snapshotBody (s : State γ) (id : Nat) : Option String :=
  match s.requests id with
  | some (_, .materializing) => match s.core.calls id with
    | some ⟨_, .returned (.ok (_, snapshot))⟩ => some snapshot.body
    | _ => none
  | some (_, .fetched _ body) => some body
  | _ => none

/-- Every body a step interprets is read, or nobody is left to be told. -/
def BodiesRead (env : Env γ) (s : State γ) : Action γ → Prop
  | .emit _ _ => ∀ fetched ∈ s.worker.fetched,
      Readable env.serde fetched.2 ∨ s.subs fetched.1.id = none
  | .register id => ∀ body ∈ snapshotBody s id, Readable env.serde body
  | _ => True

instance (serde : Serde) (body : String) : Decidable (Readable serde body) :=
  match h : serde.fromStr body with
  | some (.array rows) => isTrue ⟨rows, h⟩
  | none | some .null | some (.bool _) | some (.number _) | some (.string _)
  | some (.object _) => isFalse fun ⟨_, hr⟩ => by cases h.symm.trans hr

instance (env : Env γ) (s : State γ) : ∀ a, Decidable (BodiesRead env s a)
  | .emit _ _ => inferInstanceAs (Decidable (∀ fetched ∈ s.worker.fetched, _ ∨ _))
  | .register id => inferInstanceAs (Decidable (∀ body ∈ snapshotBody s id, _))
  | .core _ | .broadcast | .receive _ | .resetAll | .requery | .discard | .finish
  | .subscribe _ _ | .fetch _ | .drop _ | .release _ => isTrue trivial

/-! ## 2. The map of a body -/

section KeyedMap

variable {serde : Serde} {pk : Option String} {body : String} {rows : List Json}

theorem keyedMap_of_not_readable (h : ¬ Readable serde body) : keyedMap serde body pk = ∅ := by
  unfold keyedMap
  split
  · rename_i rows hrows
    exact absurd ⟨rows, hrows⟩ h
  · rfl

/-- Every row of a body has its key in the map. -/
theorem rowKey_mem_keyedMap (hbody : serde.fromStr body = some (.array rows)) {r : Json}
    (hr : r ∈ rows) : rowKey serde pk r ∈ keyedMap serde body pk := by
  simp only [keyedMap, hbody]
  exact key_mem_foldl_insert (rowKey serde pk) (Or.inl hr)

/-- The map of a body that is read is empty only if the body is. -/
theorem rows_eq_nil_of_keyedMap (hbody : serde.fromStr body = some (.array rows))
    (hempty : keyedMap serde body pk = ∅) : rows = [] := by
  refine List.eq_nil_iff_forall_not_mem.mpr ?_
  intro r hr
  have hmem : rowKey serde pk r ∈ keyedMap serde body pk := rowKey_mem_keyedMap hbody hr
  rw [hempty] at hmem
  exact Finmap.notMem_empty hmem

end KeyedMap

/-! ## 3. One step -/

section Step

variable {env : Env γ} {s s' : State γ}

/-- What the second lock adds to a subscriber's stream. -/
theorem mem_added_emitDeltas {job : LiveJob} {txid : Nat} {deltas : List Delta} {next : RowMap}
    {worker : Worker} {e : Event}
    (h : e ∈ added s { emitDeltas s job txid deltas next with worker } job.id) :
    e ∈ deltas.map (fun d => Event.delta d txid) ++ [.upToDate txid] := by
  have hnone : e ∉ (s.sent job.id).drop (s.sent job.id).length := by simp
  simp only [added, emitDeltas] at h
  split at h
  · exact absurd h hnone
  · rename_i sub hsub
    split at h
    · simp only [State.send] at h
      split at h
      · simpa [State.setSub] using h
      · exact absurd h hnone
    · exact absurd h hnone

/-- The second lock never removes a subscription. -/
theorem subs_emitDeltas_ne_none {job : LiveJob} {txid : Nat} {deltas : List Delta}
    {next : RowMap} {sub : Subscription} (hsub : s.subs job.id = some sub) :
    (emitDeltas s job txid deltas next).subs job.id ≠ none := by
  simp only [emitDeltas, hsub]
  split
  · simp only [State.send]
    split <;> simp [State.setSub]
  · simp [hsub]

theorem honestEmit_iff {m : Nat} {job : LiveJob} {jobs : List LiveJob} {body : String}
    {txid : Nat} {prev next : RowIter} (hnext : next.toFinmap = keyedMap env.serde body job.pk) :
    HonestEmit env s { emitDeltas s job txid (diff prev next) next.toFinmap with
        worker := .busy m jobs none } job body ↔
      Readable env.serde body ∨ s.subs job.id = none := by
  constructor
  · rintro ⟨-, hresets⟩
    by_contra hnot
    obtain ⟨hunread, hsome⟩ := not_or.mp hnot
    obtain ⟨sub, hsub⟩ := Option.ne_none_iff_exists'.mp hsome
    exact subs_emitDeltas_ne_none hsub (hresets hunread sub hsub).1
  · intro h
    refine ⟨?_, ?_⟩
    · intro rows hbody key row t hadded r hr hkey
      have hmem := mem_added_emitDeltas hadded
      simp only [List.mem_append, List.mem_map, List.mem_singleton, reduceCtorEq, or_false,
        Event.delta.injEq] at hmem
      obtain ⟨d, hd, rfl, -⟩ := hmem
      have hgone : key ∉ next.toFinmap := fun hin =>
        notMem_of_delete hd (Finmap.mem_toFinmap.mp hin)
      rw [hnext, ← hkey] at hgone
      exact hgone (rowKey_mem_keyedMap hbody hr)
    · intro hunread sub hsub
      rcases h with hread | hnone
      · exact absurd hread hunread
      · cases hsub.symm.trans hnone

/-- The map of a new subscription is honest exactly when its snapshot is read. -/
theorem honestRegister_iff {id : Nat} {read : PreparedRead} {query : CacheableQuery}
    {hash : String} {version : Nat} {body : String} {principal : Option Principal}
    {headers : Option String} :
    HonestRegister env s ((hubSubscribe env s query hash version body principal
      headers).setRequest id read .done) ↔ Readable env.serde body := by
  obtain ⟨sub, hnew, column, hlast⟩ : ∃ sub, ((hubSubscribe env s query hash version body principal
      headers).setRequest id read .done).subs s.nextId = some sub ∧
        ∃ column, sub.last = keyedMap env.serde body column :=
    ⟨_, Function.update_self .., _, rfl⟩
  have hbodies : ((hubSubscribe env s query hash version body principal
      headers).setRequest id read .done).bodies s.nextId = body := Function.update_self ..
  rw [HonestRegister, hbodies, hnew]
  constructor
  · intro h
    by_contra hunread
    exact hunread ⟨[], h sub rfl rfl (hlast.trans (keyedMap_of_not_readable hunread))⟩
  · rintro ⟨rows, hbody⟩ sub' - hsub hempty
    obtain rfl := Option.some.inj hsub
    obtain rfl := rows_eq_nil_of_keyedMap hbody (hlast.symm.trans hempty)
    exact hbody

/-- `register` opens a subscription with the snapshot body, or none. -/
theorem register_cases {id : Nat} (h : step env s (.register id) = some s') :
    (∃ read query hash version body principal headers, snapshotBody s id = some body ∧
      s' = (hubSubscribe env s query hash version body principal headers).setRequest id read
        .done) ∨
    (snapshotBody s id = none ∧ s'.nextId = s.nextId) := by
  simp only [step] at h
  split at h
  · rename_i read hrequest
    split at h
    · rename_i q version snapshot hcall
      obtain rfl := Option.some.inj h
      have hbody : snapshotBody s id = some snapshot.body := by
        simp only [snapshotBody, hrequest, hcall]
      exact Or.inl ⟨_, _, _, _, _, _, _, hbody, rfl⟩
    · rename_i q e hcall
      obtain rfl := Option.some.inj h
      exact Or.inr ⟨by simp only [snapshotBody, hrequest, hcall], rfl⟩
    · cases h
  · rename_i read version body hrequest
    obtain rfl := Option.some.inj h
    have hbody : snapshotBody s id = some body := by simp only [snapshotBody, hrequest]
    exact Or.inl ⟨_, _, _, _, _, _, _, hbody, rfl⟩
  · cases h

/-- **A step sends no phantom delete exactly when it reads its body.** -/
theorem noPhantom_iff {a : Action γ} (h : step env s a = some s') :
    NoPhantom env s a ↔ BodiesRead env s a := by
  have hone : ∀ {P : State γ → Prop}, (∀ t, step env s a = some t → P t) ↔ P s' := by
    intro P
    refine ⟨fun hall => hall s' h, fun hs t ht => ?_⟩
    obtain rfl := Option.some.inj (h.symm.trans ht)
    exact hs
  unfold NoPhantom
  rw [hone]
  cases a with
  | emit prev next =>
    cases taken_of_step h with
    | emit hbusy hlabel hprev hnext =>
      rename_i m job jobs body txn
      have hfetched : s.worker.fetched = some (job, body) := by
        rw [hbusy]
        rfl
      constructor
      · intro hemit fetched hf
        cases hfetched.symm.trans hf
        exact (honestEmit_iff hnext).mp (hemit job body hfetched)
      · intro hread job' body' hf
        cases hfetched.symm.trans hf
        exact (honestEmit_iff hnext).mpr (hread (job, body) hfetched)
  | register id =>
    rcases register_cases h with ⟨_, _, _, _, body, _, _, hbody, rfl⟩ | ⟨hnone, hsame⟩
    · simp only [BodiesRead, hbody, Option.mem_some_iff, forall_eq']
      exact honestRegister_iff
    · refine iff_of_true (fun sub hnext => ?_) fun body hbody => ?_
      · rw [hsame] at hnext
        exact absurd hnext (Nat.ne_of_lt (Nat.lt_succ_self _))
      · cases hnone.symm.trans hbody
  | core _ | broadcast | receive _ | resetAll | requery | discard | finish | subscribe _ _
  | fetch _ | drop _ | release _ => exact Iff.rfl

end Step

/-- **No phantom delete, over whole runs.**  Along a run of the hub, a delete is sent only for a
key of no row, a body that cannot be read resets its subscription, and no subscription starts
with an empty map on a non-empty snapshot, exactly when every body is read that is diffed for a
subscription still there or registered. -/
theorem phantom_delete_iff {env : Env γ} {pk : List (String × String)} {full : List String}
    {start s : State γ} (_ : Fresh pk full start) {actions : List (Action γ)}
    (hrun : (system env pk full).run start actions = some s) :
    (system env pk full).Along (NoPhantom env) start actions ↔
      (system env pk full).Along (BodiesRead env) start actions :=
  System.Along.congr (fun _ _ _ h => noPhantom_iff h) hrun

/-- Someone subscribes to `users`, which has one row; the row is deleted, and the hub says so. -/
def subscribeThenDelete : List (Action String) :=
  [.subscribe 0 usersPublic, .core (.lookup 0), .core (.execute 0), .core (.insert 0),
    .core (.reply 0), .register 0,
    .core (.apply ⟨7, 1, [.delete "users" [("id", some "1")]]⟩ [("users", "[]")]),
    .core (.advance 0), .broadcast, .receive [0], .requery, .emit (AList.singleton "1" userRow) ∅]

/-- Its delete is of a row that went away. -/
theorem phantom_delete_iff_users :
    ∃ s, (system usersEnv [("users", "id")] []).run
        (.start [("users", "id")] [] fun _ => Read.oneRow) subscribeThenDelete = some s ∧
      (s.sent 0).tail = [.delta (.delete "1" userRow) 7, .upToDate 7] ∧
      (system usersEnv [("users", "id")] []).Along (NoPhantom usersEnv)
        (.start [("users", "id")] [] fun _ => Read.oneRow) subscribeThenDelete := by
  have hsent : ((system usersEnv [("users", "id")] []).run
      (.start [("users", "id")] [] fun _ => Read.oneRow) subscribeThenDelete).map
        (fun s => (s.sent 0).tail) = some [.delta (.delete "1" userRow) 7, .upToDate 7] := by
    decide
  obtain ⟨s, hs, htail⟩ := Option.map_eq_some_iff.mp hsent
  exact ⟨s, hs, htail, (phantom_delete_iff (fresh_start _ _ _) hs).mpr (by decide +kernel)⟩

/-! ## 4. A number `serde_json` does not read -/

/-- The row of `Read.oneRow` with a total of `10 ^ 400`, as PostgreSQL prints it. -/
def hugeRow : String :=
  "[\x7b\"id\": 1, \"total\": 1" ++ String.ofList (List.replicate 400 '0') ++ "\x7d]"

/-- Someone subscribes to `users`, which has one row; the total of that row is set to
`10 ^ 400`, and the hub runs the query again. -/
def subscribeThenHuge : List (Action String) :=
  [.subscribe 0 usersPublic, .core (.lookup 0), .core (.execute 0), .core (.insert 0),
    .core (.reply 0), .register 0,
    .core (.apply ⟨7, 1, [.update "users" [] [("id", some "1")]]⟩ [("users", hugeRow)]),
    .core (.advance 0), .broadcast, .receive [0], .requery]

/-- **A delete for a row that is still there.**  The body of the query has the row, with its
key; the subscriber is told that the row is gone, and is not reset. -/
theorem huge_number_phantom_delete :
    ∃ s s', (system usersEnv [("users", "id")] []).run
        (.start [("users", "id")] [] fun _ => Read.oneRow) subscribeThenHuge = some s ∧
      step usersEnv s (.emit (AList.singleton "1" userRow) ∅) = some s' ∧
      s.core.history.current "users" = hugeRow ∧
      added s s' 0 = [.delta (.delete "1" userRow) 7, .upToDate 7] ∧
      (s'.subs 0).isSome ∧
      ¬ NoPhantom usersEnv s (.emit (AList.singleton "1" userRow) ∅) := by
  have hrun : (((system usersEnv [("users", "id")] []).run
      (.start [("users", "id")] [] fun _ => Read.oneRow) subscribeThenHuge).bind fun s =>
        (step usersEnv s (.emit (AList.singleton "1" userRow) ∅)).map fun s' =>
          decide (s.core.history.current "users" = hugeRow ∧
            added s s' 0 = [.delta (.delete "1" userRow) 7, .upToDate 7] ∧ (s'.subs 0).isSome ∧
            (s.subs 0).isSome ∧
            s.worker.fetched.map (fun (job, body) => (job.id, body)) = some (0, hugeRow))) =
      some true := by decide +kernel
  obtain ⟨s, hs, hrun⟩ := Option.bind_eq_some_iff.mp hrun
  obtain ⟨s', hs', hfacts⟩ := Option.map_eq_some_iff.mp hrun
  obtain ⟨hrow, hadded, hkept, hsub, hfetched⟩ := of_decide_eq_true hfacts
  refine ⟨s, s', hs, hs', hrow, hadded, hkept, fun h => ?_⟩
  obtain ⟨⟨job, body⟩, hjob, he⟩ := Option.map_eq_some_iff.mp hfetched
  obtain ⟨hid, rfl⟩ := Prod.mk.inj he
  rcases (noPhantom_iff hs').mp h _ hjob with ⟨rows, hread⟩ | hgone
  · have hunread : usersSerde.fromStr hugeRow = none := by decide +kernel
    cases hunread.symm.trans hread
  · simp only [hid] at hgone
    simp [hgone] at hsub

end PgPaw.Live
