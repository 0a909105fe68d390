/-
# What a cache key stands for

The key of a snapshot is a fingerprint and a version, and the fingerprint is the hash of the
statement's text and of the texts of the parameters.  `str::hash` ends each text with a byte that
no UTF-8 has, so the bytes the hasher is fed are those of one list of texts only
(`hashStream_injective`), and printing a JSON value is injective (`Json.display_inj`).

So two requests share a key only if they are one statement with one list of parameters at one
version, as long as the hasher tells the bytes apart (`cache_keys_separate`).
-/
import PgPaw.JsonText
import PgPaw.Lib.Utf8
import PgPaw.Capability.TableExtraction

namespace PgPaw

open PrefixCode

/-! ## 1. The bytes of a fingerprint -/

/-- What a hasher is fed for some texts. -/
def hashStream (texts : List String) : List UInt8 :=
  texts.flatMap fun text => Utf8.encode text.toList ++ [0xFF]

theorem separates_hashed :
    Separates (fun text : String => Utf8.encode text.toList ++ [0xFF]) anything := by
  refine separates_terminated ?_ fun text => Utf8.notMem_encode text.toList
  intro s t h
  have hlist := congrArg (fun bytes => (Utf8.decode .start bytes).2) h
  simp only [Utf8.decode_encode] at hlist
  exact String.toList_inj.mp hlist

/-- **The bytes are those of one list of texts.** -/
theorem hashStream_injective : Function.Injective hashStream :=
  flatMap_injective separates_hashed fun text => by simp

/-- The texts of some values are those of no others. -/
theorem map_display_inj {params params' : List Json} (h : ∀ value ∈ params, value.Printed)
    (h' : ∀ value ∈ params', value.Printed)
    (heq : params.map Json.display = params'.map Json.display) : params = params' := by
  induction params generalizing params' with
  | nil => exact (List.map_eq_nil_iff.mp heq.symm).symm
  | cons value params ih =>
    cases params' with
    | nil => cases heq
    | cons value' params' =>
      rw [List.map_cons, List.map_cons, List.cons.injEq] at heq
      have hvalue : value = value' :=
        Json.display_inj (h value List.mem_cons_self) (h' value' List.mem_cons_self) heq.1
      have hparams := ih (fun v hv => h v (List.mem_cons_of_mem _ hv))
        (fun v hv => h' v (List.mem_cons_of_mem _ hv)) heq.2
      rw [hvalue, hparams]

/-! ## 2. Keys -/

/-- **Cache keys separate statements, parameters and versions.** -/
theorem cache_keys_separate {crates : Crates} {hash : List UInt8 → Nat}
    (hdisplay : ∀ value, crates.displayJson value = value.display)
    (hfinish : ∀ texts, crates.finish texts = hash (hashStream texts))
    (hhash : Function.Injective hash) {self self' : ReadClassifier} {sql sql' : String}
    {params params' : List Json} {q q' : CacheableQuery}
    (hq : self.classify crates sql params = .ok q)
    (hq' : self'.classify crates sql' params' = .ok q')
    (hparams : ∀ value ∈ params, value.Printed) (hparams' : ∀ value ∈ params', value.Printed)
    {version version' : Nat}
    (hkey : snapshotKey q.fingerprint version = snapshotKey q'.fingerprint version') :
    (∃ query query', crates.parseSql sql = some [.query query] ∧
      crates.parseSql sql' = some [.query query'] ∧
      crates.displayStatement (.query query) = crates.displayStatement (.query query')) ∧
    params = params' ∧ version = version' := by
  obtain ⟨query, hparse, -, -, -, -, rfl⟩ := ReadClassifier.classify_ok hq
  obtain ⟨query', hparse', -, -, -, -, rfl⟩ := ReadClassifier.classify_ok hq'
  obtain ⟨hfingerprint, hversion⟩ := snapshotKey_inj hkey
  have hprint : crates.displayJson = Json.display := funext hdisplay
  simp only [hfinish, hprint] at hfingerprint
  have htexts := hashStream_injective (hhash hfingerprint)
  rw [List.cons.injEq] at htexts
  exact ⟨⟨query, query', hparse, hparse', htexts.1⟩,
    map_display_inj hparams hparams' htexts.2, hversion⟩

/-! ## 3. A request -/

/-- A number for each list of bytes. -/
def streamCode : List UInt8 → Nat
  | [] => 0
  | byte :: bytes => byte.toNat + 1 + 257 * streamCode bytes

theorem streamCode_injective : Function.Injective streamCode := by
  intro bytes bytes' h
  induction bytes generalizing bytes' with
  | nil =>
    cases bytes' with
    | nil => rfl
    | cons byte' bytes' =>
      simp only [streamCode] at h
      omega
  | cons byte bytes ih =>
    cases bytes' with
    | nil =>
      simp only [streamCode] at h
      omega
    | cons byte' bytes' =>
      simp only [streamCode] at h
      have hlt := byte.toNat_lt
      have hlt' := byte'.toNat_lt
      have hbyte : byte = byte' := UInt8.toNat_inj.mp (by omega)
      have hbytes : bytes = bytes' := ih (by omega)
      rw [hbyte, hbytes]

/-- A hash that is known on one list of bytes. -/
def knownHash (known : List UInt8) (value : Nat) (bytes : List UInt8) : Nat :=
  if bytes = known then value else 2 ^ 64 + streamCode bytes

theorem knownHash_injective {known : List UInt8} {value : Nat} (hvalue : value < 2 ^ 64) :
    Function.Injective (knownHash known value) := by
  intro bytes bytes' h
  unfold knownHash at h
  split_ifs at h with hknown hknown' hknown'
  · rw [hknown, hknown']
  · omega
  · omega
  · exact streamCode_injective (by omega)

/-- The hash of `SELECT * FROM users` with the parameter `1`. -/
def usersParamHash : List UInt8 → Nat :=
  knownHash (hashStream ["SELECT * FROM users", "1"]) 2078716832655733764

/-- Another spelling of the statement. -/
def usersSpelled : String := "select *  from users;"

/-- The crates on both. -/
def usersParamCrates : Crates :=
  { usersCrates with
    parseSql := fun text => usersCrates.parseSql
      (if text = usersSpelled then "SELECT * FROM users" else text)
    displayJson := Json.display
    finish := fun texts => usersParamHash (hashStream texts) }

/-- Two spellings of one statement share their key. -/
theorem cache_keys_separate_users :
    (∃ query query', usersParamCrates.parseSql "SELECT * FROM users" = some [.query query] ∧
      usersParamCrates.parseSql usersSpelled = some [.query query'] ∧
      usersParamCrates.displayStatement (.query query) =
        usersParamCrates.displayStatement (.query query')) ∧
    [Json.number (.integer 1)] = [Json.number (.integer 1)] ∧ 3 = 3 := by
  have hq : (ReadClassifier.new ["users"]).classify usersParamCrates "SELECT * FROM users"
      [.number (.integer 1)] = .ok { usersRead with
        fingerprint := usersParamHash (hashStream ["SELECT * FROM users", "1"])
        params := [.number (.integer 1)] } := by rfl
  have hq' : (ReadClassifier.new ["users"]).classify usersParamCrates usersSpelled
      [.number (.integer 1)] = .ok { usersRead with
        fingerprint := usersParamHash (hashStream ["SELECT * FROM users", "1"])
        sql := usersSpelled
        params := [.number (.integer 1)] } := by rfl
  have hparams : ∀ value ∈ [Json.number (.integer 1)], value.Printed := by
    intro value hvalue text htext
    rw [List.mem_singleton.mp hvalue] at htext
    cases htext
  exact cache_keys_separate (fun _ => rfl) (fun _ => rfl) (knownHash_injective (by decide)) hq hq'
    hparams hparams rfl

end PgPaw
