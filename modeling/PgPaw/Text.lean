/-
# The string operations of the source

`str::to_ascii_lowercase`, `str::eq_ignore_ascii_case`, `bare_lower` (`classify.rs`) and the
two number formats that end up in cache keys, `{:x}` for a fingerprint and the decimal form
for a version; and how PostgreSQL cuts a name off.  They work on the characters of the string,
so they evaluate.
-/
import Mathlib.Data.List.Basic
import Mathlib.Data.List.DropRight
import Mathlib.Data.Nat.Digits.Defs

namespace PgPaw

/-- `str::to_ascii_lowercase`. -/
def toAsciiLowercase (s : String) : String := String.ofList (s.toList.map Char.toLower)

theorem toLower_toLower (c : Char) : c.toLower.toLower = c.toLower := by
  unfold Char.toLower
  grind

@[simp] theorem toAsciiLowercase_idem (s : String) :
    toAsciiLowercase (toAsciiLowercase s) = toAsciiLowercase s := by
  simp only [toAsciiLowercase, String.toList_ofList, List.map_map, Function.comp_def,
    toLower_toLower]

/-- `str::eq_ignore_ascii_case`. -/
def eqIgnoreAsciiCase (s t : String) : Bool := toAsciiLowercase s == toAsciiLowercase t

/-- `classify.rs`, `bare_lower`: what follows the last dot, lower-cased. -/
def bareLower (name : String) : String :=
  toAsciiLowercase (String.ofList (name.toList.reverse.takeWhile (· != '.')).reverse)

@[simp] theorem toAsciiLowercase_bareLower (name : String) :
    toAsciiLowercase (bareLower name) = bareLower name := by simp [bareLower]

example : bareLower "Public.Users" = "users" := by decide

/-! ## Whitespace -/

/-- `char::is_whitespace`. -/
def isWhitespace (c : Char) : Bool :=
  let n := c.toNat
  (0x9 ≤ n && n ≤ 0xD) || (0x2000 ≤ n && n ≤ 0x200A) ||
    [0x20, 0x85, 0xA0, 0x1680, 0x2028, 0x2029, 0x202F, 0x205F, 0x3000].contains n

/-- `str::split_whitespace`. -/
def splitWhitespace (s : String) : List String :=
  ((s.toList.splitOnP isWhitespace).filter fun word => !word.isEmpty).map String.ofList

/-- `sql.trim_end().trim_end_matches(';')`. -/
def trimStatement (sql : String) : String :=
  String.ofList ((sql.toList.rdropWhile isWhitespace).rdropWhile (· == ';'))

example : splitWhitespace " CREATE  EXTENSION x" = ["CREATE", "EXTENSION", "x"] := by decide

example : trimStatement "INSERT INTO t (a) VALUES (1);\n" = "INSERT INTO t (a) VALUES (1)" := by
  decide

/-! ## Names in PostgreSQL -/

/-- `NAMEDATALEN`, less the byte that ends a name. -/
def NAME_BYTES : Nat := 63

/-- The bytes of a name in UTF-8. -/
def nameBytes (text : List Char) : Nat := (text.map Char.utf8Size).sum

@[simp] theorem nameBytes_cons (c : Char) (text : List Char) :
    nameBytes (c :: text) = c.utf8Size + nameBytes text := by
  rw [nameBytes, List.map_cons, List.sum_cons]
  rfl

/-- The characters that fit into so many bytes. -/
def clip : Nat → List Char → List Char
  | _, [] => []
  | room, c :: text => if c.utf8Size ≤ room then c :: clip (room - c.utf8Size) text else []

theorem clip_of_le {room : Nat} {text : List Char} (h : nameBytes text ≤ room) :
    clip room text = text := by
  induction text generalizing room with
  | nil => rfl
  | cons c text ih =>
    rw [nameBytes_cons] at h
    rw [clip, if_pos (by omega), ih (by omega)]

/-! ## Numbers in cache keys -/

/-- `format!("{:x}", n)`. -/
def lowerHex (n : Nat) : String := String.ofList (Nat.toDigits 16 n)

/-- `format!("{n}")`. -/
def decimal (n : Nat) : String := String.ofList (Nat.toDigits 10 n)

/-- Digits of different values are different characters. -/
theorem digitChar_inj :
    ∀ a < 16, ∀ b < 16, Nat.digitChar a = Nat.digitChar b → a = b := by decide

/-- No digit is a colon. -/
theorem digitChar_ne_colon : ∀ a < 16, ':' ≠ Nat.digitChar a := by decide

theorem digitChar_ne_slash : ∀ a < 16, '/' ≠ Nat.digitChar a := by decide

section Digits

variable {b : Nat} (hb : 1 < b) (hb16 : b ≤ 16)

include hb hb16

theorem notMem_toDigits {c : Char} (hc : ∀ a < 16, c ≠ Nat.digitChar a) (n : Nat) :
    c ∉ Nat.toDigits b n := by
  induction n using Nat.strong_induction_on with
  | _ n ih =>
    rcases Nat.lt_or_ge n b with h | h
    · rw [Nat.toDigits_of_lt_base h, List.mem_singleton]
      exact hc n (Nat.lt_of_lt_of_le h hb16)
    · rw [Nat.toDigits_of_base_le hb h, List.mem_append, List.mem_singleton]
      rintro (hmem | hmem)
      · exact ih (n / b) (Nat.div_lt_self (by omega) hb) hmem
      · have hlt : n % b < 16 := Nat.lt_of_lt_of_le (Nat.mod_lt n (by omega)) hb16
        exact hc _ hlt hmem

theorem colon_notMem_toDigits (n : Nat) : ':' ∉ Nat.toDigits b n :=
  notMem_toDigits hb hb16 digitChar_ne_colon n

/-- A number is determined by its digits. -/
theorem toDigits_inj {m n : Nat} (h : Nat.toDigits b m = Nat.toDigits b n) : m = n := by
  induction m using Nat.strong_induction_on generalizing n with
  | _ m ih =>
    rcases Nat.lt_or_ge m b with hm | hm <;> rcases Nat.lt_or_ge n b with hn | hn
    · rw [Nat.toDigits_of_lt_base hm, Nat.toDigits_of_lt_base hn, List.cons.injEq] at h
      exact digitChar_inj m (Nat.lt_of_lt_of_le hm hb16) n (Nat.lt_of_lt_of_le hn hb16) h.1
    · rw [Nat.toDigits_of_lt_base hm, Nat.toDigits_of_base_le hb hn] at h
      have hl := congrArg List.length h
      have := Nat.length_toDigits_pos (b := b) (n := n / b)
      simp at hl
    · rw [Nat.toDigits_of_base_le hb hm, Nat.toDigits_of_lt_base hn] at h
      have hl := congrArg List.length h
      have := Nat.length_toDigits_pos (b := b) (n := m / b)
      simp at hl
    · rw [Nat.toDigits_of_base_le hb hm, Nat.toDigits_of_base_le hb hn] at h
      obtain ⟨hq, hr⟩ := List.append_inj' h rfl
      rw [List.cons.injEq] at hr
      have hq' : m / b = n / b := ih (m / b) (Nat.div_lt_self (by omega) hb) hq
      have hmod : m % b = n % b :=
        digitChar_inj _ (Nat.lt_of_lt_of_le (Nat.mod_lt m (by omega)) hb16)
          _ (Nat.lt_of_lt_of_le (Nat.mod_lt n (by omega)) hb16) hr.1
      rw [← Nat.div_add_mod m b, ← Nat.div_add_mod n b, hq', hmod]

end Digits

/-- `format!("{hash}:{version}")`, the key of `QueryCache`. -/
def cacheKey (hash version : String) : String := hash ++ ":" ++ version

/-- The key `materialize` builds for a fingerprint and a version. -/
def snapshotKey (fingerprint version : Nat) : String :=
  cacheKey (lowerHex fingerprint) (decimal version)

/-- **Cache keys separate fingerprints and versions.** -/
theorem snapshotKey_inj {f f' v v' : Nat} (h : snapshotKey f v = snapshotKey f' v') :
    f = f' ∧ v = v' := by
  have hl := congrArg String.toList h
  simp only [snapshotKey, cacheKey, lowerHex, decimal, String.toList_append,
    String.toList_ofList] at hl
  have hcolon : (":" : String).toList = [':'] := by decide
  rw [hcolon, List.append_assoc, List.append_assoc, List.singleton_append,
    List.singleton_append] at hl
  obtain ⟨hf, -, hv⟩ := (List.append_cons_inj_of_notMem
    (colon_notMem_toDigits (by decide : 1 < 16) (by decide) f)
    (colon_notMem_toDigits (by decide : 1 < 10) (by decide) v)).mp hl
  exact ⟨toDigits_inj (by decide) (by decide) hf, toDigits_inj (by decide) (by decide) hv⟩

end PgPaw
