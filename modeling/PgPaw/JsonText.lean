/-
# The text of a `serde_json::Value`

`serde_json` prints a value without white space, the fields of an object in their order, a double
as its shortest text, and a string with the escapes of JSON for quotes, backslashes and control
characters.

The text is a code that is read back (`textOf_inj`): where a value ends is told by what follows, a
comma or a closing bracket, and nothing else.  A double is represented by its text, so all that
is asked of it is that the text is one of a double.

`serde_json` itself reads its texts back but for two things: it reads a double with less precision
than it prints it, and it refuses values nested too deep (`RereadBy`).
-/
import PgPaw.Json
import PgPaw.Text
import PgPaw.Lib.PrefixCode

namespace PgPaw

open PrefixCode

/-! ## 1. Characters and numbers -/

/-- A character of a string, escaped. -/
def escapeChar (c : Char) : List Char :=
  if c = '"' then ['\\', '"']
  else if c = '\\' then ['\\', '\\']
  else if c.toNat = 0x8 then ['\\', 'b']
  else if c.toNat = 0x9 then ['\\', 't']
  else if c.toNat = 0xA then ['\\', 'n']
  else if c.toNat = 0xC then ['\\', 'f']
  else if c.toNat = 0xD then ['\\', 'r']
  else if c.toNat < 0x20 then
    ['\\', 'u', '0', '0', Nat.digitChar (c.toNat / 16), Nat.digitChar (c.toNat % 16)]
  else [c]

/-- A string. -/
def stringText (text : String) : List Char := '"' :: (text.toList.flatMap escapeChar ++ ['"'])

/-- A number. -/
def Number.text : Number → List Char
  | integer n =>
    if n < 0 then '-' :: Nat.toDigits 10 n.natAbs else Nat.toDigits 10 n.natAbs
  | float text => text.toList

/-- The characters of a number. -/
def isNumberChar (c : Char) : Bool := c.isDigit || ['-', '+', '.', 'e'].contains c

/-- The text of a double: it has a decimal point or an exponent, which no integer has. -/
def IsFloatText (text : String) : Prop :=
  (∀ c ∈ text.toList, isNumberChar c = true) ∧ ('.' ∈ text.toList ∨ 'e' ∈ text.toList)

namespace Json

mutual

/-- `Value: Display`. -/
def textOf : Json → List Char
  | null => ['n', 'u', 'l', 'l']
  | bool true => ['t', 'r', 'u', 'e']
  | bool false => ['f', 'a', 'l', 's', 'e']
  | number n => n.text
  | string text => stringText text
  | array [] => ['[', ']']
  | array (item :: items) => '[' :: (textOf item ++ itemsText items)
  | object [] => ['\x7b', '\x7d']
  | object ((name, value) :: fields) =>
    '\x7b' :: (stringText name ++ ':' :: (textOf value ++ fieldsText fields))

/-- The items after the first, and the bracket. -/
def itemsText : List Json → List Char
  | [] => [']']
  | item :: items => ',' :: (textOf item ++ itemsText items)

def fieldsText : List (String × Json) → List Char
  | [] => ['\x7d']
  | (name, value) :: fields =>
    ',' :: (stringText name ++ ':' :: (textOf value ++ fieldsText fields))

end

mutual

/-- The doubles of a value. -/
def floats : Json → List String
  | null | bool _ | number (.integer _) | string _ => []
  | number (.float text) => [text]
  | array items => itemFloats items
  | object fields => fieldFloats fields

def itemFloats : List Json → List String
  | [] => []
  | item :: items => floats item ++ itemFloats items

def fieldFloats : List (String × Json) → List String
  | [] => []
  | (_, value) :: fields => floats value ++ fieldFloats fields

end

/-- `Value: Display`. -/
def display (value : Json) : String := String.ofList value.textOf

/-- The doubles are texts of doubles. -/
def Printed (value : Json) : Prop := ∀ text ∈ value.floats, IsFloatText text

end Json

example : (Json.object [("a", .array [.null, .string "q\"\n"]),
    ("b", .number (.integer (-7)))]).display =
      "\x7b\"a\":[null,\"q\\\"\\n\"],\"b\":-7\x7d" := by decide +kernel

/-! ## 2. Strings are read back -/

/-- The value of a hexadecimal digit. -/
def hexValue (c : Char) : Nat :=
  if c.isDigit then c.toNat - '0'.toNat else c.toNat - 'a'.toNat + 10

/-- The first character of an escaped text. -/
def readChar : List Char → Option (Char × List Char)
  | '\\' :: '"' :: rest => some ('"', rest)
  | '\\' :: '\\' :: rest => some ('\\', rest)
  | '\\' :: 'b' :: rest => some (Char.ofNat 0x8, rest)
  | '\\' :: 't' :: rest => some (Char.ofNat 0x9, rest)
  | '\\' :: 'n' :: rest => some (Char.ofNat 0xA, rest)
  | '\\' :: 'f' :: rest => some (Char.ofNat 0xC, rest)
  | '\\' :: 'r' :: rest => some (Char.ofNat 0xD, rest)
  | '\\' :: 'u' :: '0' :: '0' :: high :: low :: rest =>
    some (Char.ofNat (16 * hexValue high + hexValue low), rest)
  | c :: rest => some (c, rest)
  | [] => none

theorem hexValue_digitChar : ∀ n < 0x20,
    16 * hexValue (Nat.digitChar (n / 16)) + hexValue (Nat.digitChar (n % 16)) = n := by decide

theorem readChar_escapeChar (c : Char) (rest : List Char) :
    readChar (escapeChar c ++ rest) = some (c, rest) := by
  have hself (n : Nat) (h : c.toNat = n) : Char.ofNat n = c := by rw [← h, Char.ofNat_toNat]
  unfold escapeChar
  split_ifs with hquote hslash hb ht hn hf hr hcontrol
  · rw [hquote]; rfl
  · rw [hslash]; rfl
  · rw [← hself _ hb]; rfl
  · rw [← hself _ ht]; rfl
  · rw [← hself _ hn]; rfl
  · rw [← hself _ hf]; rfl
  · rw [← hself _ hr]; rfl
  · have hvalue := hexValue_digitChar c.toNat hcontrol
    change some (Char.ofNat (16 * hexValue _ + hexValue _), rest) = _
    rw [hvalue, Char.ofNat_toNat]
  · rw [List.singleton_append]
    unfold readChar
    split <;> simp_all

/-- No escaped character starts with a quote. -/
theorem escapeChar_ne_quote (c : Char) (rest rest' : List Char) :
    escapeChar c ++ rest ≠ '"' :: rest' := by
  unfold escapeChar
  split_ifs with hquote <;> simp [*]

theorem separates_stringText : Separates stringText anything := by
  have hchars : Separates escapeChar anything :=
    separates_of_read fun c rest _ => readChar_escapeChar c rest
  have hlist := separates_list hchars escapeChar_ne_quote
  intro s t r r' hr hr' heq
  have htail := (List.cons.inj heq).2
  obtain ⟨hst, hrest⟩ := hlist s.toList t.toList r r' hr hr' htail
  exact ⟨String.toList_inj.mp hst, hrest⟩

/-! ## 3. Numbers are read back -/

theorem isNumberChar_digits (n : Nat) : ∀ c ∈ Nat.toDigits 10 n, isNumberChar c = true := by
  intro c hc
  have hdigit := Nat.isDigit_of_mem_toDigits (by decide) (by decide) hc
  simp [isNumberChar, hdigit]

/-- What an integer has no character of. -/
theorem notMem_integer (n : Int) :
    '.' ∉ (Number.integer n).text ∧ 'e' ∉ (Number.integer n).text := by
  have hdigits (c : Char) (hc : c.isDigit = false) (m : Nat) : c ∉ Nat.toDigits 10 m := by
    intro h
    rw [Nat.isDigit_of_mem_toDigits (by decide) (by decide) h] at hc
    cases hc
  change '.' ∉ (if n < 0 then _ else _) ∧ 'e' ∉ (if n < 0 then _ else _)
  split
  · exact ⟨by simp [hdigits '.' rfl], by simp [hdigits 'e' rfl]⟩
  · exact ⟨hdigits '.' rfl _, hdigits 'e' rfl _⟩

/-- The text of a number is one of number characters, and there is one. -/
theorem number_text {n : Number} (h : (Json.number n).Printed) :
    (∀ c ∈ n.text, isNumberChar c = true) ∧ n.text ≠ [] := by
  cases n with
  | integer n =>
    change (∀ c ∈ (if n < 0 then _ else _), isNumberChar c = true) ∧ (if n < 0 then _ else _) ≠ _
    split
    · refine ⟨fun c hc => ?_, List.cons_ne_nil _ _⟩
      rcases List.mem_cons.mp hc with rfl | hc
      · rfl
      · exact isNumberChar_digits _ c hc
    · exact ⟨isNumberChar_digits _, Nat.toDigits_ne_nil⟩
  | float text =>
    obtain ⟨hchars, hfloat⟩ := h text (List.mem_singleton.mpr rfl)
    refine ⟨hchars, fun hnil => ?_⟩
    change text.toList = [] at hnil
    rw [hnil] at hfloat
    rcases hfloat with hdot | he
    · cases hdot
    · cases he

theorem integer_text_inj {m n : Int} (h : (Number.integer m).text = (Number.integer n).text) :
    m = n := by
  have hminus (k : Nat) : '-' ∉ Nat.toDigits 10 k := by
    intro hmem
    have hdigit := Nat.isDigit_of_mem_toDigits (by decide) (by decide) hmem
    cases hdigit
  have hinj : ∀ {j k : Nat}, Nat.toDigits 10 j = Nat.toDigits 10 k → j = k :=
    toDigits_inj (by decide) (by decide)
  change (if m < 0 then _ else _) = (if n < 0 then _ else _) at h
  split_ifs at h with hm hn hn
  · have habs := hinj (List.cons.inj h).2
    omega
  · exact absurd (h ▸ List.mem_cons_self) (hminus n.natAbs)
  · exact absurd (h ▸ List.mem_cons_self) (hminus m.natAbs)
  · have habs := hinj h
    omega

/-- A number is determined by its text. -/
theorem number_text_inj {m n : Number} (hm : (Json.number m).Printed) (hn : (Json.number n).Printed)
    (h : m.text = n.text) : m = n := by
  have hmixed (k : Int) (text : String) (htext : (Json.number (.float text)).Printed)
      (heq : (Number.integer k).text = (Number.float text).text) : False := by
    obtain ⟨-, hfloat⟩ := htext text (List.mem_singleton.mpr rfl)
    obtain ⟨hdot, he⟩ := notMem_integer k
    rw [heq] at hdot he
    rcases hfloat with hmem | hmem
    · exact hdot hmem
    · exact he hmem
  cases m with
  | integer j =>
    cases n with
    | integer k => rw [integer_text_inj h]
    | float text => exact (hmixed j text hn h).elim
  | float s =>
    cases n with
    | integer k => exact (hmixed k s hm h.symm).elim
    | float t => rw [String.toList_inj.mp h]

/-! ## 4. Values are read back -/

namespace Json

/-- What a value is, told by its first character; a bracket that closes is none. -/
def kindOf (c : Char) : Nat :=
  if c = 'n' then 0
  else if c = 't' then 1
  else if c = 'f' then 2
  else if c = '"' then 3
  else if c = '[' then 4
  else if c = '\x7b' then 5
  else if isNumberChar c then 6
  else 7

def kind : Json → Nat
  | null => 0
  | bool true => 1
  | bool false => 2
  | string _ => 3
  | array _ => 4
  | object _ => 5
  | number _ => 6

/-- **The first character** tells what the value is. -/
theorem exists_textOf {value : Json} (h : value.Printed) :
    ∃ c rest, value.textOf = c :: rest ∧ kindOf c = value.kind := by
  cases value with
  | null => exact ⟨_, _, rfl, rfl⟩
  | bool b => cases b <;> exact ⟨_, _, rfl, rfl⟩
  | string text => exact ⟨_, _, rfl, rfl⟩
  | array items => cases items <;> exact ⟨_, _, by rw [textOf], rfl⟩
  | object fields =>
    cases fields with
    | nil => exact ⟨_, _, by rw [textOf], rfl⟩
    | cons field fields => exact ⟨_, _, by rw [textOf], rfl⟩
  | number n =>
    obtain ⟨hchars, hne⟩ := number_text h
    obtain ⟨c, rest, htext⟩ := List.exists_cons_of_ne_nil hne
    refine ⟨c, rest, by rw [textOf, htext], ?_⟩
    have hc : isNumberChar c = true := hchars c (by rw [htext]; exact List.mem_cons_self)
    have hne (d : Char) (hd : isNumberChar d = false) : c ≠ d := by
      rintro rfl
      rw [hc] at hd
      cases hd
    simp [kindOf, kind, hc, hne 'n' (by decide), hne 't' (by decide), hne 'f' (by decide),
      hne '"' (by decide), hne '[' (by decide), hne '\x7b' (by decide)]

theorem kind_eq_of_append {v w : Json} {r r' : List Char} (hv : v.Printed) (hw : w.Printed)
    (h : v.textOf ++ r = w.textOf ++ r') : v.kind = w.kind := by
  obtain ⟨c, rest, hc, hkind⟩ := exists_textOf hv
  obtain ⟨d, rest', hd, hkind'⟩ := exists_textOf hw
  rw [hc, hd, List.cons_append, List.cons_append] at h
  rw [← hkind, ← hkind', (List.cons.inj h).1]

/-- No value starts with a bracket that closes. -/
theorem textOf_ne_cons {value : Json} (h : value.Printed) {c : Char} (hc : kindOf c = 7)
    (r r' : List Char) : value.textOf ++ r ≠ c :: r' := by
  intro heq
  obtain ⟨d, rest, hd, hkind⟩ := exists_textOf h
  rw [hd, List.cons_append] at heq
  rw [(List.cons.inj heq).1, hc] at hkind
  cases value with
  | bool b => cases b <;> cases hkind
  | _ => cases hkind

theorem printed_item {item : Json} {items : List Json} (h : (array (item :: items)).Printed) :
    item.Printed ∧ (array items).Printed :=
  ⟨fun text htext => h text (List.mem_append_left _ htext),
    fun text htext => h text (List.mem_append_right _ htext)⟩

theorem printed_field {name : String} {value : Json} {fields : List (String × Json)}
    (h : (object ((name, value) :: fields)).Printed) :
    value.Printed ∧ (object fields).Printed :=
  ⟨fun text htext => h text (List.mem_append_left _ htext),
    fun text htext => h text (List.mem_append_right _ htext)⟩

/-- What follows an item is no part of a number. -/
theorem ends_itemsText (items : List Json) (r : List Char) :
    Ends isNumberChar (itemsText items ++ r) := by
  cases items with
  | nil => exact ends_cons (by decide) r
  | cons item items => exact ends_cons (by decide) _

theorem ends_fieldsText (fields : List (String × Json)) (r : List Char) :
    Ends isNumberChar (fieldsText fields ++ r) := by
  cases fields with
  | nil => exact ends_cons (by decide) r
  | cons field fields => exact ends_cons (by decide) _

mutual

/-- **A value is determined by its text**, where no number goes on after it. -/
theorem textOf_inj : ∀ (v w : Json) {r r' : List Char}, v.Printed → w.Printed →
    Ends isNumberChar r → Ends isNumberChar r' → v.textOf ++ r = w.textOf ++ r' → v = w ∧ r = r'
  | .null, w, r, r', hv, hw, _, _, h => by
    have hkind := kind_eq_of_append hv hw h
    cases w with
    | null => exact ⟨rfl, List.append_cancel_left h⟩
    | bool b => cases b <;> cases hkind
    | _ => cases hkind
  | .bool b, w, r, r', hv, hw, _, _, h => by
    have hkind := kind_eq_of_append hv hw h
    cases w with
    | bool b' => cases b <;> cases b' <;> first
      | exact ⟨rfl, List.append_cancel_left h⟩
      | cases hkind
    | _ => cases b <;> cases hkind
  | .number n, w, r, r', hv, hw, hr, hr', h => by
    have hkind := kind_eq_of_append hv hw h
    cases w with
    | number m =>
      obtain ⟨htext, hrest⟩ :=
        append_inj_of_ends (number_text hv).1 (number_text hw).1 hr hr' h
      exact ⟨by rw [number_text_inj hv hw htext], hrest⟩
    | bool b => cases b <;> cases hkind
    | _ => cases hkind
  | .string s, w, r, r', hv, hw, _, _, h => by
    have hkind := kind_eq_of_append hv hw h
    cases w with
    | string t =>
      obtain ⟨rfl, hrest⟩ := separates_stringText s t r r' trivial trivial h
      exact ⟨rfl, hrest⟩
    | bool b => cases b <;> cases hkind
    | _ => cases hkind
  | .array [], w, r, r', hv, hw, _, _, h => by
    have hkind := kind_eq_of_append hv hw h
    cases w with
    | array ys =>
      cases ys with
      | nil => exact ⟨rfl, List.append_cancel_left h⟩
      | cons y ys =>
        simp only [textOf, List.cons_append, List.append_assoc] at h
        exact absurd (List.cons.inj h).2.symm
          (textOf_ne_cons (printed_item hw).1 (c := ']') (by decide) _ r)
    | bool b => cases b <;> cases hkind
    | _ => cases hkind
  | .array (x :: xs), w, r, r', hv, hw, _, _, h => by
    have hkind := kind_eq_of_append hv hw h
    cases w with
    | array ys =>
      cases ys with
      | nil =>
        simp only [textOf, List.cons_append, List.append_assoc] at h
        exact absurd (List.cons.inj h).2
          (textOf_ne_cons (printed_item hv).1 (c := ']') (by decide) _ r')
      | cons y ys =>
        simp only [textOf, List.cons_append, List.append_assoc] at h
        obtain ⟨rfl, htail⟩ := textOf_inj x y (printed_item hv).1 (printed_item hw).1
          (ends_itemsText xs r) (ends_itemsText ys r') (List.cons.inj h).2
        obtain ⟨rfl, hrest⟩ := itemsText_inj xs ys (printed_item hv).2 (printed_item hw).2 htail
        exact ⟨rfl, hrest⟩
    | bool b => cases b <;> cases hkind
    | _ => cases hkind
  | .object [], w, r, r', hv, hw, _, _, h => by
    have hkind := kind_eq_of_append hv hw h
    cases w with
    | object ys =>
      cases ys with
      | nil => exact ⟨rfl, List.append_cancel_left h⟩
      | cons y ys =>
        obtain ⟨name, value⟩ := y
        rw [textOf, textOf] at h
        cases (List.cons.inj (List.cons.inj h).2).1
    | bool b => cases b <;> cases hkind
    | _ => cases hkind
  | .object ((name, x) :: xs), w, r, r', hv, hw, _, _, h => by
    have hkind := kind_eq_of_append hv hw h
    cases w with
    | object ys =>
      cases ys with
      | nil =>
        rw [textOf, textOf] at h
        cases (List.cons.inj (List.cons.inj h).2).1
      | cons y ys =>
        obtain ⟨name', y⟩ := y
        simp only [textOf, List.cons_append, List.append_assoc] at h
        obtain ⟨rfl, hvalue⟩ :=
          separates_stringText name name' _ _ trivial trivial (List.cons.inj h).2
        obtain ⟨rfl, htail⟩ := textOf_inj x y (printed_field hv).1 (printed_field hw).1
          (ends_fieldsText xs r) (ends_fieldsText ys r') (List.cons.inj hvalue).2
        obtain ⟨heq, hrest⟩ := fieldsText_inj xs ys (printed_field hv).2 (printed_field hw).2 htail
        exact ⟨by rw [heq], hrest⟩
    | bool b => cases b <;> cases hkind
    | _ => cases hkind

theorem itemsText_inj : ∀ (xs ys : List Json) {r r' : List Char}, (array xs).Printed →
    (array ys).Printed → itemsText xs ++ r = itemsText ys ++ r' → xs = ys ∧ r = r'
  | [], [], _, _, _, _, h => ⟨rfl, (List.cons.inj h).2⟩
  | [], _ :: _, _, _, _, _, h => by
    rw [itemsText, itemsText] at h
    cases (List.cons.inj h).1
  | _ :: _, [], _, _, _, _, h => by
    rw [itemsText, itemsText] at h
    cases (List.cons.inj h).1
  | x :: xs, y :: ys, r, r', hv, hw, h => by
    simp only [itemsText, List.cons_append, List.append_assoc] at h
    obtain ⟨rfl, htail⟩ := textOf_inj x y (printed_item hv).1 (printed_item hw).1
      (ends_itemsText xs r) (ends_itemsText ys r') (List.cons.inj h).2
    obtain ⟨rfl, hrest⟩ := itemsText_inj xs ys (printed_item hv).2 (printed_item hw).2 htail
    exact ⟨rfl, hrest⟩

theorem fieldsText_inj : ∀ (xs ys : List (String × Json)) {r r' : List Char},
    (object xs).Printed → (object ys).Printed → fieldsText xs ++ r = fieldsText ys ++ r' →
      xs = ys ∧ r = r'
  | [], [], _, _, _, _, h => ⟨rfl, (List.cons.inj h).2⟩
  | [], (_, _) :: _, _, _, _, _, h => by
    rw [fieldsText, fieldsText] at h
    cases (List.cons.inj h).1
  | (_, _) :: _, [], _, _, _, _, h => by
    rw [fieldsText, fieldsText] at h
    cases (List.cons.inj h).1
  | (name, x) :: xs, (name', y) :: ys, r, r', hv, hw, h => by
    simp only [fieldsText, List.cons_append, List.append_assoc] at h
    obtain ⟨rfl, hvalue⟩ :=
      separates_stringText name name' _ _ trivial trivial (List.cons.inj h).2
    obtain ⟨rfl, htail⟩ := textOf_inj x y (printed_field hv).1 (printed_field hw).1
      (ends_fieldsText xs r) (ends_fieldsText ys r') (List.cons.inj hvalue).2
    obtain ⟨rfl, hrest⟩ := fieldsText_inj xs ys (printed_field hv).2 (printed_field hw).2 htail
    exact ⟨rfl, hrest⟩

end

/-- **Printing is injective.** -/
theorem display_inj {v w : Json} (hv : v.Printed) (hw : w.Printed) (h : v.display = w.display) :
    v = w := by
  have htext : v.textOf = w.textOf := String.ofList_inj.mp h
  exact (textOf_inj v w hv hw (ends_nil _) (ends_nil _) (by rw [htext])).1

/-! ## 5. What `serde_json` reads of a text it printed -/

mutual

/-- How deep arrays and objects are nested. -/
def depth : Json → Nat
  | null | bool _ | number _ | string _ => 0
  | array items => itemDepth items + 1
  | object fields => fieldDepth fields + 1

def itemDepth : List Json → Nat
  | [] => 0
  | item :: items => max (depth item) (itemDepth items)

def fieldDepth : List (String × Json) → Nat
  | [] => 0
  | (_, value) :: fields => max (depth value) (fieldDepth fields)

end

mutual

/-- A value read back: the doubles are read again, and reading one may fail. -/
def reread (double : String → Option String) : Json → Option Json
  | number (.float text) => (double text).map fun text => number (.float text)
  | array items => (rereadItems double items).map array
  | object fields => (rereadFields double fields).map object
  | null => some null
  | bool b => some (bool b)
  | number (.integer n) => some (number (.integer n))
  | string text => some (string text)

def rereadItems (double : String → Option String) : List Json → Option (List Json)
  | [] => some []
  | item :: items => (reread double item).bind fun item' =>
    (rereadItems double items).map (item' :: ·)

def rereadFields (double : String → Option String) :
    List (String × Json) → Option (List (String × Json))
  | [] => some []
  | (name, value) :: fields => (reread double value).bind fun value' =>
    (rereadFields double fields).map ((name, value') :: ·)

end

/-- `serde_json`'s limit on the nesting it reads. -/
def RECURSION_LIMIT : Nat := 128

/-- `from_str` on the text of a value: the value, with its doubles read with the precision
`serde_json` has by default, unless it is nested too deep. -/
def RereadBy (fromStr : String → Option Json) (double : String → Option String) (value : Json) :
    Prop :=
  fromStr value.display = if value.depth < RECURSION_LIMIT then value.reread double else none

mutual

/-- **A value is read back as itself** exactly if its doubles are. -/
theorem reread_eq_self_iff (double : String → Option String) : ∀ value : Json,
    value.reread double = some value ↔ ∀ text ∈ value.floats, double text = some text
  | null => iff_of_true rfl fun _ h => by cases h
  | bool _ => iff_of_true rfl fun _ h => by cases h
  | string _ => iff_of_true rfl fun _ h => by cases h
  | number (.integer _) => iff_of_true rfl fun _ h => by cases h
  | number (.float text) => by simp [reread, floats]
  | array items => by
    have ih := rereadItems_eq_self_iff double items
    rw [reread, floats, ← ih]
    simp
  | object fields => by
    have ih := rereadFields_eq_self_iff double fields
    rw [reread, floats, ← ih]
    simp

theorem rereadItems_eq_self_iff (double : String → Option String) : ∀ items : List Json,
    rereadItems double items = some items ↔ ∀ text ∈ itemFloats items, double text = some text
  | [] => iff_of_true rfl fun _ h => by cases h
  | item :: items => by
    have hitem := reread_eq_self_iff double item
    have hitems := rereadItems_eq_self_iff double items
    rw [rereadItems, itemFloats, List.forall_mem_append, ← hitem, ← hitems]
    simp only [Option.bind_eq_some_iff, Option.map_eq_some_iff, List.cons.injEq]
    constructor
    · rintro ⟨_, hv, _, hvs, rfl, rfl⟩
      exact ⟨hv, hvs⟩
    · rintro ⟨hv, hvs⟩
      exact ⟨item, hv, items, hvs, rfl, rfl⟩

theorem rereadFields_eq_self_iff (double : String → Option String) :
    ∀ fields : List (String × Json), rereadFields double fields = some fields ↔
      ∀ text ∈ fieldFloats fields, double text = some text
  | [] => iff_of_true rfl fun _ h => by cases h
  | (name, value) :: fields => by
    have hvalue := reread_eq_self_iff double value
    have hfields := rereadFields_eq_self_iff double fields
    rw [rereadFields, fieldFloats, List.forall_mem_append, ← hvalue, ← hfields]
    simp only [Option.bind_eq_some_iff, Option.map_eq_some_iff, List.cons.injEq, Prod.mk.injEq]
    constructor
    · rintro ⟨_, hv, _, hvs, ⟨-, rfl⟩, rfl⟩
      exact ⟨hv, hvs⟩
    · rintro ⟨hv, hvs⟩
      exact ⟨value, hv, fields, hvs, ⟨trivial, rfl⟩, rfl⟩

end

end Json

end PgPaw
