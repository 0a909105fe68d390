/-
# `tanstack-db/src/stream.ts`

`readSse` decodes the chunks of a response body, cuts frames off the text at empty lines, and
yields what `JSON.parse` makes of their data.  The chunks end anywhere, also inside a character
or between the two line feeds of an empty line.

`readSse_wire` says what it yields for the frames the hub sends, with comments between them:
the object of every frame whose last byte has arrived, in order.
-/
import PgPaw.Capability.Frame
import PgPaw.Lib.Framing
import PgPaw.Lib.Utf8

namespace PgPaw.Client

open Framing

/-! ## 1. `readSse` -/

/-- The characters `trim` removes. -/
def isTrimmed (c : Char) : Bool :=
  let n := c.toNat
  (0x9 ≤ n && n ≤ 0xD) || (0x2000 ≤ n && n ≤ 0x200A) ||
    [0x20, 0xA0, 0x1680, 0x2028, 0x2029, 0x202F, 0x205F, 0x3000, 0xFEFF].contains n

/-- `text.trim()`. -/
def trim (text : List Char) : List Char :=
  (((text.dropWhile isTrimmed).reverse).dropWhile isTrimmed).reverse

/-- `JSON.parse`; absent when it throws. -/
abbrev Parse := String → Option Json

/-- `parseFrame`; absent when it throws, and `null` where it returns that. -/
def parseFrame (parse : Parse) (frame : List Char) : Option Json :=
  match (frame.splitOn '\n').find? ("data:".toList.isPrefixOf ·) with
  | none => some .null
  | some line =>
    let payload := trim ((line.dropWhile (· != ':')).drop 1)
    if payload = [] then some .null else parse (String.ofList payload)

/-- The loop over the boundaries: what is yielded, what is left of the buffer, and whether
something threw. -/
def takeFrames (parse : Parse) (buffer : List Char) : List Json × List Char × Bool :=
  match h : cut '\n' buffer with
  | some (frame, rest) =>
    have := length_lt_of_cut h
    match parseFrame parse frame with
    | some event =>
      let (events, left, threw) := takeFrames parse rest
      (if event ≠ .null then event :: events else events, left, threw)
    | none => ([], rest, true)
  | none => ([], buffer, false)
termination_by buffer.length

/-- The variables of `readSse`. -/
structure Reader where
  decoder : Utf8.TextDecoder
  buffer : List Char

def Reader.new : Reader := ⟨.new, []⟩

/-- `readSse`, chunk by chunk: what it has yielded, and where it is unless something threw. -/
def readSse (parse : Parse) : Reader → List (List UInt8) → List Json × Option Reader
  | reader, [] => ([], some reader)
  | reader, chunk :: chunks =>
    let (decoder, text) := reader.decoder.decode chunk
    match takeFrames parse (reader.buffer ++ text) with
    | (events, left, false) =>
      let (later, last) := readSse parse ⟨decoder, left⟩ chunks
      (events ++ later, last)
    | (events, _, true) => (events, none)

/-! ## 2. What is on the wire -/

/-- What `serde_json` and `JSON.parse` are relied on for. -/
structure Printing (serde : Serde) (parse : Parse) : Prop where
  /-- Control characters are escaped. -/
  escaped : ∀ value, ∀ c ∈ (serde.toString value).toList, 0x20 ≤ c.toNat
  /-- An object is written in braces. -/
  braces : ∀ fields, ∃ inner, serde.toString (.object fields) = "\x7b" ++ inner ++ "\x7d"
  /-- What is written for an object reads as an object. -/
  parsed : ∀ fields, ∃ fields', parse (serde.toString (.object fields)) = some (.object fields')
  /-- And so does the object of a reset. -/
  reset : ∃ fields, parse (Live.Event.reset.text serde) = some (.object fields)

/-- A frame of the hub, or a comment: lines that begin with a colon. -/
inductive Item
  | event (event : Live.Event)
  | comment (line : List Char) (lines : List (List Char))

namespace Item

/-- The lines of a frame. -/
def lines (serde : Serde) : Item → List (List Char)
  | event e => [("data: " ++ e.text serde).toList]
  | comment line lines => (line :: lines).map (':' :: ·)

/-- A line of a comment has no line feed. -/
def Ok : Item → Prop
  | event _ => True
  | comment line lines => ∀ l ∈ line :: lines, '\n' ∉ l

/-- The event of a frame. -/
def event? : Item → Option Live.Event
  | event e => some e
  | comment _ _ => none

end Item

/-- The bytes of a frame. -/
def bytesOf (serde : Serde) (item : Item) : List UInt8 :=
  Utf8.encode (frame '\n' (item.lines serde))

/-- The text of some frames. -/
def wireText (serde : Serde) (items : List Item) : List Char :=
  items.flatMap fun item => frame '\n' (item.lines serde)

/-- The frames that are complete after some bytes. -/
def complete (serde : Serde) : List Item → Nat → List Item
  | [], _ => []
  | item :: items, n =>
    if (bytesOf serde item).length ≤ n then
      item :: complete serde items (n - (bytesOf serde item).length)
    else []

/-- A frame of the hub has the text of `live.rs`. -/
theorem frame_event (serde : Serde) (e : Live.Event) :
    frame '\n' ((Item.event e).lines serde) = (e.frame serde).toList := by
  have hend : ("\n\n" : String).toList = ['\n', '\n'] := by decide
  rw [Live.frame_eq, String.toList_append, hend, frame, Item.lines, List.intercalate_singleton]

section Frames

variable {serde : Serde} {parse : Parse}

/-- The text of an event has no control character. -/
theorem text_escaped (h : Printing serde parse) (e : Live.Event) :
    ∀ c ∈ (e.text serde).toList, 0x20 ≤ c.toNat := by
  cases e with
  | reset =>
    have hreset : ∀ c ∈ "\x7b\"op\":\"reset\"\x7d".toList, 0x20 ≤ c.toNat := by simp
    exact hreset
  | snapshotRows _ _ | snapshotUrl _ _ | delta _ _ | upToDate _ => exact h.escaped _

/-- It is an object. -/
theorem text_braces (h : Printing serde parse) (e : Live.Event) :
    ∃ inner, (e.text serde).toList = '\x7b' :: (inner ++ ['\x7d']) := by
  have hobject : ∀ fields, ∃ inner,
      (serde.toString (.object fields)).toList = '\x7b' :: (inner ++ ['\x7d']) := by
    intro fields
    obtain ⟨inner, hinner⟩ := h.braces fields
    refine ⟨inner.toList, ?_⟩
    rw [hinner, String.toList_append, String.toList_append]
    rfl
  cases e with
  | reset =>
    have hreset : "\x7b\"op\":\"reset\"\x7d".toList =
        '\x7b' :: ("\"op\":\"reset\"".toList ++ ['\x7d']) := by decide
    exact ⟨_, hreset⟩
  | snapshotRows _ _ | snapshotUrl _ _ | delta _ _ | upToDate _ => exact hobject _

/-- And it reads as one. -/
theorem parse_text (h : Printing serde parse) (e : Live.Event) :
    ∃ fields, parse (e.text serde) = some (.object fields) := by
  cases e with
  | reset => exact h.reset
  | snapshotRows _ _ | snapshotUrl _ _ | delta _ _ | upToDate _ => exact h.parsed _

theorem lines_event (h : Printing serde parse) (e : Live.Event) :
    '\n' ∉ ("data: " ++ e.text serde).toList := by
  rw [String.toList_append, List.mem_append]
  rintro (hmem | hmem)
  · exact absurd hmem (by decide)
  · exact absurd (text_escaped h e _ hmem) (by decide)

/-- Frames and comments are made of lines. -/
theorem Item.lines_ok (h : Printing serde parse) {item : Item} (hok : item.Ok) :
    Lines '\n' (item.lines serde) := by
  cases item with
  | event e =>
    refine ⟨List.cons_ne_nil _ _, fun line hline => ?_⟩
    obtain rfl := List.mem_singleton.mp hline
    refine ⟨?_, lines_event h e⟩
    rw [String.toList_append]
    exact List.append_ne_nil_of_left_ne_nil (by decide) _
  | comment line lines =>
    refine ⟨List.cons_ne_nil _ _, fun l hl => ?_⟩
    obtain ⟨l', hl', rfl⟩ := List.mem_map.mp hl
    refine ⟨List.cons_ne_nil _ _, fun hmem => ?_⟩
    rcases List.mem_cons.mp hmem with hcolon | hmem
    · exact absurd hcolon (by decide)
    · exact hok l' hl' hmem

/-- Nothing is trimmed from an object but the blank before it. -/
theorem trim_braces (inner : List Char) :
    trim (' ' :: '\x7b' :: (inner ++ ['\x7d'])) = '\x7b' :: (inner ++ ['\x7d']) := by
  have hblank : isTrimmed ' ' = true := by decide
  have hopen : isTrimmed '\x7b' = false := by decide
  have hclose : isTrimmed '\x7d' = false := by decide
  have hreverse : ('\x7b' :: (inner ++ ['\x7d'])).reverse =
      '\x7d' :: (inner.reverse ++ ['\x7b']) := by simp
  rw [trim, List.dropWhile_cons_of_pos hblank, List.dropWhile_cons_of_neg (by simp [hopen]),
    hreverse, List.dropWhile_cons_of_neg (by simp [hclose]), ← hreverse, List.reverse_reverse]

/-- **The object of a frame is what `JSON.parse` is given.** -/
theorem parseFrame_event (h : Printing serde parse) (e : Live.Event) :
    parseFrame parse (['\n'].intercalate ((Item.event e).lines serde)) = parse (e.text serde) := by
  obtain ⟨inner, hinner⟩ := text_braces h e
  have hdata : ("data: " ++ e.text serde).toList = 'd' :: 'a' :: 't' :: 'a' :: ':' :: ' ' ::
      (e.text serde).toList := by
    rw [String.toList_append]
    rfl
  have hpre : "data:".toList.isPrefixOf ("data: " ++ e.text serde).toList = true := by
    rw [hdata]
    rfl
  have hpayload : trim ((("data: " ++ e.text serde).toList.dropWhile (· != ':')).drop 1) =
      (e.text serde).toList := by
    rw [hdata, hinner]
    exact trim_braces inner
  have hne : (e.text serde).toList ≠ [] := by
    rw [hinner]
    exact List.cons_ne_nil _ _
  rw [parseFrame, Item.lines, List.intercalate_singleton,
    List.splitOn_eq_singleton (lines_event h e), List.find?_cons_of_pos hpre]
  simp only [hpayload, if_neg hne, String.ofList_toList]

/-- A comment has no data. -/
theorem parseFrame_comment {line : List Char} {lines : List (List Char)}
    (hok : (Item.comment line lines).Ok) :
    parseFrame parse (['\n'].intercalate ((Item.comment line lines).lines serde)) =
      some .null := by
  have hlines : ∀ l ∈ (line :: lines).map (':' :: ·), '\n' ∉ l := by
    intro l hl
    obtain ⟨l', hl', rfl⟩ := List.mem_map.mp hl
    intro hmem
    rcases List.mem_cons.mp hmem with hcolon | hmem
    · exact absurd hcolon (by decide)
    · exact hok l' hl' hmem
  have hnone : ((line :: lines).map (':' :: ·)).find? ("data:".toList.isPrefixOf ·) = none := by
    refine List.find?_eq_none.mpr fun l hl => ?_
    obtain ⟨l', -, rfl⟩ := List.mem_map.mp hl
    simp [List.isPrefixOf]
  rw [parseFrame, Item.lines, List.splitOn_intercalate '\n' hlines (by simp), hnone]

end Frames

/-! ## 3. The buffer -/

section Buffer

variable {parse : Parse}

/-- What is yielded for a frame that is parsed without an error. -/
def yielded (parse : Parse) (frame : List Char) : Option Json :=
  (parseFrame parse frame).filter (· ≠ .null)

/-- **The loop takes all frames that are complete.** -/
theorem takeFrames_eq (buffer : List Char)
    (hparse : ∀ frame ∈ (drain '\n' buffer).1, (parseFrame parse frame).isSome) :
    takeFrames parse buffer =
      ((drain '\n' buffer).1.filterMap (yielded parse), (drain '\n' buffer).2, false) := by
  induction buffer using drain.induct '\n' with
  | case1 buffer frame rest hcut _ _ _ _ ih =>
    rw [drain_of_cut hcut] at hparse ⊢
    obtain ⟨event, hevent⟩ := Option.isSome_iff_exists.mp (hparse frame List.mem_cons_self)
    have ih := ih fun f hf => hparse f (List.mem_cons_of_mem frame hf)
    rw [takeFrames]
    split
    · rename_i frame' rest' hcut'
      rw [hcut] at hcut'
      cases hcut'
      have hyielded : yielded parse frame = if event ≠ .null then some event else none := by
        rw [yielded, hevent]
        simp [Option.filter]
      simp only [hevent, ih, List.filterMap_cons, hyielded]
      by_cases hnull : event = .null <;> simp [hnull]
    · rename_i hcut'
      rw [hcut] at hcut'
      cases hcut'
  | case2 buffer hcut =>
    rw [drain_of_none hcut, takeFrames]
    split
    · rename_i hcut'
      rw [hcut] at hcut'
      cases hcut'
    · rfl

/-- **Chunk by chunk, the frames of the whole text.** -/
theorem readSse_eq (parse : Parse) : ∀ (chunks : List (List UInt8)) (reader : Reader),
    cut '\n' reader.buffer = none →
    (∀ frame ∈ (drain '\n' (reader.buffer ++ reader.decoder.decodeAll chunks)).1,
      (parseFrame parse frame).isSome) →
      (readSse parse reader chunks).1 =
        (drain '\n' (reader.buffer ++ reader.decoder.decodeAll chunks)).1.filterMap
          (yielded parse) ∧
      (readSse parse reader chunks).2.isSome = true
  | [], reader, hcut, _ => by
    rw [Utf8.TextDecoder.decodeAll, List.append_nil, drain_of_none hcut]
    exact ⟨rfl, rfl⟩
  | chunk :: chunks, reader, _, hparse => by
    rw [Utf8.TextDecoder.decodeAll, ← List.append_assoc, drain_append] at hparse ⊢
    have htake := takeFrames_eq (reader.buffer ++ (reader.decoder.decode chunk).2)
      fun f hf => hparse f (List.mem_append_left _ hf)
    obtain ⟨hevents, hlast⟩ := readSse_eq parse chunks
      ⟨(reader.decoder.decode chunk).1, (drain '\n' (reader.buffer ++
        (reader.decoder.decode chunk).2)).2⟩ (cut_left _)
      fun f hf => hparse f (List.mem_append_right _ hf)
    simp only [readSse, htake, List.filterMap_append, hevents, hlast, and_self]

end Buffer

/-! ## 4. The frames that have arrived -/

section Wire

variable {serde : Serde} {parse : Parse}

theorem encode_wireText_cons (item : Item) (items : List Item) :
    Utf8.encode (wireText serde (item :: items)) =
      bytesOf serde item ++ Utf8.encode (wireText serde items) := by
  rw [wireText, List.flatMap_cons, Utf8.encode_append]
  rfl

/-- All of them, after all bytes. -/
theorem complete_all : ∀ items : List Item,
    complete serde items (Utf8.encode (wireText serde items)).length = items
  | [] => rfl
  | item :: items => by
    have ih := complete_all items
    rw [encode_wireText_cons, List.length_append, complete, if_pos (Nat.le_add_right _ _),
      Nat.add_sub_cancel_left, ih]

/-- **The frames cut off after a part of the bytes** are the complete ones. -/
theorem drain_wireText (h : Printing serde parse) : ∀ {items : List Item} {bytes : List UInt8},
    (∀ item ∈ items, item.Ok) → bytes <+: Utf8.encode (wireText serde items) →
      (drain '\n' (Utf8.decode .start bytes).2).1 =
        (complete serde items bytes.length).map fun item => ['\n'].intercalate (item.lines serde)
  | [], bytes, _, hbytes => by
    obtain rfl := List.prefix_nil.mp hbytes
    rw [Utf8.decode, drain_of_none rfl]
    rfl
  | item :: items, bytes, hok, hbytes => by
    have hlines := Item.lines_ok h (hok item List.mem_cons_self)
    rw [encode_wireText_cons] at hbytes
    by_cases hlength : (bytesOf serde item).length ≤ bytes.length
    · -- the whole frame is there
      obtain ⟨more, rfl⟩ := List.prefix_of_prefix_length_le (List.prefix_append _ _) hbytes hlength
      have hmore := (List.prefix_append_right_inj _).mp hbytes
      have ih := drain_wireText h (fun i hi => hok i (List.mem_cons_of_mem item hi)) hmore
      rw [complete, if_pos hlength, List.length_append, Nat.add_sub_cancel_left, List.map_cons,
        Utf8.decode_append, bytesOf, Utf8.decode_encode, drain_frame hlines, ih]
    · -- the text so far ends before the frame does
      rw [bytesOf, ← Utf8.encode_append] at hbytes
      obtain ⟨hpre, hencoded⟩ := Utf8.decode_prefix hbytes
      have hshort : (Utf8.decode .start bytes).2.length <
          (frame '\n' (item.lines serde)).length := by
        by_contra hlong
        obtain ⟨rest, hrest⟩ := List.prefix_of_prefix_length_le (List.prefix_append _ _) hpre
          (Nat.le_of_not_lt hlong)
        rw [← hrest, Utf8.encode_append, List.length_append] at hencoded
        exact hlength (Nat.le_trans (Nat.le_add_right _ _) hencoded)
      rw [complete, if_neg hlength, drain_of_shorter hlines hshort hpre]
      rfl

/-- What a frame on the wire yields. -/
theorem yielded_lines (h : Printing serde parse) {item : Item} (hok : item.Ok) :
    (parseFrame parse (['\n'].intercalate (item.lines serde))).isSome ∧
      yielded parse (['\n'].intercalate (item.lines serde)) =
        item.event?.bind fun e => parse (e.text serde) := by
  cases item with
  | event e =>
    obtain ⟨fields, hfields⟩ := parse_text h e
    rw [yielded, parseFrame_event h, hfields]
    exact ⟨rfl, by simp [Item.event?, hfields]⟩
  | comment line lines =>
    rw [yielded, parseFrame_comment hok]
    exact ⟨rfl, by simp [Item.event?]⟩

/-- The text the hub sends has no byte order mark. -/
theorem head?_ne_mark {items : List Item} {bytes : List UInt8}
    (hbytes : bytes <+: Utf8.encode (wireText serde items)) :
    (Utf8.decode .start bytes).2.head? ≠ some Utf8.TextDecoder.mark := by
  have hpre := (Utf8.decode_prefix hbytes).1
  cases items with
  | nil =>
    rw [List.prefix_nil.mp hpre]
    intro hmark
    cases hmark
  | cons item items =>
    have hhead : (wireText serde (item :: items)).head? = some 'd' ∨
        (wireText serde (item :: items)).head? = some ':' := by
      cases item with
      | event e =>
        left
        simp [wireText, frame_event, Live.frame_eq]
      | comment line lines =>
        right
        simp [wireText, frame, Item.lines]
    intro hmark
    obtain ⟨c, text, htext⟩ : ∃ c text, (Utf8.decode .start bytes).2 = c :: text := by
      cases hout : (Utf8.decode .start bytes).2 with
      | nil =>
        rw [hout] at hmark
        cases hmark
      | cons c text => exact ⟨c, text, rfl⟩
    obtain ⟨more, hmore⟩ := hpre
    rw [htext] at hmark hmore
    rw [← hmore] at hhead
    simp only [List.cons_append, List.head?_cons, Option.some.injEq] at hmark hhead
    rw [hmark] at hhead
    exact absurd hhead (by decide)

theorem mem_of_mem_complete {item : Item} : ∀ {items : List Item} {n : Nat},
    item ∈ complete serde items n → item ∈ items
  | [], _, h => absurd h List.not_mem_nil
  | i :: items, n, h => by
    rw [complete] at h
    split at h
    · rcases List.mem_cons.mp h with rfl | h
      · exact List.mem_cons_self
      · exact List.mem_cons_of_mem i (mem_of_mem_complete h)
    · exact absurd h List.not_mem_nil

/-- The object of every event, and nothing for a comment. -/
theorem map_some_events (h : Printing serde parse) : ∀ items : List Item,
    (items.filterMap fun item => item.event?.bind fun e => parse (e.text serde)).map some =
      (items.filterMap Item.event?).map fun e => parse (e.text serde)
  | [] => rfl
  | item :: items => by
    have ih := map_some_events h items
    cases item with
    | event e =>
      obtain ⟨fields, hfields⟩ := parse_text h e
      have hevent : (Item.event e).event? = some e := rfl
      simp only [List.filterMap_cons, hevent, Option.bind_some, hfields, List.map_cons, ih]
    | comment line lines => exact ih

/-- **What arrives is yielded**: after any chunks of the bytes of some frames and comments,
wherever the chunks end, `readSse` has yielded the object of every frame that is complete, in
order, and nothing else. -/
theorem readSse_wire (h : Printing serde parse) {items : List Item}
    (hok : ∀ item ∈ items, item.Ok) {chunks : List (List UInt8)}
    (hchunks : chunks.flatten <+: Utf8.encode (wireText serde items)) :
    (readSse parse .new chunks).2.isSome = true ∧
      (readSse parse .new chunks).1.map some =
        ((complete serde items chunks.flatten.length).filterMap Item.event?).map
          (fun e => parse (e.text serde)) ∧
      (chunks.flatten = Utf8.encode (wireText serde items) →
        (readSse parse .new chunks).1.map some =
          (items.filterMap Item.event?).map (fun e => parse (e.text serde))) := by
  have htext : Utf8.TextDecoder.decodeAll .new chunks = (Utf8.decode .start chunks.flatten).2 :=
    Utf8.TextDecoder.decodeAll_eq fun _ => head?_ne_mark hchunks
  have hframes : (drain '\n' (Reader.new.buffer ++ Reader.new.decoder.decodeAll chunks)).1 =
      (complete serde items chunks.flatten.length).map
        fun item => ['\n'].intercalate (item.lines serde) := by
    rw [← drain_wireText h hok hchunks, ← htext]
    rfl
  have hitems : ∀ item ∈ complete serde items chunks.flatten.length, item.Ok :=
    fun item hitem => hok item (mem_of_mem_complete hitem)
  obtain ⟨hevents, hlast⟩ := readSse_eq parse chunks .new rfl (by
    intro f hf
    rw [hframes] at hf
    obtain ⟨item, hitem, rfl⟩ := List.mem_map.mp hf
    exact (yielded_lines h (hitems item hitem)).1)
  have hyield : (readSse parse .new chunks).1.map some =
      ((complete serde items chunks.flatten.length).filterMap Item.event?).map
        fun e => parse (e.text serde) := by
    rw [hevents, hframes, List.filterMap_map, ← map_some_events h]
    exact congrArg _
      (List.filterMap_congr fun item hitem => (yielded_lines h (hitems item hitem)).2)
  refine ⟨hlast, hyield, fun hwhole => ?_⟩
  rw [hyield, hwhole, complete_all]

end Wire

/-! ## 5. A character and an empty line cut in two -/

/-- A row was inserted under a key that is not ASCII. -/
def cafe : Live.Event := .delta (.insert "\u00e9" (.object [("id", .string "\u00e9")])) 7

def cafeText : String :=
  "\x7b\"key\":\"\u00e9\",\"op\":\"insert\",\"row\":\x7b\"id\":\"\u00e9\"\x7d,\"txid\":7\x7d"

def doneText : String := "\x7b\"op\":\"up-to-date\",\"txid\":7\x7d"

/-- `serde_json` on two objects, and `JSON.parse` on their texts. -/
def cafeSerde : Serde where
  fromStr _ := none
  toString
    | .object fields =>
      if Json.object fields = cafe.payload then cafeText
      else if Json.object fields = (Live.Event.upToDate 7).payload then doneText
      else "\x7b\x7d"
    | _ => "null"
  finish _ := 0

def cafeParse : Parse := fun text =>
  if text = cafeText then some cafe.payload
  else if text = doneText then some (Live.Event.upToDate 7).payload
  else some (.object [])

theorem printing_cafe : Printing cafeSerde cafeParse where
  escaped := by
    have htexts : ∀ text ∈ [cafeText, doneText, "\x7b\x7d", "null"], ∀ c ∈ text.toList,
        0x20 ≤ c.toNat := by simp [cafeText, doneText]
    intro value c hc
    refine htexts (cafeSerde.toString value) ?_ c hc
    unfold cafeSerde
    dsimp only
    split
    · split_ifs <;> simp
    · simp
  braces := by
    intro fields
    unfold cafeSerde
    dsimp only
    split_ifs
    · exact ⟨"\"key\":\"\u00e9\",\"op\":\"insert\",\"row\":\x7b\"id\":\"\u00e9\"\x7d,\"txid\":7",
        by decide⟩
    · exact ⟨"\"op\":\"up-to-date\",\"txid\":7", by decide⟩
    · exact ⟨"", by decide⟩
  parsed := by
    intro fields
    unfold cafeParse
    split_ifs
    · exact ⟨_, rfl⟩
    · exact ⟨_, rfl⟩
    · exact ⟨_, rfl⟩
  reset := ⟨[], by decide⟩

/-- A change, a comment, and the end of the transaction. -/
def cafeItems : List Item :=
  [.event cafe, .comment " keep-alive".toList [], .event (.upToDate 7)]

/-- Their bytes, cut inside the key and between the line feeds after the change. -/
def cafeChunks : List (List UInt8) :=
  let bytes := Utf8.encode (wireText cafeSerde cafeItems)
  [bytes.take 15, (bytes.drop 15).take 45, (bytes.drop 15).drop 45]

theorem readSse_cafe : (readSse cafeParse .new cafeChunks).1.map some =
    [some cafe.payload, some (Live.Event.upToDate 7).payload] := by
  have hflatten : cafeChunks.flatten = Utf8.encode (wireText cafeSerde cafeItems) := by
    rw [cafeChunks, List.flatten_cons, List.flatten_cons, List.flatten_singleton,
      List.take_append_drop, List.take_append_drop]
  have hok : ∀ item ∈ cafeItems, item.Ok := by
    simp [cafeItems, Item.Ok]
  have hwire := (readSse_wire printing_cafe hok (hflatten ▸ List.prefix_rfl)).2.2 hflatten
  rw [hwire]
  decide

end PgPaw.Client
