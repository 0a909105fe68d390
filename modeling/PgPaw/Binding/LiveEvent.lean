/-
# `binding/unb.rs`: `decode_event`

The live stream of the RPC binding is the text the hub sends to a subscriber (`live.rs`), taken
apart again: the white space and the field name are stripped, `serde_json` reads the object, and
its fields make a typed event.

The decoder undoes the encoders as far as `serde_json` reads back what it printed
(`decode_iff`): the rows of a change and of a scoped snapshot are read twice.  The body of a
scoped snapshot is read once more before that, and where that fails an empty array stands in for
it (`unread_body_decodes_empty`).
-/
import PgPaw.Binding.Unb
import PgPaw.Capability.Frame
import PgPaw.JsonText

namespace PgPaw

/-- `payload::LiveEvent`. -/
inductive LiveEvent
  | snapshot (rows : Option Json) (hash : Option String) (version : Nat)
  | insert (key : String) (row : Json) (txid : Nat)
  | update (key : String) (row : Json) (txid : Nat)
  | delete (key : String) (row : Json) (txid : Nat)
  | upToDate (txid : Nat)
  | reset
  deriving DecidableEq

namespace Unb

/-! ## 1. The decoder -/

/-- `str::trim`. -/
def trim (s : String) : String :=
  String.ofList ((s.toList.dropWhile isWhitespace).rdropWhile isWhitespace)

/-- `str::strip_prefix`. -/
def stripPrefix (front s : String) : Option String :=
  if front.toList.isPrefixOf s.toList then some (String.ofList (s.toList.drop front.toList.length))
  else none

/-- `Value::as_str`. -/
def asStr : Json → Option String
  | .string text => some text
  | _ => none

/-- `Value::as_u64`. -/
def asU64 : Json → Option Nat
  | .number (.integer n) => if 0 ≤ n ∧ n < 2 ^ 64 then some n.toNat else none
  | _ => none

/-- `value[field]`. -/
def index (value : Json) (field : String) : Json := (value.get field).getD .null

/-- The error of `string` and `number`. -/
def missing (field : String) : HandlerError := ⟨.internal, "live event missing " ++ field⟩

/-- `string`. -/
def string (value : Json) (field : String) : Except HandlerError String :=
  match (value.get field).bind asStr with
  | some text => .ok text
  | none => .error (missing field)

/-- `number`. -/
def number (value : Json) (field : String) : Except HandlerError Nat :=
  match ((value.get field).bind asU64).filter (· < 2 ^ 32) with
  | some n => .ok n
  | none => .error (missing field)

/-- `url.split('/').nth(2)`. -/
def hashOf (url : String) : Option String :=
  ((url.toList.splitOnP (· == '/'))[2]?).map String.ofList

/-- The event of a value. -/
def decodeValue (value : Json) : Except HandlerError LiveEvent :=
  if (value.get "type").bind asStr = some "snapshot" then
    .ok (.snapshot (value.get "rows") (((value.get "url").bind asStr).bind hashOf)
      (((value.get "version").bind asU64).getD 0))
  else match (value.get "op").bind asStr with
    | some "insert" => do
      return .insert (← string value "key") (index value "row") (← number value "txid")
    | some "update" => do
      return .update (← string value "key") (index value "row") (← number value "txid")
    | some "delete" => do
      return .delete (← string value "key") (index value "row") (← number value "txid")
    | some "up-to-date" => do return .upToDate (← number value "txid")
    | some "reset" => .ok .reset
    | _ => .error ⟨.internal, "invalid live event"⟩

/-- The event of what `from_str` returned. -/
def decodeRead (error : String) : Option Json → Except HandlerError LiveEvent
  | some value => decodeValue value
  | none => .error ⟨.internal, error⟩

/-- `decode_event`. -/
def decodeEvent (fromStr : String → Option Json) (fromStrError : String → String)
    (event : String) : Except HandlerError LiveEvent :=
  let text := (stripPrefix "data: " (trim event)).getD (trim event)
  decodeRead (fromStrError text) (fromStr text)

/-! ## 2. What the hub sends -/

/-- A frame of the hub, as it was built. -/
inductive HubFrame
  | delta (delta : Delta) (txid : UInt32)
  | upToDate (txid : UInt32)
  | reset
  /-- The snapshot of a subscriber with a scope of its own. -/
  | scopedSnapshot (body : String) (version : UInt64)
  /-- The snapshot of everyone else: a link, with the fingerprint of the query. -/
  | publicSnapshot (fingerprint : Nat) (version : UInt64)

namespace HubFrame

/-- The event it was built from: `encode`, `up_to_date`, `reset` and `LiveHub::subscribe`. -/
def event (fromStr : String → Option Json) : HubFrame → Live.Event
  | delta d txid => .delta d txid.toNat
  | upToDate txid => .upToDate txid.toNat
  | reset => .reset
  | scopedSnapshot body version => .snapshotRows ((fromStr body).getD (.array [])) version.toNat
  | publicSnapshot fingerprint version => .snapshotUrl (lowerHex fingerprint) version.toNat

/-- The event of a change, with a row. -/
def changeEvent (txid : Nat) (row : Json) : Delta → LiveEvent
  | .insert key _ => .insert key row txid
  | .update key _ => .update key row txid
  | .delete key _ => .delete key row txid

/-- What the subscriber should see of it.  There is nothing it should see of a body that is not
read. -/
def expected (fromStr : String → Option Json) : HubFrame → Option LiveEvent
  | delta d txid => some (changeEvent txid.toNat d.carried d)
  | upToDate txid => some (.upToDate txid.toNat)
  | reset => some .reset
  | scopedSnapshot body version =>
    (fromStr body).map fun rows => .snapshot (some rows) none version.toNat
  | publicSnapshot fingerprint version =>
    some (.snapshot none (some (lowerHex fingerprint)) version.toNat)

/-- **The decoder inverts the encoder** on a frame. -/
def Decodes (serde : Serde) (fromStrError : String → String) (frame : HubFrame) : Prop :=
  ∃ event, frame.expected serde.fromStr = some event ∧
    decodeEvent serde.fromStr fromStrError ((frame.event serde.fromStr).frame serde) = .ok event

/-- A value one level below the limit, whose doubles are read back as they were printed. -/
def Rereadable (double : String → Option String) (value : Json) : Prop :=
  value.depth + 1 < Json.RECURSION_LIMIT ∧ ∀ text ∈ value.floats, double text = some text

/-- **The rows of a frame survive being printed and read.** -/
def Survives (fromStr : String → Option Json) (double : String → Option String) :
    HubFrame → Prop
  | delta d _ => Rereadable double d.carried
  | scopedSnapshot body _ => ∃ rows, fromStr body = some rows ∧ Rereadable double rows
  | upToDate _ | reset | publicSnapshot _ _ => True

end HubFrame

/-! ## 3. The text of a frame -/

theorem fieldsText_ends (fields : List (String × Json)) :
    ∃ front, Json.fieldsText fields = front ++ ['\x7d'] := by
  induction fields with
  | nil => exact ⟨[], rfl⟩
  | cons field fields ih =>
    obtain ⟨name, value⟩ := field
    obtain ⟨front, hfront⟩ := ih
    exact ⟨',' :: (stringText name ++ ':' :: (value.textOf ++ front)), by
      simp [Json.fieldsText, hfront]⟩

/-- The text of an object ends in its bracket. -/
theorem textOf_object_ends (fields : List (String × Json)) :
    ∃ front, (Json.object fields).textOf = front ++ ['\x7d'] := by
  cases fields with
  | nil => exact ⟨['\x7b'], rfl⟩
  | cons field fields =>
    obtain ⟨name, value⟩ := field
    obtain ⟨front, hfront⟩ := fieldsText_ends fields
    exact ⟨'\x7b' :: (stringText name ++ ':' :: (value.textOf ++ front)), by
      simp [Json.textOf, hfront]⟩

/-- The field name and the empty line come off again. -/
theorem stripped_frame (fields : List (String × Json)) :
    stripPrefix "data: " (trim ("data: " ++ (Json.object fields).display ++ "\n\n")) =
      some (Json.object fields).display := by
  obtain ⟨front, hfront⟩ := textOf_object_ends fields
  have htext : (Json.object fields).display.toList = front ++ ['\x7d'] := by
    rw [Json.display, String.toList_ofList, hfront]
  have htrim : trim ("data: " ++ (Json.object fields).display ++ "\n\n") =
      "data: " ++ (Json.object fields).display := by
    rw [← String.toList_inj]
    simp only [trim, String.toList_ofList, String.toList_append, htext, String.reduceToList]
    have hspace : isWhitespace 'd' = false := by decide
    have hbracket : isWhitespace '\x7d' = false := by decide
    have hline : isWhitespace '\n' = true := by decide
    simp [List.rdropWhile, hspace, hbracket, hline]
  rw [htrim]
  have hdata : ("data: " : String).toList = ['d', 'a', 't', 'a', ':', ' '] := by decide
  simp [stripPrefix, hdata, String.toList_append, List.isPrefixOf]

/-- **Decoding a frame** is reading the text of its object. -/
theorem decodeEvent_frame {serde : Serde} {fromStrError : String → String}
    (hprint : ∀ value, serde.toString value = value.display) (event : Live.Event) :
    decodeEvent serde.fromStr fromStrError (event.frame serde) =
      decodeRead (fromStrError event.payload.display) (serde.fromStr event.payload.display) := by
  have htext : event.text serde = event.payload.display := by
    cases event with
    | reset =>
      have hreset : "\x7b\"op\":\"reset\"\x7d" = Live.Event.reset.payload.display := by
        decide +kernel
      exact hreset
    | _ => exact hprint _
  obtain ⟨fields, hfields⟩ : ∃ fields, event.payload = .object fields := by
    cases event <;> exact ⟨_, rfl⟩
  rw [decodeEvent, Live.frame_eq, htext, hfields, stripped_frame]
  rfl

/-! ## 4. The events -/

section Events

variable {serde : Serde} {fromStrError : String → String} {double : String → Option String}

/-- The object of a change, with a row that was read back. -/
def changeObject (d : Delta) (row : Json) (txid : UInt32) : Json :=
  .object [("key", .string d.key), ("op", .string (Live.op d)), ("row", row),
    ("txid", Live.number txid.toNat)]

/-- The object of a snapshot with rows. -/
def rowsObject (rows : Json) (version : UInt64) : Json :=
  .object [("rows", rows), ("type", .string "snapshot"), ("version", Live.number version.toNat)]

theorem asU64_number {n : Nat} (h : n < 2 ^ 64) : asU64 (Live.number n) = some n := by
  simp only [Live.number, asU64]
  rw [if_pos ⟨Int.natCast_nonneg n, by omega⟩, Int.toNat_natCast]

theorem number_txid {fields : List (String × Json)} (txid : UInt32)
    (h : fields.lookup "txid" = some (Live.number txid.toNat)) :
    number (.object fields) "txid" = .ok txid.toNat := by
  have hlt : txid.toNat < 2 ^ 32 := txid.toNat_lt
  have hget : ((Json.object fields).get "txid").bind asU64 = some txid.toNat := by
    rw [Json.get, h, Option.bind_some, asU64_number (by omega)]
  rw [number, hget, Option.filter_some, if_pos (by simpa using hlt)]

theorem decodeValue_change (d : Delta) (row : Json) (txid : UInt32) :
    decodeValue (changeObject d row txid) = .ok (HubFrame.changeEvent txid.toNat row d) := by
  have htxid : number (changeObject d row txid) "txid" = .ok txid.toNat := number_txid txid rfl
  cases d with
  | insert key _ =>
    change (do return LiveEvent.insert (← Except.ok key) row (← number _ "txid")) = _
    rw [htxid]
    rfl
  | update key _ =>
    change (do return LiveEvent.update (← Except.ok key) row (← number _ "txid")) = _
    rw [htxid]
    rfl
  | delete key _ =>
    change (do return LiveEvent.delete (← Except.ok key) row (← number _ "txid")) = _
    rw [htxid]
    rfl

theorem decodeValue_upToDate (txid : UInt32) :
    decodeValue (Live.Event.upToDate txid.toNat).payload = .ok (.upToDate txid.toNat) := by
  have htxid : number (Live.Event.upToDate txid.toNat).payload "txid" = .ok txid.toNat :=
    number_txid txid rfl
  change (do return LiveEvent.upToDate (← number _ "txid")) = _
  rw [htxid]
  rfl

theorem decodeValue_rows (rows : Json) (version : UInt64) :
    decodeValue (rowsObject rows version) = .ok (.snapshot (some rows) none version.toNat) := by
  have htype : ((rowsObject rows version).get "type").bind asStr = some "snapshot" := rfl
  have hrows : (rowsObject rows version).get "rows" = some rows := rfl
  have hurl : (rowsObject rows version).get "url" = none := rfl
  have hversion : (rowsObject rows version).get "version" = some (Live.number version.toNat) := rfl
  rw [decodeValue, if_pos htype, hrows, hurl, hversion, Option.bind_some,
    asU64_number version.toNat_lt]
  rfl

/-- The hash is what stands between the second slash and the third. -/
theorem hashOf_url (fingerprint version : Nat) :
    hashOf ("/q/" ++ lowerHex fingerprint ++ "/" ++ decimal version) =
      some (lowerHex fingerprint) := by
  have hslash : ∀ c ∈ Nat.toDigits 16 fingerprint, (c == '/') = false := by
    intro c hc
    rw [beq_eq_false_iff_ne]
    rintro rfl
    exact notMem_toDigits (by decide) (by decide) digitChar_ne_slash fingerprint hc
  have htext : ("/q/" ++ lowerHex fingerprint ++ "/" ++ decimal version).toList =
      [] ++ '/' :: (['q'] ++ '/' :: (Nat.toDigits 16 fingerprint ++ '/' ::
        Nat.toDigits 10 version)) := by
    simp [lowerHex, decimal, String.toList_append]
  have hq : ∀ c ∈ ['q'], (c == '/') = false := by simp
  rw [hashOf, htext, List.splitOnP_append_cons_of_forall_mem (by simp) _ rfl,
    List.splitOnP_append_cons_of_forall_mem hq _ rfl,
    List.splitOnP_append_cons_of_forall_mem hslash _ rfl]
  rfl

theorem decodeValue_url (fingerprint : Nat) (version : UInt64) :
    decodeValue (Live.Event.snapshotUrl (lowerHex fingerprint) version.toNat).payload =
      .ok (.snapshot none (some (lowerHex fingerprint)) version.toNat) := by
  have htype : ((Live.Event.snapshotUrl (lowerHex fingerprint) version.toNat).payload.get
      "type").bind asStr = some "snapshot" := rfl
  have hrows : (Live.Event.snapshotUrl (lowerHex fingerprint) version.toNat).payload.get
      "rows" = none := rfl
  have hurl : ((Live.Event.snapshotUrl (lowerHex fingerprint) version.toNat).payload.get
      "url").bind asStr =
        some ("/q/" ++ lowerHex fingerprint ++ "/" ++ decimal version.toNat) := rfl
  have hversion : (Live.Event.snapshotUrl (lowerHex fingerprint) version.toNat).payload.get
      "version" = some (Live.number version.toNat) := rfl
  rw [decodeValue, if_pos htype, hrows, hurl, hversion, Option.bind_some, Option.bind_some,
    asU64_number version.toNat_lt, hashOf_url]
  rfl

end Events

/-! ## 5. Which frames are decoded -/

section Rows

variable {fromStr : String → Option Json} {double : String → Option String}

theorem depth_changeObject (d : Delta) (row : Json) (txid : UInt32) :
    (changeObject d row txid).depth = row.depth + 1 := by
  simp [changeObject, Json.depth, Json.fieldDepth, Live.number]

theorem depth_rowsObject (rows : Json) (version : UInt64) :
    (rowsObject rows version).depth = rows.depth + 1 := by
  simp [rowsObject, Json.depth, Json.fieldDepth, Live.number]

/-- All of the object but the row is read back as it was. -/
theorem reread_changeObject (d : Delta) (row : Json) (txid : UInt32) :
    (changeObject d row txid).reread double =
      (row.reread double).map fun row => changeObject d row txid := by
  simp only [changeObject, Json.reread, Json.rereadFields, Live.number]
  cases row.reread double with
  | none => rfl
  | some row' => rfl

theorem reread_rowsObject (rows : Json) (version : UInt64) :
    (rowsObject rows version).reread double =
      (rows.reread double).map fun rows => rowsObject rows version := by
  simp only [rowsObject, Json.reread, Json.rereadFields, Live.number]
  cases rows.reread double with
  | none => rfl
  | some rows' => rfl

/-- **Rows are printed one level deeper than they were read**: an object with one value in it that
is not fixed decodes to its event exactly if that value is read back. -/
theorem decodeRead_wrap {wrap : Json → Json} {mk : Json → LiveEvent} {error : String}
    (hdepth : ∀ row, (wrap row).depth = row.depth + 1)
    (hreread : ∀ row, (wrap row).reread double = (row.reread double).map wrap)
    (hdecode : ∀ row, decodeValue (wrap row) = .ok (mk row)) (hmk : Function.Injective mk)
    (hread : Json.RereadBy fromStr double (wrap row)) :
    decodeRead error (fromStr (wrap row).display) = .ok (mk row) ↔
      HubFrame.Rereadable double row := by
  rw [hread, HubFrame.Rereadable, ← Json.reread_eq_self_iff, hdepth, hreread]
  by_cases hdeep : row.depth + 1 < Json.RECURSION_LIMIT
  · rw [if_pos hdeep]
    cases hrow : row.reread double with
    | none =>
      constructor
      · intro h
        cases h
      · rintro ⟨-, h⟩
        cases h
    | some row' =>
      have hvalue : decodeRead error (Option.map wrap (some row')) = .ok (mk row') :=
        hdecode row'
      rw [hvalue, Except.ok.injEq, hmk.eq_iff, Option.some.injEq]
      exact (and_iff_right hdeep).symm
  · rw [if_neg hdeep]
    constructor
    · intro h
      cases h
    · intro h
      exact absurd h.1 hdeep

end Rows

section Frames

variable {serde : Serde} {fromStrError : String → String} {double : String → Option String}
  (hprint : ∀ value, serde.toString value = value.display)

include hprint

theorem decodes_iff_of_expected {frame : HubFrame} {expected : LiveEvent}
    (h : frame.expected serde.fromStr = some expected) :
    frame.Decodes serde fromStrError ↔
      decodeRead (fromStrError (frame.event serde.fromStr).payload.display)
        (serde.fromStr (frame.event serde.fromStr).payload.display) = .ok expected := by
  rw [HubFrame.Decodes, decodeEvent_frame hprint, h]
  constructor
  · rintro ⟨event, hevent, hdecode⟩
    rw [hdecode, Option.some.inj hevent]
  · intro hdecode
    exact ⟨expected, rfl, hdecode⟩

/-- A frame without rows is flat, and has no doubles in it. -/
theorem decodes_flat {frame : HubFrame} {expected : LiveEvent}
    (hexpected : frame.expected serde.fromStr = some expected)
    (hread : Json.RereadBy serde.fromStr double (frame.event serde.fromStr).payload)
    (hdepth : (frame.event serde.fromStr).payload.depth = 1)
    (hreread : (frame.event serde.fromStr).payload.reread double =
      some (frame.event serde.fromStr).payload)
    (hdecode : decodeValue (frame.event serde.fromStr).payload = .ok expected) :
    frame.Decodes serde fromStrError := by
  rw [decodes_iff_of_expected hprint hexpected, hread, hdepth, if_pos (by decide), hreread]
  exact hdecode

/-- **The decoder inverts the encoders** on the frames whose rows survive being printed and read,
and on no other. -/
theorem decode_iff (frame : HubFrame)
    (hread : Json.RereadBy serde.fromStr double (frame.event serde.fromStr).payload) :
    frame.Decodes serde fromStrError ↔ frame.Survives serde.fromStr double := by
  cases frame with
  | delta d txid =>
    rw [decodes_iff_of_expected hprint rfl]
    have hinj : Function.Injective fun row => HubFrame.changeEvent txid.toNat row d := by
      intro row row' h
      cases d <;> cases h <;> rfl
    exact decodeRead_wrap (fun row => depth_changeObject d row txid)
      (fun row => reread_changeObject d row txid) (fun row => decodeValue_change d row txid) hinj
      hread
  | upToDate txid =>
    refine iff_of_true (decodes_flat hprint rfl hread rfl ?_ (decodeValue_upToDate txid)) trivial
    rfl
  | reset => exact iff_of_true (decodes_flat hprint rfl hread rfl rfl rfl) trivial
  | scopedSnapshot body version =>
    cases hbody : serde.fromStr body with
    | none =>
      have hnone : (HubFrame.scopedSnapshot body version).expected serde.fromStr = none := by
        rw [HubFrame.expected, hbody, Option.map_none]
      constructor
      · rintro ⟨event, hevent, -⟩
        rw [hnone] at hevent
        cases hevent
      · rintro ⟨rows, hrows, -⟩
        rw [hbody] at hrows
        cases hrows
    | some rows =>
      have hsome : (HubFrame.scopedSnapshot body version).expected serde.fromStr =
          some (.snapshot (some rows) none version.toNat) := by
        rw [HubFrame.expected, hbody, Option.map_some]
      have hevent : ((HubFrame.scopedSnapshot body version).event serde.fromStr).payload =
          rowsObject rows version := by
        rw [HubFrame.event, hbody]
        rfl
      rw [decodes_iff_of_expected hprint hsome]
      rw [hevent] at hread ⊢
      have hinj : Function.Injective fun rows =>
          LiveEvent.snapshot (some rows) none version.toNat := by
        intro rows rows' h
        cases h
        rfl
      rw [decodeRead_wrap (fun rows => depth_rowsObject rows version)
        (fun rows => reread_rowsObject rows version) (fun rows => decodeValue_rows rows version)
        hinj hread]
      constructor
      · intro h
        exact ⟨rows, hbody, h⟩
      · rintro ⟨rows', hrows, h⟩
        rw [hbody] at hrows
        cases hrows
        exact h
  | publicSnapshot fingerprint version =>
    exact iff_of_true (decodes_flat hprint rfl hread rfl rfl (decodeValue_url fingerprint version))
      trivial

end Frames

/-! ## 6. A row that survives, and one that does not -/

/-- The insert of a row with a price. -/
def insertedRow : HubFrame :=
  .delta (.insert "7"
    (.object [("id", .number (.integer 7)), ("price", .number (.float "0.5"))])) 42

/-- `serde_json`, as far as it is asked about texts of `values`. -/
def serdeOf (values : List (String × Json)) : Serde where
  fromStr text := values.lookup text
  toString := Json.display
  finish _ := 0

/-- `serde_json` on the text of that insert. -/
def insertedSerde : Serde :=
  serdeOf [((insertedRow.event fun _ => none).payload.display,
    (insertedRow.event fun _ => none).payload)]

theorem decode_inserted : insertedRow.Decodes insertedSerde id := by
  have hread : Json.RereadBy insertedSerde.fromStr some
      (insertedRow.event insertedSerde.fromStr).payload := by
    rw [Json.RereadBy]
    decide +kernel
  refine (decode_iff (fun _ => rfl) insertedRow hread).mpr ⟨?_, fun _ _ => rfl⟩
  decide +kernel

/-- `serde_json` on the text of a snapshot with no rows; a number that is no double it does not
read. -/
def emptySerde : Serde :=
  serdeOf [((rowsObject (.array []) 1).display, rowsObject (.array []) 1)]

/-- **A body that is not read** is sent as no rows at all, and decoded as that: here it has a row
with the number 10 to the power of 400. -/
theorem unread_body_decodes_empty :
    decodeEvent emptySerde.fromStr id
        (((HubFrame.scopedSnapshot hugeBody 1).event emptySerde.fromStr).frame emptySerde) =
      .ok (.snapshot (some (.array [])) none 1) ∧
      ¬ (HubFrame.scopedSnapshot hugeBody 1).Decodes emptySerde id := by
  have hbody : emptySerde.fromStr hugeBody = none := by decide +kernel
  have hpayload : ((HubFrame.scopedSnapshot hugeBody 1).event emptySerde.fromStr).payload =
      rowsObject (.array []) 1 := by
    rw [HubFrame.event, hbody]
    rfl
  constructor
  · have hread : emptySerde.fromStr (rowsObject (.array []) 1).display =
        some (rowsObject (.array []) 1) := by decide +kernel
    rw [decodeEvent_frame fun _ => rfl, hpayload, hread]
    exact decodeValue_rows (.array []) 1
  · rintro ⟨event, hevent, -⟩
    rw [HubFrame.expected, hbody] at hevent
    cases hevent

end Unb

end PgPaw
