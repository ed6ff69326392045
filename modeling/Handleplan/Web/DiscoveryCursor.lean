import Handleplan.Db.PublicCatalogIndexReader
import Handleplan.Lib.Base64Url
import Handleplan.Lib.JsonBytes

/-!
# The cursors of discovery

A page of discovery names the position of its last product in a cursor: its time, its position and
the digest of what was asked for, in JSON and in base64.

## Main definitions

* `Discovery.encodeCursor`, `Discovery.decodeCursor` — the cursor of a
  position, and the position of a cursor.
* `Discovery.PublicDiscoveryCursorSchema` — what a cursor is in public.

## Main results

* `Discovery.length_encode_payload` — the bytes of a cursor.
* `Discovery.encodeCursor_isSome_iff` — when a position has a cursor.
* `Discovery.cursorHolds_iff` — when a position is read back from its cursor.

## Implementation notes

The times of responses are those of the years 1 to 9999, as their contract has them. The market
context of a request is given as JSON.
-/

namespace Handleplan.Discovery

open JsString PublicCatalog

/-! ### Requests -/

/-- A digest, in hexadecimal. -/
def Digest : Type := { s : JsString // IsHex s }

/-- `PublicDiscoveryRequestV1`, what cursors are bound to. -/
structure PublicDiscoveryRequest where
  categoryId : Option JsString
  chain : JsString
  marketContext : Json
  query : Option JsString
  resultType : JsString

/-- `selectionFor`. -/
def selectionFor (request : PublicDiscoveryRequest) : Json :=
  .object ((request.categoryId.map fun categoryId => (js "categoryId", .string categoryId)).toList ++
    [(js "chain", .string request.chain)] ++
    (request.query.map fun query => (js "query", .string query)).toList ++
    [(js "resultType", .string request.resultType)])

/-- `cursorScopeSha256`. -/
def cursorScopeSha256 (sha256 : List UInt8 → Digest) (request : PublicDiscoveryRequest) : JsString :=
  (sha256 (Utf8.encode (Json.object [(js "marketContext", request.marketContext),
    (js "selection", selectionFor request)]).stringify)).1

/-- A time of a response, of the years 1 to 9999. -/
structure ResponseTime where
  ms : ℤ
  first : -62135596800000 ≤ ms
  last : ms ≤ 253402300799999

/-! ### Cursors -/

/-- `DISCOVERY_CURSOR_PREFIX`. -/
def discoveryCursorPrefix : JsString := js "discovery-cursor:v1:"

/-- `publicDiscoveryCursorSchema`. -/
def PublicDiscoveryCursorSchema (cursor : JsString) : Prop :=
  (32 ≤ cursor.length ∧ cursor.length ≤ 1500) ∧
    cursor.take discoveryCursorPrefix.length = discoveryCursorPrefix ∧
    cursor.drop discoveryCursorPrefix.length ≠ [] ∧
    ∀ u ∈ cursor.drop discoveryCursorPrefix.length, Base64Url.IsUnit u

instance : DecidablePred PublicDiscoveryCursorSchema :=
  fun _ => inferInstanceAs (Decidable ((_ ∧ _) ∧ _ ∧ _ ∧ _))

/-- What a cursor writes. -/
def payload (sha256 : List UInt8 → Digest) (instant : ℤ) (position : Position)
    (request : PublicDiscoveryRequest) : Json :=
  .object [(js "at", .string (CivilTime.textOf instant)), (js "gtin", .string position.gtin),
    (js "rank", .number (.natural position.rank)),
    (js "scopeSha256", .string (cursorScopeSha256 sha256 request)),
    (js "sortName", .string position.sortName), (js "version", .number (.natural 1))]

/-- `encodeCursor`. -/
def encodeCursor (sha256 : List UInt8 → Digest) (instant : ℤ) (position : Position)
    (request : PublicDiscoveryRequest) : Option JsString :=
  let cursor := discoveryCursorPrefix ++
    Base64Url.encode (Utf8.encode (payload sha256 instant position request).stringify)
  if PublicDiscoveryCursorSchema cursor then some cursor else none

/-- `hasOnlyKeys`. -/
def HasOnlyKeys (members : List (JsString × Json)) (expected : List JsString) : Prop :=
  Sorting.sortBy compareText (JsMap.keys members) = Sorting.sortBy compareText expected

instance (members : List (JsString × Json)) (expected : List JsString) :
    Decidable (HasOnlyKeys members expected) := inferInstanceAs (Decidable (_ = _))

/-- A rank from zero to four. -/
def readRank (n : JsNumber) : Option ℕ := (List.range 5).find? fun rank => .natural rank = n

/-- `DecodedDiscoveryCursor`. -/
structure DecodedDiscoveryCursor where
  instant : ℤ
  position : Position

/-- The time and the position of a cursor that has been parsed. -/
def decodePayload (sha256 : List UInt8 → Digest) (members : List (JsString × Json))
    (request : PublicDiscoveryRequest) : Option DecodedDiscoveryCursor :=
  match JsMap.get? members (js "version"), JsMap.get? members (js "at"),
    JsMap.get? members (js "scopeSha256"), JsMap.get? members (js "gtin"),
    JsMap.get? members (js "rank"), JsMap.get? members (js "sortName") with
  | some (.number version), some (.string instant), some (.string scopeSha256), some (.string gtin),
    some (.number rank), some (.string sortName) =>
    if version ≠ .natural 1 ∨ scopeSha256 ≠ cursorScopeSha256 sha256 request ∨
        isValidGtin gtin = false ∨ sortName.length < 1 ∨ 500 < sortName.length then none
    else
      (readRank rank).bind fun rank =>
        (CivilTime.read instant).map fun instant => ⟨instant, ⟨gtin, rank, sortName⟩⟩
  | _, _, _, _, _, _ => none

/-- The time and the position that some bytes write. -/
def decodeBytes (sha256 : List UInt8 → Digest) (bytes : List UInt8) (request : PublicDiscoveryRequest) :
    Option DecodedDiscoveryCursor :=
  match (Utf8.decodeFatal bytes).bind Json.parse with
  | some (.object members) =>
    if ¬ HasOnlyKeys members [js "at", js "gtin", js "rank", js "scopeSha256", js "sortName",
        js "version"] then none
    else decodePayload sha256 members request
  | _ => none

/-- `decodeCursor`. -/
def decodeCursor (sha256 : List UInt8 → Digest) (cursor : JsString)
    (request : PublicDiscoveryRequest) : Option DecodedDiscoveryCursor :=
  if ¬ PublicDiscoveryCursorSchema cursor then none
  else
    let encoded := cursor.drop discoveryCursorPrefix.length
    let bytes := Base64Url.decode encoded
    if Base64Url.encode bytes ≠ encoded ∨ 1000 < bytes.length then none
    else decodeBytes sha256 bytes request

/-! ### The bytes of a cursor -/

section Bytes

variable {sha256 : List UInt8 → Digest} {instant : ResponseTime} {position : Position}
  {request : PublicDiscoveryRequest}

theorem isPlain_of_mem_fixed {length n : ℕ} :
    ∀ u ∈ CivilTime.fixed length n, JsonBytes.IsPlain u := by
  have hdigit : ∀ d < 10, JsonBytes.IsPlain (48 + d).toUInt16 := by decide
  induction length generalizing n with
  | zero => exact fun u hu => absurd hu List.not_mem_nil
  | succ length ih =>
    intro u hu
    rcases List.mem_append.mp hu with hu | hu
    · exact ih u hu
    · obtain rfl := List.mem_singleton.mp hu
      exact hdigit _ (Nat.mod_lt _ (by decide))

theorem year_le (instant : ResponseTime) :
    CivilTime.yearOf (CivilTime.dateOf (instant.ms / 86400000)).year ≤ 9999 := by
  have hfirst := instant.first
  have hlast := instant.last
  obtain ⟨hone, hyears⟩ := CivilTime.year_dateOf (instant.ms / 86400000) (by omega) (by omega)
  rw [CivilTime.yearOf, if_neg (by omega)]
  omega

/-- The text of a time has twenty-four plain characters. -/
theorem count_textOf (instant : ResponseTime) :
    JsonBytes.count (CivilTime.textOf instant.ms) = 24 := by
  have hplain : ∀ u ∈ CivilTime.textOf instant.ms, JsonBytes.IsPlain u := by
    intro u hu
    unfold CivilTime.textOf at hu
    dsimp only at hu
    rw [if_pos (year_le instant)] at hu
    simp only [List.mem_append, List.mem_cons, List.not_mem_nil, or_false] at hu
    rcases hu with hu | rfl | hu | rfl | hu | rfl | hu | rfl | hu | rfl | hu | rfl | hu | rfl
    all_goals first | exact isPlain_of_mem_fixed u hu | decide
  rw [JsonBytes.count_of_isPlain hplain]
  unfold CivilTime.textOf
  dsimp only
  rw [if_pos (year_le instant)]
  simp only [List.length_append, List.length_cons, List.length_nil, CivilTime.length_fixed]

/-- Digits and letters are plain. -/
theorem isPlain_of_le {u : UInt16} (hlow : 48 ≤ u) (hhigh : u ≤ 122) (hback : u ≠ 92) :
    JsonBytes.IsPlain u := by
  refine ⟨UInt16.le_trans (by decide) hlow, UInt16.lt_of_le_of_lt hhigh (by decide), ?_, hback⟩
  rintro rfl
  exact absurd hlow (by decide)

theorem isPlain_of_isDigit {u : UInt16} (h : isDigit u = true) : JsonBytes.IsPlain u := by
  unfold isDigit at h
  rw [Bool.and_eq_true, decide_eq_true_eq, decide_eq_true_eq] at h
  refine isPlain_of_le h.1 (UInt16.le_trans h.2 (by decide)) ?_
  rintro rfl
  exact absurd h.2 (by decide)

theorem count_gtin {gtin : JsString} (h : gtinShape gtin = true) :
    JsonBytes.count gtin = gtin.length :=
  JsonBytes.count_of_isPlain fun u hu =>
    isPlain_of_isDigit (List.all_eq_true.mp (Bool.and_eq_true_iff.mp h).2 u hu)

theorem count_digest (digest : Digest) : JsonBytes.count digest.1 = 64 := by
  refine (JsonBytes.count_of_isPlain fun u hu => ?_).trans digest.2.1
  rcases digest.2.2 u hu with hdigit | ⟨hlow, hhigh⟩
  · exact isPlain_of_isDigit hdigit
  · refine isPlain_of_le (UInt16.le_trans (by decide) hlow) (UInt16.le_trans hhigh (by decide)) ?_
    rintro rfl
    exact absurd hlow (by decide)

/-- The keys of what a cursor writes. -/
def payloadKeys : List JsString :=
  [js "at", js "gtin", js "rank", js "scopeSha256", js "sortName", js "version"]

theorem nodup_payloadKeys : payloadKeys.Nodup := by decide

theorem distinctKeys_payload : (payload sha256 instant.ms position request).DistinctKeys := by
  refine .object nodup_payloadKeys fun member hmember => ?_
  simp only [List.mem_cons, List.not_mem_nil, or_false] at hmember
  rcases hmember with rfl | rfl | rfl | rfl | rfl | rfl
  · exact .string _
  · exact .string _
  · exact .number _
  · exact .string _
  · exact .string _
  · exact .number _

/-- The bytes of a cursor, before they are encoded. -/
def cursorBytes (sha256 : List UInt8 → Digest) (instant : ResponseTime) (position : Position)
    (request : PublicDiscoveryRequest) : List UInt8 :=
  Utf8.encode (payload sha256 instant.ms position request).stringify

theorem length_encode_rank : ∀ rank < 5, (Utf8.encode (JsNumber.natural rank).text).length = 1 := by
  decide +kernel

/-- **The bytes of a cursor**, by those of the sort name. -/
theorem length_cursorBytes (h : IsOfferBackedPosition position) :
    (cursorBytes sha256 instant position request).length =
      159 + position.gtin.length + JsonBytes.count position.sortName := by
  obtain ⟨hgtin, hrank, -, -⟩ := h
  have hkeys : JsonBytes.count (js "at") = 2 ∧ JsonBytes.count (js "gtin") = 4 ∧
      JsonBytes.count (js "rank") = 4 ∧ JsonBytes.count (js "scopeSha256") = 11 ∧
      JsonBytes.count (js "sortName") = 8 ∧ JsonBytes.count (js "version") = 7 := by decide
  rw [cursorBytes, payload,
    JsonBytes.length_encode_object (List.cons_ne_nil _ _) distinctKeys_payload]
  simp only [List.map_cons, List.map_nil, List.sum_cons, List.sum_nil, hkeys, Json.stringify,
    JsonBytes.length_encode_stringify, count_textOf, count_gtin hgtin, cursorScopeSha256, count_digest,
    length_encode_rank _ (Nat.lt_succ_of_le hrank), length_encode_rank 1 (by decide)]
  omega

end Bytes

/-! ### Round trips -/

section RoundTrip

variable {sha256 : List UInt8 → Digest} {instant : ResponseTime} {position : Position}
  {request other : PublicDiscoveryRequest} {cursor : JsString}

/-- A text of so many bytes is a cursor in public. -/
theorem cursorSchema_iff (bytes : List UInt8) (h : 10 ≤ bytes.length) :
    PublicDiscoveryCursorSchema (discoveryCursorPrefix ++ Base64Url.encode bytes) ↔
      bytes.length ≤ 1110 := by
  have hprefix : discoveryCursorPrefix.length = 20 := by decide
  have hlength := Base64Url.length_encode bytes
  unfold PublicDiscoveryCursorSchema
  rw [List.take_left, List.drop_left, List.length_append, hprefix, hlength]
  constructor
  · rintro ⟨⟨-, hmax⟩, -⟩
    omega
  · intro hle
    refine ⟨⟨by omega, by omega⟩, rfl, fun hnil => ?_, fun u hu => Base64Url.isUnit_of_mem_encode u hu⟩
    rw [hnil, List.length_nil] at hlength
    omega

/-- **A position has a cursor** when its sort name is not too long in bytes. -/
theorem encodeCursor_isSome_iff (h : IsOfferBackedPosition position) :
    (encodeCursor sha256 instant.ms position request).isSome ↔
      JsonBytes.count position.sortName + position.gtin.length ≤ 951 := by
  have hlength : (cursorBytes sha256 instant position request).length =
      159 + position.gtin.length + JsonBytes.count position.sortName := length_cursorBytes h
  have hschema := cursorSchema_iff (cursorBytes sha256 instant position request) (by omega)
  rw [hlength] at hschema
  have hencode : encodeCursor sha256 instant.ms position request =
      if PublicDiscoveryCursorSchema (discoveryCursorPrefix ++
        Base64Url.encode (cursorBytes sha256 instant position request)) then
      some (discoveryCursorPrefix ++ Base64Url.encode (cursorBytes sha256 instant position request))
      else none := rfl
  rw [hencode, Option.isSome_ite, hschema]
  omega

theorem readRank_natural : ∀ rank < 5, readRank (.natural rank) = some rank := by decide +kernel

/-- What a cursor writes is decoded. -/
theorem decodePayload_payload (h : IsOfferBackedPosition position) :
    decodePayload sha256 [(js "at", .string (CivilTime.textOf instant.ms)),
      (js "gtin", .string position.gtin), (js "rank", .number (.natural position.rank)),
      (js "scopeSha256", .string (cursorScopeSha256 sha256 request)),
      (js "sortName", .string position.sortName), (js "version", .number (.natural 1))] other =
    if cursorScopeSha256 sha256 request ≠ cursorScopeSha256 sha256 other ∨
      isValidGtin position.gtin = false then none else some ⟨instant.ms, position⟩ := by
  obtain ⟨-, hrank, hone, hmax⟩ := h
  have hdecode : decodePayload sha256 [(js "at", .string (CivilTime.textOf instant.ms)),
      (js "gtin", .string position.gtin), (js "rank", .number (.natural position.rank)),
      (js "scopeSha256", .string (cursorScopeSha256 sha256 request)),
      (js "sortName", .string position.sortName), (js "version", .number (.natural 1))] other =
    if JsNumber.natural 1 ≠ .natural 1 ∨
        cursorScopeSha256 sha256 request ≠ cursorScopeSha256 sha256 other ∨
        isValidGtin position.gtin = false ∨ position.sortName.length < 1 ∨
        500 < position.sortName.length then none
    else
      (readRank (.natural position.rank)).bind fun rank =>
        (CivilTime.read (CivilTime.textOf instant.ms)).map fun instant =>
          ⟨instant, ⟨position.gtin, rank, position.sortName⟩⟩ := rfl
  rw [hdecode, readRank_natural _ (Nat.lt_succ_of_le hrank),
    CivilTime.read_textOf instant.first instant.last]
  by_cases hrefused : cursorScopeSha256 sha256 request ≠ cursorScopeSha256 sha256 other ∨
      isValidGtin position.gtin = false
  · rw [if_pos hrefused, if_pos]
    rcases hrefused with hscope | hgtin
    · exact .inr (.inl hscope)
    · exact .inr (.inr (.inl hgtin))
  · rw [if_neg hrefused, if_neg]
    · rfl
    · rintro (hversion | hscope | hgtin | hshort | hlong)
      · exact hversion rfl
      · exact hrefused (.inl hscope)
      · exact hrefused (.inr hgtin)
      · exact absurd hone (Nat.not_le.mpr hshort)
      · exact absurd hmax (Nat.not_le.mpr hlong)

/-- What the bytes of a cursor are decoded to. -/
theorem decodeBytes_cursorBytes (h : IsOfferBackedPosition position) :
    decodeBytes sha256 (cursorBytes sha256 instant position request) other =
      if cursorScopeSha256 sha256 request ≠ cursorScopeSha256 sha256 other ∨
        isValidGtin position.gtin = false then none else some ⟨instant.ms, position⟩ := by
  have hdistinct : (payload sha256 instant.ms position request).DistinctKeys :=
    distinctKeys_payload
  have hmark : (payload sha256 instant.ms position request).stringify.head? ≠ some 0xFEFF := by
    intro hmark
    rw [payload, Json.stringify, List.head?_cons] at hmark
    exact absurd (Option.some.inj hmark) (by decide)
  have hkeys : Sorting.sortBy compareText payloadKeys =
      Sorting.sortBy compareText [js "at", js "gtin", js "rank", js "scopeSha256", js "sortName",
        js "version"] := rfl
  rw [decodeBytes, cursorBytes, Utf8.decodeFatal_encode (Json.isWellFormed_stringify hdistinct) hmark,
    Option.bind_some, Json.parse_stringify hdistinct, payload]
  dsimp only
  refine (if_neg (not_not.mpr ?_)).trans (decodePayload_payload h)
  exact hkeys

/-- What a cursor is decoded to. -/
theorem decodeCursor_encodeCursor (h : IsOfferBackedPosition position)
    (hcursor : encodeCursor sha256 instant.ms position request = some cursor) :
    decodeCursor sha256 cursor other =
      if 841 < JsonBytes.count position.sortName + position.gtin.length ∨
        cursorScopeSha256 sha256 request ≠ cursorScopeSha256 sha256 other ∨
        isValidGtin position.gtin = false then none else some ⟨instant.ms, position⟩ := by
  have hlength : (cursorBytes sha256 instant position request).length =
      159 + position.gtin.length + JsonBytes.count position.sortName := length_cursorBytes h
  have hdecode : decodeBytes sha256 (cursorBytes sha256 instant position request) other =
      if cursorScopeSha256 sha256 request ≠ cursorScopeSha256 sha256 other ∨
        isValidGtin position.gtin = false then none else some ⟨instant.ms, position⟩ :=
    decodeBytes_cursorBytes h
  obtain ⟨hschema, hsome⟩ := Option.ite_none_right_eq_some.mp hcursor
  cases hsome
  rw [cursorBytes] at hlength hdecode
  rw [decodeCursor, if_neg (not_not.mpr hschema)]
  dsimp only
  rw [List.drop_left, Base64Url.decode_encode, hlength, hdecode]
  by_cases hlong : 841 < JsonBytes.count position.sortName + position.gtin.length
  · rw [if_pos (.inr (by omega)), if_pos (.inl hlong)]
  · have hshort : ¬ 1000 < 159 + position.gtin.length + JsonBytes.count position.sortName := by omega
    rw [if_neg (not_or.mpr ⟨not_not.mpr rfl, hshort⟩)]
    by_cases hrefused : cursorScopeSha256 sha256 request ≠ cursorScopeSha256 sha256 other ∨
        isValidGtin position.gtin = false
    · rw [if_pos hrefused, if_pos (.inr hrefused)]
    · rw [if_neg hrefused, if_neg (not_or.mpr ⟨hlong, hrefused⟩)]

/-- A position has a cursor in public, from which it is read back with its time under what was asked
for, and under nothing of another digest. -/
structure CursorHolds (sha256 : List UInt8 → Digest) (instant : ResponseTime) (position : Position)
    (request : PublicDiscoveryRequest) : Prop where
  roundTrip : ∃ cursor, encodeCursor sha256 instant.ms position request = some cursor ∧
    PublicDiscoveryCursorSchema cursor ∧
    decodeCursor sha256 cursor request = some ⟨instant.ms, position⟩ ∧
    ∀ other, cursorScopeSha256 sha256 request ≠ cursorScopeSha256 sha256 other →
      decodeCursor sha256 cursor other = none

/-- **A position that the index can return is read back from its cursor** if and only if its GTIN
has its check digit, and its sort name has not too many bytes. -/
theorem cursorHolds_iff (h : IsOfferBackedPosition position) :
    CursorHolds sha256 instant position request ↔
      isValidGtin position.gtin = true ∧
        JsonBytes.count position.sortName + position.gtin.length ≤ 841 := by
  constructor
  · rintro ⟨cursor, hcursor, -, hdecode, -⟩
    rw [decodeCursor_encodeCursor h hcursor] at hdecode
    obtain ⟨hnot, -⟩ := Option.ite_none_left_eq_some.mp hdecode
    rw [not_or, not_or, Bool.not_eq_false, Nat.not_lt] at hnot
    exact ⟨hnot.2.2, hnot.1⟩
  · rintro ⟨hgtin, hshort⟩
    have hsome : (encodeCursor sha256 instant.ms position request).isSome :=
      (encodeCursor_isSome_iff h).mpr (by omega)
    obtain ⟨cursor, hcursor⟩ := Option.isSome_iff_exists.mp hsome
    refine ⟨cursor, hcursor, ?_, ?_, fun other hother => ?_⟩
    · obtain ⟨hschema, hsome⟩ := Option.ite_none_right_eq_some.mp hcursor
      exact Option.some.inj hsome ▸ hschema
    · rw [decodeCursor_encodeCursor h hcursor, if_neg]
      rintro (hlong | hscope | hinvalid)
      · exact absurd hshort (Nat.not_le.mpr hlong)
      · exact hscope rfl
      · rw [hgtin] at hinvalid
        cases hinvalid
    · rw [decodeCursor_encodeCursor h hcursor, if_pos (.inr (.inl hother))]

end RoundTrip

namespace Example

/-- A digest that is always the same. -/
def sha256 (_ : List UInt8) : Digest := ⟨List.replicate 64 48, by decide⟩

def instant : ResponseTime := ⟨1784887200000, by decide, by decide⟩

def request : PublicDiscoveryRequest := ⟨none, js "all", .null, none, js "all"⟩

/-- Milk, and what is named by two hundred and forty characters of four bytes each. -/
def milk : Position := ⟨js "7038010000010", 0, js "tine lettmelk 1 l"⟩

def longName : Position :=
  ⟨js "7038010000010", 0, (List.replicate 240 [0xD83E, 0xDD5B]).flatten⟩

/-- Milk, under a number whose check digit is wrong. -/
def wrongDigit : Position := ⟨js "7038010000011", 0, js "tine lettmelk 1 l"⟩

end Example

open Example in
theorem cursorHolds_milk : CursorHolds sha256 instant milk request :=
  (cursorHolds_iff (by decide +kernel)).mpr ⟨by decide +kernel, by decide +kernel⟩

open Example in
/-- A position that the index can return has no cursor when its name has many bytes; and one whose
GTIN has not its check digit has a cursor that is not decoded. -/
theorem not_cursorHolds :
    (IsOfferBackedPosition longName ∧ isValidGtin longName.gtin = true ∧
      encodeCursor sha256 instant.ms longName request = none) ∧
    IsOfferBackedPosition wrongDigit ∧
      ∃ cursor, encodeCursor sha256 instant.ms wrongDigit request = some cursor ∧
        decodeCursor sha256 cursor request = none := by
  have hlong : IsOfferBackedPosition longName := by decide +kernel
  have hwrong : IsOfferBackedPosition wrongDigit := by decide +kernel
  have hnone : ¬ (encodeCursor sha256 instant.ms longName request).isSome := by
    rw [encodeCursor_isSome_iff hlong]
    decide +kernel
  have hsome : (encodeCursor sha256 instant.ms wrongDigit request).isSome := by
    rw [encodeCursor_isSome_iff hwrong]
    decide +kernel
  obtain ⟨cursor, hcursor⟩ := Option.isSome_iff_exists.mp hsome
  refine ⟨⟨hlong, by decide +kernel, Option.not_isSome_iff_eq_none.mp hnone⟩, hwrong, cursor, hcursor, ?_⟩
  rw [decodeCursor_encodeCursor hwrong hcursor]
  exact if_pos (.inr (.inr (by decide +kernel)))

end Handleplan.Discovery
