import Handleplan.Db.WorkerLease
import Handleplan.Lib.Base64Url
import Handleplan.Lib.JsonBytes

/-!
# Fence tokens

The token of a fence is the identity of a lease, in JSON and in base64. It is verified by decoding
it.

## Main definitions

* `FenceToken.encodeFenceToken`, `FenceToken.decodeFenceToken` — the token of
  an identity, and the identity of a token.
* `FenceToken.Admitted` — an identity that can be acquired.

## Main results

* `FenceToken.length_encodeFenceToken` — the length of a token.
* `FenceToken.roundTrips_iff` — when an identity is decoded from its token.

## Implementation notes

The generation of an identity is the text of a timestamp that the database answers.
-/

namespace Handleplan.FenceToken

open JsString DecimalText WorkerLease
open CivilTime (number)

/-- `LeaseIdentity`, with the texts of its token. -/
structure LeaseIdentity where
  generation : JsString
  leaseKey : JsString
  ownerId : JsString

/-! ### Generations -/

/-- So many digits at the beginning of a text. -/
def readDigits (count : ℕ) (s : JsString) : Option (ℕ × JsString) :=
  if (s.take count).length = count ∧ IsDigits (s.take count) then
    some (number (s.take count), s.drop count)
  else none

/-- A character at the beginning of a text. -/
def readUnit (u : UInt16) : JsString → Option JsString
  | [] => none
  | v :: s => if v = u then some s else none

/-- A point and up to six digits, or nothing. -/
def skipFraction : JsString → Option JsString
  | 46 :: s =>
    let digits := s.takeWhile fun u => 48 ≤ u ∧ u ≤ 57
    if 1 ≤ digits.length ∧ digits.length ≤ 6 then some (s.drop digits.length) else none
  | s => some s

/-- A sign. -/
def readSign : JsString → Option JsString
  | [] => none
  | u :: s => if u = 43 ∨ u = 45 then some s else none

/-- The minutes of an offset, with or without a colon, up to the end of the text. -/
def readOffsetMinute (s : JsString) : Option ℕ :=
  if s = [] then some 0
  else
    match readDigits 2 (if s.head? = some 58 then s.tail else s) with
    | some (minute, []) => some minute
    | _ => none

/-- What `POSTGRES_GENERATION_PATTERN` matches. -/
structure GenerationMatch where
  year : ℕ
  month : ℕ
  day : ℕ
  hour : ℕ
  minute : ℕ
  second : ℕ
  offsetHour : ℕ
  offsetMinute : ℕ

/-- `POSTGRES_GENERATION_PATTERN`. -/
def matchGeneration (input : JsString) : Option GenerationMatch :=
  (readDigits 4 input).bind fun (year, s) => (readUnit 45 s).bind fun s =>
  (readDigits 2 s).bind fun (month, s) => (readUnit 45 s).bind fun s =>
  (readDigits 2 s).bind fun (day, s) => (readUnit 32 s).bind fun s =>
  (readDigits 2 s).bind fun (hour, s) => (readUnit 58 s).bind fun s =>
  (readDigits 2 s).bind fun (minute, s) => (readUnit 58 s).bind fun s =>
  (readDigits 2 s).bind fun (second, s) => (skipFraction s).bind fun s =>
  (readSign s).bind fun s => (readDigits 2 s).bind fun (offsetHour, s) =>
  (readOffsetMinute s).map fun offsetMinute =>
    ⟨year, month, day, hour, minute, second, offsetHour, offsetMinute⟩

/-- The days of the months of a year. -/
def daysInMonth (year : ℕ) : List ℕ :=
  [31, if year % 4 = 0 ∧ (year % 100 ≠ 0 ∨ year % 400 = 0) then 29 else 28, 31, 30, 31, 30, 31, 31, 30,
    31, 30, 31]

/-- `isValidGeneration`. -/
def IsValidGeneration (input : JsString) : Prop :=
  ∃ m ∈ matchGeneration input, 1 ≤ m.month ∧ m.month ≤ 12 ∧ 1 ≤ m.day ∧
    (∃ last ∈ (daysInMonth m.year)[m.month - 1]?, m.day ≤ last) ∧ m.hour ≤ 23 ∧ m.minute ≤ 59 ∧
    m.second ≤ 59 ∧ m.offsetHour ≤ 15 ∧ m.offsetMinute ≤ 59

instance : DecidablePred IsValidGeneration := fun input =>
  inferInstanceAs (Decidable (∃ m ∈ matchGeneration input, 1 ≤ m.month ∧ m.month ≤ 12 ∧ 1 ≤ m.day ∧
    (∃ last ∈ (daysInMonth m.year)[m.month - 1]?, m.day ≤ last) ∧ _))

/-- An identity that can be acquired: the key and the owner are those of an input, and the
generation is the text of a timestamp. -/
structure Admitted (identity : LeaseIdentity) : Prop where
  generation : IsValidGeneration identity.generation
  leaseKey : BoundedIdentity 120 identity.leaseKey
  ownerId : BoundedIdentity 160 identity.ownerId

/-! ### Tokens -/

/-- `FENCE_TOKEN_PREFIX`. -/
def fenceTokenPrefix : JsString := js "wlf1."

/-- `MAX_FENCE_TOKEN_LENGTH`. -/
def maxFenceTokenLength : ℕ := 1024

/-- What a token writes. -/
def payload (identity : LeaseIdentity) : Json :=
  .object [(js "g", .string identity.generation), (js "k", .string identity.leaseKey),
    (js "o", .string identity.ownerId), (js "v", .number (.natural 1))]

/-- `encodeFenceToken`. -/
def encodeFenceToken (identity : LeaseIdentity) : JsString :=
  fenceTokenPrefix ++ Base64Url.encode (Utf8.encode (payload identity).stringify)

/-- The identity that a parsed token names, before it is encoded again. -/
def parsedIdentity (members : List (JsString × Json)) : Option LeaseIdentity :=
  match JsMap.get? members (js "v"), JsMap.get? members (js "g"), JsMap.get? members (js "k"),
    JsMap.get? members (js "o") with
  | some (.number v), some (.string g), some (.string k), some (.string o) =>
    if v ≠ .natural 1 ∨ ¬ IsValidGeneration g ∨
        joinWith [44] (Sorting.sortBy compareText (JsMap.keys members)) ≠ js "g,k,o,v" then none
    else if ¬ BoundedIdentity 120 k ∨ ¬ BoundedIdentity 160 o then none
    else some ⟨g, k, o⟩
  | _, _, _, _ => none

/-- `decodeFenceToken`, of a text. -/
def decodeFenceToken (input : JsString) : Option LeaseIdentity :=
  if maxFenceTokenLength < input.length ∨ input.take fenceTokenPrefix.length ≠ fenceTokenPrefix then none
  else
    match Json.parse (Utf8.decode (Base64Url.decode (input.drop fenceTokenPrefix.length))) with
    | some (.object members) =>
      (parsedIdentity members).bind fun identity =>
        if encodeFenceToken identity = input then some identity else none
    | _ => none

/-! ### The length of a token -/

section Length

variable {identity : LeaseIdentity}

/-- The bytes of an identity in its token: those of its texts in JSON. -/
def tokenBytes (identity : LeaseIdentity) : ℕ :=
  JsonBytes.count identity.generation + JsonBytes.count identity.leaseKey +
    JsonBytes.count identity.ownerId

theorem distinctKeys_payload : (payload identity).DistinctKeys := by
  have hkeys : [js "g", js "k", js "o", js "v"].Nodup := by decide
  refine .object hkeys fun member hmember => ?_
  simp only [List.mem_cons, List.not_mem_nil, or_false] at hmember
  rcases hmember with rfl | rfl | rfl | rfl
  · exact .string _
  · exact .string _
  · exact .string _
  · exact .number _

theorem length_encode_payload :
    (Utf8.encode (payload identity).stringify).length = tokenBytes identity + 28 := by
  have hone : (Utf8.encode (JsNumber.natural 1).text).length = 1 := by decide +kernel
  have hkeys : JsonBytes.count (js "g") = 1 ∧ JsonBytes.count (js "k") = 1 ∧
      JsonBytes.count (js "o") = 1 ∧ JsonBytes.count (js "v") = 1 := by decide
  rw [payload, JsonBytes.length_encode_object (List.cons_ne_nil _ _) distinctKeys_payload]
  simp only [List.map_cons, List.map_nil, List.sum_cons, List.sum_nil, hone, hkeys, Json.stringify,
    JsonBytes.length_encode_stringify, tokenBytes]
  omega

/-- **The length of a token**, by the bytes of its identity. -/
theorem length_encodeFenceToken :
    (encodeFenceToken identity).length = 5 + (4 * (tokenBytes identity + 28) + 2) / 3 := by
  rw [encodeFenceToken, List.length_append, Base64Url.length_encode, length_encode_payload]
  rfl

/-- A token is short enough when its identity has at most so many bytes. -/
theorem length_le_iff :
    (encodeFenceToken identity).length ≤ maxFenceTokenLength ↔ tokenBytes identity ≤ 736 := by
  rw [length_encodeFenceToken, maxFenceTokenLength]
  omega

end Length

/-! ### Round trips -/

section RoundTrip

variable {identity : LeaseIdentity} {token : JsString}

/-- What a token writes is read back. -/
theorem parse_encodeFenceToken :
    Json.parse (Utf8.decode (Base64Url.decode ((encodeFenceToken identity).drop
      fenceTokenPrefix.length))) = some (payload identity) := by
  rw [encodeFenceToken, List.drop_left, Base64Url.decode_encode,
    Utf8.decode_encode (Json.isWellFormed_stringify distinctKeys_payload),
    Json.parse_stringify distinctKeys_payload]

/-- The payload of an identity is parsed to it. -/
theorem parsedIdentity_payload (h : Admitted identity) :
    parsedIdentity [(js "g", .string identity.generation), (js "k", .string identity.leaseKey),
      (js "o", .string identity.ownerId), (js "v", .number (.natural 1))] = some identity := by
  have hkeys : joinWith [44] (Sorting.sortBy compareText [js "g", js "k", js "o", js "v"]) =
      js "g,k,o,v" := by decide
  have hparsed : parsedIdentity [(js "g", .string identity.generation),
      (js "k", .string identity.leaseKey), (js "o", .string identity.ownerId),
      (js "v", .number (.natural 1))] =
    if JsNumber.natural 1 ≠ .natural 1 ∨ ¬ IsValidGeneration identity.generation ∨
        joinWith [44] (Sorting.sortBy compareText [js "g", js "k", js "o", js "v"]) ≠ js "g,k,o,v" then none
    else if ¬ BoundedIdentity 120 identity.leaseKey ∨ ¬ BoundedIdentity 160 identity.ownerId then none
    else some identity := rfl
  rw [hparsed, if_neg, if_neg]
  · rintro (hkey | howner)
    · exact hkey h.leaseKey
    · exact howner h.ownerId
  · rintro (hone | hgeneration | hnames)
    · exact hone rfl
    · exact hgeneration h.generation
    · exact hnames hkeys

/-- What a token is decoded to is encoded as the token. -/
theorem encode_of_decodeFenceToken (h : decodeFenceToken token = some identity) :
    token = encodeFenceToken identity := by
  obtain ⟨-, h⟩ := Option.ite_none_left_eq_some.mp h
  cases hparse : Json.parse (Utf8.decode (Base64Url.decode (token.drop fenceTokenPrefix.length))) with
  | none =>
    rw [hparse] at h
    cases h
  | some value =>
    rw [hparse] at h
    cases value with
    | object members =>
      obtain ⟨found, -, hfound⟩ := Option.bind_eq_some_iff.mp h
      obtain ⟨htoken, hsome⟩ := Option.ite_none_right_eq_some.mp hfound
      exact Option.some.inj hsome ▸ htoken.symm
    | _ => cases h

/-- An identity is decoded from its token, and from no other one. -/
structure RoundTrips (identity : LeaseIdentity) : Prop where
  decoded : decodeFenceToken (encodeFenceToken identity) = some identity
  unique : ∀ token, decodeFenceToken token = some identity → token = encodeFenceToken identity

/-- **An identity that can be acquired round-trips** if and only if its texts have at most 736 bytes
when they are written in JSON. -/
theorem roundTrips_iff (h : Admitted identity) :
    RoundTrips identity ↔ tokenBytes identity ≤ 736 := by
  rw [← length_le_iff]
  constructor
  · intro hround
    by_contra hlong
    have hnone : decodeFenceToken (encodeFenceToken identity) = none :=
      if_pos (.inl (Nat.lt_of_not_le hlong))
    rw [hround.decoded] at hnone
    cases hnone
  · intro hshort
    refine ⟨?_, fun token htoken => encode_of_decodeFenceToken htoken⟩
    have hprefix : (encodeFenceToken identity).take fenceTokenPrefix.length = fenceTokenPrefix :=
      List.take_left
    have hpass : ¬ (maxFenceTokenLength < (encodeFenceToken identity).length ∨
        (encodeFenceToken identity).take fenceTokenPrefix.length ≠ fenceTokenPrefix) := by
      rintro (hlong | hne)
      · exact absurd hshort (Nat.not_le.mpr hlong)
      · exact hne hprefix
    rw [decodeFenceToken, if_neg hpass, parse_encodeFenceToken, payload]
    dsimp only
    rw [parsedIdentity_payload h, Option.bind_some, if_pos rfl]

end RoundTrip

namespace Example

/-- The text of a timestamp. -/
def generation : JsString := js "2026-07-24 10:00:00.123456+00"

def short : LeaseIdentity := ⟨generation, js "worker:v1:kassalapp", js "host-1"⟩

/-- An owner that is named by a hundred and sixty characters of three bytes each. -/
def long : LeaseIdentity := ⟨generation, List.replicate 120 0x2022, List.replicate 160 0x2022⟩

theorem admitted_short : Admitted short := ⟨by decide +kernel, by decide +kernel, by decide +kernel⟩

theorem admitted_long : Admitted long := ⟨by decide +kernel, by decide +kernel, by decide +kernel⟩

end Example

open Example in
theorem roundTrips_short : RoundTrips short :=
  (roundTrips_iff admitted_short).mpr (by decide +kernel)

open Example in
/-- An identity with characters of three bytes that can be acquired is not decoded from its
token. -/
theorem not_roundTrips_long :
    Admitted long ∧ decodeFenceToken (encodeFenceToken long) = none :=
  ⟨admitted_long, by decide +kernel⟩

end Handleplan.FenceToken
