import Handleplan.OpenPrices.Normalizer

/-!
# Which rows of Open Prices can be stored

The normalizer accepts a price without comparing its date with the time at which it was fetched, and
without a bound on its amount; it reads the properties of a row without looking at their types. The
repository refuses a batch with such a row.

## Main definitions

* `OpenPrices.Reads` — a row has a valid GTIN, a price in kroner and a date.
* `OpenPrices.IsStorable` — what a row must be.

## Main results

* `OpenPrices.exists_amountOre_iff` — which prices are safe integers in øre.
* `OpenPrices.storable_iff` — when the outcome of a row can be stored.
* `OpenPrices.normalizeAll_storable_iff` — when all outcomes of a list can be stored.
-/

namespace Handleplan.OpenPrices

open JsString PriceIngestion IngestionRuns CatalogIngestion

variable {toLowerCase : JsString → JsString} {dateOf : Option Json → Option ℤ} {row : Json}
  {fetchedAt : ℤ} {idText : JsString}

/-! ### Amounts -/

/-- **Which amounts are safe integers**: those of prices below the bound by more than half an
øre. -/
theorem exists_amountOre_iff {price : ℚ} (hprice : 0 < price) :
    (∃ amount, amountOre price = some amount ∧ amount ≤ maxSafeInteger) ↔
      price * 100 < 2 ^ (53 : ℕ) - 1 / 2 := by
  have hproduct : 0 < price * 100 := by positivity
  have hamount (hfinite : Double.round (price * 100) < 2 ^ (1024 : ℕ)) :
      amountOre price = some ⌊Double.round (price * 100) + 1 / 2⌋.toNat := by
    rw [amountOre, Double.ofRat, if_pos hfinite]
    rfl
  constructor
  · rintro ⟨amount, heq, hle⟩
    by_contra hlarge
    have hround := Double.le_round_of_le (not_lt.mp hlarge)
    by_cases hfinite : Double.round (price * 100) < 2 ^ (1024 : ℕ)
    · rw [hamount hfinite] at heq
      cases heq
      have hfloor : (2 ^ 53 : ℤ) ≤ ⌊Double.round (price * 100) + 1 / 2⌋ := by
        rw [Int.le_floor]
        push_cast
        linarith
      rw [maxSafeInteger] at hle
      omega
    · rw [amountOre, Double.ofRat, if_neg hfinite] at heq
      cases heq
  · intro hsmall
    have hround := Double.round_le_of_lt hproduct hsmall
    have hbound : (2 : ℚ) ^ (53 : ℕ) ≤ 2 ^ (1024 : ℕ) := pow_le_pow_right₀ (by norm_num) (by norm_num)
    have hfinite : Double.round (price * 100) < 2 ^ (1024 : ℕ) :=
      lt_of_le_of_lt hround (lt_of_lt_of_le (sub_lt_self _ one_pos) hbound)
    refine ⟨_, hamount hfinite, ?_⟩
    have hfloor : ⌊Double.round (price * 100) + 1 / 2⌋ < 2 ^ 53 := by
      rw [Int.floor_lt]
      push_cast
      linarith
    rw [maxSafeInteger]
    omega

/-! ### Rows -/

/-- **A row that reads as a price**: it has a valid GTIN, a price above zero in kroner, and a
date. -/
structure Reads (dateOf : Option Json → Option ℤ) (row : Json) (ean : JsString) (price : ℚ)
    (observedAt : ℤ) : Prop where
  code : optionalTrim (member row "product_code") = some (some ean)
  gtin : isValidGtin ean = true
  price : positivePrice row = some price
  currency : isText (member row "currency") (js "NOK") = true
  date : dateOf (member row "date") = some observedAt

/-- **What a row must be to be stored.** -/
structure IsStorable (toLowerCase : JsString → JsString) (dateOf : Option Json → Option ℤ) (row : Json)
    (fetchedAt : ℤ) : Prop where
  notNull : row ≠ .null
  id : ∃ text, propertyText (member row "id") = some text ∧ text.length ≤ 197
  code : optionalTrim (member row "product_code") ≠ none
  numbers : finiteNumbers (normalizedRecord row) = true
  price : ∀ ean price observedAt, Reads dateOf row ean price observedAt →
    ∃ found, chainOfRow toLowerCase row = some found ∧
      (found.isSome = true → isFalse (member row "price_is_discounted") = true →
        observedAt ≤ fetchedAt ∧ price * 100 < 2 ^ (53 : ℕ) - 1 / 2)

/-- The outcome of a row with a verdict. -/
def outcomeOf (row : Json) (idText : JsString) (fetchedAt : ℤ) (verdict : Verdict) : Outcome where
  sourceRecordId := js "op-" ++ idText
  normalizedRecord := normalizedRecord row
  recordedAt := fetchedAt
  verdict := verdict

theorem validRecordBase_iff :
    ValidRecordBase ⟨none, fetchedAt, js "op-" ++ idText⟩ ↔ idText.length ≤ 197 := by
  have hlength : (js "op-" ++ idText).length = 3 + idText.length := List.length_append
  unfold ValidRecordBase BoundedString
  dsimp only
  rw [hlength]
  constructor
  · rintro ⟨⟨-, hle⟩, -⟩
    omega
  · intro hle
    exact ⟨⟨by omega, by omega⟩, fun code hcode => absurd hcode (Option.not_mem_none _)⟩

/-- A row that is rejected can be stored unless its identifier is too long, or a number infinite. -/
theorem storable_rejected_iff {state : RejectedState} {reason : String} {chain : Option Chain}
    {ean : Option JsString} (hreason : BoundedString 80 (js reason))
    (hean : ∀ e ∈ ean, isValidGtin e = true) :
    (outcomeOf row idText fetchedAt (.rejected state reason chain ean)).Storable ↔
      idText.length ≤ 197 ∧ finiteNumbers (normalizedRecord row) = true := by
  unfold Outcome.Storable Outcome.toIngestion outcomeOf
  dsimp only
  refine and_congr_left fun _ => ?_
  constructor
  · rintro ⟨ingested, heq, hvalid⟩
    cases heq
    exact validRecordBase_iff.mp hvalid.1
  · intro hlength
    exact ⟨_, rfl, validRecordBase_iff.mpr hlength, hreason, hean,
      fun scope hscope => absurd hscope (Option.not_mem_none _)⟩

/-- A price that is accepted can be stored if, besides, it is not from the future and not too
large. -/
theorem storable_accepted_iff {chain : Chain} {ean : JsString} {price : ℚ} {observedAt : ℤ}
    (hprice : 0 < price) (hean : isValidGtin ean = true) :
    (outcomeOf row idText fetchedAt
        (.accepted chain ean (amountOre price) observedAt (js "open-prices:" ++ idText))).Storable ↔
      (idText.length ≤ 197 ∧ finiteNumbers (normalizedRecord row) = true) ∧
        observedAt ≤ fetchedAt ∧ price * 100 < 2 ^ (53 : ℕ) - 1 / 2 := by
  rw [← exists_amountOre_iff hprice]
  have hlength : (js "open-prices:" ++ idText).length = 12 + idText.length := List.length_append
  unfold Outcome.Storable Outcome.toIngestion outcomeOf
  dsimp only
  constructor
  · rintro ⟨⟨ingested, heq, hvalid⟩, hnumbers⟩
    obtain ⟨amount, hamount, rfl⟩ := Option.map_eq_some_iff.mp heq
    obtain ⟨hbase, ⟨hsafe, htimes, -, -⟩, -⟩ := hvalid
    exact ⟨⟨validRecordBase_iff.mp hbase, hnumbers⟩, htimes, amount, hamount, hsafe⟩
  · rintro ⟨⟨hid, hnumbers⟩, htimes, amount, hamount, hsafe⟩
    have hreference : BoundedString 8192 (js "open-prices:" ++ idText) := by
      rw [BoundedString, hlength]
      omega
    refine ⟨⟨_, Option.map_eq_some_iff.mpr ⟨amount, hamount, rfl⟩, ?_⟩, hnumbers⟩
    exact ⟨validRecordBase_iff.mpr hid,
      ⟨hsafe, htimes, fun scope hscope => absurd hscope (Option.not_mem_none _), hreference⟩, hean⟩

theorem exists_eq_some_and_iff {α : Type} {a : α} {p : α → Prop} :
    (∃ b, some a = some b ∧ p b) ↔ p a :=
  ⟨fun ⟨_, hb, hp⟩ => Option.some.inj hb ▸ hp, fun hp => ⟨a, rfl, hp⟩⟩

theorem positive_of_positivePrice {price : ℚ} (h : positivePrice row = some price) : 0 < price := by
  unfold positivePrice at h
  split at h
  · exact of_decide_eq_true (Option.filter_eq_some_iff.mp h).2
  · cases h

/-- The outcome of a row that is not null. -/
theorem normalizeOpenPricesOutcome_eq (hnull : row ≠ .null) :
    normalizeOpenPricesOutcome toLowerCase dateOf row fetchedAt =
      (propertyText (member row "id")).bind fun idText =>
        (verdictOfRow toLowerCase dateOf row idText).map (outcomeOf row idText fetchedAt) := by
  cases row with
  | null => exact absurd rfl hnull
  | _ => rfl

/-- What can be stored of a row, besides its identifier and its numbers. -/
theorem exists_verdictOf_iff {ean : JsString} (hean : isValidGtin ean = true) :
    (∃ verdict, verdictOf toLowerCase dateOf row idText ean = some verdict ∧
        (outcomeOf row idText fetchedAt verdict).Storable) ↔
      (idText.length ≤ 197 ∧ finiteNumbers (normalizedRecord row) = true) ∧
        ∀ price observedAt, positivePrice row = some price →
          isText (member row "currency") (js "NOK") = true →
            dateOf (member row "date") = some observedAt →
              ∃ found, chainOfRow toLowerCase row = some found ∧
                (found.isSome = true → isFalse (member row "price_is_discounted") = true →
                  observedAt ≤ fetchedAt ∧ price * 100 < 2 ^ (53 : ℕ) - 1 / 2) := by
  have hsome : ∀ e ∈ some ean, isValidGtin e = true := fun e he => Option.some.inj he ▸ hean
  unfold verdictOf
  cases hprice : positivePrice row with
  | none =>
    dsimp only
    rw [exists_eq_some_and_iff, storable_rejected_iff (by decide) hsome]
    exact (and_iff_left fun price observedAt hprice' => by cases hprice').symm
  | some price =>
    dsimp only
    cases hcurrency : isText (member row "currency") (js "NOK") with
    | false =>
      rw [if_pos rfl, exists_eq_some_and_iff, storable_rejected_iff (by decide) hsome]
      exact (and_iff_left fun _ _ _ hcurrency' => by cases hcurrency').symm
    | true =>
      rw [if_neg (by decide)]
      cases hdate : dateOf (member row "date") with
      | none =>
        dsimp only
        rw [exists_eq_some_and_iff, storable_rejected_iff (by decide) hsome]
        exact (and_iff_left fun _ _ _ _ hdate' => by cases hdate').symm
      | some observedAt =>
        dsimp only
        cases hchain : chainOfRow toLowerCase row with
        | none =>
          refine iff_of_false (fun h => ?_) fun h => ?_
          · obtain ⟨verdict, hverdict, -⟩ := h
            cases hverdict
          · obtain ⟨found, hfound, -⟩ := h.2 price observedAt rfl rfl rfl
            cases hfound
        | some found =>
          have hpositive : 0 < price := positive_of_positivePrice hprice
          rw [Option.map_some, exists_eq_some_and_iff]
          cases found with
          | none =>
            dsimp only
            rw [storable_rejected_iff (by decide) hsome]
            exact (and_iff_left fun _ _ _ _ _ => ⟨none, rfl, fun h => by cases h⟩).symm
          | some chain =>
            dsimp only
            cases hdiscounted : isFalse (member row "price_is_discounted") with
            | false =>
              rw [if_pos rfl, storable_rejected_iff (by decide) hsome]
              exact (and_iff_left fun _ _ _ _ _ => ⟨_, rfl, fun _ h => by cases h⟩).symm
            | true =>
              rw [if_neg (by decide), storable_accepted_iff hpositive hean]
              refine and_congr_right fun _ => ⟨fun h price' observedAt' hp _ ho => ?_, fun h => ?_⟩
              · cases hp
                cases ho
                exact ⟨_, rfl, fun _ _ => h⟩
              · obtain ⟨found, hfound, hall⟩ := h price observedAt rfl rfl rfl
                cases hfound
                exact hall rfl rfl

/-- **When the outcome of a row can be stored.**

**Proof sketch.** The branches of the normalizer, one after the other: a row that is rejected asks
for a short identifier and finite numbers only, and a price that is accepted for its date and its
amount, too. -/
theorem storable_iff : (∃ outcome, normalizeOpenPricesOutcome toLowerCase dateOf row fetchedAt =
      some outcome ∧ outcome.Storable) ↔ IsStorable toLowerCase dateOf row fetchedAt := by
  by_cases hnull : row = .null
  · subst hnull
    refine iff_of_false (fun h => ?_) fun h => h.notNull rfl
    obtain ⟨outcome, houtcome, -⟩ := h
    cases houtcome
  rw [normalizeOpenPricesOutcome_eq hnull]
  cases hid : propertyText (member row "id") with
  | none =>
    refine iff_of_false (fun h => ?_) fun h => ?_
    · obtain ⟨outcome, houtcome, -⟩ := h
      cases houtcome
    · obtain ⟨text, htext, -⟩ := h.id
      rw [hid] at htext
      cases htext
  | some idText =>
    have hverdicts : (∃ outcome, (some idText).bind (fun idText =>
          (verdictOfRow toLowerCase dateOf row idText).map (outcomeOf row idText fetchedAt)) =
            some outcome ∧ outcome.Storable) ↔
        ∃ verdict, verdictOfRow toLowerCase dateOf row idText = some verdict ∧
          (outcomeOf row idText fetchedAt verdict).Storable := by
      rw [Option.bind_some]
      constructor
      · rintro ⟨outcome, houtcome, hstorable⟩
        obtain ⟨verdict, hverdict, rfl⟩ := Option.map_eq_some_iff.mp houtcome
        exact ⟨verdict, hverdict, hstorable⟩
      · rintro ⟨verdict, hverdict, hstorable⟩
        exact ⟨_, Option.map_eq_some_iff.mpr ⟨verdict, hverdict, rfl⟩, hstorable⟩
    have hbounded : (∃ text, propertyText (member row "id") = some text ∧ text.length ≤ 197) ↔
        idText.length ≤ 197 := by
      rw [hid]
      exact ⟨fun ⟨text, htext, hle⟩ => Option.some.inj htext ▸ hle, fun hle => ⟨idText, rfl, hle⟩⟩
    rw [hverdicts, verdictOfRow]
    cases hcode : optionalTrim (member row "product_code") with
    | none =>
      refine iff_of_false (fun h => ?_) fun h => h.code hcode
      obtain ⟨verdict, hverdict, -⟩ := h
      cases hverdict
    | some code =>
      rw [Option.bind_some]
      cases hgtin : code.filter isValidGtin with
      | none =>
        dsimp only
        rw [exists_eq_some_and_iff, storable_rejected_iff (by decide)
          fun e he => absurd he (Option.not_mem_none e)]
        constructor
        · rintro ⟨hlength, hnumbers⟩
          refine ⟨hnull, hbounded.mpr hlength, by simp [hcode], hnumbers, fun ean _ _ hreads => ?_⟩
          have hsome := hreads.code
          rw [hcode, Option.some_inj] at hsome
          rw [hsome, Option.filter_some, if_pos hreads.gtin] at hgtin
          cases hgtin
        · exact fun h => ⟨hbounded.mp h.id, h.numbers⟩
      | some ean =>
        obtain ⟨rfl, hean⟩ := Option.filter_eq_some_iff.mp hgtin
        dsimp only
        rw [exists_verdictOf_iff hean]
        constructor
        · rintro ⟨⟨hlength, hnumbers⟩, hprice⟩
          refine ⟨hnull, hbounded.mpr hlength, by simp [hcode], hnumbers, fun _ price observedAt h => ?_⟩
          exact hprice price observedAt h.price h.currency h.date
        · intro h
          exact ⟨⟨hbounded.mp h.id, h.numbers⟩, fun price observedAt hprice hcurrency hdate =>
            h.price ean price observedAt ⟨hcode, hean, hprice, hcurrency, hdate⟩⟩

/-- **When all outcomes of a list can be stored**: each row must be storable by itself. -/
theorem normalizeAll_storable_iff (toLowerCase : JsString → JsString)
    (dateOf : Option Json → Option ℤ) (fetchedAt : ℤ) (rows : List Json) :
    (∃ outcomes, normalizeAll toLowerCase dateOf rows fetchedAt = some outcomes ∧
        ∀ outcome ∈ outcomes, outcome.Storable) ↔
      ∀ row ∈ rows, IsStorable toLowerCase dateOf row fetchedAt := by
  induction rows with
  | nil =>
    refine iff_of_true ⟨[], rfl, fun outcome h => absurd h List.not_mem_nil⟩ fun row h =>
      absurd h List.not_mem_nil
  | cons row rows ih =>
    rw [List.forall_mem_cons, ← ih, ← storable_iff]
    unfold normalizeAll
    rw [List.mapM_cons]
    constructor
    · rintro ⟨outcomes, houtcomes, hall⟩
      obtain ⟨outcome, houtcome, hrest⟩ := Option.bind_eq_some_iff.mp houtcomes
      obtain ⟨others, hothers, heq⟩ := Option.bind_eq_some_iff.mp hrest
      cases heq
      exact ⟨⟨outcome, houtcome, hall _ List.mem_cons_self⟩,
        others, hothers, fun other h => hall other (List.mem_cons_of_mem _ h)⟩
    · rintro ⟨⟨outcome, houtcome, hstorable⟩, others, hothers, hall⟩
      refine ⟨outcome :: others, ?_, List.forall_mem_cons.mpr ⟨hstorable, hall⟩⟩
      exact Option.bind_eq_some_iff.mpr ⟨outcome, houtcome,
        Option.bind_eq_some_iff.mpr ⟨others, hothers, rfl⟩⟩

namespace Example

/-- A row with a price at a location of a known chain, on a date. -/
def priceOn (date : String) : Json :=
  .object
    [(js "id", .number (.natural 17)), (js "product_code", .string (js "7038010000010")),
      (js "price", .number (.natural 25)), (js "currency", .string (js "NOK")),
      (js "date", .string (js date)), (js "price_is_discounted", .boolean false),
      (js "location_id", .number (.natural 357))]

/-- The instants of two days. -/
def instantOf : Option Json → Option ℤ
  | some (.string s) =>
    if s = js "2026-01-01" then some 1767225600000
    else if s = js "2026-01-02" then some 1767312000000
    else none
  | _ => none

/-- Noon of the first of the two days. -/
def noon : ℤ := 1767268800000

/-- A price that is observed after it has been fetched. -/
def isFromFuture (outcome : Outcome) : Bool :=
  match outcome.verdict with
  | .accepted _ _ _ observedAt _ => outcome.recordedAt < observedAt
  | .rejected _ _ _ _ => false

end Example

/-- A row with the date of tomorrow is accepted, and can not be stored. -/
theorem not_storable_tomorrow : ¬ ∃ outcomes,
    normalizeAll id Example.instantOf [Example.priceOn "2026-01-01", Example.priceOn "2026-01-02"]
        Example.noon = some outcomes ∧ ∀ outcome ∈ outcomes, outcome.Storable := by
  rintro ⟨outcomes, houtcomes, hall⟩
  have hfuture : (normalizeAll id Example.instantOf
      [Example.priceOn "2026-01-01", Example.priceOn "2026-01-02"] Example.noon).map
        (fun outcomes => outcomes.map Example.isFromFuture) = some [false, true] := by
    decide +kernel
  rw [houtcomes, Option.map_some, Option.some_inj] at hfuture
  obtain ⟨outcome, houtcome, hlate⟩ := List.mem_map.mp (hfuture ▸ List.mem_cons_of_mem _
    List.mem_cons_self : true ∈ outcomes.map Example.isFromFuture)
  obtain ⟨⟨ingested, heq, hvalid⟩, -⟩ := hall outcome houtcome
  unfold Example.isFromFuture at hlate
  unfold Outcome.toIngestion at heq
  cases hverdict : outcome.verdict with
  | accepted chain ean amount observedAt reference =>
    rw [hverdict] at hlate heq
    obtain ⟨amount, -, rfl⟩ := Option.map_eq_some_iff.mp heq
    exact absurd hvalid.2.1.2.1 (not_le.mpr (of_decide_eq_true hlate))
  | rejected state reason chain ean =>
    rw [hverdict] at hlate
    cases hlate

end Handleplan.OpenPrices
