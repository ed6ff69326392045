import Handleplan.Kassalapp.PriceSource
import Handleplan.Lib.Delimited

/-!
# The records of the outcomes of a price response

Outcomes of one record are brought together before a response is handed on. Which outcomes share a
record is told by the texts of the records, which are made of an EAN, a chain code, a time and an
amount, or of a position.

## Main definitions

* `Kassalapp.groupOf` — the outcomes of a record.
* `Kassalapp.currentTail`, `Kassalapp.historyTail` — what follows the EAN in
  the record of a price.

## Main results

* `Kassalapp.mem_canonicalize` — what is left of the outcomes of a response.
* `Kassalapp.eq_of_currentTail`, `Kassalapp.eq_of_historyTail` — what the
  record of a price tells.
-/

namespace Handleplan.Kassalapp

open JsString Workers

/-! ### Canonical outcomes -/

section Canonical

variable {host : Host} {stringify : PriceOutcome → JsString} {outcomes group : List PriceOutcome}
  {outcome : PriceOutcome} {sourceRecordId : JsString}

/-- The outcomes of one record. -/
def groupOf (outcomes : List PriceOutcome) (sourceRecordId : JsString) : List PriceOutcome :=
  outcomes.filter fun outcome => outcome.sourceRecordId = sourceRecordId

/-- The outcome of a record whose outcomes contradict each other. -/
def duplicateOf (outcomes : List PriceOutcome) (sourceRecordId : JsString) : PriceOutcome :=
  quarantined sourceRecordId .duplicateIdentity
    (commonOutcomeSubject (groupOf outcomes sourceRecordId))

/-- The outcomes of one record. -/
theorem mem_groupOf : outcome ∈ groupOf outcomes sourceRecordId ↔
    outcome ∈ outcomes ∧ outcome.sourceRecordId = sourceRecordId := by
  unfold groupOf
  rw [List.mem_filter, decide_eq_true_iff]

/-- What is left of a group. -/
theorem mem_canonicalGroup : outcome ∈ canonicalGroup host stringify sourceRecordId group ↔
    (outcome ∈ group ∧ ¬ IsContested group) ∨ (IsContested group ∧
      outcome = quarantined sourceRecordId .duplicateIdentity (commonOutcomeSubject group)) := by
  unfold canonicalGroup
  split_ifs with hcontested
  · rw [List.mem_singleton]
    simp [hcontested]
  · rw [(Sorting.sortBy_perm _ _).mem_iff]
    have hvalues : outcome ∈ (JsMap.ofEntries (group.map fun outcome => (outcome, outcome))).values ↔
        outcome ∈ group := by
      constructor
      · intro hmem
        obtain ⟨entry, hentry, rfl⟩ := List.mem_map.mp hmem
        obtain ⟨other, hother, rfl⟩ := List.mem_map.mp (JsMap.mem_of_mem_ofEntries hentry)
        exact hother
      · intro hmem
        obtain ⟨other, hother, heq⟩ := JsMap.exists_mem_values_ofEntries_map id hmem
        exact (show other = outcome from heq) ▸ hother
    rw [hvalues]
    simp [hcontested]

/-- **What is left of the outcomes of a response**: those of the records whose outcomes do not
contradict each other, and one for each other record. -/
theorem mem_canonicalize :
    outcome ∈ canonicalizeSourceRecordOutcomes host stringify outcomes ↔
      (outcome ∈ outcomes ∧ ¬ IsContested (groupOf outcomes outcome.sourceRecordId)) ∨
        (IsContested (groupOf outcomes outcome.sourceRecordId) ∧
          outcome = duplicateOf outcomes outcome.sourceRecordId) := by
  unfold canonicalizeSourceRecordOutcomes
  rw [List.mem_flatMap]
  constructor
  · rintro ⟨⟨id, group⟩, hentry, hmem⟩
    rw [(Sorting.sortBy_perm _ _).mem_iff] at hentry
    obtain ⟨-, rfl⟩ := (JsMap.mem_groupBy _).mp hentry
    obtain ⟨hgroup, hcontested⟩ | ⟨hcontested, rfl⟩ := mem_canonicalGroup.mp hmem
    · obtain ⟨hin, rfl⟩ := mem_groupOf.mp hgroup
      exact .inl ⟨hin, hcontested⟩
    · exact .inr ⟨hcontested, rfl⟩
  · intro h
    have hsome : ∃ other ∈ outcomes, other.sourceRecordId = outcome.sourceRecordId := by
      obtain ⟨hmem, -⟩ | ⟨hcontested, -⟩ := h
      · exact ⟨outcome, hmem, rfl⟩
      · obtain ⟨other, hother⟩ : ∃ other, other ∈ groupOf outcomes outcome.sourceRecordId := by
          obtain hmany | ⟨-, other, hother, -⟩ := hcontested
          · obtain ⟨record, hrecord⟩ :=
              List.exists_mem_of_length_pos (Nat.lt_of_succ_lt hmany)
            obtain ⟨other, hother, -⟩ := List.mem_filterMap.mp (List.mem_dedup.mp hrecord)
            exact ⟨other, hother⟩
          · exact ⟨other, hother⟩
        exact ⟨other, mem_groupOf.mp hother⟩
    refine ⟨(outcome.sourceRecordId, groupOf outcomes outcome.sourceRecordId), ?_, ?_⟩
    · rw [(Sorting.sortBy_perm _ _).mem_iff]
      exact (JsMap.mem_groupBy _).mpr ⟨hsome, rfl⟩
    · refine mem_canonicalGroup.mpr ?_
      obtain ⟨hmem, hcontested⟩ | ⟨hcontested, heq⟩ := h
      · exact .inl ⟨mem_groupOf.mpr ⟨hmem, rfl⟩, hcontested⟩
      · exact .inr ⟨hcontested, heq⟩

/-- An outcome that is accepted. -/
def PriceOutcome.IsAccepted (outcome : PriceOutcome) : Prop := outcome.state = .accepted

theorem not_isAccepted_rejected (rejection : Rejection) :
    ¬ (PriceOutcome.rejected rejection).IsAccepted := by
  show ¬ (if rejection.isQuarantined then SourceOutcomeState.quarantined else .unknown) = .accepted
  split_ifs <;> decide

/-- A record whose outcomes contradict each other has an accepted one. -/
theorem exists_accepted_of_isContested (h : IsContested group) :
    ∃ outcome ∈ group, outcome.IsAccepted := by
  have haccepted : acceptedRecords group ≠ [] := by
    obtain hmany | ⟨hne, -⟩ := h
    · intro hnil
      rw [hnil] at hmany
      exact absurd hmany (by simp)
    · exact hne
  obtain ⟨record, hrecord⟩ := List.exists_mem_of_ne_nil _ haccepted
  obtain ⟨outcome, hmem, hsome⟩ := List.mem_filterMap.mp hrecord
  refine ⟨outcome, hmem, ?_⟩
  cases outcome with
  | accepted record => rfl
  | rejected rejection => cases hsome

/-- Two outcomes of a record, one of them accepted, contradict each other if they differ. -/
theorem isContested_of_ne {other : PriceOutcome} (hmem : outcome ∈ group) (hother : other ∈ group)
    (haccepted : outcome.IsAccepted) (hne : outcome ≠ other) : IsContested group := by
  cases outcome with
  | rejected rejection => exact absurd haccepted (not_isAccepted_rejected rejection)
  | accepted record =>
    have hrecord : record ∈ acceptedRecords group := List.mem_filterMap.mpr ⟨_, hmem, rfl⟩
    cases other with
    | accepted record' =>
      have hrecord' : record' ∈ acceptedRecords group := List.mem_filterMap.mpr ⟨_, hother, rfl⟩
      refine .inl ?_
      by_contra hle
      have hdedup := List.mem_dedup.mpr hrecord
      have hdedup' := List.mem_dedup.mpr hrecord'
      rcases hlist : (acceptedRecords group).dedup with _ | ⟨first, _ | ⟨second, rest⟩⟩
      · rw [hlist] at hdedup
        cases hdedup
      · rw [hlist, List.mem_singleton] at hdedup hdedup'
        exact hne (by rw [hdedup, hdedup'])
      · rw [hlist] at hle
        simp at hle
    | rejected rejection =>
      exact .inr ⟨List.ne_nil_of_mem hrecord, _, hother, not_isAccepted_rejected rejection⟩

end Canonical

/-! ### Texts of records -/

section Texts

/-- A small letter. -/
def IsLower (u : UInt16) : Prop := 97 ≤ u ∧ u ≤ 122

instance : DecidablePred IsLower := fun _ => inferInstanceAs (Decidable (_ ∧ _))

variable {ean tail : JsString} {index : ℕ} {row : StoreRow}

section

variable (h : isValidGtin ean = true)

include h

/-- A valid GTIN is of digits. -/
theorem isDigit_of_mem_ean {u : UInt16} (hu : u ∈ ean) :
    isDigit u = true :=
  List.all_eq_true.mp (Bool.and_eq_true_iff.mp (gtinShape_of_isValidGtin h)).2 u hu

theorem ean_ne_nil : ean ≠ [] := by
  rintro rfl
  exact absurd h (by decide)

/-- It has no colon. -/
theorem colon_not_mem_ean : (58 : UInt16) ∉ ean :=
  fun hmem => absurd (isDigit_of_mem_ean h hmem) (by decide)

/-- The record of a row tells the product. -/
theorem eq_of_tagged {ean' tail' : JsString} (h' : isValidGtin ean' = true)
    (heq : ean ++ 58 :: tail = ean' ++ 58 :: tail') :
    ean = ean' ∧ tail = tail' :=
  append_sep_inj (colon_not_mem_ean h) (colon_not_mem_ean h') heq

/-- So it is no GTIN with something behind it. -/
theorem ean_ne_tagged {ean' : JsString} :
    ean ≠ ean' ++ 58 :: tail := by
  rintro rfl
  exact colon_not_mem_ean h (List.mem_append_right _ List.mem_cons_self)

end

/-- The record of a product row that does not parse does not begin with a digit. -/
theorem malformedProductId_eq_cons (kind : ObservationKind) (index : ℕ) :
    ∃ u rest, malformedProductId kind index = u :: rest ∧ isDigit u = false := by
  cases kind with
  | current => exact ⟨112, _, rfl, by decide⟩
  | historical => exact ⟨104, _, rfl, by decide⟩

theorem malformedProductId_ne_append {kind : ObservationKind} (h : isValidGtin ean = true) :
    malformedProductId kind index ≠ ean ++ tail := by
  obtain ⟨u, rest, heq, hu⟩ := malformedProductId_eq_cons kind index
  obtain ⟨digit, digits, rfl⟩ := List.exists_cons_of_ne_nil (ean_ne_nil h)
  rw [heq]
  intro hcons
  rw [(List.cons.inj hcons).1, isDigit_of_mem_ean h List.mem_cons_self] at hu
  cases hu

/-- The places of malformed rows have identifiers of their own. -/
theorem malformedProductId_injective (kind : ObservationKind) :
    Function.Injective (malformedProductId kind) := by
  intro index index' heq
  cases kind <;> exact ofNat_injective (List.append_cancel_left heq)

/-- The text of a time has no small letters. -/
theorem not_isLower_toISOString {ms : ℤ} {u : UInt16} (hu : u ∈ toISOString ms) : ¬ IsLower u := by
  rintro ⟨hlow, -⟩
  rcases isTimeUnit_of_mem_toISOString hu with ⟨-, hdigit⟩ | hmark
  · rw [UInt16.le_iff_toNat_le] at hlow hdigit
    exact absurd (hlow.trans hdigit) (by decide)
  · have hmarks : ∀ v ∈ js "+-.:TZ", ¬ 97 ≤ v := by decide
    exact hmarks u hmark hlow

/-- The text of the time of a store row. -/
def observedText (lastChecked : Option ℤ) : JsString :=
  lastChecked.elim (js "unknown-time") toISOString

/-- What follows the EAN in the record of a store row that parses. -/
def currentTail (row : StoreRow) : JsString :=
  row.store ++ js ":current:" ++ observedText row.lastChecked

/-- The identifier of a current price begins with its GTIN. -/
theorem priceSourceRecordId_current (ean : JsString) (row : StoreRow) :
    priceSourceRecordId ean row.store .current (observedText row.lastChecked) row.currentPriceOre =
      ean ++ 58 :: currentTail row := by
  simp [priceSourceRecordId, currentTail, ObservationKind.text, js]

/-- That of a malformed row too. -/
theorem fallbackRecordId_eq (ean : JsString) (index : ℕ) :
    fallbackRecordId ean index = ean ++ 58 :: (js "store-" ++ JsString.ofNat index) := by
  simp [fallbackRecordId, js]

/-- And that of a chain without a price. -/
theorem coverageId_eq (ean code : JsString) :
    coverageId ean code = ean ++ 58 :: (code ++ js ":current:coverage") := by
  simp [coverageId, js]

/-- The store and the time are told by the record of a store row. -/
theorem eq_of_currentTail {row' : StoreRow} (h : currentTail row = currentTail row') :
    row.store = row'.store ∧ (row.lastChecked = none ↔ row'.lastChecked = none) ∧
      observedText row.lastChecked = observedText row'.lastChecked := by
  have hsome : ∀ {row : StoreRow} {t : ℤ}, row.lastChecked = some t →
      currentTail row = (row.store ++ js ":curren") ++ 116 :: (58 :: toISOString t) := by
    intro row t ht
    simp [currentTail, observedText, ht, js]
  have hnone : ∀ {row : StoreRow}, row.lastChecked = none →
      currentTail row = (row.store ++ js ":current:unknown-tim") ++ 101 :: [] := by
    intro row ht
    simp [currentTail, observedText, ht, js]
  have htail : ∀ {t : ℤ}, ∀ u ∈ 58 :: toISOString t, ¬ IsLower u := by
    intro t u hu
    obtain rfl | hu := List.mem_cons.mp hu
    · decide
    · exact not_isLower_toISOString hu
  cases ht : row.lastChecked with
  | none =>
    cases ht' : row'.lastChecked with
    | none =>
      rw [hnone ht, hnone ht'] at h
      exact ⟨List.append_cancel_right (List.append_cancel_right h), Iff.rfl, rfl⟩
    | some t' =>
      rw [hnone ht, hsome ht'] at h
      have hletters := Delimited.eq_of_append_cons_right (by simp) htail (by decide) (by decide) h
      exact absurd hletters.2.1 (by decide)
  | some t =>
    cases ht' : row'.lastChecked with
    | none =>
      rw [hsome ht, hnone ht'] at h
      have hletters := Delimited.eq_of_append_cons_right htail (by simp) (by decide) (by decide) h
      exact absurd hletters.2.1 (by decide)
    | some t' =>
      rw [hsome ht, hsome ht'] at h
      obtain ⟨hstore, -, htime⟩ :=
        Delimited.eq_of_append_cons_right htail htail (by decide) (by decide) h
      exact ⟨List.append_cancel_right hstore, by simp, (List.cons.inj htime).2⟩

/-- The record of a store row that parses is not that of a supported chain without a row. -/
theorem currentTail_ne_coverage {code : JsString} :
    currentTail row ≠ code ++ js ":current:coverage" := by
  intro h
  have hcoverage : code ++ js ":current:coverage" = (code ++ js ":current:coverag") ++ 101 :: [] := by
    simp [js]
  rw [hcoverage] at h
  cases ht : row.lastChecked with
  | none =>
    have htail : currentTail row = (row.store ++ js ":current:unknown-tim") ++ 101 :: [] := by
      simp [currentTail, observedText, ht, js]
    rw [htail] at h
    have hcut := List.append_cancel_right h
    have hunknown : row.store ++ js ":current:unknown-tim" =
        (row.store ++ js ":current:unknown-ti") ++ 109 :: [] := by simp [js]
    have hcoverag : code ++ js ":current:coverag" = (code ++ js ":current:covera") ++ 103 :: [] := by
      simp [js]
    rw [hunknown, hcoverag] at hcut
    have hletters := Delimited.eq_of_append_cons_right (P := IsLower) (by simp) (by simp)
      (by decide) (by decide) hcut
    exact absurd hletters.2.1 (by decide)
  | some t =>
    have htail : currentTail row = (row.store ++ js ":curren") ++ 116 :: (58 :: toISOString t) := by
      simp [currentTail, observedText, ht, js]
    rw [htail] at h
    have hlower : ∀ u ∈ 58 :: toISOString t, ¬ IsLower u := by
      intro u hu
      obtain rfl | hu := List.mem_cons.mp hu
      · decide
      · exact not_isLower_toISOString hu
    have hletters := Delimited.eq_of_append_cons_right hlower (by simp) (by decide) (by decide) h
    exact absurd hletters.2.1 (by decide)

theorem colon_not_mem_store (index : ℕ) : (58 : UInt16) ∉ js "store-" ++ JsString.ofNat index := by
  intro hmem
  obtain hmem | hmem := List.mem_append.mp hmem
  · exact absurd hmem (by decide)
  · exact absurd (mem_ofNat hmem).2 (by decide)

/-- A malformed row is told apart from a current price. -/
theorem store_ne_currentTail :
    js "store-" ++ JsString.ofNat index ≠ currentTail row := by
  intro h
  refine colon_not_mem_store index ?_
  rw [h]
  simp [currentTail, js]

/-- And from a chain without a price. -/
theorem store_ne_coverage {code : JsString} :
    js "store-" ++ JsString.ofNat index ≠ code ++ js ":current:coverage" := by
  intro h
  refine colon_not_mem_store index ?_
  rw [h]
  simp [js]

/-- What follows the EAN in the record of a row of the price history. -/
def historyTail (history : HistoryRow) : JsString :=
  history.store ++ js ":historical:" ++ history.date ++ js "T00:00:00.000Z:" ++
    history.amountOre.elim (js "missing") JsString.ofNat

theorem priceSourceRecordId_historical (ean : JsString) (history : HistoryRow) :
    priceSourceRecordId ean history.store .historical (history.date ++ js "T00:00:00.000Z")
      history.amountOre = ean ++ 58 :: historyTail history := by
  simp [priceSourceRecordId, historyTail, ObservationKind.text, js]

/-- The text of an amount. -/
def amountText (amountOre : Option ℕ) : JsString := amountOre.elim (js "missing") JsString.ofNat

/-- Amounts have different texts. -/
theorem amountText_injective : Function.Injective amountText := by
  have hdigit : ∀ n, JsString.ofNat n ≠ js "missing" := by
    intro n heq
    have hm : (109 : UInt16) ∈ JsString.ofNat n := heq ▸ by decide
    exact absurd (mem_ofNat hm).2 (by decide)
  intro amount amount' heq
  cases amount with
  | none =>
    cases amount' with
    | none => rfl
    | some n' => exact absurd heq.symm (hdigit n')
  | some n =>
    cases amount' with
    | none => exact absurd heq (hdigit n)
    | some n' => rw [ofNat_injective heq]

theorem colon_not_mem_amountText (amountOre : Option ℕ) : ∀ u ∈ amountText amountOre, ¬ u = 58 := by
  rintro u hu rfl
  cases amountOre with
  | none => exact absurd hu (by decide)
  | some n => exact absurd (mem_ofNat hu).2 (by decide)

/-- The store, the date and the amount are told by the record of a row of the price history. -/
theorem eq_of_historyTail {history history' : HistoryRow}
    (h : historyTail history = historyTail history') :
    history.store = history'.store ∧ history.date = history'.date ∧
      history.amountOre = history'.amountOre := by
  have hsplit : ∀ history : HistoryRow, historyTail history =
      (history.store ++ js ":historical" ++ 58 :: history.date ++ js "T00:00:00.000Z") ++
        58 :: amountText history.amountOre := by
    intro history
    simp [historyTail, amountText, js]
  have hdate : ∀ (history : HistoryRow), ∀ u ∈ history.date, ¬ u = 58 := by
    rintro history u hu rfl
    exact absurd (history.isDateText _ hu) (by decide)
  rw [hsplit, hsplit] at h
  obtain ⟨hbefore, -, hamount⟩ := Delimited.eq_of_append_cons_right (P := fun u => u = 58)
    (colon_not_mem_amountText _) (colon_not_mem_amountText _) rfl rfl h
  obtain ⟨hstore, -, hdates⟩ := Delimited.eq_of_append_cons_right (P := fun u => u = 58)
    (hdate history) (hdate history') rfl rfl (List.append_cancel_right hbefore)
  exact ⟨List.append_cancel_right hstore, hdates, amountText_injective hamount⟩

end Texts

end Handleplan.Kassalapp
