import Handleplan.Db.CatalogIngestion
import Mathlib.Data.List.Pairwise

/-!
# When canonical catalog facts regress

A product that is active is changed by corrections only, and each of them is by a later version than
the one it is compared with. That is the version observed last in a completed run, which need not be
the one that has set the fields: the run that has corrected the product may not be completed, and an
observation that was retrieved later may be of an older version, or of none.

## Main definitions

* `CatalogIngestion.NeverRegresses` — corrections of a product from a record are by
  versions that do not decrease.
* `CatalogIngestion.ComparesWithLatest` — an outcome older than a correction is compared
  with a version that is not older than the outcome.

## Main results

* `CatalogIngestion.decision_eq_correct_iff` — when a product is corrected.
* `CatalogIngestion.correction_of_replaces` — what changes an active product.
* `CatalogIngestion.neverRegresses_step_iff` — which steps regress.
* `CatalogIngestion.neverRegresses_of_comparesWithLatest` — which runs do not.
* `CatalogIngestion.run_persistCatalogOutcomes` — a batch is its outcomes in turn.
-/

namespace Handleplan.CatalogIngestion

open JsString IngestionRuns Transitions

/-! ### The decision -/

section Decision

variable {canonical : CanonicalProduct} {incoming : CatalogProductRecord}
  {version : Option (Option ℤ)}

/-- **When a product is corrected**: it is active and says something else, the source is matched to
it, and the record has a version that is later than the one it is compared with. -/
theorem decision_eq_correct_iff :
    catalogCanonicalMutationDecision canonical incoming version true = .correct ↔
      canonical.status = .active ∧ canonical.fields ≠ incoming.fields ∧
        ∃ matched, version = some matched ∧ ∃ updatedAt, incoming.sourceUpdatedAt = some updatedAt ∧
          ∀ prior ∈ matched, prior < updatedAt := by
  unfold catalogCanonicalMutationDecision
  cases canonical.status with
  | retired => simp
  | quarantined => simp
  | active =>
    by_cases hsame : canonical.fields = incoming.fields
    · simp [hsame]
    · rw [if_neg hsame]
      rcases version with _ | _ | prior
      · simp
      · cases incoming.sourceUpdatedAt <;> simp [hsame]
      · cases incoming.sourceUpdatedAt with
        | none => simp
        | some updatedAt =>
          by_cases hle : updatedAt ≤ prior
          · simp [hle]
          · simp [hle, hsame, not_le.mp hle]

/-- Only a product that is quarantined is activated. -/
theorem status_of_activate
    (h : catalogCanonicalMutationDecision canonical incoming version true = .activate) :
    canonical.status = .quarantined := by
  unfold catalogCanonicalMutationDecision at h
  split at h
  case h_1 => cases h
  case h_2 hstatus => exact hstatus
  case h_3 =>
    split at h
    · cases h
    · split at h
      · cases h
      · split at h <;> cases h
      · cases h

/-- **A change of an active product that stays active** is a correction. -/
theorem eq_correct_of_mutate {mutation : CatalogCanonicalMutationDecision}
    (h : catalogCanonicalMutationDecision canonical incoming version true = mutation)
    (hactive : canonical.status = .active)
    (hne : canonical.fields ≠ (canonical.mutate incoming mutation).fields) : mutation = .correct := by
  cases mutation with
  | activate =>
    have := status_of_activate h
    rw [hactive] at this
    cases this
  | correct => rfl
  | keep => exact absurd rfl hne
  | review => exact absurd rfl hne

end Decision

/-! ### One outcome -/

theorem toOption_eq_some_iff {ε α : Type} {x : Except ε α} {a : α} :
    x.toOption = some a ↔ x = .ok a := by
  cases x <;> simp [Except.toOption]

/-- What becomes of the products when an outcome is persisted. -/
inductive ProductsBecome (tables : CatalogTables) (record : RecordKey) (ean : JsString)
    (incoming : CatalogProductRecord) : List CanonicalProduct → Prop
  | stay : ProductsBecome tables record ean incoming tables.products
  | grow (product : CanonicalProduct) :
      ProductsBecome tables record ean incoming (tables.products ++ [product])
  | change {productId : ℕ} {mutation : CatalogCanonicalMutationDecision}
      {canonical : CanonicalProduct}
      (hdecision : decisionOf tables record ean incoming = some (productId, mutation))
      (hproduct : tables.products[productId]? = some canonical) :
      ProductsBecome tables record ean incoming
        (tables.products.set productId (canonical.mutate incoming mutation))

/-- A product that is active stays active. -/
theorem ProductsBecome.isActive {tables tables' : CatalogTables} {record : RecordKey}
    {ean : JsString} {incoming : CatalogProductRecord} {productId : ℕ}
    (h : ProductsBecome tables record ean incoming tables'.products)
    (hactive : IsActive tables productId) : IsActive tables' productId := by
  obtain ⟨canonical, hcanonical, hstatus⟩ := hactive
  unfold IsActive
  generalize tables'.products = products at h
  cases h with
  | stay => exact ⟨canonical, hcanonical, hstatus⟩
  | grow product =>
    refine ⟨canonical, ?_, hstatus⟩
    rw [List.getElem?_append_left (List.getElem?_eq_some_iff.mp hcanonical).1]
    exact hcanonical
  | @change other mutation before hdecision hproduct =>
    by_cases hsame : other = productId
    · subst hsame
      obtain rfl := Option.some.inj (hproduct.symm.trans hcanonical)
      refine ⟨before.mutate incoming mutation, ?_, ?_⟩
      · rw [List.getElem?_set_self (List.getElem?_eq_some_iff.mp hcanonical).1]
        rfl
      · cases mutation <;> first | rfl | exact hstatus
    · refine ⟨canonical, ?_, hstatus⟩
      rw [List.getElem?_set_ne hsame]
      exact hcanonical

section Outcome

variable {hash : NormalizedOutcome → JsString} {tables tables' : CatalogTables} {runId : ℕ}
  {sourceId ean : JsString} {record : RecordKey} {incoming : CatalogProductRecord}
  {base : OutcomeBase} {approved : Bool} {outcome : CatalogIngestionOutcome}

theorem eq_of_auditOutcome {normalized : NormalizedOutcome}
    (h : auditOutcome hash tables runId normalized = .ok tables') :
    ∃ outcomes, tables' = { tables with outcomes := outcomes } := by
  unfold auditOutcome at h
  split at h
  · exact ⟨_, (Except.ok.inj h).symm⟩
  · split_ifs at h
    exact ⟨tables.outcomes, (Except.ok.inj h).symm⟩

theorem eq_of_linkSourceProduct {rawRecordHash : JsString} {productId : ℕ}
    (h : linkSourceProduct tables record incoming rawRecordHash productId = .ok tables') :
    ∃ identifiers rows, tables' =
      { tables with sourceIdentifiers := identifiers, sourceProducts := rows } := by
  unfold linkSourceProduct at h
  dsimp only at h
  split_ifs at h
  exact ⟨_, _, (Except.ok.inj h).symm⟩

theorem appendCatalogObservation_eq {sourceRecordId rawRecordHash : JsString} {productId : ℕ} :
    ∃ observations, appendCatalogObservation tables runId sourceRecordId ean incoming rawRecordHash
      productId = { tables with observations := observations } := by
  unfold appendCatalogObservation
  split_ifs
  · exact ⟨tables.observations, rfl⟩
  · exact ⟨_, rfl⟩

/-- What a resolution does, when an identifier of the product is there or not. -/
theorem productsBecome_resolveProductByGtin {productId : ℕ} {reviewRequired : Bool}
    (h : resolveProductByGtin tables record ean incoming = .ok (productId, reviewRequired, tables')) :
    ProductsBecome tables record ean incoming tables'.products ∧ tables'.runs = tables.runs := by
  unfold resolveProductByGtin at h
  split at h
  case h_1 identifier hidentifier =>
    split at h
    case h_1 => cases h
    case h_2 canonical hcanonical =>
      have hdecision : decisionOf tables record ean incoming = some (identifier.productId,
          catalogCanonicalMutationDecision canonical incoming
            (matchedSourceVersion tables record identifier.productId) true) := by
        simp [decisionOf, hidentifier, hcanonical]
      split at h
      case h_1 =>
        obtain ⟨-, -, rfl⟩ := Prod.mk.inj (Except.ok.inj h) |>.imp_right Prod.mk.inj
        exact ⟨.stay, rfl⟩
      case h_2 =>
        obtain ⟨-, -, rfl⟩ := Prod.mk.inj (Except.ok.inj h) |>.imp_right Prod.mk.inj
        exact ⟨.change hdecision hcanonical, rfl⟩
  case h_2 =>
    obtain ⟨-, -, rfl⟩ := Prod.mk.inj (Except.ok.inj h) |>.imp_right Prod.mk.inj
    exact ⟨.grow _, rfl⟩

/-- What an accepted record does to the products. -/
theorem productsBecome_persistAccepted
    (h : persistAccepted hash tables runId sourceId base ean incoming = .ok tables') :
    ProductsBecome tables ⟨sourceId, base.sourceRecordId⟩ ean incoming tables'.products ∧
      tables'.runs = tables.runs := by
  unfold persistAccepted at h
  obtain ⟨⟨productId, reviewRequired, resolved⟩, hresolve, h⟩ := bind_eq_ok_iff.mp h
  have hresolved := productsBecome_resolveProductByGtin hresolve
  cases reviewRequired with
  | true =>
    obtain ⟨outcomes, rfl⟩ := eq_of_auditOutcome h
    exact hresolved
  | false =>
    obtain ⟨audited, haudit, h⟩ := bind_eq_ok_iff.mp h
    obtain ⟨linked, hlink, h⟩ := bind_eq_ok_iff.mp h
    obtain ⟨outcomes, rfl⟩ := eq_of_auditOutcome haudit
    obtain ⟨identifiers, rows, rfl⟩ := eq_of_linkSourceProduct hlink
    obtain ⟨observations, happend⟩ := appendCatalogObservation_eq
    rw [← Except.ok.inj h, happend]
    exact hresolved

/-- What persisting an outcome does to the products of other kinds of outcomes, and to the runs. -/
theorem persistOutcome_cases
    (h : persistOutcome hash tables runId sourceId approved outcome = .ok tables') :
    tables'.runs = tables.runs ∧ ((tables'.products = tables.products ∧
      ∀ base ean incoming, ¬ (approved = true ∧ outcome = .accepted base ean incoming)) ∨
        ∃ base ean incoming, approved = true ∧ outcome = .accepted base ean incoming ∧
          ProductsBecome tables ⟨sourceId, base.sourceRecordId⟩ ean incoming tables'.products) := by
  cases outcome with
  | accepted base ean incoming =>
    cases approved with
    | true =>
      obtain ⟨hproducts, hruns⟩ := productsBecome_persistAccepted h
      exact ⟨hruns, .inr ⟨base, ean, incoming, rfl, rfl, hproducts⟩⟩
    | false =>
      obtain ⟨outcomes, rfl⟩ := eq_of_auditOutcome h
      exact ⟨rfl, .inl ⟨rfl, fun _ _ _ hand => nomatch hand.1⟩⟩
  | quarantined base reason ean record =>
    obtain ⟨outcomes, rfl⟩ := eq_of_auditOutcome h
    exact ⟨rfl, .inl ⟨rfl, fun _ _ _ hand => nomatch hand.2⟩⟩
  | unknown base reason ean record =>
    obtain ⟨outcomes, rfl⟩ := eq_of_auditOutcome h
    exact ⟨rfl, .inl ⟨rfl, fun _ _ _ hand => nomatch hand.2⟩⟩

end Outcome

/-! ### Steps -/

/-- The fields of an active product, which stays active, are replaced. -/
def Replaces (tables tables' : CatalogTables) (productId : ℕ) : Prop :=
  ∃ before after, tables.products[productId]? = some before ∧
    tables'.products[productId]? = some after ∧ before.status = .active ∧ after.status = .active ∧
      before.fields ≠ after.fields

/-- **Corrections do not regress**: those of a product from a record of a source are by versions
that do not decrease. -/
def NeverRegresses (st : CatalogState) : Prop :=
  st.corrections.Pairwise fun earlier later =>
    earlier.productId = later.productId → earlier.record = later.record →
      earlier.version ≤ later.version

/-- Whether an outcome of a record is compared with a product: it is active and says something else,
and the record is matched to it. -/
def IsCompared (tables : CatalogTables) (record : RecordKey) (ean : JsString)
    (incoming : CatalogProductRecord) (productId : ℕ) : Prop :=
  (∃ identifier ∈ tables.identifiers ean, identifier.productId = productId) ∧
    (∃ canonical ∈ tables.products[productId]?,
      canonical.status = .active ∧ canonical.fields ≠ incoming.fields) ∧
        IsSameMatchedSource tables record productId

instance (tables : CatalogTables) (record : RecordKey) (ean : JsString)
    (incoming : CatalogProductRecord) (productId : ℕ) :
    Decidable (IsCompared tables record ean incoming productId) :=
  inferInstanceAs (Decidable ((∃ _ ∈ _, _) ∧ (∃ _ ∈ _, _ ∧ _) ∧ _))

/-- Whether the observation that an outcome is compared with is of a version that is not older. -/
def HasLaterVersion (tables : CatalogTables) (record : RecordKey) (productId : ℕ) (updatedAt : ℤ) :
    Prop :=
  ∃ observation ∈ priorCompletedObservation tables record productId,
    ∃ version ∈ observation.sourceUpdatedAt, updatedAt ≤ version

instance (tables : CatalogTables) (record : RecordKey) (productId : ℕ) (updatedAt : ℤ) :
    Decidable (HasLaterVersion tables record productId updatedAt) :=
  inferInstanceAs (Decidable (∃ _ ∈ _, ∃ _ ∈ _, _))

/-- **An outcome that is older than a correction** of the product it is compared with, from the same
record, is compared with a version that is not older than the outcome: the observation of that
record that was retrieved last in completed runs is not. -/
def ComparesWithLatest (st : CatalogState) : CatalogEvent → Prop
  | .persists runId true (.accepted base ean incoming) =>
    ∀ run ∈ st.tables.runs runId, ∀ correction ∈ st.corrections,
      ∀ updatedAt ∈ incoming.sourceUpdatedAt,
        correction.record = ⟨run.sourceId, base.sourceRecordId⟩ → updatedAt < correction.version →
          IsCompared st.tables correction.record ean incoming correction.productId →
            HasLaterVersion st.tables correction.record correction.productId updatedAt
  | _ => True

instance (st : CatalogState) : DecidablePred (ComparesWithLatest st)
  | .persists _ true (.accepted _ _ _) =>
    inferInstanceAs (Decidable (∀ _ ∈ _, ∀ _ ∈ _, ∀ _ ∈ _, _ → _ → _ → _))
  | .persists _ false (.accepted _ _ _) => .isTrue trivial
  | .persists _ true (.quarantined _ _ _ _) => .isTrue trivial
  | .persists _ false (.quarantined _ _ _ _) => .isTrue trivial
  | .persists _ true (.unknown _ _ _ _) => .isTrue trivial
  | .persists _ false (.unknown _ _ _ _) => .isTrue trivial
  | .begins _ _ => .isTrue trivial
  | .finishes _ _ => .isTrue trivial
  | .audits _ _ => .isTrue trivial
  | .resolves _ _ => .isTrue trivial
  | .reviews _ _ => .isTrue trivial

section Steps

variable {hash : NormalizedOutcome → JsString} {st st' : CatalogState} {event : CatalogEvent}
  {tables tables' : CatalogTables} {record : RecordKey} {ean : JsString}
  {incoming : CatalogProductRecord}

/-- What a step does to the products and to the log: a persisted outcome may be a correction, and
nothing else changes a product but its status. -/
inductive StepEffect (st : CatalogState) : CatalogEvent → CatalogState → Prop
  | persists {runId : ℕ} {run : CatalogRun} {base : OutcomeBase} {ean : JsString}
      {incoming : CatalogProductRecord} {tables' : CatalogTables}
      (hrun : st.tables.runs runId = some run)
      (hproducts : ProductsBecome st.tables ⟨run.sourceId, base.sourceRecordId⟩ ean incoming
        tables'.products) :
      StepEffect st (.persists runId true (.accepted base ean incoming))
        (st.moveTo tables' (correctionOf st.tables run.sourceId true (.accepted base ean incoming)))
  | keeps {event : CatalogEvent} {tables' : CatalogTables} (hevent : ComparesWithLatest st event)
      (hproducts : ∀ (productId : ℕ) (before after : CanonicalProduct),
        st.tables.products[productId]? = some before →
        tables'.products[productId]? = some after → before.fields = after.fields) :
      StepEffect st event (st.moveTo tables' none)

theorem StepEffect.keeps_of_eq {tables' : CatalogTables} (hevent : ComparesWithLatest st event)
    (hproducts : tables'.products = st.tables.products) :
    StepEffect st event (st.moveTo tables' none) := by
  refine .keeps hevent fun productId before after hbefore hafter => ?_
  rw [hproducts, hbefore] at hafter
  rw [Option.some.inj hafter]

/-- **What one step does.** -/
theorem stepEffect_of_step (h : step hash st event = some st') : StepEffect st event st' := by
  cases event with
  | begins runId sourceId =>
    obtain ⟨-, heq⟩ := Option.ite_none_left_eq_some.mp h
    exact Option.some.inj heq ▸ .keeps_of_eq trivial rfl
  | finishes runId status =>
    obtain ⟨run, -, rfl⟩ := Option.map_eq_some_iff.mp h
    exact .keeps_of_eq trivial rfl
  | audits runId outcome =>
    obtain ⟨run, -, h⟩ := Option.bind_eq_some_iff.mp h
    obtain ⟨tables', haudit, rfl⟩ := Option.map_eq_some_iff.mp h
    obtain ⟨outcomes, rfl⟩ := eq_of_auditOutcome (toOption_eq_some_iff.mp haudit)
    exact .keeps_of_eq trivial rfl
  | resolves ean now =>
    cases h
    refine .keeps trivial fun productId before after hbefore hafter => ?_
    unfold resolveForPrice at hafter
    split at hafter
    · exact congrArg _ (Option.some.inj (hbefore.symm.trans hafter))
    · rw [List.getElem?_append_left (List.getElem?_eq_some_iff.mp hbefore).1] at hafter
      exact congrArg _ (Option.some.inj (hbefore.symm.trans hafter))
  | reviews productId status =>
    obtain ⟨canonical, hcanonical, rfl⟩ := Option.map_eq_some_iff.mp h
    refine .keeps trivial fun other before after hbefore hafter => ?_
    dsimp only at hafter
    rw [List.getElem?_set] at hafter
    split_ifs at hafter with hsame
    · subst hsame
      cases hafter
      obtain rfl := Option.some.inj (hbefore.symm.trans hcanonical)
      rfl
    · exact congrArg _ (Option.some.inj (hbefore.symm.trans hafter))
  | persists runId approved outcome =>
    obtain ⟨run, hrun, h⟩ := Option.bind_eq_some_iff.mp h
    obtain ⟨-, h⟩ := Option.ite_none_right_eq_some.mp h
    obtain ⟨tables', hpersist, rfl⟩ := Option.map_eq_some_iff.mp h
    have hpersist := toOption_eq_some_iff.mp hpersist
    have hrow : st.tables.runs runId = some run := (Option.filter_eq_some_iff.mp hrun).1
    obtain ⟨-, ⟨hproducts, hother⟩ | ⟨base, ean, incoming, rfl, rfl, hproducts⟩⟩ :=
      persistOutcome_cases hpersist
    · have hnone : correctionOf st.tables run.sourceId approved outcome = none := by
        unfold correctionOf
        split
        · exact absurd ⟨rfl, rfl⟩ (hother _ _ _)
        · rfl
      rw [hnone]
      refine .keeps_of_eq ?_ hproducts
      unfold ComparesWithLatest
      split
      · obtain ⟨-, rfl, rfl⟩ := CatalogEvent.persists.inj ‹_›
        exact absurd ⟨rfl, rfl⟩ (hother _ _ _)
      · trivial
    · exact .persists hrow hproducts

/-- When an outcome is a correction, and of what. -/
theorem correctionOf_eq_some_iff {sourceId : JsString} {base : OutcomeBase}
    {correction : Correction} :
    correctionOf tables sourceId true (.accepted base ean incoming) = some correction ↔
      correction.record = ⟨sourceId, base.sourceRecordId⟩ ∧
        incoming.sourceUpdatedAt = some correction.version ∧
          decisionOf tables ⟨sourceId, base.sourceRecordId⟩ ean incoming =
            some (correction.productId, .correct) := by
  unfold correctionOf
  constructor
  · intro h
    obtain ⟨decision, hdecision, h⟩ := Option.bind_eq_some_iff.mp h
    obtain ⟨hcorrect, h⟩ := Option.ite_none_right_eq_some.mp h
    obtain ⟨version, hversion, rfl⟩ := Option.map_eq_some_iff.mp h
    exact ⟨rfl, hversion, hcorrect ▸ hdecision⟩
  · rintro ⟨hrecord, hversion, hdecision⟩
    obtain ⟨productId, record, version⟩ := correction
    obtain rfl := hrecord
    simp [hdecision, show incoming.sourceUpdatedAt = some version from hversion]

/-- **A correction is compared** with a version that is older, if there is one. -/
theorem decisionOf_eq_correct_iff {productId : ℕ} {updatedAt : ℤ}
    (hupdated : incoming.sourceUpdatedAt = some updatedAt) :
    decisionOf tables record ean incoming = some (productId, .correct) ↔
      IsCompared tables record ean incoming productId ∧
        ¬ HasLaterVersion tables record productId updatedAt := by
  have hversion : ∀ matched, matchedSourceVersion tables record productId = some matched ↔
      IsSameMatchedSource tables record productId ∧
        ((priorCompletedObservation tables record productId).bind fun observation =>
          observation.sourceUpdatedAt) = matched := by
    intro matched
    unfold matchedSourceVersion
    split_ifs with hmatched <;> simp [hmatched]
  have hlater : HasLaterVersion tables record productId updatedAt ↔
      ∃ version ∈ (priorCompletedObservation tables record productId).bind fun observation =>
        observation.sourceUpdatedAt, updatedAt ≤ version := by
    simp only [HasLaterVersion, Option.mem_def, Option.bind_eq_some_iff]
    constructor
    · rintro ⟨observation, hobservation, version, hversion, hle⟩
      exact ⟨version, ⟨observation, hobservation, hversion⟩, hle⟩
    · rintro ⟨version, ⟨observation, hobservation, hversion⟩, hle⟩
      exact ⟨observation, hobservation, version, hversion, hle⟩
  constructor
  · intro h
    obtain ⟨identifier, hidentifier, h⟩ := Option.bind_eq_some_iff.mp h
    obtain ⟨canonical, hcanonical, h⟩ := Option.map_eq_some_iff.mp h
    obtain ⟨rfl, hdecision⟩ := Prod.mk.inj h
    obtain ⟨hactive, hne, matched, hmatched, later, hlaterEq, hall⟩ :=
      decision_eq_correct_iff.mp hdecision
    obtain rfl := Option.some.inj (hupdated.symm.trans hlaterEq)
    obtain ⟨hsame, hprior⟩ := (hversion matched).mp hmatched
    refine ⟨⟨⟨identifier, hidentifier, rfl⟩, ⟨canonical, hcanonical, hactive, hne⟩, hsame⟩, ?_⟩
    rw [hlater, hprior]
    rintro ⟨version, hmem, hle⟩
    exact absurd hle (not_le.mpr (hall version hmem))
  · rintro ⟨⟨⟨identifier, hidentifier, rfl⟩, ⟨canonical, hcanonical, hactive, hne⟩, hsame⟩, hnot⟩
    rw [hlater] at hnot
    refine Option.bind_eq_some_iff.mpr ⟨identifier, hidentifier,
      Option.map_eq_some_iff.mpr ⟨canonical, hcanonical, ?_⟩⟩
    refine Prod.ext rfl (decision_eq_correct_iff.mpr ⟨hactive, hne, _, (hversion _).mpr ⟨hsame, rfl⟩,
      updatedAt, hupdated, fun prior hprior => ?_⟩)
    exact not_le.mp fun hle => hnot ⟨prior, hprior, hle⟩

/-- **What changes an active product** that stays active is a correction, which is logged. -/
theorem correction_of_replaces (h : step hash st event = some st') {productId : ℕ}
    (hreplaces : Replaces st.tables st'.tables productId) :
    ∃ runId run outcome correction, event = .persists runId true outcome ∧
      st.tables.runs runId = some run ∧
        correctionOf st.tables run.sourceId true outcome = some correction ∧
          correction.productId = productId ∧ st'.corrections.getLast? = some correction := by
  obtain ⟨before, after, hbefore, hafter, hactive, hstays, hne⟩ := hreplaces
  cases stepEffect_of_step h with
  | keeps hevent hproducts => exact absurd (hproducts productId before after hbefore hafter) hne
  | @persists runId run base ean incoming tables' hrun hproducts =>
    dsimp only [CatalogState.moveTo] at hafter
    generalize hnew : tables'.products = products at hproducts hafter
    cases hproducts with
    | stay => exact absurd (congrArg _ (Option.some.inj (hbefore.symm.trans hafter))) hne
    | grow product =>
      rw [List.getElem?_append_left (List.getElem?_eq_some_iff.mp hbefore).1] at hafter
      exact absurd (congrArg _ (Option.some.inj (hbefore.symm.trans hafter))) hne
    | @change other mutation canonical hdecision hproduct =>
      rw [List.getElem?_set] at hafter
      split_ifs at hafter with hsame hlt
      · subst hsame
        obtain rfl := Option.some.inj (hbefore.symm.trans hproduct)
        cases hafter
        obtain ⟨identifier, hidentifier, hmap⟩ := Option.bind_eq_some_iff.mp hdecision
        obtain ⟨canonical, hcanonical, heq⟩ := Option.map_eq_some_iff.mp hmap
        obtain ⟨rfl, hmutation⟩ := Prod.mk.inj heq
        obtain rfl := Option.some.inj (hbefore.symm.trans hcanonical)
        obtain rfl := eq_correct_of_mutate hmutation hactive hne
        obtain ⟨-, -, -, -, updatedAt, hupdated, -⟩ := decision_eq_correct_iff.mp hmutation
        have hcorrection : correctionOf st.tables run.sourceId true (.accepted base ean incoming) =
            some ⟨identifier.productId, ⟨run.sourceId, base.sourceRecordId⟩, updatedAt⟩ :=
          correctionOf_eq_some_iff.mpr ⟨rfl, hupdated, hdecision⟩
        refine ⟨runId, run, _, _, rfl, hrun, hcorrection, rfl, ?_⟩
        have hin : IsActive tables' identifier.productId := by
          refine ⟨_, ?_, hstays⟩
          rw [hnew, List.getElem?_set_self hlt]
          rfl
        dsimp only [CatalogState.moveTo]
        rw [hcorrection, Option.toList_some, List.filter_append]
        simp [hin]
      · exact absurd (congrArg _ (Option.some.inj (hbefore.symm.trans hafter))) hne

/-- **Which steps regress**: exactly those with an outcome that is older than a correction, and is
compared with no version or with one that is older still.

**Proof sketch.** A step logs one correction at most. Its outcome has been compared with no version
or an older one; where that is so of an outcome that is older than a correction in the log, the new
one follows that one. -/
theorem neverRegresses_step_iff (hst : NeverRegresses st) (h : step hash st event = some st') :
    NeverRegresses st' ↔ ComparesWithLatest st event := by
  cases stepEffect_of_step h with
  | keeps hevent hproducts =>
    refine iff_of_true ?_ hevent
    have hlog : (st.corrections ++ (none : Option Correction).toList) = st.corrections := by simp
    dsimp only [NeverRegresses, CatalogState.moveTo]
    rw [hlog]
    exact hst.sublist List.filter_sublist
  | @persists runId run base ean incoming tables' hrun hproducts =>
    constructor
    · intro hnever run' hrun' correction hmem updatedAt hupdated hrecord hlt hcompared
      obtain rfl := Option.some.inj (hrun.symm.trans hrun')
      by_contra hnot
      have hdecision := (decisionOf_eq_correct_iff hupdated).mpr ⟨hcompared, hnot⟩
      rw [hrecord] at hdecision
      have hnew : correctionOf st.tables run.sourceId true (.accepted base ean incoming) =
          some ⟨correction.productId, ⟨run.sourceId, base.sourceRecordId⟩, updatedAt⟩ :=
        correctionOf_eq_some_iff.mpr ⟨rfl, hupdated, hdecision⟩
      obtain ⟨-, ⟨canonical, hcanonical, hstatus, -⟩, -⟩ := hcompared
      have hactive : IsActive tables' correction.productId :=
        hproducts.isActive ⟨canonical, hcanonical, hstatus⟩
      dsimp only [NeverRegresses, CatalogState.moveTo] at hnever
      rw [hnew, List.filter_append] at hnever
      have hle := (List.pairwise_append.mp hnever).2.2 correction
        (List.mem_filter.mpr ⟨hmem, decide_eq_true hactive⟩) _
        (List.mem_filter.mpr ⟨List.mem_singleton_self _, decide_eq_true hactive⟩) rfl hrecord
      exact absurd hle (not_le.mpr hlt)
    · intro hcompares
      cases hnew : correctionOf st.tables run.sourceId true (.accepted base ean incoming) with
      | none =>
        have hlog : (st.corrections ++ (none : Option Correction).toList) = st.corrections := by simp
        dsimp only [NeverRegresses, CatalogState.moveTo]
        rw [hlog]
        exact hst.sublist List.filter_sublist
      | some correction =>
        obtain ⟨hrecord, hversion, hdecision⟩ := correctionOf_eq_some_iff.mp hnew
        dsimp only [NeverRegresses, CatalogState.moveTo]
        refine List.Pairwise.sublist List.filter_sublist
          (List.pairwise_append.mpr ⟨hst, List.pairwise_singleton _ _, ?_⟩)
        intro earlier hearlier later hlater hproduct hsame
        obtain rfl := List.mem_singleton.mp hlater
        obtain ⟨hcompared, hnot⟩ := (decisionOf_eq_correct_iff hversion).mp hdecision
        by_contra hlt
        rw [← hrecord, ← hsame, ← hproduct] at hcompared hnot
        exact hnot (hcompares run hrun earlier hearlier _ hversion (hsame.trans hrecord)
          (not_le.mp hlt) hcompared)

/-! ### Runs -/

/-- **Canonical facts do not regress** in a run whose outcomes, where they are older than a
correction, are compared with a version that is not older; and in every run, what changes an active
product is a correction that is logged. -/
theorem neverRegresses_of_comparesWithLatest
    (h : (system hash).Reachable ComparesWithLatest st) :
    NeverRegresses st ∧ ∀ event st', step hash st event = some st' →
      ∀ productId, Replaces st.tables st'.tables productId →
        ∃ runId run outcome correction, event = .persists runId true outcome ∧
          st.tables.runs runId = some run ∧
            correctionOf st.tables run.sourceId true outcome = some correction ∧
              correction.productId = productId ∧ st'.corrections.getLast? = some correction := by
  refine ⟨h.invariant (I := NeverRegresses) (fun st hst => ?_) fun st event st' hI hallowed hstep => ?_,
    fun event st' hstep productId hreplaces => correction_of_replaces hstep hreplaces⟩
  · have hnil : st.corrections = [] := hst
    unfold NeverRegresses
    rw [hnil]
    exact List.Pairwise.nil
  · exact (neverRegresses_step_iff hI hstep).mpr hallowed

/-- **A batch is its outcomes in turn.** -/
theorem run_persistCatalogOutcomes {runId : ℕ} {approved : Bool}
    {outcomes : List CatalogIngestionOutcome}
    (h : persistCatalogOutcomes hash st.tables runId approved outcomes = .ok tables') :
    ∃ st', (system hash).run st (outcomes.map fun outcome => .persists runId approved outcome) =
      some st' ∧ st'.tables = tables' := by
  unfold persistCatalogOutcomes at h
  split at h
  case h_1 => cases h
  case h_2 run hrun =>
    split_ifs at h with hvalid
    obtain ⟨-, hvalid⟩ := hvalid
    induction outcomes generalizing st with
    | nil =>
      cases h
      exact ⟨st, rfl, rfl⟩
    | cons outcome outcomes ih =>
      rw [List.foldlM_cons] at h
      obtain ⟨tables, hpersist, hrest⟩ := bind_eq_ok_iff.mp h
      obtain ⟨houtcome, hvalid⟩ := List.forall_mem_cons.mp hvalid
      have hstep : step hash st (.persists runId approved outcome) =
          some (st.moveTo tables (correctionOf st.tables run.sourceId approved outcome)) := by
        simp [step, hrun, houtcome, hpersist, Except.toOption]
      have hruns : runningRun tables runId = some run := by
        rw [← hrun, runningRun, runningRun, (persistOutcome_cases hpersist).1]
      have hnext : runningRun (st.moveTo tables
          (correctionOf st.tables run.sourceId approved outcome)).tables runId = some run := hruns
      obtain ⟨st', hst', htables⟩ := ih hnext hrest hvalid
      refine ⟨st', ?_, htables⟩
      rw [List.map_cons, System.run]
      exact Option.bind_eq_some_iff.mpr ⟨_, hstep, hst'⟩

end Steps

/-! ### Two histories -/

/-- Nothing is there yet. -/
def noProducts : CatalogState where
  tables :=
    { products := []
      identifiers := fun _ => none
      sourceIdentifiers := fun _ => none
      sourceProducts := fun _ => none
      observations := []
      runs := fun _ => none
      outcomes := fun _ => none }
  corrections := []

/-- A hash by the state of an outcome. -/
def hashByState (outcome : NormalizedOutcome) : JsString :=
  match outcome.outcomeState with
  | .accepted => js "accepted"
  | .quarantined => js "quarantined"
  | .unknown => js "unknown"

/-- What the source says of its milk at a time. -/
def milkAs (displayName : JsString) (updatedAt retrievedAt : ℤ) : CatalogIngestionOutcome :=
  .accepted
    { rawChainCode := none
      recordedAt := retrievedAt
      sourceRecordId := js "milk"
      subjectChain := none }
    (js "7038010000010")
    { brand := none
      categoryPath := none
      displayName := displayName
      packageAmount := some 1000
      packageUnit := some .ml
      retrievedAt := retrievedAt
      sourceUpdatedAt := some updatedAt
      unitsPerPack := none }

/-- The milk of a record of the source. -/
def milkCorrection (version : ℤ) : Correction where
  productId := 0
  record := ⟨js "kassalapp", js "milk"⟩
  version := version

/-- A run with one outcome. -/
def runOf (runId : ℕ) (outcome : CatalogIngestionOutcome) (status : TerminalStatus) :
    List CatalogEvent :=
  [.begins runId (js "kassalapp"), .persists runId true outcome, .finishes runId status]

/-- The milk gets another name, and then its first one again, by an older version. -/
def renamesMilk (status : TerminalStatus) : List CatalogEvent :=
  runOf 1 (milkAs (js "Milk") 1 2) .completed ++ runOf 2 (milkAs (js "Whole milk") 10 12) status ++
    runOf 3 (milkAs (js "Milk") 5 20) .completed

/-- Where the second run is completed, the older version is not compared with less. -/
theorem neverRegresses_renamesMilk :
    ∃ st, (system hashByState).runWhere ComparesWithLatest noProducts (renamesMilk .completed) =
      some st ∧ st.corrections = [milkCorrection 10] ∧ NeverRegresses st ∧
        ∀ event st', step hashByState st event = some st' →
          ∀ productId, Replaces st.tables st'.tables productId →
            ∃ runId run outcome correction, event = .persists runId true outcome ∧
              st.tables.runs runId = some run ∧
                correctionOf st.tables run.sourceId true outcome = some correction ∧
                  correction.productId = productId ∧ st'.corrections.getLast? = some correction := by
  have hrun : ((system hashByState).runWhere ComparesWithLatest noProducts
      (renamesMilk .completed)).map (fun st => st.corrections) = some [milkCorrection 10] := by
    decide +kernel
  obtain ⟨st, hst, hcorrections⟩ := Option.map_eq_some_iff.mp hrun
  have hinit : (system hashByState).Reachable ComparesWithLatest noProducts := .init rfl
  exact ⟨st, hst, hcorrections, neverRegresses_of_comparesWithLatest (hinit.runWhere hst)⟩

/-- **A run that is not completed is not compared with**: the name that a degraded run has set by a
version is replaced by an older version. -/
theorem regresses_renamesMilk :
    ¬ ∀ st, (system hashByState).Reachable (fun _ _ => True) st → NeverRegresses st := by
  intro hall
  have hrun : ((system hashByState).run noProducts (renamesMilk .degraded)).map
      (fun st => st.corrections) = some [milkCorrection 10, milkCorrection 5] := by decide +kernel
  obtain ⟨st, hst, hcorrections⟩ := Option.map_eq_some_iff.mp hrun
  have hinit : (system hashByState).Reachable (fun _ _ => True) noProducts := .init rfl
  have hnever := hall st (hinit.run hst)
  unfold NeverRegresses at hnever
  rw [hcorrections] at hnever
  exact absurd ((List.pairwise_pair.mp hnever) rfl rfl) (by decide)

end Handleplan.CatalogIngestion
