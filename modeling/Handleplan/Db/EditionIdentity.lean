import Handleplan.Db.OfficialOfferFoundation
import Handleplan.Lib.JsonText
import Handleplan.Worker.Schedule

/-!
# The identity of an edition

The contracts write an edition as a JSON text with the members of its scope in the order of their
code units. The database writes the same text with the members in the order of its collation, and a
trigger admits an edition only when the members are listed in that order.

## Main definitions

* `Foundation.canonicalOfficialOfferEditionIdentity` — the text of the contracts.
* `Foundation.editionIdentity` — the text of the database.
* `Foundation.TriggerAdmits` — what the trigger asks of the scope of an edition.
* `Foundation.EditionAgrees` — both texts are equal, and every listing of the scope is
  recorded as the same edition.

## Main results

* `Foundation.editionIdentity_eq_iff` — when both texts are equal.
* `Foundation.editionAgrees_iff` — when an edition has the same identity on both sides.

## Implementation notes

The database reads the text of an edition only when all its texts can be stored and its clocks lie
after the beginning of the first year.
-/

namespace Handleplan.Foundation

open JsString Sorting JsonText Tables Workers

/-! ### The text of the contracts -/

/-- The text of a content kind. -/
def contentKindText : ContentKind → JsString
  | .structuredFeed => js "structured-feed"
  | .publication => js "publication"

/-- The members of a scope. -/
def members : GeographicScope → List JsString
  | .national _ => []
  | .regions _ regionCodes => regionCodes
  | .postalSet _ postalCodes => postalCodes
  | .stores storeIds => storeIds
  | .unknown _ => []

/-- `JSON.stringify` of what `geographicScopeIdentity` answers. -/
def stringifyScope : GeographicScope → JsString
  | .national countryCode => stringifyList [stringify (js "national"), stringify countryCode]
  | .regions countryCode regionCodes =>
    stringifyList [stringify (js "regions"), stringify countryCode,
      stringifyList (regionCodes.map stringify)]
  | .postalSet countryCode postalCodes =>
    stringifyList [stringify (js "postal-set"), stringify countryCode,
      stringifyList (postalCodes.map stringify)]
  | .stores storeIds =>
    stringifyList [stringify (js "stores"), stringifyList (storeIds.map stringify)]
  | .unknown reason => stringifyList [stringify (js "unknown"), stringify reason]

/-- `canonicalOfficialOfferEditionIdentity`, of an edition that parses to itself. -/
def canonicalOfficialOfferEditionIdentity (edition : OfficialOfferEdition) : JsString :=
  stringifyList
    [JsString.ofNat 1, stringify edition.sourceId, stringify edition.externalEditionId,
      stringify edition.chain.text, stringify edition.title,
      stringify (contentKindText edition.contentKind), JsString.ofNat edition.geographicScopeId,
      stringifyScope (geographicScopeIdentity edition.declaredGeographicScope),
      stringify (toISOString edition.validFrom), stringify (toISOString edition.validUntil),
      stringify (toISOString edition.discoveredAt)]

/-! ### The text of the database -/

/-- `string_agg(to_jsonb(member)::text, ',' order by member)`. -/
def aggregate (collation : Collation) (texts : List JsString) : JsString :=
  joinWith (js ",") ((sortBy collation.compare texts).map quote)

/-- `canonical_official_offer_scope_identity`; `none` where it raises. -/
def scopeIdentity (collation : Collation) : GeographicScope → Option JsString
  | .national countryCode =>
    some (js "[" ++ quote (js "national") ++ js "," ++ quote countryCode ++ js "]")
  | .regions countryCode regionCodes =>
    some (js "[" ++ quote (js "regions") ++ js "," ++ quote countryCode ++ js ",[" ++
      aggregate collation regionCodes ++ js "]]")
  | .postalSet countryCode postalCodes =>
    some (js "[" ++ quote (js "postal-set") ++ js "," ++ quote countryCode ++ js ",[" ++
      aggregate collation postalCodes ++ js "]]")
  | .stores storeIds =>
    some (js "[" ++ quote (js "stores") ++ js ",[" ++ aggregate collation storeIds ++ js "]]")
  | .unknown _ => none

/-- The free texts of a scope. -/
def scopeTexts : GeographicScope → List JsString
  | .national countryCode => [countryCode]
  | .regions countryCode regionCodes => countryCode :: regionCodes
  | .postalSet countryCode postalCodes => countryCode :: postalCodes
  | .stores storeIds => storeIds
  | .unknown reason => [reason]

/-- The first instant of the first year; a text with the year zero is no time of the database. -/
def firstInstant : ℤ := -62135596800000

/-- **The database can read an edition**: its texts can be stored, and its clocks are times. -/
@[mk_iff] structure IsReadable (edition : OfficialOfferEdition) : Prop where
  sourceId : IsStorable edition.sourceId
  externalEditionId : IsStorable edition.externalEditionId
  title : IsStorable edition.title
  scope : ∀ text ∈ scopeTexts edition.declaredGeographicScope, IsStorable text
  validFrom : firstInstant ≤ edition.validFrom
  validUntil : firstInstant ≤ edition.validUntil
  discoveredAt : firstInstant ≤ edition.discoveredAt

instance : DecidablePred IsReadable := fun _ => decidable_of_iff' _ (isReadable_iff _)

/-- What `canonical_official_offer_edition_identity` writes around the text of the scope. -/
def aroundScope (edition : OfficialOfferEdition) (scope : JsString) : JsString :=
  js "[" ++ js "1," ++ quote edition.sourceId ++ js "," ++ quote edition.externalEditionId ++
    js "," ++ quote edition.chain.text ++ js "," ++ quote edition.title ++ js "," ++
    quote (contentKindText edition.contentKind) ++ js "," ++
    JsString.ofNat edition.geographicScopeId ++ js "," ++ (scope ++ (js "," ++
    quote (toISOString edition.validFrom) ++ js "," ++ quote (toISOString edition.validUntil) ++
    js "," ++ quote (toISOString edition.discoveredAt) ++ js "]"))

/-- `canonical_official_offer_edition_identity`; `none` where the edition cannot be read or its
scope is of a kind without identity. -/
def editionIdentity (collation : Collation) (edition : OfficialOfferEdition) : Option JsString :=
  if IsReadable edition then
    (scopeIdentity collation edition.declaredGeographicScope).map (aroundScope edition)
  else none

/-! ### When the texts are equal -/

theorem isWellFormed_chainText (chain : Chain) : isWellFormed chain.text = true := by
  cases chain <;> decide

theorem isWellFormed_contentKindText (contentKind : ContentKind) :
    isWellFormed (contentKindText contentKind) = true := by
  cases contentKind <;> decide

/-- The text of a time has no surrogates. -/
theorem isWellFormed_toISOString (ms : ℤ) : isWellFormed (toISOString ms) = true := by
  refine isWellFormed_of_forall fun u hu => ?_
  rcases isTimeUnit_of_mem_toISOString hu with ⟨-, hdigit⟩ | hmark
  · have hlt : ¬ 0xD800 ≤ u := fun hle => by
      rw [UInt16.le_iff_toNat_le] at hdigit hle
      exact absurd (hle.trans hdigit) (by decide)
    have hlt' : ¬ 0xDC00 ≤ u := fun hle => by
      rw [UInt16.le_iff_toNat_le] at hdigit hle
      exact absurd (hle.trans hdigit) (by decide)
    exact ⟨by rw [isHigh, decide_eq_false hlt, Bool.false_and],
      by rw [isLow, decide_eq_false hlt', Bool.false_and]⟩
  · have hmarks : ∀ v ∈ js "+-.:TZ", isHigh v = false ∧ isLow v = false := by decide
    exact hmarks u hmark

/-- The text of the contracts, of an edition the database can read. -/
theorem canonicalOfficialOfferEditionIdentity_eq {edition : OfficialOfferEdition}
    (h : IsReadable edition) : canonicalOfficialOfferEditionIdentity edition =
      aroundScope edition
        (stringifyScope (geographicScopeIdentity edition.declaredGeographicScope)) := by
  have hopen : js "[" = [91] := rfl
  have hone : js "1," = JsString.ofNat 1 ++ [44] := by decide
  have hcomma : js "," = [44] := rfl
  have hclose : js "]" = [93] := rfl
  unfold canonicalOfficialOfferEditionIdentity aroundScope
  rw [stringify_eq_quote h.sourceId.1, stringify_eq_quote h.externalEditionId.1,
    stringify_eq_quote (isWellFormed_chainText _), stringify_eq_quote h.title.1,
    stringify_eq_quote (isWellFormed_contentKindText _),
    stringify_eq_quote (isWellFormed_toISOString _),
    stringify_eq_quote (isWellFormed_toISOString _),
    stringify_eq_quote (isWellFormed_toISOString _), hopen, hone, hcomma, hclose]
  simp only [stringifyList, joinWith, List.append_assoc, List.cons_append, List.nil_append]

/-- The text around a scope gives back the text of the scope. -/
theorem aroundScope_injective (edition : OfficialOfferEdition) :
    Function.Injective (aroundScope edition) := fun _ _ h =>
  List.append_cancel_right (List.append_cancel_left h)

theorem map_stringify_eq {texts : List JsString} (h : ∀ text ∈ texts, IsStorable text) :
    texts.map stringify = texts.map quote :=
  List.map_congr_left fun text htext => stringify_eq_quote (h text htext).1

/-- **Two sorted lists of members are written alike** exactly when they are equal. -/
theorem aggregate_eq_iff (collation : Collation) {texts : List JsString}
    (h : ∀ text ∈ texts, IsStorable text) :
    aggregate collation texts = joinWith [44] ((sortBy compareText texts).map stringify) ↔
      sortBy collation.compare texts = sortBy compareText texts := by
  have hcomma : js "," = [44] := rfl
  rw [map_stringify_eq fun text htext => h text (mem_sortBy.mp htext), aggregate, hcomma]
  constructor
  · exact joinWith_quote_inj (by rw [length_sortBy, length_sortBy])
  · intro heq
    rw [heq]

/-- A scope of a kind that has an identity. -/
def IsKnown : GeographicScope → Prop
  | .unknown _ => False
  | _ => True

instance : DecidablePred IsKnown
  | .unknown _ => .isFalse id
  | .national _ | .regions _ _ | .postalSet _ _ | .stores _ => .isTrue trivial

/-- The members are in the same order in the database and for the contracts. -/
def SortsAlike (collation : Collation) (scope : GeographicScope) : Prop :=
  sortBy collation.compare (members scope) = sortBy compareText (members scope)

instance (collation : Collation) (scope : GeographicScope) :
    Decidable (SortsAlike collation scope) :=
  inferInstanceAs (Decidable (_ = _))

/-- The text of a scope with a country and members. -/
theorem stringifyList_members (kind countryCode : JsString) (texts : List JsString) :
    stringifyList [quote kind, quote countryCode, stringifyList texts] =
      js "[" ++ quote kind ++ js "," ++ quote countryCode ++ js ",[" ++ joinWith [44] texts ++
        js "]]" := by
  have hopen : js "[" = [91] := rfl
  have hcomma : js "," = [44] := rfl
  have hnested : js ",[" = [44, 91] := rfl
  have hclose : js "]]" = [93, 93] := rfl
  rw [hopen, hcomma, hnested, hclose]
  simp only [stringifyList, joinWith, List.append_assoc, List.cons_append, List.nil_append]

/-- The text of a scope with members only. -/
theorem stringifyList_stores (kind : JsString) (texts : List JsString) :
    stringifyList [quote kind, stringifyList texts] =
      js "[" ++ quote kind ++ js ",[" ++ joinWith [44] texts ++ js "]]" := by
  have hopen : js "[" = [91] := rfl
  have hnested : js ",[" = [44, 91] := rfl
  have hclose : js "]]" = [93, 93] := rfl
  rw [hopen, hnested, hclose]
  simp only [stringifyList, joinWith, List.append_assoc, List.cons_append, List.nil_append]

/-- Texts that differ in a middle part only are equal exactly when that part is. -/
theorem some_append_eq_iff {before after a b : JsString} :
    some (before ++ a ++ after) = some (before ++ b ++ after) ↔ a = b := by
  rw [Option.some.injEq, List.append_left_inj, List.append_right_inj]

/-- **The texts of a scope are equal** exactly when its members sort alike. -/
theorem scopeIdentity_eq_iff {collation : Collation} {scope : GeographicScope}
    (h : ∀ text ∈ scopeTexts scope, IsStorable text) :
    scopeIdentity collation scope = some (stringifyScope (geographicScopeIdentity scope)) ↔
      IsKnown scope ∧ SortsAlike collation scope := by
  cases scope with
  | national countryCode =>
    have hopen : js "[" = [91] := rfl
    have hcomma : js "," = [44] := rfl
    have hclose : js "]" = [93] := rfl
    refine iff_of_true ?_ ⟨trivial, rfl⟩
    rw [scopeIdentity, geographicScopeIdentity, stringifyScope,
      stringify_eq_quote (h _ List.mem_cons_self).1, stringify_eq_quote (by decide), hopen, hcomma,
      hclose]
    simp only [stringifyList, joinWith, List.append_assoc, List.cons_append, List.nil_append]
  | unknown reason => exact iff_of_false (fun h => by cases h) fun hknown => hknown.1
  | regions countryCode members | postalSet countryCode members =>
    have hmembers := aggregate_eq_iff collation
      fun text htext => h text (List.mem_cons_of_mem _ htext)
    rw [scopeIdentity, geographicScopeIdentity, stringifyScope,
      stringify_eq_quote (h _ List.mem_cons_self).1, stringify_eq_quote (by decide),
      stringifyList_members, some_append_eq_iff, hmembers]
    exact (and_iff_right trivial).symm
  | stores storeIds =>
    have hmembers := aggregate_eq_iff collation (show ∀ text ∈ storeIds, _ from h)
    rw [scopeIdentity, geographicScopeIdentity, stringifyScope, stringify_eq_quote (by decide),
      stringifyList_stores, some_append_eq_iff, hmembers]
    exact (and_iff_right trivial).symm

/-- **When the texts of an edition are equal**. -/
theorem editionIdentity_eq_iff {collation : Collation} {edition : OfficialOfferEdition} :
    editionIdentity collation edition = some (canonicalOfficialOfferEditionIdentity edition) ↔
      IsReadable edition ∧ IsKnown edition.declaredGeographicScope ∧
        SortsAlike collation edition.declaredGeographicScope := by
  unfold editionIdentity
  by_cases hreadable : IsReadable edition
  · rw [if_pos hreadable, ← scopeIdentity_eq_iff hreadable.scope, and_iff_right hreadable,
      canonicalOfficialOfferEditionIdentity_eq hreadable]
    constructor
    · intro heq
      obtain ⟨scope, hscope, hframe⟩ := Option.map_eq_some_iff.mp heq
      rw [hscope, aroundScope_injective edition hframe]
    · intro heq
      rw [heq, Option.map_some]
  · rw [if_neg hreadable]
    exact iff_of_false nofun fun h => hreadable h.1

/-! ### Recording an edition -/

/-- What is stored of an active scope. -/
inductive ScopeFacts where
  | national (countryCode : JsString)
  | region (countryCode : JsString) (regionCodes : List JsString)
  | postalSet (countryCode : JsString) (postalCodes : List JsString)
  | storeSet (storeIds : List ℕ)

/-- `expected_scope` of the trigger: the members in the order of the database. -/
def ScopeFacts.expected (collation : Collation) : ScopeFacts → GeographicScope
  | .national countryCode => .national countryCode
  | .region countryCode regionCodes => .regions countryCode (sortBy collation.compare regionCodes)
  | .postalSet countryCode postalCodes =>
    .postalSet countryCode (sortBy collation.compare postalCodes)
  | .storeSet storeIds => .stores (sortBy collation.compare (storeIds.map JsString.ofNat))

/-- `scope_member_count` of the trigger. -/
def ScopeFacts.memberCount : ScopeFacts → ℕ
  | .national _ => 1
  | .region _ regionCodes => regionCodes.length
  | .postalSet _ postalCodes => postalCodes.length
  | .storeSet storeIds => storeIds.length

/-- A database: its order of texts, its digest of texts and its active scopes by their numbers. -/
structure PublicationDatabase where
  collation : Collation
  sha256 : JsString → JsString
  digests : Digests
  activeScope : ℕ → Option ScopeFacts

variable (db : PublicationDatabase)

/-- The digest of the text the database writes. -/
def PublicationDatabase.foundationDigests : FoundationDigests :=
  { db.digests with
    stored := fun edition => ((editionIdentity db.collation edition).map db.sha256).getD [] }

/-- An edition with another scope. -/
def withScope (edition : OfficialOfferEdition) (scope : GeographicScope) : OfficialOfferEdition :=
  { edition with declaredGeographicScope := scope }

/-- `enforce_publication_offer_identity`: the declared scope is the one of the stored facts, and so
is the digest. -/
def TriggerAdmits (edition : OfficialOfferEdition) : Prop :=
  ∃ facts ∈ db.activeScope edition.geographicScopeId, 1 ≤ facts.memberCount ∧
    edition.declaredGeographicScope = facts.expected db.collation ∧
    db.foundationDigests.stored edition =
      db.foundationDigests.stored (withScope edition (facts.expected db.collation))

instance (db : PublicationDatabase) : DecidablePred (TriggerAdmits db) := fun edition =>
  inferInstanceAs (Decidable (∃ facts ∈ db.activeScope edition.geographicScopeId, _))

/-- `recordEdition` with `record_official_offer_edition_v1` and the trigger of its table. -/
def PublicationDatabase.recordEdition (db : PublicationDatabase) (store : Store)
    (edition : OfficialOfferEdition) (authorization : OfficialOfferAuthorizationFence)
    (answers : Answers) : Except FoundationError (Store × RecordedEdition) :=
  Foundation.recordEdition db.foundationDigests store edition authorization
    { answers with
      admitted := answers.admitted && decide (IsReadable edition ∧ TriggerAdmits db edition) }

/-! ### The claimed agreement -/

/-- A listing of a scope: the members in any order that is the same scope (`sameScope`). -/
def IsListing (scope listing : GeographicScope) : Prop :=
  GeographicScopeSchema listing ∧ canonicalScope listing = canonicalScope scope

/-- **Every listing is recorded as the same edition**: whatever two listings are recorded one after
the other, both are accepted, with one number. -/
def RecordsAsOne (store : Store) (edition : OfficialOfferEdition)
    (authorization : OfficialOfferAuthorizationFence) (answers : Answers) : Prop :=
  ∀ listing again, IsListing edition.declaredGeographicScope listing →
    IsListing edition.declaredGeographicScope again →
    ∃ first second,
      db.recordEdition store (withScope edition listing) authorization answers = .ok first ∧
      db.recordEdition first.1 (withScope edition again) authorization answers = .ok second ∧
      second.2.id = first.2.id

/-- The call can be recorded, but for the listing of its scope: its authorization holds, and its
scope is the one that is stored under its number. -/
structure IsRecordable (db : PublicationDatabase) (edition : OfficialOfferEdition)
    (authorization : OfficialOfferAuthorizationFence) (answers : Answers) : Prop where
  schema : OfficialOfferAuthorizationFenceSchema authorization
  fence : EditionAuthorizationFence edition authorization
  bound : AuthorizationIsBound edition authorization
  admitted : answers.admitted = true
  facts : ∃ facts ∈ db.activeScope edition.geographicScopeId,
    canonicalScope (facts.expected db.collation) = canonicalScope edition.declaredGeographicScope

/-- **Edition identity and scope are the same on both sides.** -/
def EditionAgrees (store : Store) (edition : OfficialOfferEdition)
    (authorization : OfficialOfferAuthorizationFence) (answers : Answers) : Prop :=
  editionIdentity db.collation edition = some (canonicalOfficialOfferEditionIdentity edition) ∧
    (IsRecordable db edition authorization answers →
      RecordsAsOne db store edition authorization answers)

/-- A scope that can be listed in one way only. -/
def HasOneListing : GeographicScope → Prop
  | .postalSet _ _ => True
  | scope => (members scope).length ≤ 1

instance : DecidablePred HasOneListing
  | .postalSet _ _ => .isTrue trivial
  | .national c => inferInstanceAs (Decidable ((members (.national c)).length ≤ 1))
  | .regions c rs => inferInstanceAs (Decidable ((members (.regions c rs)).length ≤ 1))
  | .stores ids => inferInstanceAs (Decidable ((members (.stores ids)).length ≤ 1))
  | .unknown r => inferInstanceAs (Decidable ((members (.unknown r)).length ≤ 1))

/-! ### Listings of a scope -/

/-- A scope with other members. -/
def withMembers : GeographicScope → List JsString → GeographicScope
  | .national countryCode, _ => .national countryCode
  | .regions countryCode _, texts => .regions countryCode texts
  | .postalSet countryCode _, texts => .postalSet countryCode texts
  | .stores _, texts => .stores texts
  | .unknown reason, _ => .unknown reason

variable (scope : GeographicScope)

theorem withMembers_members :
    withMembers scope (members scope) = scope := by
  cases scope <;> rfl

theorem withMembers_canonicalScope (texts : List JsString) :
    withMembers (canonicalScope scope) texts = withMembers scope texts := by
  cases scope <;> rfl

theorem members_canonicalScope :
    members (canonicalScope scope) = sortBy compareText (members scope) := by
  cases scope <;> rfl

section Listing

variable {scope listing : GeographicScope}

section

variable (h : canonicalScope listing = canonicalScope scope)

include h

/-- Scopes that are the same differ in the order of their members only. -/
theorem eq_withMembers :
    listing = withMembers scope (members listing) := by
  have hframe : withMembers (canonicalScope listing) (members listing) =
      withMembers (canonicalScope scope) (members listing) := by rw [h]
  rwa [withMembers_canonicalScope, withMembers_canonicalScope, withMembers_members] at hframe

theorem sortBy_members_eq :
    sortBy compareText (members listing) = sortBy compareText (members scope) := by
  rw [← members_canonicalScope, h, members_canonicalScope]

theorem members_perm :
    (members listing).Perm (members scope) :=
  (sortBy_perm compareText _).symm.trans (sortBy_members_eq h ▸ sortBy_perm compareText _)

end

/-- A list of at most one entry is in order. -/
theorem sortBy_of_length_le {cmp : JsString → JsString → Ordering} {l : List JsString}
    (h : l.length ≤ 1) : sortBy cmp l = l := by
  match l, h with
  | [], _ => rfl
  | [_], _ => rfl

/-- The members of a scope with one listing are in the order of their code units. -/
theorem sortBy_members_of_hasOneListing (hscope : GeographicScopeSchema scope)
    (hone : HasOneListing scope) : sortBy compareText (members scope) = members scope := by
  cases scope with
  | national countryCode => rfl
  | regions countryCode regionCodes => exact sortBy_of_length_le hone
  | postalSet countryCode postalCodes =>
    refine sortBy_of_pairwise (hscope.2.2.2.2.pairwise.imp fun hlt => ?_)
    rw [hlt]
    rfl
  | stores storeIds => exact sortBy_of_length_le hone
  | unknown reason => rfl

theorem hasOneListing_of_eq (hone : HasOneListing scope)
    (h : canonicalScope listing = canonicalScope scope) : HasOneListing listing := by
  have hlength := (members_perm h).length_eq
  rw [eq_withMembers h]
  cases scope with
  | national countryCode => exact hone
  | regions countryCode regionCodes => exact hlength.le.trans hone
  | postalSet countryCode postalCodes => trivial
  | stores storeIds => exact hlength.le.trans hone
  | unknown reason => exact hone

/-- **A scope with one listing** has no other. -/
theorem IsListing.eq (h : IsListing scope listing) (hscope : GeographicScopeSchema scope)
    (hone : HasOneListing scope) : listing = scope := by
  have hmembers : members listing = members scope := by
    rw [← sortBy_members_of_hasOneListing h.1 (hasOneListing_of_eq hone h.2),
      ← sortBy_members_of_hasOneListing hscope hone, sortBy_members_eq h.2]
  rw [eq_withMembers h.2, hmembers, withMembers_members]

/-- The members in another order are a listing, unless they are postal codes. -/
theorem isListing_withMembers (hscope : GeographicScopeSchema scope)
    (hone : ¬ HasOneListing scope) {texts : List JsString} (hperm : texts.Perm (members scope)) :
    IsListing scope (withMembers scope texts) := by
  have hsort : sortBy compareText texts = sortBy compareText (members scope) :=
    sortBy_eq_of_perm hperm fun _ _ _ _ => compareText_eq_iff.mp
  cases scope with
  | national countryCode => exact absurd (Nat.zero_le _) hone
  | regions countryCode regionCodes =>
    obtain ⟨hcountry, hlength, hcodes, hnodup⟩ := hscope
    exact ⟨⟨hcountry, hperm.length_eq ▸ hlength,
      fun code hcode => hcodes code (hperm.mem_iff.mp hcode), hperm.nodup_iff.mpr hnodup⟩,
      congrArg (GeographicScope.regions countryCode) hsort⟩
  | postalSet countryCode postalCodes => exact absurd trivial hone
  | stores storeIds =>
    obtain ⟨hlength, hids, hnodup⟩ := hscope
    exact ⟨⟨hperm.length_eq ▸ hlength, fun id hid => hids id (hperm.mem_iff.mp hid),
      hperm.nodup_iff.mpr hnodup⟩, congrArg GeographicScope.stores hsort⟩
  | unknown reason => exact absurd (Nat.zero_le _) hone

/-- A scope with more than one listing has more than one member, and all are different. -/
theorem nodup_members (hscope : GeographicScopeSchema scope) : (members scope).Nodup := by
  cases scope with
  | national countryCode => exact List.nodup_nil
  | regions countryCode regionCodes => exact hscope.2.2.2
  | postalSet countryCode postalCodes => exact hscope.2.2.2.1
  | stores storeIds => exact hscope.2.2
  | unknown reason => exact List.nodup_nil

/-- Different entries that read the same in both directions are at most one. -/
theorem length_le_one_of_reverse_eq {l : List JsString} (hnodup : l.Nodup)
    (h : l.reverse = l) : l.length ≤ 1 := by
  by_contra hlength
  push Not at hlength
  have hpos : 0 < l.length := Nat.lt_of_succ_lt hlength
  have hfirst : l[0]? = l[l.length - 1]? := by
    conv_lhs => rw [← h]
    exact List.getElem?_reverse hpos
  have hindex := (List.getElem?_inj hpos hnodup).mp hfirst
  omega

theorem members_withMembers_of_not (hone : ¬ HasOneListing scope) (texts : List JsString) :
    members (withMembers scope texts) = texts := by
  cases scope with
  | national countryCode => exact absurd (Nat.zero_le _) hone
  | regions countryCode regionCodes => rfl
  | postalSet countryCode postalCodes => rfl
  | stores storeIds => rfl
  | unknown reason => exact absurd (Nat.zero_le _) hone

end Listing

/-! ### One call -/

section Recording

variable {db : PublicationDatabase} {store : Store} {edition : OfficialOfferEdition}
  {authorization : OfficialOfferAuthorizationFence} {answers : Answers}

/-- An accepted edition declares the scope of the stored facts. -/
theorem triggerAdmits_of_recordEdition {out : Store × RecordedEdition}
    (h : db.recordEdition store edition authorization answers = .ok out) :
    TriggerAdmits db edition := by
  unfold PublicationDatabase.recordEdition Foundation.recordEdition at h
  simp only [ite_error_eq_ok_iff] at h
  obtain ⟨-, -, -, hadmitted, -⟩ := h
  rw [Bool.not_eq_false, Bool.and_eq_true, decide_eq_true_eq] at hadmitted
  exact hadmitted.2.2

/-- **A call that is accepted**: what it stores, and what it answers. -/
theorem recordEdition_eq (hedition : OfficialOfferEditionSchema edition)
    (hrecordable : IsRecordable db edition authorization answers)
    (hreadable : IsReadable edition) (htrigger : TriggerAdmits db edition) (store : Store) :
    let inserted := insertOrFind (HasEditionKey edition)
      (publicationOf db.foundationDigests edition authorization) store.publications
    db.recordEdition store edition authorization answers =
      .ok ({ store with publications := inserted.1 },
        { created := inserted.2.2, id := inserted.2.1.id, status := inserted.2.1.status }) := by
  have hadmitted : (answers.admitted && decide (IsReadable edition ∧ TriggerAdmits db edition)) =
      true := by
    rw [hrecordable.admitted, decide_eq_true ⟨hreadable, htrigger⟩]
    rfl
  have hinput : ¬ (¬ OfficialOfferEditionSchema edition ∨
      ¬ OfficialOfferAuthorizationFenceSchema authorization) := by
    rintro (h | h)
    · exact h hedition
    · exact h hrecordable.schema
  unfold PublicationDatabase.recordEdition Foundation.recordEdition
  rw [if_neg hinput, if_neg (not_not.mpr hrecordable.fence),
    if_neg (not_not.mpr hrecordable.bound), if_neg (by rw [hadmitted]; exact Bool.noConfusion)]

/-- The facts that describe a scope with one listing expect that listing. -/
theorem expected_eq {collation : Collation} {facts : ScopeFacts} {scope : GeographicScope}
    (hscope : GeographicScopeSchema scope) (hone : HasOneListing scope)
    (halike : SortsAlike collation scope)
    (hfacts : canonicalScope (facts.expected collation) = canonicalScope scope) :
    facts.expected collation = scope := by
  have hsorted : sortBy collation.compare (members (facts.expected collation)) =
      members (facts.expected collation) := by
    cases facts with
    | national countryCode => rfl
    | region countryCode regionCodes => exact sortBy_sortBy
    | postalSet countryCode postalCodes => exact sortBy_sortBy
    | storeSet storeIds => exact sortBy_sortBy
  have hmembers : members (facts.expected collation) = members scope :=
    calc members (facts.expected collation)
        = sortBy collation.compare (members (facts.expected collation)) := hsorted.symm
      _ = sortBy collation.compare (members scope) :=
          sortBy_eq_of_perm (members_perm hfacts) fun _ _ _ _ => Std.LawfulEqCmp.eq_of_compare
      _ = sortBy compareText (members scope) := halike
      _ = members scope := sortBy_members_of_hasOneListing hscope hone
  rw [eq_withMembers hfacts, hmembers, withMembers_members]

/-- Facts that expect a scope have members. -/
theorem one_le_memberCount (collation : Collation) {facts : ScopeFacts}
    (hscope : GeographicScopeSchema (facts.expected collation)) : 1 ≤ facts.memberCount := by
  cases facts with
  | national countryCode => exact le_refl 1
  | region countryCode regionCodes =>
    have hlength := hscope.2.1.1
    rwa [length_sortBy] at hlength
  | postalSet countryCode postalCodes =>
    have hlength := hscope.2.1.1
    rwa [length_sortBy] at hlength
  | storeSet storeIds =>
    have hlength := hscope.1.1
    rwa [length_sortBy, List.length_map] at hlength

section

variable (hedition : OfficialOfferEditionSchema edition)

include hedition

/-- **The trigger admits a scope with one listing.** -/
theorem triggerAdmits (hrecordable : IsRecordable db edition authorization answers)
    (halike : SortsAlike db.collation edition.declaredGeographicScope)
    (hone : HasOneListing edition.declaredGeographicScope) : TriggerAdmits db edition := by
  obtain ⟨facts, hfacts, hdescribes⟩ := hrecordable.facts
  have heq := expected_eq hedition.declaredGeographicScope hone halike hdescribes
  refine ⟨facts, hfacts, one_le_memberCount db.collation ?_, heq.symm, ?_⟩
  · rw [heq]
    exact hedition.declaredGeographicScope
  · rw [heq]
    rfl

/-- An edition with one listing is recorded as one edition. -/
theorem recordsAsOne_of_hasOneListing (hrecordable : IsRecordable db edition authorization answers)
    (hreadable : IsReadable edition)
    (halike : SortsAlike db.collation edition.declaredGeographicScope)
    (hone : HasOneListing edition.declaredGeographicScope) :
    RecordsAsOne db store edition authorization answers := by
  intro listing again hlisting hagain
  rw [hlisting.eq hedition.declaredGeographicScope hone,
    hagain.eq hedition.declaredGeographicScope hone]
  have htrigger := triggerAdmits hedition hrecordable halike hone
  refine ⟨_, _, recordEdition_eq hedition hrecordable hreadable htrigger store,
    recordEdition_eq hedition hrecordable hreadable htrigger _, ?_⟩
  exact congrArg PublicationRow.id (insertOrFind_again fun _ => ⟨rfl, rfl⟩)

/-- **An edition with more than one listing** is not recorded as one edition: the trigger admits one
listing only. -/
theorem hasOneListing_of_recordsAsOne (h : RecordsAsOne db store edition authorization answers) :
    HasOneListing edition.declaredGeographicScope := by
  by_contra hone
  have hscope := hedition.declaredGeographicScope
  obtain ⟨first, second, hfirst, hsecond, -⟩ := h _ _ ⟨hscope, rfl⟩
    (isListing_withMembers hscope hone (List.reverse_perm _))
  obtain ⟨facts, hfacts, -, hdeclared, -⟩ := triggerAdmits_of_recordEdition hfirst
  obtain ⟨facts', hfacts', -, hreversed, -⟩ := triggerAdmits_of_recordEdition hsecond
  obtain rfl : facts = facts' := Option.some.inj (hfacts.symm.trans hfacts')
  have hequal : withMembers edition.declaredGeographicScope
      (members edition.declaredGeographicScope).reverse = edition.declaredGeographicScope :=
    hreversed.trans hdeclared.symm
  have hmembers := congrArg members hequal
  rw [members_withMembers_of_not hone] at hmembers
  have hlength := length_le_one_of_reverse_eq (nodup_members hscope) hmembers
  cases hcase : edition.declaredGeographicScope with
  | postalSet countryCode postalCodes => exact hone (hcase ▸ trivial)
  | national countryCode => exact hone (hcase ▸ Nat.zero_le _)
  | unknown reason => exact hone (hcase ▸ Nat.zero_le _)
  | regions countryCode regionCodes =>
    rw [hcase] at hlength hone
    exact hone hlength
  | stores storeIds =>
    rw [hcase] at hlength hone
    exact hone hlength

end

end Recording

/-- **When an edition has the same identity on both sides**: the database can read it, its scope is
of a kind that has an identity, its members are in the same order in the database and for the
contracts, and an edition that can be recorded names at most one region or store. -/
theorem editionAgrees_iff (db : PublicationDatabase) (store : Store)
    (edition : OfficialOfferEdition) (authorization : OfficialOfferAuthorizationFence)
    (answers : Answers) (hedition : OfficialOfferEditionSchema edition) :
    EditionAgrees db store edition authorization answers ↔
      IsReadable edition ∧ IsKnown edition.declaredGeographicScope ∧
        SortsAlike db.collation edition.declaredGeographicScope ∧
        (IsRecordable db edition authorization answers →
          HasOneListing edition.declaredGeographicScope) := by
  constructor
  · rintro ⟨htext, hrecords⟩
    obtain ⟨hreadable, hknown, halike⟩ := editionIdentity_eq_iff.mp htext
    exact ⟨hreadable, hknown, halike, fun hrecordable =>
      hasOneListing_of_recordsAsOne hedition (hrecords hrecordable)⟩
  · rintro ⟨hreadable, hknown, halike, hone⟩
    exact ⟨editionIdentity_eq_iff.mpr ⟨hreadable, hknown, halike⟩, fun hrecordable =>
      recordsAsOne_of_hasOneListing hedition hrecordable hreadable halike (hone hrecordable)⟩

/-! ### Catalogs for regions -/

/-- A database with one scope of two regions. -/
def twoRegions : PublicationDatabase where
  collation := .codeUnits
  sha256 := id
  digests := oneDigest
  activeScope := fun _ => some (.region (js "NO") [js "03", js "11"])

/-- A week of a catalog for both regions. -/
def regionalEdition : OfficialOfferEdition :=
  { catalogEdition with
    declaredGeographicScope := .regions (js "NO") [js "11", js "03"] }

theorem isRecordable_regionalEdition :
    IsRecordable twoRegions regionalEdition catalogAuthorization ⟨0, true⟩ :=
  ⟨by decide +kernel, by decide +kernel, by decide +kernel, rfl,
    .region (js "NO") [js "03", js "11"], rfl, by decide +kernel⟩

/-- A database with one scope of one region. -/
def oneRegion : PublicationDatabase :=
  { twoRegions with activeScope := fun _ => some (.region (js "NO") [js "03"]) }

/-- A week of a catalog for one region. -/
def osloEdition : OfficialOfferEdition :=
  { catalogEdition with declaredGeographicScope := .regions (js "NO") [js "03"] }

/-- An edition of one region that is stored has the same identity on both sides; one of two regions
has not. Both can be recorded. -/
theorem editionAgrees_iff_regions :
    IsRecordable oneRegion osloEdition catalogAuthorization ⟨0, true⟩ ∧
      EditionAgrees oneRegion Store.empty osloEdition catalogAuthorization ⟨0, true⟩ ∧
      IsRecordable twoRegions regionalEdition catalogAuthorization ⟨0, true⟩ ∧
      ¬ EditionAgrees twoRegions Store.empty regionalEdition catalogAuthorization ⟨0, true⟩ := by
  have hone := editionAgrees_iff oneRegion Store.empty osloEdition catalogAuthorization ⟨0, true⟩
    (by decide +kernel)
  have htwo := editionAgrees_iff twoRegions Store.empty regionalEdition catalogAuthorization
    ⟨0, true⟩ (by decide +kernel)
  refine ⟨⟨by decide +kernel, by decide +kernel, by decide +kernel, rfl,
      .region (js "NO") [js "03"], rfl, by decide +kernel⟩,
    hone.mpr ⟨by decide +kernel, by decide, by decide +kernel, fun _ => by decide⟩,
    isRecordable_regionalEdition, fun h => ?_⟩
  exact absurd ((htwo.mp h).2.2.2 isRecordable_regionalEdition) (by decide)

/-- **An order of regions that is refused**: both regions are those that are stored, and their order
is the same scope for the contracts, but not the order of the database. -/
theorem not_editionAgrees_twoRegions :
    ¬ ∀ (db : PublicationDatabase) (store : Store) (edition : OfficialOfferEdition)
      (authorization : OfficialOfferAuthorizationFence) (answers : Answers),
      OfficialOfferEditionSchema edition →
        EditionAgrees db store edition authorization answers := by
  intro hall
  have hschema : OfficialOfferEditionSchema regionalEdition := by decide +kernel
  obtain ⟨-, hrecords⟩ := hall twoRegions Store.empty regionalEdition catalogAuthorization
    ⟨0, true⟩ hschema
  have hlisting : IsListing regionalEdition.declaredGeographicScope
      regionalEdition.declaredGeographicScope := ⟨hschema.declaredGeographicScope, rfl⟩
  obtain ⟨first, -, hfirst, -⟩ := hrecords isRecordable_regionalEdition _ _ hlisting
    hlisting
  have hrefused : (twoRegions.recordEdition Store.empty regionalEdition catalogAuthorization
      ⟨0, true⟩).isOk = false := by decide +kernel
  rw [show twoRegions.recordEdition Store.empty regionalEdition catalogAuthorization ⟨0, true⟩ =
    .ok first from hfirst] at hrefused
  cases hrefused

end Handleplan.Foundation
