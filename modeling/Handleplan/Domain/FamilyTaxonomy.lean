import Handleplan.Lib.Chains
import Handleplan.Lib.JsMap
import Handleplan.Lib.JsString

/-!
# Family taxonomies

The families of a taxonomy have identifiers, slugs and aliases, and a family may name another one as
its parent. The taxonomy is checked as a graph: names are unique, parents are there, and no family
is an ancestor of itself.

## Main definitions

* `FamilyTaxonomy.addTaxonomyGraphIssues` — the issues of a list of families.
* `FamilyTaxonomy.IsParent` — the parent relation.

## Main results

* `FamilyTaxonomy.addTaxonomyGraphIssues_spec` — the check ends, and there is no issue
  exactly when the names are unique, the parents are there, and the parent relation is acyclic.

## Implementation notes

The visit is that of `Chains.visit`. It is given a step more than there are families.
-/

namespace Handleplan.FamilyTaxonomy

open JsString Chains

/-! ### The model -/

/-- What the check reads of a `ReviewedFamilyDescriptor`. -/
structure ReviewedFamilyDescriptor where
  id : JsString
  slug : JsString
  aliases : List JsString
  parentId : Option JsString
  deriving DecidableEq

/-- A part of the path of an issue. -/
inductive PathSegment where
  | key (name : JsString)
  | index (i : ℕ)
  deriving DecidableEq

/-- An issue. -/
structure Issue where
  message : JsString
  path : List PathSegment
  deriving DecidableEq

/-- `hasUniqueStrings`. -/
def HasUniqueStrings (values : List JsString) : Prop := values.Nodup

instance : DecidablePred HasUniqueStrings := fun values => inferInstanceAs (Decidable values.Nodup)

/-- An issue with all families, if the strings are not unique. -/
def uniqueIssue (values : List JsString) (message : JsString) : List Issue :=
  if HasUniqueStrings values then [] else [⟨message, [.key (js "families")]⟩]

/-- `familyById`. -/
def familyById (families : List ReviewedFamilyDescriptor) : JsMap JsString ReviewedFamilyDescriptor :=
  .ofEntries (families.map fun family => (family.id, family))

/-- The path of the parent of a family. -/
def parentPath (index : ℕ) : List PathSegment :=
  [.key (js "families"), .index index, .key (js "parentId")]

/-- The issue with the parent of a family, if it is not there. -/
def parentIssue (byId : JsMap JsString ReviewedFamilyDescriptor) (index : ℕ)
    (family : ReviewedFamilyDescriptor) : List Issue :=
  match family.parentId with
  | none => []
  | some parentId =>
    if byId.has parentId then []
    else
      [⟨js "Parent family " ++ parentId ++ js " is not defined in this taxonomy version",
        parentPath index⟩]

/-- The parent that is visited after a family. -/
def nextParent (byId : JsMap JsString ReviewedFamilyDescriptor) (familyId : JsString) :
    Option JsString :=
  ((byId.get? familyId).bind fun family => family.parentId).filter fun parentId => byId.has parentId

/-- `addTaxonomyGraphIssues`; no issues at all stand for a visit that does not end. -/
def addTaxonomyGraphIssues (families : List ReviewedFamilyDescriptor) : Option (List Issue) :=
  let familyIds := families.map fun family => family.id
  let slugs := families.map fun family => family.slug
  let aliases := families.flatMap fun family => family.aliases
  let byId := familyById families
  let nameIssues :=
    uniqueIssue familyIds (js "Family IDs must be unique within a taxonomy version") ++
      uniqueIssue slugs (js "Family slugs must be unique within a taxonomy version") ++
        uniqueIssue aliases (js "Family aliases must be unique across a taxonomy version") ++
          uniqueIssue (slugs ++ aliases) (js "Family aliases must not collide with family slugs")
  let parentIssues := families.zipIdx.flatMap fun entry => parentIssue byId entry.2 entry.1
  (firstCycle (nextParent byId) (families.length + 1) ⟨[], []⟩ 0 familyIds).map fun found =>
    nameIssues ++ parentIssues ++ found.toList.map fun index =>
      ⟨js "Family parent references must not contain cycles", parentPath index⟩

/-! ### The graph -/

variable {families : List ReviewedFamilyDescriptor}

/-- A family names another one as its parent. -/
def IsParent (families : List ReviewedFamilyDescriptor) (child parent : JsString) : Prop :=
  ∃ family ∈ families, family.id = child ∧ family.parentId = some parent

/-- **The names are unique**: the identifiers, and the slugs together with the aliases. -/
def NamesAreUnique (families : List ReviewedFamilyDescriptor) : Prop :=
  (families.map fun family => family.id).Nodup ∧
    ((families.map fun family => family.slug) ++ families.flatMap fun family => family.aliases).Nodup

/-- **Every parent that is named is defined.** -/
def ParentsAreDefined (families : List ReviewedFamilyDescriptor) : Prop :=
  ∀ family ∈ families, ∀ parentId ∈ family.parentId, ∃ parent ∈ families, parent.id = parentId

/-- **No family is its own ancestor.** -/
def IsAcyclic (families : List ReviewedFamilyDescriptor) : Prop :=
  ∀ id, ¬ Relation.TransGen (IsParent families) id id

theorem uniqueIssue_eq_nil_iff {values : List JsString} {message : JsString} :
    uniqueIssue values message = [] ↔ values.Nodup := by
  unfold uniqueIssue
  split_ifs with h
  · exact iff_of_true rfl h
  · exact iff_of_false not_false h

theorem has_familyById_iff {id : JsString} :
    (familyById families).has id = true ↔ ∃ family ∈ families, family.id = id := by
  rw [JsMap.has_iff_mem_keys, familyById, JsMap.mem_keys_ofEntries, List.map_map]
  exact List.mem_map

/-- The family of an identifier, when the identifiers are unique. -/
theorem get?_familyById_iff (h : (families.map fun family => family.id).Nodup) {id : JsString}
    {family : ReviewedFamilyDescriptor} :
    (familyById families).get? id = some family ↔ family ∈ families ∧ family.id = id := by
  have hkeys : (families.map fun family => (family.id, family)).map Prod.fst =
      families.map fun family => family.id := by
    rw [List.map_map]
    rfl
  have hnodup : JsMap.keys (families.map fun family => (family.id, family)) |>.Nodup := by
    rw [JsMap.keys, hkeys]
    exact h
  rw [familyById, JsMap.ofEntries_of_nodup (by rwa [hkeys]), ← JsMap.mem_iff_get? hnodup, List.mem_map]
  constructor
  · rintro ⟨other, hother, heq⟩
    cases heq
    exact ⟨hother, rfl⟩
  · rintro ⟨hfamily, rfl⟩
    exact ⟨family, hfamily, rfl⟩

/-- No issue is raised where all parents are defined. -/
theorem parentIssues_eq_nil_iff :
    (families.zipIdx.flatMap fun entry => parentIssue (familyById families) entry.2 entry.1) = [] ↔
      ParentsAreDefined families := by
  have hissue (index : ℕ) (family : ReviewedFamilyDescriptor) :
      parentIssue (familyById families) index family = [] ↔
        ∀ parentId ∈ family.parentId, ∃ parent ∈ families, parent.id = parentId := by
    unfold parentIssue
    cases family.parentId with
    | none => exact iff_of_true rfl fun parentId hparent => absurd hparent (Option.not_mem_none _)
    | some parentId =>
      have hforall : (∀ p ∈ some parentId, ∃ parent ∈ families, parent.id = p) ↔
          (familyById families).has parentId = true := by
        rw [has_familyById_iff]
        exact ⟨fun h => h parentId rfl, fun h p hp => Option.some.inj hp ▸ h⟩
      dsimp only
      rw [hforall]
      split_ifs with hhas
      · exact iff_of_true rfl hhas
      · exact iff_of_false not_false hhas
  rw [List.flatMap_eq_nil_iff]
  constructor
  · intro h family hfamily
    obtain ⟨index, hindex⟩ := List.mem_iff_getElem?.mp hfamily
    exact (hissue index family).mp (h (family, index) (List.mem_zipIdx_iff_getElem?.mpr hindex))
  · intro h entry hentry
    exact (hissue _ _).mpr (h entry.1 (List.fst_mem_of_mem_zipIdx hentry))

/-- The visit follows the parents, when they are there and the identifiers are unique. -/
theorem step_nextParent_iff (hids : (families.map fun family => family.id).Nodup)
    (hparents : ParentsAreDefined families) {child parent : JsString} :
    Step (nextParent (familyById families)) child parent ↔ IsParent families child parent := by
  rw [Step, nextParent, Option.filter_eq_some_iff, Option.bind_eq_some_iff]
  constructor
  · rintro ⟨⟨family, hfamily, hparent⟩, -⟩
    obtain ⟨hmem, hid⟩ := (get?_familyById_iff hids).mp hfamily
    exact ⟨family, hmem, hid, hparent⟩
  · rintro ⟨family, hmem, hid, hparent⟩
    exact ⟨⟨family, (get?_familyById_iff hids).mpr ⟨hmem, hid⟩, hparent⟩,
      has_familyById_iff.mpr (hparents family hmem parent hparent)⟩

/-- What is visited are identifiers. -/
theorem mem_ids_of_nextParent {child parent : JsString}
    (h : nextParent (familyById families) child = some parent) :
    child ∈ families.map (fun family => family.id) ∧ parent ∈ families.map fun family => family.id := by
  rw [nextParent, Option.filter_eq_some_iff, Option.bind_eq_some_iff] at h
  obtain ⟨⟨family, hfamily, -⟩, hhas⟩ := h
  have hchild : (familyById families).has child = true := by
    rw [JsMap.has, hfamily]
    rfl
  exact ⟨List.mem_map.mpr (has_familyById_iff.mp hchild),
    List.mem_map.mpr (has_familyById_iff.mp hhas)⟩

/-- **The check of a taxonomy**: it ends on every list of families, and it reports no issue exactly
when the names are unique, the parents are defined, and no family is its own ancestor.

**Proof sketch.** The visit ends (`Chains.exists_firstCycle`) and finds a cycle of the map from
identifiers to parents. When the identifiers are unique and the parents are defined, this is a cycle
of the parent relation. -/
theorem addTaxonomyGraphIssues_spec (families : List ReviewedFamilyDescriptor) :
    ∃ issues, addTaxonomyGraphIssues families = some issues ∧
      (issues = [] ↔
        NamesAreUnique families ∧ ParentsAreDefined families ∧ IsAcyclic families) := by
  obtain ⟨found, hrun, hfound⟩ := exists_firstCycle (nextParent (familyById families))
    (families.map fun family => family.id) fun a b h => mem_ids_of_nextParent h
  rw [List.length_map] at hrun
  refine ⟨_, by rw [addTaxonomyGraphIssues, hrun]; rfl, ?_⟩
  rw [List.append_eq_nil_iff, List.append_eq_nil_iff, List.append_eq_nil_iff, List.append_eq_nil_iff,
    List.append_eq_nil_iff, uniqueIssue_eq_nil_iff, uniqueIssue_eq_nil_iff, uniqueIssue_eq_nil_iff,
    uniqueIssue_eq_nil_iff, parentIssues_eq_nil_iff, List.map_eq_nil_iff, Option.toList_eq_nil_iff,
    hfound]
  have hacyclic (hids : (families.map fun family => family.id).Nodup)
      (hparents : ParentsAreDefined families) :
      (∀ a, ¬ Relation.TransGen (Step (nextParent (familyById families))) a a) ↔
        IsAcyclic families := by
    have hstep : Step (nextParent (familyById families)) = IsParent families :=
      funext fun child => funext fun parent => propext (step_nextParent_iff hids hparents)
    rw [hstep]
    rfl
  constructor
  · rintro ⟨⟨⟨⟨⟨hids, -⟩, -⟩, hnames⟩, hparents⟩, hnone⟩
    exact ⟨⟨hids, hnames⟩, hparents, (hacyclic hids hparents).mp hnone⟩
  · rintro ⟨⟨hids, hnames⟩, hparents, hnone⟩
    have hparts := List.nodup_append'.mp hnames
    exact ⟨⟨⟨⟨⟨hids, hparts.1⟩, hparts.2.1⟩, hnames⟩, hparents⟩, (hacyclic hids hparents).mpr hnone⟩

/-- A family that is its own parent is reported. -/
example : addTaxonomyGraphIssues [⟨js "family:milk", js "milk", [], some (js "family:milk")⟩] =
    some [⟨js "Family parent references must not contain cycles", parentPath 0⟩] := by decide

end Handleplan.FamilyTaxonomy
