import Handleplan.Lib.Delimited
import Handleplan.Lib.Json
import Handleplan.Lib.Utf8

/-!
# The keys of operations in flight

Requests that are in flight share one operation when their keys are equal: the digest of a namespace
and of the canonical text of the material that tells requests apart.

## Main definitions

* `InFlight.KeyMaterial` — a value in memory, of which a key is made.
* `InFlight.canonicalJson` — its canonical text.
* `InFlight.digestOperationKey` — the key.
* `InFlight.KeyMaterial.json` — the value as JSON, if it can be represented.
* `InFlight.Dense` — no array has a hole.

## Main results

* `InFlight.visit_eq_some` — what is written is the sorted value as JSON.
* `InFlight.keys_hold_iff` — keys are equal when the values are the same, if no array has
  a hole.

## Implementation notes

A value in memory is the tree that a visit sees: each array and object has an identity, by which one
that contains itself is met again. The members of an object are visited in their own order, and
their texts then sorted: the number of nodes does not depend on it, and each failure is the same.
-/

namespace Handleplan.InFlight

open JsString Sorting

/-- `MAX_KEY_MATERIAL_BYTES`. -/
def maxKeyMaterialBytes : ℕ := 256 * 1024

/-- `MAX_CANONICAL_NODES`. -/
def maxCanonicalNodes : ℕ := 20000

/-- A value in memory. A number that is missing is not finite; an item that is missing is a hole. -/
inductive Node where
  | null
  | boolean (b : Bool)
  | number (n : Option JsNumber)
  | string (s : JsString)
  /-- `undefined`, a big integer, a symbol or a function. -/
  | other
  | array (identity : ℕ) (items : List (Option Node))
  /-- An object, of the plain prototype or none, or of another one. -/
  | object (identity : ℕ) (plain : Bool) (members : List (JsString × Node))

namespace Node

/-- No object has two members of one key. -/
inductive DistinctKeys : Node → Prop
  | null : DistinctKeys .null
  | boolean (b : Bool) : DistinctKeys (.boolean b)
  | number (n : Option JsNumber) : DistinctKeys (.number n)
  | string (s : JsString) : DistinctKeys (.string s)
  | other : DistinctKeys .other
  | array {identity : ℕ} {items : List (Option Node)} (h : ∀ item, some item ∈ items → DistinctKeys item) :
      DistinctKeys (.array identity items)
  | object {identity : ℕ} {plain : Bool} {members : List (JsString × Node)}
      (hkeys : (members.map Prod.fst).Nodup) (h : ∀ member ∈ members, DistinctKeys member.2) :
      DistinctKeys (.object identity plain members)

/-- No array has a hole. -/
inductive Dense : Node → Prop
  | null : Dense .null
  | boolean (b : Bool) : Dense (.boolean b)
  | number (n : Option JsNumber) : Dense (.number n)
  | string (s : JsString) : Dense (.string s)
  | other : Dense .other
  | array {identity : ℕ} {items : List (Option Node)} (hholes : none ∉ items)
      (h : ∀ item, some item ∈ items → Dense item) : Dense (.array identity items)
  | object {identity : ℕ} {plain : Bool} {members : List (JsString × Node)}
      (h : ∀ member ∈ members, Dense member.2) : Dense (.object identity plain members)

end Node

/-- The material of a key: a value in memory, whose objects have distinct keys. -/
structure KeyMaterial where
  node : Node
  distinctKeys : node.DistinctKeys

/-! ### The canonical text -/

mutual

/-- `visit`: the text of a value within those that contain it, and the number of nodes visited. -/
def visit (seen : List ℕ) : Node → ℕ → Option (JsString × ℕ)
  | .null, nodes => if maxCanonicalNodes < nodes + 1 then none else some (js "null", nodes + 1)
  | .boolean b, nodes =>
    if maxCanonicalNodes < nodes + 1 then none
    else some (if b then js "true" else js "false", nodes + 1)
  | .number n, nodes =>
    if maxCanonicalNodes < nodes + 1 then none else n.map fun n => (n.text, nodes + 1)
  | .string s, nodes =>
    if maxCanonicalNodes < nodes + 1 then none else some (JsonText.stringify s, nodes + 1)
  | .other, _ => none
  | .array identity items, nodes =>
    if maxCanonicalNodes < nodes + 1 then none
    else if identity ∈ seen then none
    else
      (visitItems (identity :: seen) items (nodes + 1)).map fun visited =>
        (91 :: (joinWith [44] visited.1 ++ [93]), visited.2)
  | .object identity plain members, nodes =>
    if maxCanonicalNodes < nodes + 1 then none
    else if identity ∈ seen then none
    else if plain = false then none
    else
      (visitMembers (identity :: seen) members (nodes + 1)).map fun visited =>
        (123 :: (joinWith [44] ((sortBy (on Prod.fst compareText) visited.1).map Prod.snd) ++ [125]),
          visited.2)

/-- The items of an array: a hole is passed over, and joined as nothing. -/
def visitItems (seen : List ℕ) : List (Option Node) → ℕ → Option (List JsString × ℕ)
  | [], nodes => some ([], nodes)
  | none :: items, nodes =>
    (visitItems seen items nodes).map fun visited => ([] :: visited.1, visited.2)
  | some item :: items, nodes =>
    (visit seen item nodes).bind fun first =>
      (visitItems seen items first.2).map fun visited => (first.1 :: visited.1, visited.2)

/-- The members of an object, with their keys. -/
def visitMembers (seen : List ℕ) :
    List (JsString × Node) → ℕ → Option (List (JsString × JsString) × ℕ)
  | [], nodes => some ([], nodes)
  | (key, value) :: members, nodes =>
    (visit seen value nodes).bind fun first =>
      (visitMembers seen members first.2).map fun visited =>
        ((key, JsonText.stringify key ++ 58 :: first.1) :: visited.1, visited.2)

end

/-- `canonicalJson`. -/
def canonicalJson (value : KeyMaterial) : Option JsString :=
  (visit [] value.node 0).bind fun visited =>
    if maxKeyMaterialBytes < (Utf8.encode visited.1).length then none else some visited.1

/-- What a namespace is. -/
def NamespacePattern (ns : JsString) : Prop :=
  (∃ first ∈ ns.head?, 97 ≤ first ∧ first ≤ 122) ∧ ns.length ≤ 64 ∧
    ∀ u ∈ ns, (97 ≤ u ∧ u ≤ 122) ∨ (48 ≤ u ∧ u ≤ 57) ∨ u = 45

instance : DecidablePred NamespacePattern :=
  fun ns => inferInstanceAs (Decidable ((∃ first ∈ ns.head?, 97 ≤ first ∧ first ≤ 122) ∧ _ ∧ _))

/-- `digestOperationKey`, by a digest of bytes. -/
def digestOperationKey {δ : Type*} (sha256 : List UInt8 → δ) (ns : JsString) (keyMaterial : KeyMaterial) :
    Option δ :=
  if ¬ NamespacePattern ns then none
  else
    (canonicalJson keyMaterial).map fun text =>
      sha256 (Utf8.encode ns ++ 0 :: Utf8.encode text)

/-! ### Values as JSON -/

mutual

/-- A value as JSON, within those that contain it: a part that JSON does not have is refused. -/
def Node.json (seen : List ℕ) : Node → Option Json
  | .null => some .null
  | .boolean b => some (.boolean b)
  | .number n => n.map .number
  | .string s => some (.string s)
  | .other => none
  | .array identity items =>
    if identity ∈ seen then none else (jsonItems (identity :: seen) items).map .array
  | .object identity plain members =>
    if identity ∈ seen ∨ plain = false then none
    else (jsonMembers (identity :: seen) members).map .object

/-- The items of an array, which has no holes in JSON. -/
def jsonItems (seen : List ℕ) : List (Option Node) → Option (List Json)
  | [] => some []
  | none :: _ => none
  | some item :: items =>
    (item.json seen).bind fun first => (jsonItems seen items).map fun rest => first :: rest

/-- The members of an object. -/
def jsonMembers (seen : List ℕ) : List (JsString × Node) → Option (List (JsString × Json))
  | [] => some []
  | (key, value) :: members =>
    (value.json seen).bind fun first => (jsonMembers seen members).map fun rest => (key, first) :: rest

end

/-- The material of a key as JSON. -/
def KeyMaterial.json (value : KeyMaterial) : Option Json := value.node.json []

/-- Two values are the same as JSON. -/
def SameJson (value other : KeyMaterial) : Prop :=
  ∃ a ∈ value.json, ∃ b ∈ other.json, Json.Same a b

/-! ### What is written is the value as JSON -/

section Visits

variable {seen : List ℕ} {nodes count : ℕ} {text : JsString}

/-- A property of all values, by the items of arrays and the members of objects. -/
theorem Node.induct {motive : Node → Prop} (null : motive .null) (boolean : ∀ b, motive (.boolean b))
    (number : ∀ n, motive (.number n)) (string : ∀ s, motive (.string s)) (other : motive .other)
    (array : ∀ identity items, (∀ item, some item ∈ items → motive item) →
      motive (.array identity items))
    (object : ∀ identity plain members, (∀ member ∈ members, motive member.2) →
      motive (.object identity plain members)) (value : Node) : motive value := by
  refine @Node.rec motive (fun items => ∀ item, some item ∈ items → motive item)
    (fun members => ∀ member ∈ members, motive member.2) (fun item => ∀ value, item = some value →
      motive value) (fun member => motive member.2) null boolean number string other array object
    ?_ ?_ ?_ ?_ ?_ ?_ (fun _ _ h => h) value
  · exact fun item hitem => absurd hitem List.not_mem_nil
  · intro first items hfirst hitems item hitem
    rcases List.mem_cons.mp hitem with heq | hmem
    · exact hfirst item heq.symm
    · exact hitems item hmem
  · exact fun member hmember => absurd hmember List.not_mem_nil
  · intro first members hfirst hmembers member hmember
    rcases List.mem_cons.mp hmember with rfl | hmem
    · exact hfirst
    · exact hmembers member hmem
  · exact fun value h => (by cases h)
  · exact fun value hvalue other h => Option.some.inj h ▸ hvalue

/-- What a visit of a value writes. -/
def Writes (value : Node) : Prop :=
  ∀ seen nodes text count, visit seen value nodes = some (text, count) →
    ∃ a, value.json seen = some a ∧ a.DistinctKeys ∧ text = a.sorted.stringify

/-- The texts of items are those of their values. -/
theorem visitItems_eq_some {items : List (Option Node)} {texts : List JsString}
    (hholes : none ∉ items) (h : ∀ item, some item ∈ items → Writes item)
    (hvisit : visitItems seen items nodes = some (texts, count)) :
    ∃ values, jsonItems seen items = some values ∧ (∀ a ∈ values, a.DistinctKeys) ∧
      texts = values.map fun a => a.sorted.stringify := by
  induction items generalizing nodes texts with
  | nil =>
    rw [visitItems, Option.some.injEq, Prod.mk.injEq] at hvisit
    exact ⟨[], rfl, fun a ha => absurd ha List.not_mem_nil, hvisit.1.symm⟩
  | cons item items ih =>
    cases item with
    | none => exact absurd List.mem_cons_self hholes
    | some item =>
      rw [visitItems] at hvisit
      obtain ⟨⟨text, next⟩, hfirst, hrest⟩ := Option.bind_eq_some_iff.mp hvisit
      obtain ⟨⟨rest, last⟩, hitems, heq⟩ := Option.map_eq_some_iff.mp hrest
      cases heq
      obtain ⟨a, hjson, hdistinct, rfl⟩ := h item List.mem_cons_self _ _ _ _ hfirst
      obtain ⟨values, hvalues, hall, rfl⟩ := ih (fun hmem => hholes (List.mem_cons_of_mem _ hmem))
        (fun other hother => h other (List.mem_cons_of_mem _ hother)) hitems
      refine ⟨a :: values, ?_, fun b hb => ?_, rfl⟩
      · rw [jsonItems, hjson, hvalues]
        rfl
      · rcases List.mem_cons.mp hb with rfl | hb
        · exact hdistinct
        · exact hall b hb

/-- The texts of members are those of their values. -/
theorem visitMembers_eq_some {members : List (JsString × Node)}
    {texts : List (JsString × JsString)} (h : ∀ member ∈ members, Writes member.2)
    (hvisit : visitMembers seen members nodes = some (texts, count)) :
    ∃ values, jsonMembers seen members = some values ∧
      values.map Prod.fst = members.map Prod.fst ∧ (∀ entry ∈ values, entry.2.DistinctKeys) ∧
      texts = (Json.sortedMembers values).map fun entry => (entry.1, Json.memberText entry) := by
  induction members generalizing nodes texts with
  | nil =>
    rw [visitMembers, Option.some.injEq, Prod.mk.injEq] at hvisit
    exact ⟨[], rfl, rfl, fun a ha => absurd ha List.not_mem_nil, hvisit.1.symm⟩
  | cons member members ih =>
    obtain ⟨key, value⟩ := member
    rw [visitMembers] at hvisit
    obtain ⟨⟨text, next⟩, hfirst, hrest⟩ := Option.bind_eq_some_iff.mp hvisit
    obtain ⟨⟨rest, last⟩, hmembers, heq⟩ := Option.map_eq_some_iff.mp hrest
    cases heq
    obtain ⟨a, hjson, hdistinct, rfl⟩ := h (key, value) List.mem_cons_self _ _ _ _ hfirst
    obtain ⟨values, hvalues, hkeys, hall, rfl⟩ := ih
      (fun other hother => h other (List.mem_cons_of_mem _ hother)) hmembers
    refine ⟨(key, a) :: values, ?_, ?_, fun entry hentry => ?_, rfl⟩
    · have hjson' : value.json seen = some a := hjson
      rw [jsonMembers, hjson', hvalues]
      rfl
    · rw [List.map_cons, List.map_cons, hkeys]
    · rcases List.mem_cons.mp hentry with rfl | hentry
      · exact hdistinct
      · exact hall entry hentry

/-- **What is written is the sorted value as JSON**, when no array has a hole. -/
theorem visit_eq_some {value : Node} (hdense : value.Dense) (hdistinct : value.DistinctKeys) :
    Writes value := by
  induction hdense with
  | null =>
    intro seen nodes text count h
    obtain ⟨-, heq⟩ := Option.ite_none_left_eq_some.mp h
    obtain ⟨rfl, -⟩ := Prod.mk.inj (Option.some.inj heq)
    exact ⟨.null, rfl, .null, rfl⟩
  | boolean b =>
    intro seen nodes text count h
    obtain ⟨-, heq⟩ := Option.ite_none_left_eq_some.mp h
    obtain ⟨rfl, -⟩ := Prod.mk.inj (Option.some.inj heq)
    exact ⟨.boolean b, rfl, .boolean b, rfl⟩
  | number n =>
    intro seen nodes text count h
    obtain ⟨-, heq⟩ := Option.ite_none_left_eq_some.mp h
    obtain ⟨n, rfl, htext⟩ := Option.map_eq_some_iff.mp heq
    obtain ⟨rfl, -⟩ := Prod.mk.inj htext
    exact ⟨.number n, rfl, .number n, rfl⟩
  | string s =>
    intro seen nodes text count h
    obtain ⟨-, heq⟩ := Option.ite_none_left_eq_some.mp h
    obtain ⟨rfl, -⟩ := Prod.mk.inj (Option.some.inj heq)
    exact ⟨.string s, rfl, .string s, rfl⟩
  | other =>
    intro seen nodes text count h
    cases h
  | @array identity items hholes _ ih =>
    intro seen nodes text count h
    cases hdistinct with
    | array hdistinct =>
      rw [visit] at h
      obtain ⟨-, h⟩ := Option.ite_none_left_eq_some.mp h
      obtain ⟨hseen, h⟩ := Option.ite_none_left_eq_some.mp h
      obtain ⟨⟨texts, last⟩, hitems, heq⟩ := Option.map_eq_some_iff.mp h
      obtain ⟨rfl, -⟩ := Prod.mk.inj heq
      obtain ⟨values, hvalues, hall, rfl⟩ := visitItems_eq_some hholes
        (fun item hitem => ih item hitem (hdistinct item hitem)) hitems
      refine ⟨.array values, ?_, .array hall, ?_⟩
      · rw [Node.json, if_neg hseen, hvalues]
        rfl
      · rw [Json.sorted, Json.sortedItems_eq, Json.stringify, Json.stringifyItems_eq, List.map_map]
        rfl
  | @object identity plain members _ ih =>
    intro seen nodes text count h
    cases hdistinct with
    | object hkeys hdistinct =>
      rw [visit] at h
      obtain ⟨-, h⟩ := Option.ite_none_left_eq_some.mp h
      obtain ⟨hseen, h⟩ := Option.ite_none_left_eq_some.mp h
      obtain ⟨hplain, h⟩ := Option.ite_none_left_eq_some.mp h
      obtain ⟨⟨texts, last⟩, hmembers, heq⟩ := Option.map_eq_some_iff.mp h
      obtain ⟨rfl, -⟩ := Prod.mk.inj heq
      obtain ⟨values, hvalues, hsame, hall, rfl⟩ := visitMembers_eq_some
        (fun member hmember => ih member hmember (hdistinct member hmember)) hmembers
      refine ⟨.object values, ?_, .object (hsame ▸ hkeys) hall, ?_⟩
      · rw [Node.json, if_neg (not_or.mpr ⟨hseen, hplain⟩), hvalues]
        rfl
      · rw [Json.sorted, Json.stringify, Json.stringifyMembers_eq]
        dsimp only
        have hsorted (entries : List (JsString × Json)) :
            sortBy (on Prod.fst compareText)
              (entries.map fun entry => (entry.1, Json.memberText entry)) =
            (sortBy (on Prod.fst compareText) entries).map
              fun entry => (entry.1, Json.memberText entry) :=
          (@map_sortBy _ _ (on Prod.fst compareText) (on Prod.fst compareText)
            (fun entry => (entry.1, Json.memberText entry)) (fun _ _ => rfl) entries).symm
        rw [hsorted, List.map_map]
        rfl

/-- A value that JSON can represent has no holes. -/
theorem dense_of_json {value : Node} (h : (value.json seen).isSome) : value.Dense := by
  induction value using Node.induct generalizing seen with
  | null => exact .null
  | boolean b => exact .boolean b
  | number n => exact .number n
  | string s => exact .string s
  | other => exact .other
  | array identity items ih =>
    rw [Node.json] at h
    obtain ⟨a, ha⟩ := Option.isSome_iff_exists.mp h
    obtain ⟨-, ha⟩ := Option.ite_none_left_eq_some.mp ha
    obtain ⟨values, hvalues, -⟩ := Option.map_eq_some_iff.mp ha
    have hall : ∀ (rest : List (Option Node)) (values : List Json),
        jsonItems (identity :: seen) rest = some values → none ∉ rest ∧
          ∀ item, some item ∈ rest → (item.json (identity :: seen)).isSome := by
      intro rest
      induction rest with
      | nil => exact fun _ _ => ⟨List.not_mem_nil, fun item hitem => absurd hitem List.not_mem_nil⟩
      | cons first rest ihrest =>
        intro values hvalues
        cases first with
        | none => cases hvalues
        | some first =>
          obtain ⟨b, hb, hrest⟩ := Option.bind_eq_some_iff.mp hvalues
          obtain ⟨tail, htail, -⟩ := Option.map_eq_some_iff.mp hrest
          obtain ⟨hholes, hitems⟩ := ihrest tail htail
          refine ⟨fun hmem => ?_, fun item hitem => ?_⟩
          · rcases List.mem_cons.mp hmem with heq | hmem
            · cases heq
            · exact hholes hmem
          · rcases List.mem_cons.mp hitem with heq | hmem
            · cases heq
              exact Option.isSome_iff_exists.mpr ⟨b, hb⟩
            · exact hitems item hmem
    obtain ⟨hholes, hitems⟩ := hall items values hvalues
    exact .array hholes fun item hitem => ih item hitem (hitems item hitem)
  | object identity plain members ih =>
    rw [Node.json] at h
    obtain ⟨a, ha⟩ := Option.isSome_iff_exists.mp h
    obtain ⟨-, ha⟩ := Option.ite_none_left_eq_some.mp ha
    obtain ⟨values, hvalues, -⟩ := Option.map_eq_some_iff.mp ha
    have hall : ∀ (rest : List (JsString × Node)) (values : List (JsString × Json)),
        jsonMembers (identity :: seen) rest = some values →
          ∀ member ∈ rest, (member.2.json (identity :: seen)).isSome := by
      intro rest
      induction rest with
      | nil => exact fun _ _ member hmember => absurd hmember List.not_mem_nil
      | cons first rest ihrest =>
        intro values hvalues member hmember
        obtain ⟨key, value⟩ := first
        obtain ⟨b, hb, hrest⟩ := Option.bind_eq_some_iff.mp hvalues
        obtain ⟨tail, htail, -⟩ := Option.map_eq_some_iff.mp hrest
        rcases List.mem_cons.mp hmember with rfl | hmem
        · exact Option.isSome_iff_exists.mpr ⟨b, hb⟩
        · exact ihrest tail htail member hmem
    exact .object fun member hmember => ih member hmember (hall members values hvalues member hmember)

end Visits

/-! ### When keys are equal -/

section Keys

variable {δ : Type*} {sha256 : List UInt8 → δ} {value other : KeyMaterial} {text : JsString}

/-- The canonical text is that of the value as JSON, when no array has a hole. -/
theorem canonicalJson_eq_some (hdense : value.node.Dense) (h : canonicalJson value = some text) :
    ∃ a, value.json = some a ∧ a.DistinctKeys ∧ text = a.sorted.stringify := by
  obtain ⟨⟨written, count⟩, hvisit, htext⟩ := Option.bind_eq_some_iff.mp h
  obtain ⟨-, hsome⟩ := Option.ite_none_left_eq_some.mp htext
  cases hsome
  exact visit_eq_some hdense value.distinctKeys [] 0 written count hvisit

theorem NamespacePattern.units {ns : JsString} (h : NamespacePattern ns) :
    ∀ u ∈ ns, u < 0x80 ∧ u ≠ 0 := by
  intro u hu
  rcases h.2.2 u hu with ⟨hge, hle⟩ | ⟨hge, hle⟩ | rfl
  · refine ⟨UInt16.lt_of_le_of_lt hle (by decide), ?_⟩
    rintro rfl
    exact absurd hge (by decide)
  · refine ⟨UInt16.lt_of_le_of_lt hle (by decide), ?_⟩
    rintro rfl
    exact absurd hge (by decide)
  · decide

/-- A namespace and a text are told apart in what is digested. -/
theorem material_inj {ns ns' s t : JsString} (hns : NamespacePattern ns) (hns' : NamespacePattern ns')
    (hs : JsonText.isWellFormed s = true) (ht : JsonText.isWellFormed t = true)
    (h : Utf8.encode ns ++ 0 :: Utf8.encode s = Utf8.encode ns' ++ 0 :: Utf8.encode t) :
    ns = ns' ∧ s = t := by
  have hplain {ns : JsString} (hns : NamespacePattern ns) :
      (∀ b ∈ Utf8.encode ns, ¬ b = 0) ∧ JsonText.isWellFormed ns = true := by
    refine ⟨fun b hb hzero => ?_, Json.isWellFormed_of_le fun u hu => ?_⟩
    · exact Utf8.zero_notMem_encode (fun u hu => (hns.units u hu).1)
        (fun hmem => (hns.units 0 hmem).2 rfl) (hzero ▸ hb)
    · exact UInt16.lt_trans (hns.units u hu).1 (by decide)
  obtain ⟨hnamespace, -, htext⟩ := Delimited.eq_of_append_cons_left (P := (· = 0))
    (hplain hns).1 (hplain hns').1 rfl rfl h
  exact ⟨Utf8.encode_injOn (hplain hns).2 (hplain hns').2 hnamespace, Utf8.encode_injOn hs ht htext⟩

/-- What holds of two values of which keys are made: JSON can represent them, and their texts and
their keys are equal exactly when they are the same. -/
structure KeysHold (sha256 : List UInt8 → δ) (value other : KeyMaterial) : Prop where
  represented : value.json.isSome ∧ other.json.isSome
  texts : canonicalJson value = canonicalJson other ↔ SameJson value other
  coalesced : ∀ ns ns', NamespacePattern ns → NamespacePattern ns' →
    (digestOperationKey sha256 ns value = digestOperationKey sha256 ns' other ↔
      ns = ns' ∧ SameJson value other)

/-- **Texts and keys are equal exactly when the values are the same**, of two values of which keys
are made, if and only if no array in them has a hole. -/
theorem keys_hold_iff (hinjective : Function.Injective sha256) (hvalue : (canonicalJson value).isSome)
    (hother : (canonicalJson other).isSome) :
    KeysHold sha256 value other ↔ value.node.Dense ∧ other.node.Dense := by
  constructor
  · exact fun h => ⟨dense_of_json h.represented.1, dense_of_json h.represented.2⟩
  · rintro ⟨hdense, hdense'⟩
    obtain ⟨s, hs⟩ := Option.isSome_iff_exists.mp hvalue
    obtain ⟨t, ht⟩ := Option.isSome_iff_exists.mp hother
    obtain ⟨a, ha, hdistinct, rfl⟩ := canonicalJson_eq_some hdense hs
    obtain ⟨b, hb, hdistinct', rfl⟩ := canonicalJson_eq_some hdense' ht
    have hsame : SameJson value other ↔ Json.Same a b := by
      rw [SameJson, ha, hb]
      constructor
      · rintro ⟨c, hc, d, hd, h⟩
        exact Option.some.inj hc ▸ Option.some.inj hd ▸ h
      · exact fun h => ⟨a, rfl, b, rfl, h⟩
    have htexts : canonicalJson value = canonicalJson other ↔ SameJson value other := by
      rw [hs, ht, Option.some.injEq, hsame, Json.stringify_sorted_eq_iff hdistinct hdistinct']
    refine ⟨⟨ha ▸ rfl, hb ▸ rfl⟩, htexts, fun ns ns' hns hns' => ?_⟩
    unfold digestOperationKey
    rw [if_neg (not_not.mpr hns), if_neg (not_not.mpr hns'), ← htexts, hs, ht, Option.map_some,
      Option.map_some, Option.some.injEq, hinjective.eq_iff, Option.some.injEq]
    constructor
    · exact material_inj hns hns' (Json.isWellFormed_stringify hdistinct.sorted)
        (Json.isWellFormed_stringify hdistinct'.sorted)
    · rintro ⟨rfl, h⟩
      rw [h]

end Keys

namespace Example

/-- Two members, one before the other. -/
def pair (first second : JsString × Node) (h : first.1 ≠ second.1) (hfirst : first.2.DistinctKeys)
    (hsecond : second.2.DistinctKeys) : KeyMaterial where
  node := .object 0 true [first, second]
  distinctKeys := .object
    (List.nodup_cons.mpr ⟨fun hmem => h (List.mem_singleton.mp hmem), List.nodup_singleton _⟩)
    fun member hmember => by
      rcases List.mem_cons.mp hmember with rfl | hmember
      · exact hfirst
      · exact List.mem_singleton.mp hmember ▸ hsecond

def quantity : JsString × Node := (js "quantity", .number (some (.natural 2)))

def needs : JsString × Node := (js "needs", .array 1 [some (.string (js "melk"))])

theorem distinctKeys_needs : needs.2.DistinctKeys :=
  .array fun item hitem => by
    obtain rfl := Option.some.inj (List.mem_singleton.mp hitem)
    exact .string _

theorem dense_needs : needs.2.Dense :=
  .array (fun h => (by cases List.mem_singleton.mp h)) fun item hitem => by
    obtain rfl := Option.some.inj (List.mem_singleton.mp hitem)
    exact .string _

theorem keys_ne : needs.1 ≠ quantity.1 := by decide

def request : KeyMaterial := pair needs quantity keys_ne distinctKeys_needs (.number _)

/-- The same request, with its members in another order. -/
def reordered : KeyMaterial := pair quantity needs keys_ne.symm (.number _) distinctKeys_needs

/-- An array without items. -/
def empty : KeyMaterial := ⟨.array 0 [], .array fun _ h => absurd h List.not_mem_nil⟩

/-- An array whose one item is a hole. -/
def hole : KeyMaterial :=
  ⟨.array 0 [none], .array fun _ h => (by cases List.mem_singleton.mp h)⟩

end Example

open Example in
theorem keys_hold_reordered : KeysHold id request reordered ∧
    canonicalJson request = some (js "\x7b\"needs\":[\"melk\"],\"quantity\":2\x7d") ∧
    canonicalJson reordered = canonicalJson request := by
  refine ⟨(keys_hold_iff Function.injective_id (by decide +kernel) (by decide +kernel)).mpr
    ⟨.object fun member hmember => ?_, .object fun member hmember => ?_⟩, by decide +kernel,
    by decide +kernel⟩
  · rcases List.mem_cons.mp hmember with rfl | hmember
    · exact dense_needs
    · exact List.mem_singleton.mp hmember ▸ .number _
  · rcases List.mem_cons.mp hmember with rfl | hmember
    · exact .number _
    · exact List.mem_singleton.mp hmember ▸ dense_needs

open Example in
/-- An array whose one item is a hole has the text and the key of an array without items. -/
theorem not_keys_hold :
    canonicalJson empty = some (js "[]") ∧ canonicalJson hole = some (js "[]") ∧
      digestOperationKey id (js "plans") empty = digestOperationKey id (js "plans") hole ∧
      ¬ SameJson empty hole := by
  refine ⟨by decide +kernel, by decide +kernel, by decide +kernel, ?_⟩
  rintro ⟨a, -, b, hb, -⟩
  cases hb

end Handleplan.InFlight
