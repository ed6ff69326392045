import Mathlib.Logic.Relation
import Mathlib.Data.List.Nodup
import Mathlib.Data.List.Perm.Subperm

/-!
# Chains

A partial function leads from an element to at most one other. A chain of it ends, or it comes back
to an element it has passed. The depth-first visit marks the elements of the chain it is on, and
those whose chains it has followed to the end.

## Main definitions

* `Chains.Step` — the function leads from one element to another.
* `Chains.Ends` — the chain of an element ends.
* `Chains.visit` — the visit of an element, with its marks.
* `Chains.firstCycle` — the first element of a list whose visit comes back to its own chain.

## Main results

* `Chains.not_transGen_of_ends` — no chain that ends comes back.
* `Chains.visit_spec` — what a visit says of the chain.
* `Chains.isSome_visit` — how many steps a visit needs.
* `Chains.exists_firstCycle` — there is no first cycle exactly when there is no cycle.
-/

namespace Chains

variable {α : Type*} {next : α → Option α} {a b : α}

/-- The function leads from one element to another. -/
def Step (next : α → Option α) (a b : α) : Prop := next a = some b

/-- The chain of an element ends. -/
def Ends (next : α → Option α) (a : α) : Prop := Acc (fun b a => Step next a b) a

/-- The chain of an element ends if that of the next one does. -/
theorem Ends.of_step (hstep : Step next a b) (h : Ends next b) : Ends next a := by
  refine Acc.intro a fun c hc => ?_
  rwa [Option.some.inj (hc.symm.trans hstep)]

theorem Ends.of_eq_none (h : next a = none) : Ends next a := by
  refine Acc.intro a fun c hc => ?_
  rw [Step, h] at hc
  cases hc

/-- **A chain that ends** does not come back. -/
theorem not_transGen_of_ends (h : Ends next a) : ¬ Relation.TransGen (Step next) a a := by
  induction h with
  | intro a _ ih =>
    intro hcycle
    obtain ⟨b, hstep, hback⟩ := Relation.TransGen.head'_iff.mp hcycle
    -- the chain of the next element comes back as well
    exact ih b hstep (Relation.TransGen.tail' hback hstep)

/-! ### Visits -/

/-- The marks of a visit. -/
structure Marks (α : Type*) where
  completelyVisited : List α
  visiting : List α

variable [DecidableEq α]

/-- The visit of an element, for a number of steps: whether its chain comes back, and the marks. -/
def visit (next : α → Option α) : ℕ → Marks α → α → Option (Bool × Marks α)
  | 0, _, _ => none
  | fuel + 1, marks, a =>
    if a ∈ marks.completelyVisited then some (false, marks)
    else if a ∈ marks.visiting then some (true, marks)
    else
      match next a with
      | none => some (false, { marks with completelyVisited := a :: marks.completelyVisited })
      | some b =>
        (visit next fuel { marks with visiting := a :: marks.visiting } b).map fun result =>
          (result.1,
            { completelyVisited := a :: result.2.completelyVisited
              visiting := result.2.visiting.erase a })

/-- The marks are sound at an element: what has been completely visited ends, and what is being
visited leads to the element. -/
structure Marks.Sound (next : α → Option α) (marks : Marks α) (a : α) : Prop where
  ends : ∀ c ∈ marks.completelyVisited, Ends next c
  leads : ∀ c ∈ marks.visiting, Relation.TransGen (Step next) c a

/-- **What a visit says**: if the chain comes back there is a cycle; if it does not, it ends, and so
do all chains that have been completely visited. -/
theorem visit_spec (next : α → Option α) (fuel : ℕ) : ∀ {marks marks' : Marks α} {a : α}
    {hasCycle : Bool}, marks.Sound next a → visit next fuel marks a = some (hasCycle, marks') →
      marks'.visiting = marks.visiting ∧
        (hasCycle = true → ∃ c, Relation.TransGen (Step next) c c) ∧
          (hasCycle = false → Ends next a ∧ ∀ c ∈ marks'.completelyVisited, Ends next c) := by
  induction fuel with
  | zero =>
    intro marks marks' a hasCycle _ h
    cases h
  | succ fuel ih =>
    intro marks marks' a hasCycle hsound h
    unfold visit at h
    by_cases hdone : a ∈ marks.completelyVisited
    · rw [if_pos hdone] at h
      cases h
      exact ⟨rfl, (fun hcycle => by cases hcycle), fun _ => ⟨hsound.ends a hdone, hsound.ends⟩⟩
    rw [if_neg hdone] at h
    by_cases hvisiting : a ∈ marks.visiting
    · rw [if_pos hvisiting] at h
      cases h
      exact ⟨rfl, fun _ => ⟨a, hsound.leads a hvisiting⟩, (fun hcycle => by cases hcycle)⟩
    rw [if_neg hvisiting] at h
    cases hnext : next a with
    | none =>
      rw [hnext] at h
      cases h
      refine ⟨rfl, (fun hcycle => by cases hcycle), fun _ => ⟨.of_eq_none hnext, fun c hc => ?_⟩⟩
      rcases List.mem_cons.mp hc with rfl | hc
      · exact .of_eq_none hnext
      · exact hsound.ends c hc
    | some b =>
      rw [hnext] at h
      obtain ⟨⟨found, inner⟩, hinner, hresult⟩ := Option.map_eq_some_iff.mp h
      cases hresult
      have hsound' : Marks.Sound next { marks with visiting := a :: marks.visiting } b := by
        refine ⟨hsound.ends, fun c hc => ?_⟩
        rcases List.mem_cons.mp hc with rfl | hc
        · exact .single hnext
        · exact (hsound.leads c hc).tail hnext
      obtain ⟨hsame, hfound, hends⟩ := ih hsound' hinner
      refine ⟨?_, hfound, fun hcycle => ?_⟩
      · show inner.visiting.erase a = marks.visiting
        rw [hsame]
        exact List.erase_cons_head _ _
      · obtain ⟨hb, hall⟩ := hends hcycle
        have ha := Ends.of_step hnext hb
        refine ⟨ha, fun c hc => ?_⟩
        rcases List.mem_cons.mp hc with rfl | hc
        · exact ha
        · exact hall c hc

/-- **A visit needs no more steps** than there are elements that are not being visited. -/
theorem isSome_visit {keys : List α} (hnext : ∀ a b, next a = some b → b ∈ keys) (fuel : ℕ) :
    ∀ {marks : Marks α} {a : α}, a ∈ keys → marks.visiting.Nodup → marks.visiting ⊆ keys →
      keys.length < fuel + marks.visiting.length → (visit next fuel marks a).isSome = true := by
  induction fuel with
  | zero =>
    intro marks a _ hnodup hsubset hlt
    rw [Nat.zero_add] at hlt
    exact absurd (hnodup.subperm hsubset).length_le (Nat.not_le.mpr hlt)
  | succ fuel ih =>
    intro marks a ha hnodup hsubset hlt
    unfold visit
    by_cases hdone : a ∈ marks.completelyVisited
    · rw [if_pos hdone]
      rfl
    rw [if_neg hdone]
    by_cases hvisiting : a ∈ marks.visiting
    · rw [if_pos hvisiting]
      rfl
    rw [if_neg hvisiting]
    cases hstep : next a with
    | none => rfl
    | some b =>
      have hinner := @ih { marks with visiting := a :: marks.visiting } b (hnext a b hstep)
        (List.nodup_cons.mpr ⟨hvisiting, hnodup⟩) (List.cons_subset.mpr ⟨ha, hsubset⟩)
        (by rw [List.length_cons]; omega)
      dsimp only
      rwa [Option.isSome_map]

/-- The index of the first element of a list whose visit comes back. -/
def firstCycle (next : α → Option α) (fuel : ℕ) : Marks α → ℕ → List α → Option (Option ℕ)
  | _, _, [] => some none
  | marks, index, a :: rest =>
    (visit next fuel marks a).bind fun result =>
      if result.1 then some (some index) else firstCycle next fuel result.2 (index + 1) rest

/-- A list is visited to its end, and then the chains of all its elements end, or a cycle is
found. -/
theorem firstCycle_spec {keys : List α} (hnext : ∀ a b, next a = some b → b ∈ keys) {fuel : ℕ}
    (hfuel : keys.length < fuel) : ∀ {l : List α} {completelyVisited : List α} (index : ℕ), l ⊆ keys →
      (∀ c ∈ completelyVisited, Ends next c) →
        ∃ found, firstCycle next fuel ⟨completelyVisited, []⟩ index l = some found ∧
          (found ≠ none → ∃ c, Relation.TransGen (Step next) c c) ∧
            (found = none → ∀ a ∈ l, Ends next a)
  | [], _, _, _, _ => ⟨none, rfl, fun h => absurd rfl h, fun _ a ha => absurd ha List.not_mem_nil⟩
  | a :: l, completelyVisited, index, hsubset, hends => by
    obtain ⟨ha, hrest⟩ := List.cons_subset.mp hsubset
    have hsome : (visit next fuel ⟨completelyVisited, []⟩ a).isSome = true :=
      isSome_visit hnext fuel ha List.nodup_nil (List.nil_subset _) hfuel
    obtain ⟨⟨hasCycle, marks⟩, hvisit⟩ := Option.isSome_iff_exists.mp hsome
    have hsound : Marks.Sound next ⟨completelyVisited, []⟩ a :=
      ⟨hends, fun c hc => absurd hc List.not_mem_nil⟩
    obtain ⟨hsame, hfound, hall⟩ := visit_spec next fuel hsound hvisit
    unfold firstCycle
    rw [hvisit, Option.bind_some]
    cases hasCycle with
    | true => exact ⟨some index, rfl, fun _ => hfound rfl, fun h => by cases h⟩
    | false =>
      obtain ⟨hend, hmarks⟩ := hall rfl
      have hvisited : marks = ⟨marks.completelyVisited, []⟩ := by rw [← show marks.visiting = [] from hsame]
      obtain ⟨found, hrun, hcycle, hnone⟩ := firstCycle_spec hnext hfuel (index + 1) hrest hmarks
      refine ⟨found, ?_, hcycle, fun h c hc => ?_⟩
      · show firstCycle next fuel marks (index + 1) l = some found
        rw [hvisited, hrun]
      · rcases List.mem_cons.mp hc with rfl | hc
        · exact hend
        · exact hnone h c hc

/-- **A list of all elements is visited to its end**, and no cycle is found exactly when there is
none. -/
theorem exists_firstCycle (next : α → Option α) (keys : List α)
    (hnext : ∀ a b, next a = some b → a ∈ keys ∧ b ∈ keys) :
    ∃ found, firstCycle next (keys.length + 1) ⟨[], []⟩ 0 keys = some found ∧
      (found = none ↔ ∀ a, ¬ Relation.TransGen (Step next) a a) := by
  obtain ⟨found, hrun, hcycle, hends⟩ := firstCycle_spec (fun a b h => (hnext a b h).2)
    (Nat.lt_succ_self keys.length) 0 (List.Subset.refl keys) fun c hc => absurd hc List.not_mem_nil
  refine ⟨found, hrun, fun hnone a hback => ?_, fun hacyclic => ?_⟩
  · obtain ⟨b, hstep, -⟩ := Relation.TransGen.head'_iff.mp hback
    exact not_transGen_of_ends (hends hnone a (hnext a b hstep).1) hback
  · by_contra hsome
    obtain ⟨c, hc⟩ := hcycle hsome
    exact hacyclic c hc

end Chains
