import Handleplan.Web.TravelService

/-!
# What the travel service does

The steps of the travel service, each with the condition under which it succeeds, and the last one,
which publishes the frontier of all candidates with their travel.

## Main results

* `TravelService.calculateTravel_eq_ok_iff` — a calculation succeeds when all steps do.
* `TravelService.exists_publish` — travel for all candidates is attached, ranked and
  published, and the coordinator finds the result coherent.
-/

namespace Handleplan.TravelService

open JsString Sorting FrontierV2

/-! ### The steps, one by one -/

section Steps

variable {gateways : Gateways} {input : TravelServiceInput} {candidates : List PlanResultV2}

theorem parseCandidates_eq_some_iff {parsed : List PlanResultV2} :
    parseCandidates candidates = some parsed ↔
      (1 ≤ candidates.length ∧ candidates.length ≤ 7) ∧
      (∀ candidate ∈ candidates, PlanResultV2Schema candidate) ∧
      (candidates.map (·.id)).Nodup ∧ parsed = sortBy (on (·.id) compareText) candidates := by
  unfold parseCandidates
  rw [Option.ite_none_left_eq_some, Option.ite_none_left_eq_some, Option.ite_none_left_eq_some,
    not_not, not_not, Option.some.injEq]
  refine and_congr (by omega) (and_congr_right fun _ => and_congr_right fun _ => eq_comm)

/-- When a snapshot is loaded. -/
theorem loadSnapshot_eq_ok_iff {chains : List Chain} {snapshot : BranchDirectorySnapshot} :
    loadSnapshot gateways input chains = .ok snapshot ↔
      gateways.loadEligibleBranches chains input.capturedEvaluationTime input.marketContext =
        .ok (some snapshot) ∧
      BranchDirectorySnapshotSchema snapshot ∧ snapshot.complete = true ∧
      SameStringSet snapshot.eligibleChainIds chains ∧
      snapshot.marketContext = input.marketContext := by
  unfold loadSnapshot
  rcases gateways.loadEligibleBranches chains input.capturedEvaluationTime input.marketContext with
    e | _ | answer
  · simp
  · simp
  · dsimp only
    rw [ite_ok_eq_ok_iff, Except.ok.injEq, Option.some.injEq]
    constructor
    · rintro ⟨hvalid, rfl⟩
      exact ⟨rfl, hvalid⟩
    · rintro ⟨rfl, hvalid⟩
      exact ⟨hvalid, rfl⟩

/-- When branches are selected. -/
theorem selectBranches_eq_ok_iff {origin : TravelCoordinate} {snapshot : BranchDirectorySnapshot}
    {chains : List Chain} {selected : List InternalTravelBranch} :
    selectBranches gateways origin snapshot chains = .ok selected ↔
      (∀ chain ∈ chains, ∃ branch ∈ selected, branch.chainId = chain) ∧
        selected = selectedBranches gateways origin snapshot chains := by
  unfold selectBranches
  dsimp only
  rw [ite_error_eq_ok_iff, Except.ok.injEq]
  constructor
  · rintro ⟨hsome, rfl⟩
    refine ⟨fun chain hchain => ?_, rfl⟩
    by_contra hnone
    exact hsome ⟨chain, hchain, fun branch hbranch heq => hnone ⟨branch, hbranch, heq⟩⟩
  · rintro ⟨hsome, rfl⟩
    refine ⟨?_, rfl⟩
    rintro ⟨chain, hchain, hnone⟩
    obtain ⟨branch, hbranch, heq⟩ := hsome chain hchain
    exact hnone branch hbranch heq

/-- When a matrix is loaded. -/
theorem loadMatrix_eq_ok_iff {mode : TravelMode} {points : List TravelCoordinate}
    {matrix : RouteMatrix} :
    loadMatrix gateways mode points = .ok matrix ↔ MatrixPointsSchema points ∧
      gateways.calculateMatrix mode points = .ok (some matrix) ∧
      CompleteMatrix matrix points.length := by
  unfold loadMatrix
  rw [ite_error_eq_ok_iff, not_not]
  refine and_congr_right fun _ => ?_
  rcases gateways.calculateMatrix mode points with e | _ | answer
  · simp
  · simp
  · dsimp only
    rw [ite_ok_eq_ok_iff, Except.ok.injEq, Option.some.injEq]
    constructor
    · rintro ⟨hvalid, rfl⟩
      exact ⟨rfl, hvalid⟩
    · rintro ⟨rfl, hvalid⟩
      exact ⟨hvalid, rfl⟩

theorem selectTrips_eq_ok_iff {branches : List MatrixBranchCandidate} {matrix : RouteMatrix}
    {trips : List BestRoundTrip} :
    selectTrips branches matrix candidates = .ok trips ↔
      List.Forall₂ (fun candidate trip =>
        chooseBestRoundTrip (branchesOf branches candidate) matrix candidate.chains = some trip)
        candidates trips := by
  rw [← Choices.mapM_eq_some_iff, selectTrips]
  split
  · rename_i h
    simp [h]
  · rename_i found h
    rw [h, Except.ok.injEq, Option.some.injEq]

/-- When fingerprints are created. -/
theorem createFingerprints_eq_ok_iff {count : ℕ} {fingerprints : List JsString} :
    createFingerprints gateways count = .ok fingerprints ↔
      List.Forall₂ (fun call fingerprint =>
        gateways.createRouteFingerprint call = some fingerprint) (List.range count) fingerprints ∧
      (∀ fingerprint ∈ fingerprints, IdentifierSchema fingerprint) ∧ fingerprints.Nodup := by
  rw [← Choices.mapM_eq_some_iff, createFingerprints]
  split
  · rename_i h
    simp [h]
  · rename_i found h
    rw [h, ite_ok_eq_ok_iff, Option.some.injEq]
    constructor
    · rintro ⟨hvalid, rfl⟩
      exact ⟨rfl, hvalid⟩
    · rintro ⟨rfl, hvalid⟩
      exact ⟨hvalid, rfl⟩

/-- What each step of a calculation that succeeds has found. -/
theorem calculateTravel_eq_ok_iff {result : CalculatedResult} :
    calculateTravel gateways input candidates = .ok result ↔
      TravelCoordinateSchema input.origin ∧ IdentifierSchema gateways.providerSourceId ∧
      ∃ snapshot, loadSnapshot gateways input (requiredChains candidates) = .ok snapshot ∧
      ∃ selected, selectBranches gateways input.origin snapshot (requiredChains candidates) =
        .ok selected ∧
      ∃ matrix, loadMatrix gateways input.mode (input.origin :: selected.map (·.coordinate)) =
        .ok matrix ∧
      ∃ trips, selectTrips (matrixBranches selected) matrix candidates = .ok trips ∧
      ∃ fingerprints, createFingerprints gateways candidates.length = .ok fingerprints ∧
        publish candidates (publicRoutes gateways input candidates trips fingerprints) =
          .ok result := by
  unfold calculateTravel
  rw [ite_error_eq_ok_iff, ite_error_eq_ok_iff, not_not, not_not]
  simp only [bind_eq_ok_iff]

/-- The chains depend on the set of candidates only. -/
theorem requiredChains_eq_of_perm {candidates' : List PlanResultV2}
    (h : candidates.Perm candidates') : requiredChains candidates = requiredChains candidates' :=
  sortBy_eq_of_perm (h.flatMap_right _).dedup fun _ _ _ _ => compareChains_eq_iff.mp

theorem mem_requiredChains {chain : Chain} :
    chain ∈ requiredChains candidates ↔ ∃ candidate ∈ candidates, chain ∈ candidate.chains := by
  simp [requiredChains]

theorem nodup_requiredChains : (requiredChains candidates).Nodup :=
  nodup_sortBy.mpr (List.nodup_dedup _)

end Steps

/-! ### Publishing -/

theorem mem_ofEntries_routes {routes : List TravelRouteEvidence}
    (h : (routes.map (·.planId)).Nodup) {route : TravelRouteEvidence} (hroute : route ∈ routes) :
    (JsMap.ofEntries (routes.map fun route => (route.planId, route))).get? route.planId =
      some route := by
  have hkeys : ((routes.map fun route => (route.planId, route)).map Prod.fst).Nodup := by
    rw [List.map_map]
    exact h
  rw [← JsMap.mem_iff_get? (JsMap.nodup_keys_ofEntries _), JsMap.ofEntries_of_nodup hkeys]
  exact List.mem_map.mpr ⟨route, hroute, rfl⟩

theorem paretoFrontierV2_ne_nil {candidates : List CandidateInput}
    (h : canonicalCandidates candidates ≠ []) : paretoFrontierV2 candidates ≠ [] := by
  obtain ⟨c, hc⟩ := List.exists_mem_of_ne_nil _ h
  obtain ⟨p, hp, -⟩ := Pareto.exists_mem_frontier (strictOn_dominates _) hc
  exact List.ne_nil_of_mem (mem_paretoFrontierV2.mpr (Pareto.mem_frontier.mp hp))

/-- A valid plan is its own representative, in canonical form. -/
theorem canonicalRepresentative_eq {plan : PlanResultV2} (h : PlanResultV2Schema plan) :
    canonicalRepresentative plan = some ⟨canonicalPlan plan, none⟩ := by
  have hvalid : canonicalCandidates [planInput plan] = [⟨canonicalPlan plan, none⟩] :=
    canonicalCandidates_planInput (List.forall_mem_singleton.mpr h) (List.nodup_singleton _)
  have hfrontier : paretoFrontierV2 [planInput plan] = [⟨canonicalPlan plan, none⟩] := by
    rw [paretoFrontierV2_eq, undominated, hvalid, Pareto.frontier_eq_self]
    · rfl
    · intro c hc other hother
      rw [List.mem_singleton.mp hc, List.mem_singleton.mp hother]
      exact (strictOn_dominates [⟨canonicalPlan plan, none⟩]).irrefl _ (List.mem_singleton_self _)
  unfold canonicalRepresentative projectRepresentativesV2
  rw [hfrontier]
  rfl

section Publish

variable {candidates : List PlanResultV2} {routes : List TravelRouteEvidence}

/-- The routes are those of the candidates: valid, one for each, with fingerprints of their own. -/
structure RoutesFor (candidates : List PlanResultV2) (routes : List TravelRouteEvidence) :
    Prop where
  planIds : routes.map (·.planId) = candidates.map (·.id)
  valid : ∀ route ∈ routes, TravelRouteEvidenceSchema route
  fingerprints : (routes.map (·.aggregate.routeFingerprint)).Nodup

/-- Valid plans with distinct identifiers have a frontier. -/
theorem paretoFrontierV2_toInput_ne_nil {P : List FrontierPlanV2} (hne : P ≠ [])
    (hschema : ∀ c ∈ P, PlanResultV2Schema c.plan ∧ ∀ t ∈ c.travel, TravelCalculatedSchema t)
    (hnodup : (P.map (·.id)).Nodup) : paretoFrontierV2 (P.map (·.toInput)) ≠ [] := by
  refine paretoFrontierV2_ne_nil ?_
  rw [canonicalCandidates_map hschema hnodup]
  simpa using hne

/-- There are between one and seven plans. -/
theorem length_projectRepresentativesV2_toInput {P : List FrontierPlanV2} (hne : P ≠ [])
    (hschema : ∀ c ∈ P, PlanResultV2Schema c.plan ∧ ∀ t ∈ c.travel, TravelCalculatedSchema t)
    (hnodup : (P.map (·.id)).Nodup) :
    1 ≤ (projectRepresentativesV2
        ((paretoFrontierV2 (P.map (·.toInput))).map (·.toInput)) 7).length ∧
      (projectRepresentativesV2
        ((paretoFrontierV2 (P.map (·.toInput))).map (·.toInput)) 7).length ≤ 7 := by
  have hagain := paretoFrontierV2_toInput_ne_nil
    (paretoFrontierV2_toInput_ne_nil hne hschema hnodup)
    (fun c hc => (schema_of_mem_canonicalCandidates (mem_paretoFrontierV2.mp hc).1).1)
    (nodup_ids_paretoFrontierV2 _)
  have hpos := List.length_pos_iff.mpr hagain
  rw [length_projectRepresentativesV2 _ (by omega)]
  omega

section

variable (hschema : ∀ c ∈ candidates, PlanResultV2Schema c)
  (hnodup : (candidates.map (·.id)).Nodup) (h : RoutesFor candidates routes)

include h

/-- The routes of published plans are those of a calculated state. -/
theorem calculatedRoutesSchema_of_forall₂ {plans : List FrontierPlanV2}
    (hlength : 1 ≤ plans.length ∧ plans.length ≤ 7) (hplans : (plans.map (·.id)).Nodup)
    {published : List TravelRouteEvidence}
    (hpublished : List.Forall₂ (fun plan route => route ∈ routes ∧ route.planId = plan.id)
      plans published) : CalculatedRoutesSchema published := by
  have hmem : ∀ route ∈ published, route ∈ routes := fun route hroute => by
    obtain ⟨plan, -, hmem, -⟩ := Choices.exists_mem_of_forall₂ hpublished hroute
    exact hmem
  have hids : plans.map (·.id) = published.map (·.planId) :=
    Choices.map_eq_map_of_forall₂ hpublished fun _ _ hroute => hroute.2.symm
  refine
    { length_routes := hpublished.length_eq ▸ hlength
      valid := fun route hroute => h.valid route (hmem route hroute)
      uniquePlans := hids ▸ hplans
      uniqueFingerprints := ?_ }
  refine List.Nodup.map_on (fun a ha b hb hab => ?_) (List.Nodup.of_map (·.planId) (hids ▸ hplans))
  exact List.inj_on_of_nodup_map h.fingerprints (hmem a ha) (hmem b hb) hab

include hnodup

/-- The travel of a route is that of its plan. -/
theorem travelByPlanId_routeEvidence {route : TravelRouteEvidence} (hroute : route ∈ routes) :
    travelByPlanId (routeEvidence routes) route.planId = some route.aggregate.travel := by
  have hrouted : ((routeEvidence routes).map (·.planId)).Nodup := by
    rw [routeEvidence, List.map_map]
    exact h.planIds ▸ hnodup
  have hentry : (⟨route.planId, .calculated route.aggregate.travel⟩ : PlanTravelEvidence) ∈
      routeEvidence routes := List.mem_map_of_mem hroute
  rw [travelByPlanId_of_mem hrouted hentry,
    acceptedTravel_calculated (h.valid route hroute).aggregate.travel]

include hschema

/-- The routes of all candidates are accepted. -/
theorem acceptedTravelEvidence_routes :
    AcceptedTravelEvidence (candidates.map planInput) (some (routeEvidence routes)) := by
  rintro evidence ⟨⟩
  have hids : (canonicalCandidates (candidates.map planInput)).map (·.id) =
      candidates.map (·.id) := by
    rw [canonicalCandidates_planInput hschema hnodup, List.map_map]
    rfl
  have hrouted : (routeEvidence routes).map (·.planId) = candidates.map (·.id) := by
    rw [routeEvidence, List.map_map]
    exact h.planIds
  rw [hids]
  refine ⟨?_, fun entry hentry => ?_, by rwa [hrouted]⟩
  · simpa using congrArg List.length hrouted
  · obtain ⟨route, hroute, rfl⟩ := List.mem_map.mp hentry
    refine ⟨(h.valid route hroute).planId, ?_, ?_⟩
    · rw [← hrouted]
      exact List.mem_map_of_mem hentry
    · rw [acceptedTravel_calculated (h.valid route hroute).aggregate.travel]
      rfl

/-- Travel for the candidates is attached to each of them. -/
theorem attached_perm :
    (attachOptionalTravelEvidenceV2 (candidates.map planInput)
      (some (routeEvidence routes))).Perm
        (candidates.map fun c =>
          ⟨canonicalPlan c, travelByPlanId (routeEvidence routes) c.id⟩) := by
  have hperm :=
    attachOptionalTravelEvidenceV2_perm (acceptedTravelEvidence_routes hschema hnodup h)
  rw [canonicalCandidates_planInput hschema hnodup, List.map_map] at hperm
  exact hperm

/-- Each plan of the projected frontier has a route among those of the candidates. -/
theorem exists_route {maximum : ℕ} {plan : FrontierPlanV2}
    (hplan : plan ∈ projectedFrontier (candidates.map planInput) (some (routeEvidence routes))
      maximum) :
    ∃ route ∈ routes, route.planId = plan.id ∧ some route.aggregate.travel = plan.travel := by
  obtain ⟨hid, htravel⟩ :=
    of_mem_projectedFrontier (acceptedTravelEvidence_routes hschema hnodup h) hplan
  rw [canonicalCandidates_planInput hschema hnodup, List.map_map] at hid
  have hplanIds : plan.id ∈ routes.map (·.planId) := by
    rw [h.planIds]
    exact hid
  obtain ⟨route, hroute, heq⟩ := List.mem_map.mp hplanIds
  refine ⟨route, hroute, heq, ?_⟩
  rw [htravel, ← heq, Option.bind_some, travelByPlanId_routeEvidence hnodup h hroute]

/-- The candidates with travel are those that were given, each with the travel of its route. -/
theorem of_mem_attached {c : FrontierPlanV2}
    (hc : c ∈ attachOptionalTravelEvidenceV2 (candidates.map planInput)
      (some (routeEvidence routes))) :
    hasTravel c = true ∧ (PlanResultV2Schema c.plan ∧ ∀ t ∈ c.travel, TravelCalculatedSchema t) ∧
      ∃ original ∈ candidates, original.id = c.id ∧ c.plan = canonicalPlan original := by
  obtain ⟨original, horiginal, rfl⟩ :=
    List.mem_map.mp ((attached_perm hschema hnodup h).mem_iff.mp hc)
  have hid : original.id ∈ routes.map (·.planId) := by
    rw [h.planIds]
    exact List.mem_map_of_mem horiginal
  obtain ⟨route, hroute, heq⟩ := List.mem_map.mp hid
  have htravel := travelByPlanId_routeEvidence hnodup h hroute
  rw [heq] at htravel
  refine ⟨by rw [hasTravel, htravel]; rfl,
    ⟨planResultV2Schema_canonicalPlan (hschema original horiginal), fun t ht => ?_⟩,
    original, horiginal, rfl, rfl⟩
  obtain rfl := Option.mem_unique ht htravel
  exact (h.valid route hroute).aggregate.travel

end

/-- **Travel for all candidates is published**: it is attached to each of them, and the coordinator
finds the result coherent. -/
theorem exists_publish (hne : candidates ≠ []) (hschema : ∀ c ∈ candidates, PlanResultV2Schema c)
    (hnodup : (candidates.map (·.id)).Nodup) (h : RoutesFor candidates routes)
    {planningPlans : List PlanResultV2} (hplanning : planningPlans.Perm candidates) :
    ∃ result, publish candidates routes = .ok result ∧
      (result.evaluatedCandidates.map (·.plan)).Perm (planningPlans.map canonicalPlan) ∧
      (∀ c ∈ result.evaluatedCandidates, hasTravel c = true) ∧
      CalculatedTravelOutputIsCoherent result planningPlans := by
  have haccepted := acceptedTravelEvidence_routes hschema hnodup h
  have hperm := attached_perm hschema hnodup h
  have hmem := fun c => of_mem_attached (c := c) hschema hnodup h
  set attached := attachOptionalTravelEvidenceV2 (candidates.map planInput)
    (some (routeEvidence routes)) with hattached
  have hlength : attached.length = candidates.length := by
    rw [hperm.length_eq, List.length_map]
  have hids : (attached.map (·.id)).Nodup := by
    refine (hperm.map (·.id)).nodup_iff.mpr ?_
    rw [List.map_map]
    exact hnodup
  obtain ⟨plans, hplans⟩ : ∃ plans, projectedFrontier (candidates.map planInput)
      (some (routeEvidence routes)) 7 = plans := ⟨_, rfl⟩
  have hfrontier : projectRepresentativesV2
      ((paretoFrontierV2 (attached.map (·.toInput))).map (·.toInput)) 7 = plans := hplans
  have hpublished : Published plans := hplans ▸ published_projectedFrontier haccepted 7
  have htravel : ∀ plan ∈ plans, hasTravel plan = true := fun plan hplan =>
    hasTravel_of_mem_projectedFrontier haccepted (hplans.symm ▸ hplan)
  have hsome : attached ≠ [] := fun hnil => hne (by simpa [hnil] using hlength.symm)
  have hbounds : 1 ≤ plans.length ∧ plans.length ≤ 7 := hfrontier ▸
    length_projectRepresentativesV2_toInput hsome (fun c hc => (hmem c hc).2.1) hids
  obtain ⟨published, hroutes⟩ : ∃ published, List.Forall₂ (fun plan route =>
      route ∈ routes ∧ route.planId = plan.id ∧ some route.aggregate.travel = plan.travel)
      plans published :=
    Choices.exists_forall₂ fun plan hplan =>
      exists_route hschema hnodup h (hplans.symm ▸ hplan)
  have hget : plans.mapM (fun plan =>
      (JsMap.ofEntries (routes.map fun route => (route.planId, route))).get? plan.id) =
        some published := by
    refine Choices.mapM_eq_some_iff.mpr (hroutes.imp fun plan route hroute => ?_)
    rw [← hroute.2.1]
    exact mem_ofEntries_routes (h.planIds ▸ hnodup) hroute.1
  have hstate : CalculatedRoutesSchema published :=
    calculatedRoutesSchema_of_forall₂ h hbounds hpublished.nodup
      (hroutes.imp fun _ _ hroute => ⟨hroute.1, hroute.2.1⟩)
  have hmatch : List.Forall₂ (fun (plan : FrontierPlanV2) (route : TravelRouteEvidence) =>
      route.planId = plan.id ∧ some route.aggregate.travel = plan.travel) plans published :=
    hroutes.imp fun _ _ hroute => hroute.2
  refine ⟨⟨attached, plans, published⟩, ?_, ?_, fun c hc => (hmem c hc).1, ?_⟩
  · unfold publish
    dsimp only
    rw [← hattached, hfrontier, hget, if_neg, if_neg]
    · exact if_pos hstate
    · rintro (hempty | ⟨plan, hplan, hnot⟩)
      · omega
      · exact Bool.noConfusion ((htravel plan hplan).symm.trans hnot)
    · rintro (hne | ⟨c, hc, hnot⟩)
      · exact hne hlength
      · exact Bool.noConfusion ((hmem c hc).1.symm.trans hnot)
  · have hplan := hperm.map (·.plan)
    rw [List.map_map] at hplan
    exact hplan.trans (hplanning.map canonicalPlan).symm
  · refine
      { length_evaluated := hlength.trans hplanning.length_eq.symm
        length_routes := hroutes.length_eq
        uniquePlans := (hplanning.map (·.id)).nodup_iff.mpr hnodup
        evaluated := fun c hc => ?_
        frontier := hfrontier
        routes := hmatch }
    obtain ⟨htravel, ⟨hplan, -⟩, original, horiginal, hid, heq⟩ := hmem c hc
    have hexact := hschema original horiginal
    refine ⟨htravel, original, hplanning.mem_iff.mpr horiginal, hid, hplan, ?_, ?_⟩
    · rw [canonicalRepresentative_eq hexact]
      rfl
    · rw [canonicalRepresentative_eq hexact, canonicalRepresentative_eq hplan, heq,
        canonicalPlan_canonicalPlan hexact]

end Publish

end Handleplan.TravelService
