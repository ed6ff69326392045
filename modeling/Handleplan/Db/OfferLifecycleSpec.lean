import Handleplan.Db.OfferLifecycle

/-!
# The lifecycle retires no eligible offer

Whatever transactions interleave, the status of an offer moves forward. A lifecycle run evaluates
the projection as of a clock that it reads before it locks the products of its offers, so that an
update in between hides an offer that is public again when it is retired.

## Main definitions

* `OfferLifecycle.StatusesMoveForward` — the versions of an offer follow the lifecycle.
* `OfferLifecycle.RetiresOnlyIneligible` — a step retires no published offer that is
  eligible.
* `OfferLifecycle.EvaluatesSettled` — what the projection reads of an eligible offer has
  not changed since the clock of the evaluation.

## Main results

* `OfferLifecycle.statusesMoveForward_of_reachable` — statuses move forward in every run.
* `OfferLifecycle.evaluationStands_of_reachable` — what a run has evaluated stands until
  it retires.
* `OfferLifecycle.retiresOnlyIneligible_of_evaluatesSettled` — no eligible offer is
  retired in a run in which evaluations are settled.
* `OfferLifecycle.not_retiresOnlyIneligible_updatesMilk` — an offer that is eligible is
  retired.
-/

namespace Handleplan.OfferLifecycle

open JsString Interaction Sessions RowLocks Prog Access

/-! ### Statuses -/

/-- The versions of an offer, from its approval on, are those that the trigger admits. -/
def IsOrderly (id : ℕ) (rows : List Row) : Prop :=
  ∃ offers : List OfferRow, rows = offers.map Row.offer ∧ (∀ offer ∈ offers, offer.terms.id = id) ∧
    (∀ first ∈ offers.head?, first.status = .approved) ∧ offers.IsChain IsLifecycleTransition

/-- **Statuses move forward**: the committed versions of each offer follow the lifecycle. -/
def StatusesMoveForward (st : LifecycleState) : Prop :=
  ∀ id, IsOrderly id (versions (access.committedWrites st.committed) (.offer id))

variable {writes : Writes} {offer : OfferRow}

theorem currentOffer_eq_getLast? {id : ℕ} {offers : List OfferRow}
    (h : versions writes (.offer id) = offers.map Row.offer) :
    currentOffer writes id = offers.getLast? := by
  rw [currentOffer, current, h, List.getLast?_map, Option.bind_map]
  exact Option.bind_fun_some _

/-- The current version of an offer is one of its versions. -/
theorem IsOrderly.mem_versions {id : ℕ} (h : IsOrderly id (versions writes (.offer id)))
    (hoffer : currentOffer writes id = some offer) :
    Row.offer offer ∈ versions writes (.offer id) ∧ offer.terms.id = id := by
  obtain ⟨offers, heq, hid, -, -⟩ := h
  rw [currentOffer_eq_getLast? heq] at hoffer
  have hmem := List.mem_of_getLast? hoffer
  exact ⟨heq ▸ List.mem_map_of_mem hmem, hid offer hmem⟩

/-- All versions of an offer have the terms of its approval. -/
theorem IsOrderly.terms_eq {id : ℕ} {rows : List Row} (h : IsOrderly id rows) {offer' : OfferRow}
    (hoffer : Row.offer offer ∈ rows) (hoffer' : Row.offer offer' ∈ rows) :
    offer.terms = offer'.terms := by
  obtain ⟨offers, rfl, -, -, hchain⟩ := h
  have hpairwise : offers.Pairwise fun a b => a.terms = b.terms := by
    have : IsTrans OfferRow fun a b => a.terms = b.terms := ⟨fun _ _ _ => Eq.trans⟩
    exact List.isChain_iff_pairwise.mp (hchain.imp fun _ _ htransition => htransition.1.symm)
  have hmem : ∀ {o}, Row.offer o ∈ offers.map Row.offer → o ∈ offers := by
    intro o ho
    obtain ⟨o', ho', heq⟩ := List.mem_map.mp ho
    exact Row.offer.inj heq ▸ ho'
  have : Std.Symm fun a b : OfferRow => a.terms = b.terms := ⟨fun _ _ => Eq.symm⟩
  have hrefl : ∀ o ∈ offers, (fun a b : OfferRow => a.terms = b.terms) o o := fun _ _ => rfl
  exact List.Pairwise.forall_of_forall hrefl hpairwise (hmem hoffer) (hmem hoffer')

/-- A new offer is approved. -/
theorem isOrderly_insert {terms : OfferTerms} {now : ℤ}
    (hnil : versions writes (.offer terms.id) = []) :
    IsOrderly terms.id (versions (writes ++ [(.offer terms.id, .offer ⟨terms, .approved, now⟩)])
      (.offer terms.id)) := by
  rw [versions_concat_self, hnil]
  refine ⟨[⟨terms, .approved, now⟩], rfl, ?_, ?_, List.isChain_singleton _⟩
  · intro offer hoffer
    rw [List.mem_singleton.mp hoffer]
  · intro first hfirst
    rw [← Option.some.inj hfirst]

/-- An offer whose update the trigger admits stays orderly. -/
theorem IsOrderly.update {old new : OfferRow}
    (h : IsOrderly new.terms.id (versions writes (.offer new.terms.id)))
    (hold : currentOffer writes new.terms.id = some old) (hnew : IsLifecycleTransition old new) :
    IsOrderly new.terms.id
      (versions (writes ++ [(.offer new.terms.id, .offer new)]) (.offer new.terms.id)) := by
  obtain ⟨offers, heq, hid, hfirst, hchain⟩ := h
  rw [currentOffer_eq_getLast? heq] at hold
  refine ⟨offers ++ [new], ?_, ?_, ?_, ?_⟩
  · rw [versions_concat_self, heq, List.map_append, List.map_singleton]
  · exact List.forall_mem_append.mpr ⟨hid, fun offer hoffer => by rw [List.mem_singleton.mp hoffer]⟩
  · cases offers with
    | nil => cases hold
    | cons first rest => exact hfirst
  · refine List.isChain_append.mpr ⟨hchain, List.isChain_singleton _, ?_⟩
    intro last hlast first hnext
    obtain rfl := Option.some.inj (hold.symm.trans hlast)
    cases hnext
    exact hnew

theorem currentOffer_concat_of_ne {id : ℕ} (hne : offer.terms.id ≠ id) :
    currentOffer (writes ++ [(.offer offer.terms.id, .offer offer)]) id = currentOffer writes id := by
  rw [currentOffer, currentOffer, current, current, versions_concat_of_ne]
  simpa using hne

/-- **Updates that the trigger admits** keep all offers orderly.

**Proof sketch.** Induction on the updates: an update of one offer leaves the others as they are. -/
theorem isOrderly_updates {offers : List OfferRow}
    (h : ∀ id, IsOrderly id (versions writes (.offer id)))
    (hnodup : (offers.map fun offer => offer.terms.id).Nodup)
    (hupdates : ∀ new ∈ offers, ∃ old, currentOffer writes new.terms.id = some old ∧
      IsLifecycleTransition old new)
    (id : ℕ) :
    IsOrderly id (versions (writes ++ writesOfOffers offers) (.offer id)) := by
  induction offers generalizing writes with
  | nil => simpa [writesOfOffers] using h id
  | cons new rest ih =>
    obtain ⟨hfirst, hnodup⟩ := List.nodup_cons.mp hnodup
    have hsplit : writes ++ writesOfOffers (new :: rest) =
        writes ++ [(.offer new.terms.id, .offer new)] ++ writesOfOffers rest := by
      simp [writesOfOffers]
    rw [hsplit]
    refine ih (fun other => ?_) hnodup fun offer hoffer => ?_
    · by_cases heq : new.terms.id = other
      · obtain ⟨old, hold, hnew⟩ := hupdates new List.mem_cons_self
        exact heq ▸ (h _).update hold hnew
      · rw [versions_concat_of_ne _ _ (by simpa using heq)]
        exact h other
    · have hne : new.terms.id ≠ offer.terms.id :=
        fun heq => hfirst (List.mem_map.mpr ⟨offer, hoffer, heq.symm⟩)
      rw [currentOffer_concat_of_ne hne]
      exact hupdates offer (List.mem_cons_of_mem _ hoffer)

/-! ### Updates of offers -/

section Updates

variable {writes : Writes} {new : OfferRow}

/-- A retired version is one of an offer that may be retired. -/
theorem mem_retirable {now : ℤ} {offers retired : List OfferRow}
    (hretired : AreRetired now offers retired) (hnew : new ∈ retired) :
    ∃ old ∈ offers, old.terms = new.terms := by
  have hmem : new.terms ∈ offers.map fun offer => offer.terms :=
    hretired.1 ▸ List.mem_map_of_mem (f := fun offer : OfferRow => offer.terms) hnew
  exact List.mem_map.mp hmem

section

variable (h : ∀ id, IsOrderly id (versions writes (.offer id)))

include h

/-- Different ids have different offers. -/
theorem nodup_currentOffers {offerIds : List ℕ} (hnodup : offerIds.Nodup) :
    ((offerIds.filterMap (currentOffer writes)).map fun offer => offer.terms.id).Nodup := by
  have hid : ∀ {id n}, n ∈ (currentOffer writes id).map (fun offer => offer.terms.id) → n = id := by
    intro id n hn
    obtain ⟨offer, hoffer, rfl⟩ := Option.map_eq_some_iff.mp hn
    exact ((h id).mem_versions hoffer).2
  rw [List.map_filterMap]
  exact hnodup.filterMap fun a a' n hn hn' => (hid hn).symm.trans (hid hn')

/-- An offer of a list of ids, as it is now. -/
theorem mem_currentOffers {offerIds : List ℕ} {offer : OfferRow}
    (hoffer : offer ∈ offerIds.dedup.filterMap (currentOffer writes)) :
    offer.terms.id ∈ offerIds ∧ currentOffer writes offer.terms.id = some offer := by
  obtain ⟨id, hid, hoffer⟩ := List.mem_filterMap.mp hoffer
  rw [((h id).mem_versions hoffer).2]
  exact ⟨List.mem_dedup.mp hid, hoffer⟩

/-- The trigger admits what is published. -/
theorem transition_of_published {offerIds : List ℕ} {now : ℤ}
    (hnew : new ∈ published writes now offerIds) :
    ∃ old, currentOffer writes new.terms.id = some old ∧ IsLifecycleTransition old new := by
  obtain ⟨old, hold, rfl⟩ := List.mem_map.mp hnew
  obtain ⟨hold, hstatus⟩ := List.mem_filter.mp hold
  exact ⟨old, (mem_currentOffers h hold).2, rfl, .inl ⟨of_decide_eq_true hstatus, .inl rfl⟩⟩

/-- Each offer is published once. -/
theorem nodup_published (offerIds : List ℕ) (now : ℤ) :
    ((published writes now offerIds).map fun offer => offer.terms.id).Nodup := by
  rw [published, List.map_map]
  exact (nodup_currentOffers h offerIds.nodup_dedup).sublist
    (List.filter_sublist.map fun offer : OfferRow => offer.terms.id)

variable {offerIds visibleIds : List ℕ} {approvedToo : Bool} {now : ℤ} {retired : List OfferRow}

/-- The trigger admits what is retired. -/
theorem transition_of_retired (hretired : AreRetired now (retirable writes offerIds visibleIds approvedToo) retired)
    (hnew : new ∈ retired) :
    ∃ old, currentOffer writes new.terms.id = some old ∧ IsLifecycleTransition old new := by
  obtain ⟨old, hold, hterms⟩ := mem_retirable hretired hnew
  obtain ⟨hold, hstatus⟩ := List.mem_filter.mp hold
  have hnext := (hretired.2 new hnew).1
  refine ⟨old, hterms ▸ (mem_currentOffers h hold).2, hterms.symm, ?_⟩
  obtain ⟨happroved, -⟩ | ⟨hpublished, -⟩ := of_decide_eq_true hstatus
  · exact .inl ⟨happroved, .inr hnext⟩
  · exact .inr ⟨hpublished, hnext⟩

theorem nodup_retired (hretired : AreRetired now (retirable writes offerIds visibleIds approvedToo) retired) :
    (retired.map fun offer => offer.terms.id).Nodup := by
  have hids : retired.map (fun offer => offer.terms.id) =
      (retirable writes offerIds visibleIds approvedToo).map fun offer => offer.terms.id := by
    have hterms := congrArg (List.map fun terms : OfferTerms => terms.id) hretired.1
    simpa only [List.map_map, Function.comp_def] using hterms
  rw [hids]
  exact (nodup_currentOffers h offerIds.nodup_dedup).sublist
    (List.filter_sublist.map fun offer : OfferRow => offer.terms.id)

/-- **Every statement keeps all offers orderly.** -/
theorem isOrderly_of_isAnswer {query : Query}
    {answer : Answer query} (hanswer : IsAnswer writes now query answer) (id : ℕ) :
    IsOrderly id (versions (writes ++ writesOf query answer) (.offer id)) := by
  cases query with
  | publish ids =>
    obtain rfl : answer = published writes now ids := hanswer
    exact isOrderly_updates h (nodup_published h ids now)
      (fun _ hnew => transition_of_published h hnew) id
  | retire ids visible approvedToo =>
    exact isOrderly_updates h (nodup_retired h hanswer)
      (fun _ hnew => transition_of_retired h hanswer hnew) id
  | write row =>
    have hne : row.key ≠ .offer id := by cases row <;> simp [CatalogRow.key]
    have heq : versions (writes ++ writesOf (.write row) answer) (.offer id) =
        versions writes (.offer id) := versions_concat_of_ne _ _ hne
    exact heq ▸ h id
  | insertOffer terms =>
    obtain ⟨hnil, -⟩ := hanswer
    by_cases heq : terms.id = id
    · exact heq ▸ isOrderly_insert hnil
    · have hsame : versions (writes ++ writesOf (.insertOffer terms) answer) (.offer id) =
          versions writes (.offer id) := versions_concat_of_ne _ _ (by simpa using heq)
      exact hsame ▸ h id
  | _ => simpa only [writesOf, List.append_nil] using h id

end

end Updates

/-! ### Statuses move forward -/

/-- What a transaction sees when it has asked one more statement. -/
theorem view_concat (committed : List (Committed Call Query Answer Unit)) (h : LifecycleHistory)
    (event : LifecycleEvent) : access.view committed (h ++ [event]) =
      access.view committed h ++ writesOf event.query event.answer := by
  rw [view, view, writesOf_append, writesOf_singleton, List.append_assoc]
  rfl

theorem viewOf_of_transaction {st : LifecycleState} {session : ℕ}
    {t : Transaction Call Query Answer LifecycleError Unit} (ht : st.transaction session = some t) :
    viewOf st session = access.view st.committed t.history := by
  rw [viewOf, historyOf, ht]
  rfl

variable {allowed : LifecycleState → Step ℕ Call Query Answer → Prop} {st : LifecycleState}

section

variable (h : database.system.Reachable allowed st)

include h

theorem exclusive : access.Exclusive st := by
  refine exclusive_of_reachable ?_ h
  intro st session query answer hadmits
  exact hadmits.1

/-- **The versions that a transaction sees are orderly**, and so are the committed ones.

**Proof sketch.** A transaction that commits has locked the offers that it has written, so that no
other one has written them: for each offer, what a transaction sees after the commit is what it has
seen before, or what the committed transaction has seen. -/
theorem isOrderly_of_reachable :
    StatusesMoveForward st ∧ ∀ p ∈ st.running, ∀ id,
      IsOrderly id (versions (access.view st.committed p.2.history) (.offer id)) := by
  refine Database.each_of_reachable
    (J := fun _ committed t => ∀ id,
      IsOrderly id (versions (access.view committed t.history) (.offer id)))
    (G := fun _ committed => ∀ id,
      IsOrderly id (versions (access.committedWrites committed) (.offer id)))
    (fun _ id => ⟨[], rfl, by simp, by simp, .nil⟩) (fun _ _ _ _ hG => hG)
    (fun _ committed _ hG id => ?_)
    (fun _ _ _ _ _ hJ => hJ) ?_ ?_ ?_ h
  · simpa [view, Access.writesOf] using hG id
  · intro st s t query next answers _ ht _ hadmits _ hJ id
    have hanswer := hadmits.2
    rw [viewOf_of_transaction ht] at hanswer
    rw [view_concat]
    exact isOrderly_of_isAnswer hJ hanswer id
  · intro st p t r hreach ht hp hne hJp hJt id
    obtain hnil | hnil := (exclusive hreach).versions_eq_nil_or hp ht hne (.offer id)
    · rw [versions_view, hnil, List.append_nil, committedWrites_append]
      exact hJt id
    · rw [versions_view, committedWrites_append, versions_append, hnil, List.append_nil,
        ← versions_view]
      exact hJp id
  · intro clock committed t r _ hJ id
    rw [committedWrites_append]
    exact hJ id

/-- **Statuses move forward in every run.** -/
theorem statusesMoveForward_of_reachable :
    StatusesMoveForward st := (isOrderly_of_reachable h).1

end

/-! ### What the functions ask -/

/-- The page that a statement answers. -/
def pageOf : (query : Query) → Answer query → List OfferRow
  | .selectExpiryPage _ _ _, page => page
  | .selectPublicationPage _ _ _, page => page
  | _, _ => []

/-- The offers of a page are locked, and what the projection reads of them. -/
structure IsLockedPage (h : LifecycleHistory) (page : List OfferRow) : Prop where
  selected : ∃ event ∈ h, pageOf event.query event.answer = page
  scopes : ⟨.shareScopes (page.map fun offer => offer.terms.geographicScopeId), ()⟩ ∈ h
  products : ⟨.lockProducts (page.map fun offer => offer.terms.productId), ()⟩ ∈ h
  identifiers : ∃ keys : List (ℕ × ℕ),
    ⟨.shareIdentifiers (page.map fun offer => offer.terms.productId), keys⟩ ∈ h

theorem IsLockedPage.append {h : LifecycleHistory} {page : List OfferRow}
    (hlocked : IsLockedPage h page)
    (events : LifecycleHistory) : IsLockedPage (h ++ events) page where
  selected := by
    obtain ⟨event, hevent, hpage⟩ := hlocked.selected
    exact ⟨event, List.mem_append_left _ hevent, hpage⟩
  scopes := List.mem_append_left _ hlocked.scopes
  products := List.mem_append_left _ hlocked.products
  identifiers := by
    obtain ⟨keys, hkeys⟩ := hlocked.identifiers
    exact ⟨keys, List.mem_append_left _ hkeys⟩

/-- What a lifecycle run may ask: it locks products before their identifiers, evaluates a page that
is locked as of a clock that it has read, and retires by the evaluation that it has just made. -/
def MayReconcile (h : LifecycleHistory) : Query → Prop
  | .shareIdentifiers productIds => ⟨.lockProducts productIds, ()⟩ ∈ h
  | .visibleOffers offerIds asOf =>
    (∃ page, IsLockedPage h page ∧ offerIds = page.map fun offer => offer.terms.id) ∧
      ∃ reading, ⟨.clockTimestamp reading, asOf⟩ ∈ h
  | .retire offerIds visibleIds _ =>
    ∃ before, ∃ asOf : ℤ, h = before ++ [⟨.visibleOffers offerIds asOf, visibleIds⟩]
  | .write _ => False
  | _ => True

/-- What the other transactions may ask. -/
def MayUpdate (_ : LifecycleHistory) : Query → Prop
  | .clockTimestamp _ => True
  | .write _ => True
  | .insertOffer _ => True
  | _ => False

/-- What a call may ask. -/
def May : Call → LifecycleHistory → Query → Prop
  | .reconcile _, h, query => MayReconcile h query
  | .update _, h, query => MayUpdate h query
  | .approve _, h, query => MayUpdate h query

/-- Only a lifecycle run asks what the other transactions may not. -/
theorem May.reconcile {call : Call} {h : LifecycleHistory} {query : Query} (hmay : May call h query)
    (hnot : ¬ MayUpdate h query) : MayReconcile h query := by
  cases call with
  | reconcile request => exact hmay
  | update rows => exact absurd hmay hnot
  | approve terms => exact absurd hmay hnot

section Programs

variable {h : LifecycleHistory} {post : LifecycleHistory → Unit → Prop}

theorem safe_lockPage {page : List OfferRow}
    (hpage : ∃ event ∈ h, pageOf event.query event.answer = page)
    (hpost : ∀ events, IsLockedPage (h ++ events) page → post (h ++ events) ()) :
    Safe MayReconcile post h (lockPage page) := by
  refine Safe.bind (Safe.query trivial fun (_ : Unit) => ?_)
  refine Safe.bind (Safe.query trivial fun (_ : Unit) => ?_)
  refine Safe.bind (Safe.query (List.mem_append_right _ (List.mem_singleton.mpr rfl))
    fun (keys : List (ℕ × ℕ)) => ?_)
  simp only [List.append_assoc, List.cons_append, List.nil_append]
  refine hpost _ ⟨?_, by simp, by simp, keys, by simp⟩
  obtain ⟨event, hevent, hpage⟩ := hpage
  exact ⟨event, List.mem_append_left _ hevent, hpage⟩

/-- A page that is locked is evaluated as of a clock that was read, and retired by what is visible
then. -/
theorem safe_retire {page : List OfferRow} {asOf : ℤ} {approvedToo : Bool}
    (hlocked : IsLockedPage h page) (hclock : ∃ reading, ⟨.clockTimestamp reading, asOf⟩ ∈ h)
    (hpost : ∀ h, post h ()) :
    Safe MayReconcile post h (do
      let visible : List ℕ ← ask (.visibleOffers (page.map fun offer => offer.terms.id) asOf)
      let _ : List OfferRow ←
        ask (.retire (page.map fun offer => offer.terms.id) visible approvedToo)
      pure () : Program Unit) := by
  refine Safe.bind (Safe.query ⟨⟨page, hlocked, rfl⟩, hclock⟩ fun (visible : List ℕ) => ?_)
  exact Safe.bind (Safe.query ⟨h, asOf, rfl⟩ fun (_ : List OfferRow) => hpost _)

variable {request : LifecycleRequest}

theorem safe_expirePage {startedAt : ℤ}
    (hclock : ∃ reading, ⟨.clockTimestamp reading, startedAt⟩ ∈ h) (hpost : ∀ h, post h ()) :
    Safe MayReconcile post h (expirePage request startedAt) := by
  refine Safe.bind (Safe.query trivial fun (page : List OfferRow) => ?_)
  show Safe _ _ _ (if _ then _ else _)
  split_ifs
  · exact hpost _
  · refine Safe.bind (safe_lockPage ⟨_, List.mem_append_right _ (List.mem_singleton.mpr rfl), rfl⟩
      fun events hlocked => ?_)
    obtain ⟨reading, hclock⟩ := hclock
    exact safe_retire hlocked ⟨reading, by simp [hclock]⟩ hpost

theorem safe_publishPage {startedAt : ℤ} (hpost : ∀ h, post h ()) :
    Safe MayReconcile post h (publishPage request startedAt) := by
  refine Safe.bind (Safe.query trivial fun (page : List OfferRow) => ?_)
  show Safe _ _ _ (if _ then _ else _)
  split_ifs
  · exact hpost _
  · refine Safe.bind (safe_lockPage ⟨_, List.mem_append_right _ (List.mem_singleton.mpr rfl), rfl⟩
      fun events hlocked => ?_)
    refine Safe.bind (Safe.query trivial fun (_ : List OfferRow) => ?_)
    refine Safe.bind (Safe.query trivial fun (asOf : ℤ) => ?_)
    exact safe_retire ((hlocked.append _).append _) ⟨.projectionAsOf, by simp⟩ hpost

/-- A reconciliation only asks what it may. -/
theorem safe_reconcile :
    Safe MayReconcile (fun _ _ => True) h (reconcile request) := by
  refine Safe.bind (Safe.query trivial fun (found : Bool) => ?_)
  refine Safe.bind (Safe.require fun _ => ?_)
  refine Safe.bind (Safe.query trivial fun (startedAt : ℤ) => ?_)
  refine Safe.bind (Safe.query trivial fun (enabled : Bool) => ?_)
  refine Safe.bind (Safe.query trivial fun (current : Bool) => ?_)
  refine Safe.bind (safe_expirePage ⟨.startedAt, by simp⟩ fun h => ?_)
  have hend : ∀ h, Safe MayReconcile (fun _ _ => True) h (do
      let inTime : Bool ← ask .completesInLease
      Prog.require (inTime = true) .leaseExpired : Program Unit) :=
    fun h => Safe.bind (Safe.query trivial fun (inTime : Bool) => Safe.require fun _ => trivial)
  show Safe _ _ _ (if _ then _ else _)
  split_ifs
  · exact Safe.bind (safe_publishPage hend)
  · exact hend h

theorem safe_updateCatalog (rows : List CatalogRow) :
    Safe MayUpdate (fun _ _ => True) h (updateCatalog rows) := by
  induction rows generalizing h with
  | nil => trivial
  | cons row rows ih =>
    refine Safe.bind (Safe.query trivial fun (now : ℤ) => ?_)
    refine Safe.bind (Safe.require fun _ => ?_)
    exact Safe.bind (Safe.query trivial fun (_ : Bool) => ih)

end Programs

/-- **What every call may ask**, it only asks. -/
theorem safe_program (call : Call) :
    Safe (May call) (fun _ _ => True) [] (database.program call) := by
  cases call with
  | reconcile request =>
    refine Safe.bind (Safe.require fun _ => ?_)
    refine Safe.bind (Safe.query trivial fun (lease : JobLease) => ?_)
    show Safe _ _ _ (if _ then _ else _)
    split_ifs
    · exact safe_reconcile
    · trivial
  | update rows => exact safe_updateCatalog rows
  | approve terms => exact Safe.bind (Safe.query trivial fun (_ : ℤ) => trivial)

variable {query : Query} {productId : ℕ} {page : List OfferRow} {row offer : OfferRow} {asOf : ℤ}

/-- The statement that a transaction asks next is one that its call may ask. -/
theorem may_of_reachable (h : database.system.Reachable allowed st) {session : ℕ}
    {t : Transaction Call Query Answer LifecycleError Unit} (ht : st.transaction session = some t)
    {next : Answer query → Program Unit} (hrest : t.rest = .ask query next) :
    May t.call t.history query := by
  obtain ⟨hsafe, -⟩ := Database.safe_of_reachable (fun c => safe_program c) h
  have hown : Safe (May t.call) (fun _ _ => True) t.history t.rest :=
    hsafe _ (State.mem_of_transaction ht)
  rw [hrest] at hown
  exact hown.1

/-! ### What the database answers -/

/-- The identifiers of a product are those that have a version. -/
theorem mem_identifierKeys_iff {writes : Writes} {id : ℕ} :
    id ∈ identifierKeys writes productId ↔
      ∃ row, (RowKey.identifier productId id, row) ∈ writes := by
  unfold identifierKeys
  rw [List.mem_filterMap]
  constructor
  · rintro ⟨⟨key, row⟩, hw, hid⟩
    cases key with
    | identifier p id' =>
      have hid : (if p = productId then some id' else none) = some id := hid
      obtain ⟨rfl, heq⟩ := Option.ite_none_right_eq_some.mp hid
      exact Option.some.inj heq ▸ ⟨row, hw⟩
    | _ => cases hid
  · rintro ⟨row, hw⟩
    exact ⟨_, hw, if_pos rfl⟩

/-- Only a catalog update writes an identifier. -/
theorem write_of_mem_writesOf {answer : Answer query} {id : ℕ} {row : Row}
    (hw : (RowKey.identifier productId id, row) ∈ writesOf query answer) :
    ∃ r, query = .write (.identifier r) ∧ r.productId = productId ∧ r.id = id := by
  cases query with
  | write r =>
    obtain ⟨hkey, -⟩ := Prod.mk.inj (List.mem_singleton.mp hw)
    cases r with
    | identifier r =>
      obtain ⟨hproduct, hid⟩ := RowKey.identifier.inj hkey
      exact ⟨r, rfl, hproduct.symm, hid.symm⟩
    | _ => cases hkey
  | publish ids =>
    obtain ⟨_, _, heq⟩ := List.mem_map.mp hw
    cases heq
  | retire ids visible approvedToo =>
    obtain ⟨_, _, heq⟩ := List.mem_map.mp hw
    cases heq
  | insertOffer terms =>
    obtain ⟨hkey, -⟩ := Prod.mk.inj (List.mem_singleton.mp hw)
    cases hkey
  | _ => cases hw

/-- What is so when a statement is answered: a clock is not in the future, the offers of a page are
there, and an identifier that is written was there or its product is locked. -/
structure IsTrue (st : LifecycleState) (before : LifecycleHistory) (event : LifecycleEvent) :
    Prop where
  clock : ∀ reading, ∀ now : ℤ, event = ⟨.clockTimestamp reading, now⟩ → now ≤ st.clock
  page : ∀ row ∈ pageOf event.query event.answer,
    (RowKey.offer row.terms.id, Row.offer row) ∈ access.view st.committed before
  identifier : ∀ row, event.query = .write (.identifier row) →
    row.id ∈ identifierKeys (access.committedWrites st.committed) row.productId ∨
      access.Holds (before ++ [event]) (.product row.productId) .keyShare

/-- An identifier that is committed stays. -/
theorem mem_identifierKeys_of_later {committed committed' : List (Committed Call Query Answer Unit)}
    (h : committed <+: committed') {id : ℕ}
    (hid : id ∈ identifierKeys (access.committedWrites committed) productId) :
    id ∈ identifierKeys (access.committedWrites committed') productId := by
  obtain ⟨row, hrow⟩ := mem_identifierKeys_iff.mp hid
  exact mem_identifierKeys_iff.mpr ⟨row, mem_committedWrites_of_later h hrow⟩

theorem IsTrue.extends {st st' : LifecycleState} {before : LifecycleHistory} {event : LifecycleEvent}
    (h : st.Extends st') (htrue : IsTrue st before event) : IsTrue st' before event where
  clock reading now heq := (htrue.clock reading now heq).trans h.clock
  page row hrow := List.mem_append.mpr ((List.mem_append.mp (htrue.page row hrow)).imp_left
    (mem_committedWrites_of_later h.committed))
  identifier row heq := (htrue.identifier row heq).imp_left (mem_identifierKeys_of_later h.committed)

/-- An offer that is as it is now is there. -/
theorem mem_view_of_isPage {writes : Writes} {sourceId : JsString} {batchLimit : ℕ}
    (hpage : IsPage writes sourceId batchLimit page) (hrow : row ∈ page) :
    (RowKey.offer row.terms.id, Row.offer row) ∈ writes := by
  obtain ⟨version, hversion, hoffer⟩ := Option.bind_eq_some_iff.mp (hpage.2.2 row hrow).1
  cases version with
  | offer offer =>
    cases hoffer
    exact mem_versions_iff.mp (mem_versions_of_current hversion)
  | catalog _ => cases hoffer

/-- **A statement is answered with what was there.** -/
theorem isTrue_of_admits {session : ℕ} {t : Transaction Call Query Answer LifecycleError Unit}
    (ht : st.transaction session = some t) {answer : Answer query}
    (hadmits : Admits st session query answer) (hall : Along (IsTrue st) t.history) :
    IsTrue st t.history ⟨query, answer⟩ := by
  have hanswer := hadmits.2
  rw [viewOf_of_transaction ht] at hanswer
  refine ⟨fun reading now heq => ?_, fun row hrow => ?_, fun row heq => ?_⟩
  · cases heq
    exact le_of_eq hanswer
  · cases query with
    | selectExpiryPage sourceId asOf batchLimit => exact mem_view_of_isPage hanswer.1 hrow
    | selectPublicationPage sourceId asOf batchLimit => exact mem_view_of_isPage hanswer.1 hrow
    | _ => cases hrow
  · obtain rfl : query = .write (.identifier row) := heq
    have hnew : answer = (current (access.view st.committed t.history)
      (.identifier row.productId row.id)).isNone := hanswer
    cases hcurrent : current (access.view st.committed t.history)
        (.identifier row.productId row.id) with
    | none =>
      -- a new identifier refers to its product
      obtain rfl : answer = true := by rw [hnew, hcurrent]; rfl
      exact .inr ⟨_, List.mem_append_right _ (List.mem_singleton.mpr rfl),
        List.mem_cons_of_mem _ List.mem_cons_self⟩
    | some version =>
      obtain hcommitted | hown :=
        List.mem_append.mp (mem_versions_iff.mp (mem_versions_of_current hcurrent))
      · exact .inl (mem_identifierKeys_iff.mpr ⟨version, hcommitted⟩)
      · obtain ⟨event, hevent, hw⟩ := List.mem_flatMap.mp hown
        obtain ⟨earlier, hquery, hproduct, hid⟩ := write_of_mem_writesOf hw
        obtain ⟨first, second, hsplit⟩ := List.append_of_mem hevent
        have hearlier := (hall first event second hsplit).identifier earlier hquery
        rw [hproduct, hid] at hearlier
        refine hearlier.imp_right fun hholds => ?_
        have heq : t.history ++ [⟨.write (.identifier row), answer⟩] =
            first ++ [event] ++ (second ++ [⟨.write (.identifier row), answer⟩]) := by
          rw [hsplit]
          simp
        exact heq ▸ hholds.append _

theorem isTrue_of_reachable (h : database.system.Reachable allowed st) {p}
    (hp : p ∈ st.running) : Along (IsTrue st) p.2.history :=
  (Database.along_of_reachable (F := IsTrue) (fun _ _ _ _ hextends htrue => htrue.extends hextends)
    (fun _ _ _ _ _ _ ht _ hadmits _ hall => isTrue_of_admits ht hadmits hall) h).1 p hp

/-- An offer of a page that a run has locked has the terms that it had then. -/
theorem terms_of_page (h : database.system.Reachable allowed st) {p} (hp : p ∈ st.running)
    {event : LifecycleEvent} (hevent : event ∈ p.2.history)
    (hrow : row ∈ pageOf event.query event.answer)
    (hoffer : currentOffer (access.view st.committed p.2.history) row.terms.id = some offer) :
    offer.terms = row.terms := by
  have horderly := (isOrderly_of_reachable h).2 p hp row.terms.id
  obtain ⟨before, after, hsplit⟩ := List.append_of_mem hevent
  have hmem := (isTrue_of_reachable h hp before event after hsplit).page row hrow
  have hlater : (RowKey.offer row.terms.id, Row.offer row) ∈
      access.view st.committed p.2.history := by
    rw [hsplit, view, writesOf_append, ← List.append_assoc]
    exact List.mem_append_left _ hmem
  exact horderly.terms_eq (horderly.mem_versions hoffer).1 (mem_versions_iff.mpr hlater)

/-! ### What a run has locked does not change -/

variable {h : LifecycleHistory}

theorem holds_of_lockProducts {productIds : List ℕ} (hlock : ⟨.lockProducts productIds, ()⟩ ∈ h)
    (hproduct : productId ∈ productIds) :
    access.Holds h (.product productId) .update :=
  ⟨_, hlock, List.mem_map.mpr ⟨productId, hproduct, rfl⟩⟩

theorem IsLockedPage.holds_offer (hlocked : IsLockedPage h page) (hrow : row ∈ page) :
    access.Holds h (.offer row.terms.id) .update := by
  obtain ⟨event, hevent, rfl⟩ := hlocked.selected
  obtain ⟨query, answer⟩ := event
  refine ⟨_, hevent, ?_⟩
  cases query with
  | selectExpiryPage sourceId asOf batchLimit => exact List.mem_map.mpr ⟨row, hrow, rfl⟩
  | selectPublicationPage sourceId asOf batchLimit => exact List.mem_map.mpr ⟨row, hrow, rfl⟩
  | _ => cases hrow

theorem IsLockedPage.holds_product (hlocked : IsLockedPage h page) (hrow : row ∈ page) :
    access.Holds h (.product row.terms.productId) .update :=
  holds_of_lockProducts hlocked.products (List.mem_map.mpr ⟨row, hrow, rfl⟩)

theorem IsLockedPage.holds_scope (hlocked : IsLockedPage h page) (hrow : row ∈ page) :
    access.Holds h (.scope row.terms.geographicScopeId) .share :=
  ⟨_, hlocked.scopes, List.mem_map.mpr ⟨_, List.mem_map.mpr ⟨row, hrow, rfl⟩, rfl⟩⟩

/-- The committed identifiers of the products that a run has locked are among those that it has
locked. -/
def IdentifiersAreLocked (committed : List (Committed Call Query Answer Unit))
    (h : LifecycleHistory) : Prop :=
  ∀ productIds, ∀ keys : List (ℕ × ℕ), ⟨.shareIdentifiers productIds, keys⟩ ∈ h →
    ⟨.lockProducts productIds, ()⟩ ∈ h ∧ ∀ productId ∈ productIds,
      ∀ id ∈ identifierKeys (access.committedWrites committed) productId, (productId, id) ∈ keys

/-- **No identifier is added** to a product that a run has locked, when another transaction
commits. -/
theorem identifiersAreLocked_commit (h : database.system.Reachable allowed st) {p t}
    (hp : p ∈ st.running) (ht : t ∈ st.running) (hne : p.1 ≠ t.1)
    (hlocked : IdentifiersAreLocked st.committed p.2.history) (r : Unit) :
    IdentifiersAreLocked (st.committed ++ [⟨t.2.call, t.2.history, r⟩]) p.2.history := by
  intro productIds keys hmem
  obtain ⟨hproducts, hkeys⟩ := hlocked productIds keys hmem
  refine ⟨hproducts, fun productId hproduct id hid => ?_⟩
  obtain ⟨row, hrow⟩ := mem_identifierKeys_iff.mp hid
  rw [committedWrites_append] at hrow
  obtain hold | hnew := List.mem_append.mp hrow
  · exact hkeys productId hproduct id (mem_identifierKeys_iff.mpr ⟨row, hold⟩)
  · obtain ⟨event, hevent, hw⟩ := List.mem_flatMap.mp hnew
    obtain ⟨written, hquery, rfl, rfl⟩ := write_of_mem_writesOf hw
    obtain ⟨before, after, hsplit⟩ := List.append_of_mem hevent
    obtain hold | hholds :=
      (isTrue_of_reachable h ht before event after hsplit).identifier written hquery
    · exact hkeys _ hproduct _ hold
    · -- the lock of a product excludes those who refer to it
      have hheld : access.Holds t.2.history (.product written.productId) .keyShare := by
        have heq : t.2.history = before ++ [event] ++ after := by simpa using hsplit
        exact heq ▸ hholds.append after
      exact absurd rfl (exclusive h t ht p hp (Ne.symm hne) _ _ _ hheld
        (holds_of_lockProducts hproducts hproduct))

/-- No identifier is added to a product that a run has locked. -/
theorem identifiersAreLocked_of_reachable (h : database.system.Reachable allowed st) {p}
    (hp : p ∈ st.running) : IdentifiersAreLocked st.committed p.2.history := by
  refine (Database.each_of_reachable
    (J := fun _ committed t => IdentifiersAreLocked committed t.history) (G := fun _ _ => True)
    (fun _ => trivial) (fun _ _ _ _ _ => trivial) (fun _ _ _ _ _ _ hmem => by cases hmem) (fun _ _ _ _ _ hJ => hJ) ?_
    (fun st p t r hreach ht hp hne hJ _ => identifiersAreLocked_commit hreach hp ht hne hJ r)
    (fun _ _ _ _ _ _ => trivial) h).2 p hp
  intro st session t query next answers hreach ht hrest hadmits _ hJ productIds keys hmem
  obtain hold | hnew := List.mem_append.mp hmem
  · obtain ⟨hproducts, hkeys⟩ := hJ productIds keys hold
    exact ⟨List.mem_append_left _ hproducts, hkeys⟩
  · obtain ⟨rfl, hanswer⟩ := Event.mk.inj (List.mem_singleton.mp hnew)
    obtain rfl := eq_of_heq hanswer
    have hproducts : ⟨.lockProducts productIds, ()⟩ ∈ t.history :=
      (may_of_reachable hreach ht hrest).reconcile id
    refine ⟨List.mem_append_left _ hproducts, fun productId hproduct id hid => ?_⟩
    have hkeys : answers (.shareIdentifiers productIds) = productIds.flatMap fun productId =>
        (identifierKeys (viewOf st session) productId).map fun id => (productId, id) := hadmits.2
    rw [hkeys, viewOf_of_transaction ht]
    refine List.mem_flatMap.mpr ⟨productId, hproduct, List.mem_map.mpr ⟨id, ?_, rfl⟩⟩
    obtain ⟨row, hrow⟩ := mem_identifierKeys_iff.mp hid
    exact mem_identifierKeys_iff.mpr ⟨row, List.mem_append_left _ hrow⟩

/-- **Eligibility is decided by the rows that the projection reads**, and is lost as the clock goes
on. -/
theorem IsEligible.of_versions {writes writes' : Writes} {now now' : ℤ}
    (h : IsEligible writes' asOf now' offer) (hnow : now ≤ now')
    (hproduct : versions writes' (.product offer.terms.productId) =
      versions writes (.product offer.terms.productId))
    (hscope : versions writes' (.scope offer.terms.geographicScopeId) =
      versions writes (.scope offer.terms.geographicScopeId))
    (hidentifiers : ∀ id ∈ identifierKeys writes' offer.terms.productId,
      versions writes' (.identifier offer.terms.productId id) =
      versions writes (.identifier offer.terms.productId id)) :
    IsEligible writes asOf now offer where
  status := h.status
  started := h.started
  ends := h.ends
  updatedAt := h.updatedAt
  clocks := h.clocks
  expiries t ht := ⟨(h.expiries t ht).1, hnow.trans_lt (h.expiries t ht).2⟩
  retrievedAt := h.retrievedAt
  isBound := h.isBound
  product := by
    have hcurrent := h.product
    rwa [currentProduct, current, hproduct] at hcurrent
  scope := by
    have hcurrent := h.scope
    rwa [currentScope, current, hscope] at hcurrent
  identifier := by
    obtain ⟨id, hid, hcurrent⟩ := h.identifier
    have hversions := hidentifiers id hid
    refine ⟨id, ?_, ?_⟩
    · obtain ⟨row, hrow⟩ := mem_identifierKeys_iff.mp hid
      refine mem_identifierKeys_iff.mpr ⟨row, ?_⟩
      rw [← mem_versions_iff, ← hversions]
      exact mem_versions_iff.mpr hrow
    · rwa [currentIdentifier, current, hversions] at hcurrent

/-- **What a run has locked stays as it is** when another transaction commits. -/
theorem isEligible_commit (h : database.system.Reachable allowed st) {p t} (hp : p ∈ st.running)
    (ht : t ∈ st.running) (hne : p.1 ≠ t.1) (r : Unit) (hpage : IsLockedPage p.2.history page)
    (hrow : row ∈ page) (hterms : offer.terms = row.terms) {now : ℤ}
    (heligible : IsEligible (access.view (st.committed ++ [⟨t.2.call, t.2.history, r⟩]) p.2.history)
      asOf now offer) :
    IsEligible (access.view st.committed p.2.history) asOf now offer := by
  have hsame : ∀ {k mode}, mode.Protects → access.Holds p.2.history k mode →
      versions (access.view (st.committed ++ [⟨t.2.call, t.2.history, r⟩]) p.2.history) k =
        versions (access.view st.committed p.2.history) k :=
    fun hprotects hholds => (exclusive h).versions_commit hp ht hne hprotects hholds r
  refine heligible.of_versions le_rfl ?_ ?_ fun id hid => ?_
  · rw [hterms]
    exact hsame (by simp [Mode.Protects]) (hpage.holds_product hrow)
  · rw [hterms]
    exact hsame (by simp [Mode.Protects]) (hpage.holds_scope hrow)
  · obtain ⟨version, hversion⟩ := mem_identifierKeys_iff.mp hid
    obtain hcommitted | hown := List.mem_append.mp hversion
    · obtain ⟨keys, hkeys⟩ := hpage.identifiers
      have hlocked := identifiersAreLocked_commit h hp ht hne
        (identifiersAreLocked_of_reachable h hp) r _ keys hkeys
      have hproduct : offer.terms.productId ∈ page.map fun offer => offer.terms.productId :=
        List.mem_map.mpr ⟨row, hrow, by rw [hterms]⟩
      have hkey := hlocked.2 _ hproduct id (mem_identifierKeys_iff.mpr ⟨version, hcommitted⟩)
      exact hsame (by simp [Mode.Protects]) ⟨_, hkeys, List.mem_map.mpr ⟨_, hkey, rfl⟩⟩
    · obtain ⟨mode, hwrites, hholds⟩ := holds_of_mem_writesOf hown
      have hprotects : mode.Protects := by
        obtain rfl | rfl := hwrites <;> simp [Mode.Protects]
      exact hsame hprotects hholds

/-! ### Retired offers -/

/-- **A step retires no eligible offer**: where it writes a retired version of a published offer of
a product with at most fifty eligible offers, the offer is not eligible at that instant. -/
def RetiresOnlyIneligible (st : LifecycleState) : Step ℕ Call Query Answer → Prop
  | .proceeds session answers => ∀ t ∈ st.transaction session, ∀ query ∈ t.rest.next?,
    ∀ retired, (RowKey.offer retired.terms.id, Row.offer retired) ∈
        writesOf query (answers query) →
      retired.status = .expired ∨ retired.status = .revoked →
        ∀ offer ∈ currentOffer (viewOf st session) retired.terms.id, offer.status = .published →
          (eligibleOffers (viewOf st session) offer.terms.productId st.clock st.clock).length ≤ 50 →
            ¬ IsEligible (viewOf st session) st.clock st.clock offer
  | _ => True

/-- The clock as of which a run has just evaluated the projection. -/
def evaluatedAt (h : LifecycleHistory) : Option ℤ :=
  h.getLast?.bind fun event =>
    match event.query with
    | .visibleOffers _ asOf => some asOf
    | _ => none

/-- What the projection reads of an offer was there at a clock. -/
@[mk_iff] structure IsSettled (writes : Writes) (asOf : ℤ) (offer : OfferRow) : Prop where
  started : offer.terms.validFrom ≤ asOf
  updatedAt : offer.updatedAt ≤ asOf
  clocks : ∀ t ∈ offer.terms.clocks, t ≤ asOf
  retrievedAt : offer.terms.retrievedAt ≤ asOf
  product : ∀ row ∈ (currentProduct writes offer.terms.productId).toList,
    row.createdAt ≤ asOf ∧ row.publicStateChangedAt ≤ asOf
  scope : ∀ row ∈ (currentScope writes offer.terms.geographicScopeId).toList,
    row.createdAt ≤ asOf ∧ row.publicStateChangedAt ≤ asOf
  identifier : ∃ id ∈ identifierKeys writes offer.terms.productId,
    ∃ row ∈ (currentIdentifier writes offer.terms.productId id).toList,
      Establishes offer.terms.gtin asOf row

instance (writes : Writes) (asOf : ℤ) : DecidablePred (IsSettled writes asOf) :=
  fun _ => decidable_of_iff' _ (isSettled_iff _ _ _)

/-- When an evaluation is made, the product of an offer that is eligible has at most fifty. -/
def EvaluatesFew (writes : Writes) (now : ℤ) (offerIds : List ℕ) (asOf : ℤ) : Prop :=
  ∀ id ∈ offerIds, ∀ offer ∈ (currentOffer writes id).toList, IsEligible writes asOf now offer →
    (eligibleOffers writes offer.terms.productId asOf now).length ≤ 50

/-- When offers are retired, what the projection reads of those that are eligible has not changed
since the clock of the evaluation. -/
def RetiresSettled (writes : Writes) (now : ℤ) (h : LifecycleHistory) (offerIds : List ℕ) : Prop :=
  ∀ id ∈ offerIds, ∀ offer ∈ (currentOffer writes id).toList,
    (eligibleOffers writes offer.terms.productId now now).length ≤ 50 →
      IsEligible writes now now offer → ∀ asOf ∈ (evaluatedAt h).toList, IsSettled writes asOf offer

instance (writes : Writes) (now : ℤ) (offerIds : List ℕ) (asOf : ℤ) :
    Decidable (EvaluatesFew writes now offerIds asOf) :=
  inferInstanceAs (Decidable (∀ id ∈ offerIds, ∀ offer ∈ _, _ → _))

instance (writes : Writes) (now : ℤ) (h : LifecycleHistory) (offerIds : List ℕ) :
    Decidable (RetiresSettled writes now h offerIds) :=
  inferInstanceAs (Decidable (∀ id ∈ offerIds, ∀ offer ∈ _, _ → _ → ∀ asOf ∈ _, _))

/-- The condition on a statement of a session. -/
def IsSettledQuery (st : LifecycleState) (session : ℕ) : Query → Prop
  | .visibleOffers offerIds asOf => EvaluatesFew (viewOf st session) st.clock offerIds asOf
  | .retire offerIds _ _ =>
    RetiresSettled (viewOf st session) st.clock (historyOf st session) offerIds
  | _ => True

instance (st : LifecycleState) (session : ℕ) : DecidablePred (IsSettledQuery st session) := fun query =>
  match query with
  | .visibleOffers _ _ => inferInstanceAs (Decidable (EvaluatesFew _ _ _ _))
  | .retire _ _ _ => inferInstanceAs (Decidable (RetiresSettled _ _ _ _))
  | .clockTimestamp _ => .isTrue trivial
  | .acquireLease _ => .isTrue trivial
  | .lockSource _ => .isTrue trivial
  | .publicationEnabled => .isTrue trivial
  | .sourceIsCurrent _ _ => .isTrue trivial
  | .selectExpiryPage _ _ _ => .isTrue trivial
  | .selectPublicationPage _ _ _ => .isTrue trivial
  | .shareScopes _ => .isTrue trivial
  | .lockProducts _ => .isTrue trivial
  | .shareIdentifiers _ => .isTrue trivial
  | .publish _ => .isTrue trivial
  | .completesInLease => .isTrue trivial
  | .write _ => .isTrue trivial
  | .insertOffer _ => .isTrue trivial

/-- **Evaluations are settled**: what an evaluation of the projection reads of an offer does not
change between the clock as of which it is made and the instant at which the offer is retired. -/
def EvaluatesSettled (st : LifecycleState) : Step ℕ Call Query Answer → Prop
  | .proceeds session _ =>
    ∀ t ∈ (st.transaction session).toList, ∀ query ∈ t.rest.next?.toList,
      IsSettledQuery st session query
  | _ => True

instance (st : LifecycleState) : DecidablePred (EvaluatesSettled st)
  | .elapses _ => .isTrue trivial
  | .begins _ _ => .isTrue trivial
  | .aborts _ => .isTrue trivial
  | .proceeds session _ =>
    inferInstanceAs (Decidable (∀ t ∈ (st.transaction session).toList, ∀ query ∈ _, _))

/-- What a run has just evaluated stands: an offer that was not visible is not eligible as of the
clock of the evaluation. -/
def EvaluationStands (clock : ℤ) (committed : List (Committed Call Query Answer Unit))
    (h : LifecycleHistory) : Prop :=
  ∀ before offerIds, ∀ asOf : ℤ, ∀ visibleIds : List ℕ,
    h = before ++ [⟨.visibleOffers offerIds asOf, visibleIds⟩] →
      (∃ page, IsLockedPage h page ∧ offerIds = page.map fun offer => offer.terms.id) ∧
        asOf ≤ clock ∧ ∀ id ∈ offerIds, id ∉ visibleIds →
          ∀ offer, currentOffer (access.view committed h) id = some offer →
            ¬ IsEligible (access.view committed h) asOf clock offer

/-- An offer of a product with at most fifty that the projection does not show is not eligible. -/
theorem not_isEligible_of_not_isProjected {writes : Writes} {now : ℤ} {offerIds : List ℕ}
    (hfew : EvaluatesFew writes now offerIds asOf) (hle : asOf ≤ now) {id : ℕ} (hid : id ∈ offerIds)
    (hoffer : currentOffer writes id = some offer) (hnot : ¬ IsProjected writes asOf now id) :
    ¬ IsEligible writes asOf now offer := by
  intro heligible
  have hmem : offer ∈ (currentOffer writes id).toList := by rw [hoffer]; exact List.mem_singleton_self _
  refine hnot ⟨offer, hmem, ?_⟩
  rw [min_eq_left hle]
  exact ⟨heligible, hfew id hid offer hmem heligible⟩

/-- **What a run has evaluated stands** until it retires.

**Proof sketch.** The offers of the page, their products, scopes and identifiers are locked, so that
no commit of another transaction changes what the projection reads; and as the clock goes on,
offers only become ineligible as of a clock that is fixed. -/
theorem evaluationStands_of_reachable (h : database.system.Reachable EvaluatesSettled st) {p}
    (hp : p ∈ st.running) : EvaluationStands st.clock st.committed p.2.history := by
  refine (Database.each_of_reachable
    (J := fun clock committed t => EvaluationStands clock committed t.history) (G := fun _ _ => True)
    (fun _ => trivial) (fun _ _ _ _ _ => trivial) ?_ ?_ ?_ ?_ (fun _ _ _ _ _ _ => trivial) h).2 p hp
  · intro _ _ _ _ before offerIds asOf visibleIds heq
    simp at heq
  · intro clock clock' committed t hle hJ before offerIds asOf visibleIds heq
    obtain ⟨hpage, hasOf, hstands⟩ := hJ before offerIds asOf visibleIds heq
    refine ⟨hpage, hasOf.trans hle, fun id hid hvisible offer hoffer heligible => ?_⟩
    exact hstands id hid hvisible offer hoffer
      (heligible.of_versions hle rfl rfl fun _ _ => rfl)
  · intro st session t query next answers hreach ht hrest hadmits hallowed _ before offerIds asOf
      visibleIds heq
    obtain ⟨rfl, hevent⟩ := List.append_inj' heq rfl
    obtain ⟨rfl, hvisible⟩ := Event.mk.inj (List.singleton_inj.mp hevent)
    obtain ⟨⟨page, hpage, hids⟩, reading, hclock⟩ :=
      (may_of_reachable hreach ht hrest).reconcile id
    have hview : access.view st.committed
        (t.history ++ [⟨.visibleOffers offerIds asOf, answers (.visibleOffers offerIds asOf)⟩]) =
          viewOf st session := by
      rw [view_concat, viewOf_of_transaction ht]
      exact List.append_nil _
    have hasOf : asOf ≤ st.clock := by
      obtain ⟨first, second, hsplit⟩ := List.append_of_mem hclock
      exact (isTrue_of_reachable hreach (State.mem_of_transaction ht) _ _ _ hsplit).clock _ _ rfl
    have hfew : EvaluatesFew (viewOf st session) st.clock offerIds asOf :=
      hallowed t (by rw [ht]; exact List.mem_singleton_self _) (.visibleOffers offerIds asOf)
        (by rw [hrest]; exact List.mem_singleton_self _)
    refine ⟨⟨page, hpage.append _, hids⟩, hasOf, fun id hid hnot offer hoffer => ?_⟩
    rw [hview] at hoffer ⊢
    refine not_isEligible_of_not_isProjected hfew hasOf hid hoffer fun hprojected => hnot ?_
    have hanswer : answers (.visibleOffers offerIds asOf) =
        offerIds.filter fun id => IsProjected (viewOf st session) asOf st.clock id := hadmits.2
    rw [← eq_of_heq hvisible, hanswer]
    exact List.mem_filter.mpr ⟨hid, decide_eq_true hprojected⟩
  · intro st p t r hreach ht hp hne hJ _ before offerIds asOf visibleIds heq
    obtain ⟨⟨page, hpage, hids⟩, hasOf, hstands⟩ := hJ before offerIds asOf visibleIds heq
    refine ⟨⟨page, hpage, hids⟩, hasOf, fun id hid hvisible offer hoffer heligible => ?_⟩
    obtain ⟨row, hrow, rfl⟩ := List.mem_map.mp (hids ▸ hid)
    have hsame := (exclusive hreach).versions_commit hp ht hne (by simp [Mode.Protects])
      (hpage.holds_offer hrow) r
    have hoffer' : currentOffer (access.view st.committed p.2.history) row.terms.id = some offer := by
      rw [← hoffer, currentOffer, currentOffer, current, current, hsame]
    obtain ⟨event, hevent, hselected⟩ := hpage.selected
    have hterms := terms_of_page hreach hp hevent (hselected ▸ hrow) hoffer'
    exact hstands _ hid hvisible offer hoffer'
      (isEligible_commit hreach hp ht hne r hpage hrow hterms heligible)

/-- An offer that is eligible now and settled at an earlier clock was eligible as of it. -/
theorem IsEligible.of_isSettled {writes : Writes} {now : ℤ} (h : IsEligible writes now now offer)
    (hsettled : IsSettled writes asOf offer) (hle : asOf ≤ now) :
    IsEligible writes asOf now offer where
  status := h.status
  started := hsettled.started
  ends := hle.trans_lt h.ends
  updatedAt := hsettled.updatedAt
  clocks := hsettled.clocks
  expiries t ht := ⟨hle.trans_lt (h.expiries t ht).1, (h.expiries t ht).2⟩
  retrievedAt := ⟨hsettled.retrievedAt, (sub_le_sub_right hle _).trans h.retrievedAt.2⟩
  isBound := h.isBound
  product := by
    obtain ⟨row, hrow, hactive, -, -⟩ := h.product
    exact ⟨row, hrow, hactive, hsettled.product row hrow⟩
  scope := by
    obtain ⟨row, hrow, hactive, -, -⟩ := h.scope
    exact ⟨row, hrow, hactive, hsettled.scope row hrow⟩
  identifier := hsettled.identifier

/-- Only a run that retires writes a retired version of a published offer. -/
theorem retire_of_mem_writesOf {writes : Writes}
    (h : ∀ id, IsOrderly id (versions writes (.offer id))) {now : ℤ} {answer : Answer query}
    (hanswer : IsAnswer writes now query answer) {new : OfferRow}
    (hnew : (RowKey.offer new.terms.id, Row.offer new) ∈ writesOf query answer)
    (hstatus : new.status = .expired ∨ new.status = .revoked) :
    ∃ offerIds visibleIds approvedToo, query = .retire offerIds visibleIds approvedToo ∧
      new.terms.id ∈ offerIds ∧ ∀ offer, currentOffer writes new.terms.id = some offer →
        offer.status = .published → new.terms.id ∉ visibleIds := by
  cases query with
  | publish ids =>
    obtain rfl : answer = published writes now ids := hanswer
    obtain ⟨offer, hoffer, heq⟩ := List.mem_map.mp hnew
    obtain ⟨old, -, rfl⟩ := List.mem_map.mp hoffer
    obtain rfl := Row.offer.inj (Prod.mk.inj heq).2
    simp at hstatus
  | retire ids visible approvedToo =>
    obtain ⟨offer, hoffer, heq⟩ := List.mem_map.mp hnew
    obtain rfl := Row.offer.inj (Prod.mk.inj heq).2
    obtain ⟨old, hold, hterms⟩ := mem_retirable hanswer hoffer
    obtain ⟨hold, hretirable⟩ := List.mem_filter.mp hold
    obtain ⟨hid, hcurrent⟩ := mem_currentOffers h hold
    rw [hterms] at hid hcurrent
    refine ⟨ids, visible, approvedToo, rfl, hid, fun published hpublished hstatus => ?_⟩
    obtain rfl := Option.some.inj (hcurrent.symm.trans hpublished)
    obtain ⟨happroved, -⟩ | ⟨-, hvisible⟩ := of_decide_eq_true hretirable
    · exact absurd (happroved.symm.trans hstatus) (by decide)
    · exact hterms ▸ hvisible
  | insertOffer terms =>
    obtain rfl := Row.offer.inj (Prod.mk.inj (List.mem_singleton.mp hnew)).2
    simp at hstatus
  | write row => cases (Prod.mk.inj (List.mem_singleton.mp hnew)).2
  | _ => cases hnew

/-- **The lifecycle retires no eligible offer** in every run in which evaluations are settled, and
statuses move forward.

**Proof sketch.** A run retires by the evaluation that it has just made, which stands: a published
offer that was not visible is not eligible as of the clock of the evaluation. If it were eligible
now, it would have been eligible then, since nothing that the projection reads is newer. -/
theorem retiresOnlyIneligible_of_evaluatesSettled {st' : LifecycleState}
    {e : Step ℕ Call Query Answer} (h : database.system.Reachable EvaluatesSettled st)
    (hallowed : EvaluatesSettled st e) (hstep : database.system.step st e = some st') :
    StatusesMoveForward st' ∧ RetiresOnlyIneligible st e := by
  refine ⟨statusesMoveForward_of_reachable (h.next hallowed hstep), ?_⟩
  cases e with
  | proceeds session answers =>
    intro t ht query hquery new hnew hstatus offer hoffer hpublished hfew heligible
    obtain ⟨hadmits, next, hrest⟩ := Database.admits_of_step hstep ht hquery
    rw [Option.mem_def] at ht
    have hp := State.mem_of_transaction ht
    have horderly : ∀ id, IsOrderly id (versions (viewOf st session) (.offer id)) := by
      rw [viewOf_of_transaction ht]
      exact (isOrderly_of_reachable h).2 _ hp
    obtain ⟨offerIds, visibleIds, approvedToo, rfl, hid, hvisible⟩ :=
      retire_of_mem_writesOf horderly hadmits.2 hnew hstatus
    obtain ⟨before, asOf, hhistory⟩ := (may_of_reachable h ht hrest).reconcile id
    obtain ⟨-, hle, hstands⟩ :=
      evaluationStands_of_reachable h hp before offerIds asOf visibleIds hhistory
    have hsettled : RetiresSettled (viewOf st session) st.clock (historyOf st session) offerIds :=
      hallowed t (by rw [ht]; exact List.mem_singleton_self _)
        (.retire offerIds visibleIds approvedToo) (by rw [hrest]; exact List.mem_singleton_self _)
    have hasOf : evaluatedAt (historyOf st session) = some asOf := by
      rw [historyOf, ht, Option.map_some, Option.getD_some, hhistory, evaluatedAt,
        List.getLast?_concat]
      rfl
    have hmem : offer ∈ (currentOffer (viewOf st session) new.terms.id).toList := by
      rw [Option.mem_def.mp hoffer]
      exact List.mem_singleton_self _
    have hthen := heligible.of_isSettled (hsettled _ hid offer hmem hfew heligible asOf
      (by rw [hasOf]; exact List.mem_singleton_self _)) hle
    rw [viewOf_of_transaction ht] at hthen hoffer
    exact hstands _ hid (hvisible offer (by rw [viewOf_of_transaction ht]; exact hoffer) hpublished)
      offer hoffer hthen
  | _ => trivial

/-! ### Runs on fixed events -/

/-- An approved offer of milk. -/
def milkTerms : OfferTerms where
  id := 1
  sourceId := js "bunnpris-tjek"
  productId := 7
  geographicScopeId := 3
  gtin := js "7038010009457"
  validFrom := 500
  validUntil := 900000
  retrievedAt := 400
  clocks := [400, 450]
  expiries := [800000]
  isBound := true

/-- Milk, its scope and its GTIN. -/
def milkRows : List CatalogRow :=
  [.product ⟨7, true, 100, 100⟩, .scope ⟨3, true, 100, 100⟩,
    .identifier ⟨7, 11, js "7038010009457", true, 100, some 90, 100, 100⟩]

/-- A lifecycle run of the source of the offer. -/
def milkRequest (publicationRequested : Bool) : LifecycleRequest where
  sourceId := js "bunnpris-tjek"
  batchLimit := 50
  publicationRequested := publicationRequested

/-- What the database answers at a clock: the offers that are there, those that are visible, and
those that are written. -/
def reply (now : ℤ) (published approved written : List OfferRow) (visible : List ℕ) (isNew : Bool) :
    (query : Query) → Answer query
  | .clockTimestamp _ => now
  | .acquireLease _ => JobLease.leased
  | .lockSource _ => true
  | .publicationEnabled => true
  | .sourceIsCurrent _ _ => true
  | .selectExpiryPage _ _ _ => published
  | .selectPublicationPage _ _ _ => approved
  | .shareScopes _ => ()
  | .lockProducts _ => ()
  | .shareIdentifiers _ => [((7, 11) : ℕ × ℕ)]
  | .visibleOffers _ _ => visible
  | .publish _ => written
  | .retire _ _ _ => if visible = [] then written else []
  | .completesInLease => true
  | .write _ => isNew
  | .insertOffer _ => now

/-- Nothing is there yet. -/
def empty : LifecycleState where
  clock := 1000
  running := []
  committed := []

/-- A session goes on for some statements. -/
def proceeds (session : ℕ) (answers : (query : Query) → Answer query) (statements : ℕ) :
    List (Step ℕ Call Query Answer) :=
  List.replicate statements (.proceeds session answers)

/-- The offer is approved, and a lifecycle run publishes it. -/
def publishesMilk : List (Step ℕ Call Query Answer) :=
  .begins 1 (.update milkRows) :: proceeds 1 (reply 1000 [] [] [] [] true) 7 ++
    .begins 1 (.approve milkTerms) :: proceeds 1 (reply 1000 [] [] [] [] true) 2 ++
    .elapses 1000 :: .begins 1 (.reconcile (milkRequest true)) ::
    proceeds 1 (reply 2000 [] [⟨milkTerms, .approved, 1000⟩] [⟨milkTerms, .published, 2000⟩] [1]
      false) 16

/-- The step in which a run retires the offer. -/
def retiresMilk (now : ℤ) : Step ℕ Call Query Answer :=
  .proceeds 1 (reply now [] [] [⟨milkTerms, .expired, now⟩] [] false)

/-- The product is no longer active, and a second run evaluates the projection. -/
def withdrawsMilk : List (Step ℕ Call Query Answer) :=
  publishesMilk ++ .elapses 10 :: .begins 2 (.update [.product ⟨7, false, 100, 100⟩]) ::
    proceeds 2 (reply 2010 [] [] [] [] false) 3 ++
    .elapses 990 :: .begins 1 (.reconcile (milkRequest false)) ::
    proceeds 1 (reply 3000 [⟨milkTerms, .published, 2000⟩] [] [] [] false) 10

/-- The offer of a withdrawn product is retired, which is not eligible. -/
theorem retiresOnlyIneligible_withdrawsMilk :
    ∃ st st', database.system.runWhere EvaluatesSettled empty withdrawsMilk = some st ∧
      database.system.step st (retiresMilk 3000) = some st' ∧
      (currentOffer (viewOf st' 1) 1).map (fun offer => offer.status) = some .expired ∧
      StatusesMoveForward st' ∧ RetiresOnlyIneligible st (retiresMilk 3000) := by
  have hrun : ((database.system.runWhere EvaluatesSettled empty withdrawsMilk).bind fun st =>
      (database.system.step st (retiresMilk 3000)).map fun st' =>
        (decide (EvaluatesSettled st (retiresMilk 3000)),
          (currentOffer (viewOf st' 1) 1).map fun offer => offer.status)) =
        some (true, some .expired) := by decide +kernel
  obtain ⟨st, hst, hnext⟩ := Option.bind_eq_some_iff.mp hrun
  obtain ⟨st', hstep, heq⟩ := Option.map_eq_some_iff.mp hnext
  obtain ⟨hallowed, hstatus⟩ := Prod.mk.inj heq
  have hinit : database.system.Reachable EvaluatesSettled empty := .init ⟨rfl, rfl⟩
  exact ⟨st, st', hst, hstep, hstatus, retiresOnlyIneligible_of_evaluatesSettled
    (hinit.runWhere hst) (of_decide_eq_true hallowed) hstep⟩

/-- In the second run, the product is updated after the clock of the evaluation is read and before
the product is locked. It stays active. -/
def updatesMilk : List (Step ℕ Call Query Answer) :=
  publishesMilk ++ .elapses 1000 :: .begins 1 (.reconcile (milkRequest false)) ::
    proceeds 1 (reply 3000 [] [] [] [] false) 5 ++
    .elapses 10 :: .begins 2 (.update [.product ⟨7, true, 100, 100⟩]) ::
    proceeds 2 (reply 3010 [] [] [] [] false) 3 ++
    proceeds 1 (reply 3010 [⟨milkTerms, .published, 2000⟩] [] [] [] false) 5

/-- A version retires an eligible offer of a product with at most fifty. -/
def IsLost (writes : Writes) (now : ℤ) (retired : OfferRow) : Prop :=
  retired.status = .expired ∧ ∃ offer ∈ (currentOffer writes retired.terms.id).toList,
    offer.status = .published ∧
      (eligibleOffers writes offer.terms.productId now now).length ≤ 50 ∧
        IsEligible writes now now offer

instance (writes : Writes) (now : ℤ) : DecidablePred (IsLost writes now) := fun _ =>
  inferInstanceAs (Decidable (_ ∧ ∃ offer ∈ _, _ ∧ _ ∧ _))

/-- A session writes such a version. -/
def Loses (st : LifecycleState) (session : ℕ) (answers : (query : Query) → Answer query)
    (retired : OfferRow) : Prop :=
  IsLost (viewOf st session) st.clock retired ∧ ∃ t ∈ (st.transaction session).toList,
    ∃ query ∈ t.rest.next?.toList,
      (RowKey.offer retired.terms.id, Row.offer retired) ∈ writesOf query (answers query)

instance (st : LifecycleState) (session : ℕ) (answers : (query : Query) → Answer query) :
    DecidablePred (Loses st session answers) := fun _ =>
  inferInstanceAs (Decidable (_ ∧ ∃ t ∈ (st.transaction session).toList,
    ∃ query ∈ t.rest.next?.toList, _ ∈ writesOf query (answers query)))

/-- **An offer that is eligible is retired**: its product was updated between the clock as of which
the run evaluates and the lock of the product.

**Proof sketch.** In the run the product is as public as before, and the offer expires. -/
theorem not_retiresOnlyIneligible_updatesMilk :
    ¬ ∀ st e st', database.system.Reachable (fun _ _ => True) st →
      database.system.step st e = some st' → StatusesMoveForward st' ∧ RetiresOnlyIneligible st e := by
  intro hall
  have hrun : ((database.system.run empty updatesMilk).map fun st =>
      (decide (Loses st 1 (reply 3010 [] [] [⟨milkTerms, .expired, 3010⟩] [] false)
        ⟨milkTerms, .expired, 3010⟩), (database.system.step st (retiresMilk 3010)).isSome)) =
          some (true, true) := by decide +kernel
  obtain ⟨st, hst, heq⟩ := Option.map_eq_some_iff.mp hrun
  obtain ⟨hloses, hsome⟩ := Prod.mk.inj heq
  obtain ⟨st', hstep⟩ := Option.isSome_iff_exists.mp hsome
  have hinit : database.system.Reachable (fun _ _ => True) empty := .init ⟨rfl, rfl⟩
  obtain ⟨⟨hexpired, offer, hoffer, hpublished, hfew, heligible⟩, t, ht, query, hquery, hwritten⟩ :=
    of_decide_eq_true hloses
  exact (hall st (retiresMilk 3010) st' (hinit.run hst) hstep).2 t (Option.mem_toList.mp ht) query
    (Option.mem_toList.mp hquery) _ hwritten (.inl hexpired) offer (Option.mem_toList.mp hoffer)
    hpublished hfew heligible

end Handleplan.OfferLifecycle
