import Handleplan.Web.LocationChoiceStore

/-!
# What a store of location choices keeps

The store makes room before it knows whether the coordinates are valid and the tokens can be drawn.
As long as no call fails after that, what is live of the store is what is live of its promises.

## Main definitions

* `LocationChoices.NeedsNoRoom`, `LocationChoices.Yields` — a call evicts
  nothing, or the token source gives what it needs.
* `LocationChoices.Run.Sound` — the invariant.
* `LocationChoices.ChoicesHold` — what holds of a store in use.

## Main results

* `LocationChoices.issueMany_spec` — what a call of `issueMany` does.
* `LocationChoices.sound_of_reachable` — the store keeps its promises.
* `LocationChoices.choices_hold` — what holds of a store in use.
-/

namespace Handleplan.LocationChoices

open JsString Transitions

/-! ### Making room -/

section Room

variable {entries : Entries} {maxEntries count : ℕ} {now later : ℤ}

theorem prune_eq_live : prune now entries = Promises.live entries now :=
  List.filter_congr fun _ _ => by rw [decide_eq_decide, not_le]

/-- The loop deletes as many entries as there are too many. -/
theorem evict_eq : evict maxEntries count entries =
    entries.drop (entries.length + count - maxEntries) := by
  induction entries with
  | nil => exact List.drop_nil.symm
  | cons entry rest ih =>
    rw [evict]
    split_ifs with h
    · obtain ⟨n, hn⟩ : ∃ n, (entry :: rest).length + count - maxEntries = n + 1 :=
        ⟨(entry :: rest).length + count - maxEntries - 1, by omega⟩
      rw [ih, hn, List.drop_succ_cons]
      rw [List.length_cons] at hn
      congr 1
      omega
    · rw [Nat.sub_eq_zero_of_le (Nat.not_lt.mp h), List.drop_zero]

/-- What is live later was live before. -/
theorem live_live (promises : Promises) (h : now ≤ later) :
    (promises.live now).live later = promises.live later := by
  unfold Promises.live
  rw [List.filter_filter]
  refine List.filter_congr fun promise _ => ?_
  rw [← Bool.decide_and, decide_eq_decide]
  exact and_iff_left_of_imp h.trans_lt

end Room

/-! ### Drawing tokens -/

section Tokens

variable {entries : Entries} {pending tokens : List JsString} {answers : Answers}

/-- A token is new: it has the pattern, and is neither stored nor pending. -/
structure IsNew (entries : Entries) (pending : List JsString) (token : JsString) : Prop where
  pattern : FullTokenPattern token
  notStored : token ∉ entries.keys
  notPending : token ∉ pending

theorem fullTokenPattern_append {opaqueText : JsString} (h : TokenPattern opaqueText) :
    FullTokenPattern (tokenPrefix ++ opaqueText) := by
  refine ⟨List.take_left' rfl, ?_⟩
  rw [List.drop_left' rfl]
  exact h

/-- A token that is drawn is new. -/
theorem isNew_of_drawToken {attempts : ℕ} {token : JsString} {rest : Answers}
    (h : drawToken entries pending attempts answers = some (token, rest)) :
    IsNew entries pending token := by
  induction attempts generalizing answers with
  | zero => cases h
  | succ attempts ih =>
    cases answers with
    | nil => cases h
    | cons answer answers =>
      cases answer with
      | none => cases h
      | some opaqueText =>
        rw [drawToken] at h
        obtain ⟨hpattern, h⟩ := Option.ite_none_left_eq_some.mp h
        dsimp only at h
        by_cases hnew : entries.has (tokenPrefix ++ opaqueText) = false ∧
            tokenPrefix ++ opaqueText ∉ pending
        · rw [if_pos hnew] at h
          obtain ⟨rfl, -⟩ := Prod.mk.inj (Option.some.inj h)
          refine ⟨fullTokenPattern_append (not_not.mp hpattern), fun hmem => ?_, hnew.2⟩
          rw [← JsMap.has_iff_mem_keys, hnew.1] at hmem
          cases hmem
        · rw [if_neg hnew] at h
          exact ih h

/-- **The tokens that are drawn are new and distinct.** -/
theorem drawTokens_spec {count : ℕ} (h : drawTokens entries count pending answers = some tokens)
    (hpending : pending.Nodup) :
    ∃ drawn, tokens = pending ++ drawn ∧ drawn.length = count ∧ tokens.Nodup ∧
      ∀ token ∈ drawn, FullTokenPattern token ∧ token ∉ entries.keys := by
  induction count generalizing pending answers with
  | zero =>
    cases h
    exact ⟨[], (List.append_nil _).symm, rfl, hpending, fun _ ht => absurd ht List.not_mem_nil⟩
  | succ count ih =>
    rw [drawTokens] at h
    cases hdraw : drawToken entries pending 8 answers with
    | none =>
      rw [hdraw] at h
      cases h
    | some drawn =>
      obtain ⟨token, rest⟩ := drawn
      rw [hdraw] at h
      have hnew := isNew_of_drawToken hdraw
      obtain ⟨drawn, htokens, hlength, hnodup, hall⟩ := ih h
        (List.nodup_append.mpr ⟨hpending, List.nodup_singleton token, fun a ha b hb heq =>
          hnew.notPending (List.mem_singleton.mp hb ▸ heq ▸ ha)⟩)
      refine ⟨token :: drawn, ?_, congrArg (· + 1) hlength, hnodup, fun other hother => ?_⟩
      · rw [htokens, List.append_assoc]
        rfl
      · rcases List.mem_cons.mp hother with rfl | hother
        · exact ⟨hnew.pattern, hnew.notStored⟩
        · exact hall other hother

/-- The token source gives tokens for so many coordinates: each after less than eight that have the
pattern but are stored or pending. -/
def Yields (entries : Entries) : ℕ → List JsString → Answers → Prop
  | 0, _, _ => True
  | count + 1, pending, answers =>
    ∃ (skipped : List JsString) (opaqueText : JsString) (rest : Answers),
      answers = skipped.map some ++ some opaqueText :: rest ∧ skipped.length < 8 ∧
      (∀ text ∈ skipped, TokenPattern text ∧
        (tokenPrefix ++ text ∈ entries.keys ∨ tokenPrefix ++ text ∈ pending)) ∧
      TokenPattern opaqueText ∧ tokenPrefix ++ opaqueText ∉ entries.keys ∧
      tokenPrefix ++ opaqueText ∉ pending ∧
      Yields entries count (pending ++ [tokenPrefix ++ opaqueText]) rest

/-- Tokens in use are skipped. -/
theorem drawToken_of_skipped {attempts : ℕ} {skipped : List JsString} {opaqueText : JsString}
    {rest : Answers} (hlength : skipped.length < attempts)
    (hskipped : ∀ text ∈ skipped, TokenPattern text ∧
      (tokenPrefix ++ text ∈ entries.keys ∨ tokenPrefix ++ text ∈ pending))
    (hpattern : TokenPattern opaqueText) (hstored : tokenPrefix ++ opaqueText ∉ entries.keys)
    (hpending : tokenPrefix ++ opaqueText ∉ pending) :
    drawToken entries pending attempts (skipped.map some ++ some opaqueText :: rest) =
      some (tokenPrefix ++ opaqueText, rest) := by
  induction skipped generalizing attempts with
  | nil =>
    obtain ⟨attempts, rfl⟩ := Nat.exists_eq_succ_of_ne_zero (Nat.ne_of_gt hlength)
    have hhas : entries.has (tokenPrefix ++ opaqueText) = false := by
      rw [Bool.eq_false_iff]
      exact fun h => hstored ((JsMap.has_iff_mem_keys _ _).mp h)
    rw [List.map_nil, List.nil_append, drawToken, if_neg (not_not.mpr hpattern)]
    exact if_pos ⟨hhas, hpending⟩
  | cons text skipped ih =>
    obtain ⟨attempts, rfl⟩ := Nat.exists_eq_succ_of_ne_zero (Nat.ne_of_gt (Nat.zero_lt_of_lt hlength))
    obtain ⟨htext, hused⟩ := hskipped text List.mem_cons_self
    have hnot : ¬ (entries.has (tokenPrefix ++ text) = false ∧ tokenPrefix ++ text ∉ pending) := by
      rintro ⟨hhas, hnot⟩
      rcases hused with hused | hused
      · rw [← JsMap.has_iff_mem_keys, hhas] at hused
        cases hused
      · exact hnot hused
    rw [List.map_cons, List.cons_append, drawToken, if_neg (not_not.mpr htext)]
    dsimp only
    rw [if_neg hnot]
    exact ih (Nat.lt_of_succ_lt_succ hlength) fun other hother =>
      hskipped other (List.mem_cons_of_mem _ hother)

/-- What the token source gives is drawn. -/
theorem drawTokens_of_yields {count : ℕ} (h : Yields entries count pending answers) :
    ∃ tokens, drawTokens entries count pending answers = some tokens := by
  induction count generalizing pending answers with
  | zero => exact ⟨pending, rfl⟩
  | succ count ih =>
    obtain ⟨skipped, opaqueText, rest, rfl, hlength, hskipped, hpattern, hstored, hpending, hrest⟩ := h
    rw [drawTokens, drawToken_of_skipped hlength hskipped hpattern hstored hpending]
    exact ih hrest

/-- New entries are added at the end. -/
theorem foldl_set {choices : List (JsString × TravelCoordinate)} {expiresAtMs : ℤ}
    (hnodup : (choices.map Prod.fst).Nodup) (hnew : ∀ choice ∈ choices, choice.1 ∉ entries.keys) :
    choices.foldl (fun entries choice => entries.set choice.1 ⟨choice.2, expiresAtMs⟩) entries =
      entries ++ choices.map fun choice => (choice.1, ⟨choice.2, expiresAtMs⟩) := by
  induction choices generalizing entries with
  | nil => exact (List.append_nil _).symm
  | cons choice choices ih =>
    obtain ⟨hnot, hrest⟩ := List.nodup_cons.mp hnodup
    rw [List.foldl_cons, JsMap.set_of_notMem (hnew choice List.mem_cons_self), ih hrest,
      List.append_assoc]
    · rfl
    · intro other hother hmem
      rw [JsMap.keys, List.map_append, List.mem_append] at hmem
      rcases hmem with hmem | hmem
      · exact hnew other (List.mem_cons_of_mem _ hother) hmem
      · have heq : other.1 = choice.1 := List.mem_singleton.mp hmem
        exact hnot (heq ▸ List.mem_map_of_mem hother)

end Tokens

/-! ### What a call does -/

section Issue

variable {entries : Entries} {maxEntries : ℕ} {coordinates : List TravelCoordinate} {now : ℤ}
  {answers : Answers}

/-- A call makes no room: it fails before, or there is enough. -/
def NeedsNoRoom (maxEntries : ℕ) (coordinates : List TravelCoordinate) (now : ℤ) (entries : Entries) :
    Prop :=
  5 < coordinates.length ∨ maxEntries < coordinates.length ∨
    (prune now entries).length + coordinates.length ≤ maxEntries

instance : Decidable (NeedsNoRoom maxEntries coordinates now entries) :=
  inferInstanceAs (Decidable (_ ∨ _ ∨ _))

/-- The entries that are left when room has been made. -/
def keptEntries (maxEntries : ℕ) (coordinates : List TravelCoordinate) (now : ℤ) (entries : Entries) :
    Entries :=
  evict maxEntries coordinates.length (prune now entries)

/-- **What a call of `issueMany` does**: it fails, and has made room or not; or it issues new
tokens, one for each coordinate. -/
theorem issueMany_spec (maxEntries : ℕ) (coordinates : List TravelCoordinate) (now : ℤ)
    (answers : Answers) (entries : Entries) :
    (NeedsNoRoom maxEntries coordinates now entries ∧
      issueMany maxEntries coordinates now answers entries = (none, Promises.live entries now)) ∨
    (issueMany maxEntries coordinates now answers entries =
        (none, keptEntries maxEntries coordinates now entries) ∧
      coordinates.length ≤ maxEntries ∧
      (NeedsNoRoom maxEntries coordinates now entries →
        keptEntries maxEntries coordinates now entries = Promises.live entries now) ∧
      ¬ ((∀ coordinate ∈ coordinates, TravelCoordinateSchema coordinate) ∧
        Yields (keptEntries maxEntries coordinates now entries) coordinates.length [] answers)) ∨
    ∃ tokens, issueMany maxEntries coordinates now answers entries =
        (some tokens, Promises.issue entries maxEntries now tokens coordinates) ∧
      coordinates.length ≤ maxEntries ∧ tokens.length = coordinates.length ∧ tokens.Nodup ∧
      ∀ token ∈ tokens, FullTokenPattern token ∧
        token ∉ (keptEntries maxEntries coordinates now entries).keys := by
  unfold issueMany
  dsimp only
  by_cases hfive : 5 < coordinates.length
  · exact .inl ⟨.inl hfive, by rw [if_pos hfive, prune_eq_live]⟩
  by_cases hmax : maxEntries < coordinates.length
  · exact .inl ⟨.inr (.inl hmax), by rw [if_neg hfive, if_pos hmax, prune_eq_live]⟩
  have hle := Nat.not_lt.mp hmax
  have hroom : NeedsNoRoom maxEntries coordinates now entries →
      keptEntries maxEntries coordinates now entries = Promises.live entries now := by
    intro hroom
    have henough := (hroom.resolve_left hfive).resolve_left hmax
    rw [keptEntries, evict_eq, Nat.sub_eq_zero_of_le henough, List.drop_zero, prune_eq_live]
  rw [if_neg hfive, if_neg hmax]
  by_cases hvalid : ∀ coordinate ∈ coordinates, TravelCoordinateSchema coordinate
  · rw [if_neg (not_not.mpr hvalid)]
    cases hdraw : drawTokens (evict maxEntries coordinates.length (prune now entries))
        coordinates.length [] answers with
    | none =>
      refine .inr (.inl ⟨rfl, hle, hroom, fun hyields => ?_⟩)
      obtain ⟨tokens, htokens⟩ := drawTokens_of_yields hyields.2
      rw [keptEntries, hdraw] at htokens
      cases htokens
    | some tokens =>
      obtain ⟨drawn, hdrawn, hlength, hnodup, hall⟩ := drawTokens_spec hdraw List.nodup_nil
      rw [List.nil_append] at hdrawn
      subst hdrawn
      refine .inr (.inr ⟨tokens, ?_, hle, hlength, hnodup, hall⟩)
      have hkeys : (tokens.zip coordinates).map Prod.fst = tokens :=
        List.map_fst_zip (Nat.le_of_eq hlength)
      dsimp only
      rw [foldl_set (by rwa [hkeys]) fun choice hchoice =>
          (hall choice.1 (List.of_mem_zip hchoice).1).2,
        evict_eq, prune_eq_live]
      rfl
  · rw [if_pos hvalid]
    exact .inr (.inl ⟨rfl, hle, hroom, fun h => hvalid h.1⟩)

end Issue

/-! ### The store keeps its promises -/

section Runs

variable {run : Run}

/-- A call of `issueMany` only fails where it makes no room. -/
def Meets (run : Run) : Event → Prop
  | .issueMany coordinates answers =>
    NeedsNoRoom run.maxEntries coordinates run.now run.entries ∨
      ((∀ coordinate ∈ coordinates, TravelCoordinateSchema coordinate) ∧
        Yields (keptEntries run.maxEntries coordinates run.now run.entries) coordinates.length []
          answers)
  | _ => True

/-- **The invariant**: what is live of the store is what is live of its promises. -/
structure Run.Sound (run : Run) : Prop where
  bounded : run.entries.length ≤ run.maxEntries
  nodup : run.entries.keys.Nodup
  pattern : ∀ token ∈ run.entries.keys, FullTokenPattern token
  live : Promises.live run.entries run.now = run.promises.live run.now

/-- Entries may be left out, as long as what is live stays. -/
theorem Run.Sound.of_sublist {entries : Entries} (h : run.Sound)
    (hsublist : entries.Sublist run.entries)
    (hlive : Promises.live entries run.now = Promises.live run.entries run.now) :
    ({ run with entries := entries } : Run).Sound where
  bounded := hsublist.length_le.trans h.bounded
  nodup := h.nodup.sublist (hsublist.map Prod.fst)
  pattern token htoken := h.pattern token ((hsublist.map Prod.fst).subset htoken)
  live := hlive.trans h.live

theorem keptEntries_sublist {entries : Entries} {maxEntries : ℕ}
    {coordinates : List TravelCoordinate} {now : ℤ} :
    (keptEntries maxEntries coordinates now entries).Sublist entries := by
  rw [keptEntries, evict_eq]
  exact (List.drop_sublist _ _).trans List.filter_sublist

/-- What is issued follows what is kept. -/
theorem issue_eq {entries : Entries} {maxEntries : ℕ} {coordinates : List TravelCoordinate} {now : ℤ}
    {tokens : List JsString} : Promises.issue entries maxEntries now tokens coordinates =
      keptEntries maxEntries coordinates now entries ++
        (tokens.zip coordinates).map fun choice =>
          (choice.1, ⟨choice.2, now + locationChoiceTtlMs⟩) := by
  rw [keptEntries, evict_eq, prune_eq_live]
  rfl

/-- What is issued depends on what is live only. -/
theorem issue_congr {promises other : Promises} {now : ℤ} (h : promises.live now = other.live now)
    (maxEntries : ℕ) (tokens : List JsString) (coordinates : List TravelCoordinate) :
    promises.issue maxEntries now tokens coordinates =
      other.issue maxEntries now tokens coordinates := by
  unfold Promises.issue
  rw [h]

/-- New tokens are issued for the coordinates. -/
theorem Run.Sound.issue {coordinates : List TravelCoordinate} {tokens : List JsString}
    (h : run.Sound) (hle : coordinates.length ≤ run.maxEntries)
    (hlength : tokens.length = coordinates.length) (hnodup : tokens.Nodup)
    (hnew : ∀ token ∈ tokens, FullTokenPattern token ∧
      token ∉ (keptEntries run.maxEntries coordinates run.now run.entries).keys) :
    ({ run with
        entries := Promises.issue run.entries run.maxEntries run.now tokens coordinates
        promises := run.promises.issue run.maxEntries run.now tokens coordinates } : Run).Sound := by
  have hkeys : (Promises.issue run.entries run.maxEntries run.now tokens coordinates).keys =
      (keptEntries run.maxEntries coordinates run.now run.entries).keys ++ tokens := by
    rw [issue_eq, JsMap.keys, List.map_append, List.map_map]
    exact congrArg _ (List.map_fst_zip (Nat.le_of_eq hlength))
  have hsublist : (keptEntries run.maxEntries coordinates run.now run.entries).keys.Sublist
      run.entries.keys := keptEntries_sublist.map Prod.fst
  refine ⟨?_, ?_, ?_, ?_⟩
  · have hzip : (tokens.zip coordinates).length = coordinates.length := by
      rw [List.length_zip, hlength, Nat.min_self]
    have hdrop := List.length_drop (i := (Promises.live run.entries run.now).length +
      coordinates.length - run.maxEntries) (l := Promises.live run.entries run.now)
    show (List.length (_ ++ _) : ℕ) ≤ run.maxEntries
    rw [List.length_append, List.length_map, hzip, hdrop]
    omega
  · show (Promises.issue run.entries run.maxEntries run.now tokens coordinates).keys.Nodup
    rw [hkeys, List.nodup_append]
    refine ⟨h.nodup.sublist hsublist, hnodup, fun stored hstored token htoken heq => ?_⟩
    exact (hnew token htoken).2 (heq ▸ hstored)
  · intro token htoken
    rcases List.mem_append.mp (hkeys ▸ htoken) with hstored | hissued
    · exact h.pattern token (hsublist.subset hstored)
    · exact (hnew token hissued).1
  · exact congrArg (Promises.live · run.now) (issue_congr h.live _ _ _)

/-- **What one call issues keeps the invariant**, unless it fails after it has made room. -/
theorem Run.Sound.issueMany {coordinates : List TravelCoordinate} {answers : Answers}
    (h : run.Sound) (hmeets : Meets run (.issueMany coordinates answers)) :
    ({ run with
        entries := (issueMany run.maxEntries coordinates run.now answers run.entries).2
        promises := run.promisesAfter coordinates
          (LocationChoices.issueMany run.maxEntries coordinates run.now answers run.entries).1 } :
      Run).Sound := by
  rcases issueMany_spec run.maxEntries coordinates run.now answers run.entries with
    ⟨-, heq⟩ | ⟨heq, -, hroom, hnot⟩ | ⟨tokens, heq, hle, hlength, hnodup, hnew⟩
  · rw [heq]
    exact h.of_sublist List.filter_sublist (live_live _ le_rfl)
  · rw [heq]
    refine h.of_sublist keptEntries_sublist ?_
    rw [hroom (hmeets.resolve_right hnot)]
    exact live_live _ le_rfl
  · rw [heq]
    exact h.issue hle hlength hnodup hnew

/-- What is resolved stays live. -/
theorem Run.Sound.resolve (h : run.Sound) (token : JsString) :
    ({ run with entries := (resolve token run.now run.entries).2 } : Run).Sound := by
  unfold LocationChoices.resolve
  by_cases hpattern : FullTokenPattern token
  · rw [if_neg (not_not.mpr hpattern)]
    cases hget : run.entries.get? token with
    | none => exact h
    | some entry =>
      dsimp only
      by_cases hexpired : entry.expiresAtMs ≤ run.now
      · rw [if_pos hexpired]
        refine h.of_sublist List.filter_sublist ?_
        unfold Promises.live
        rw [List.filter_filter]
        refine List.filter_congr fun stored hstored => ?_
        rw [← Bool.decide_and, decide_eq_decide]
        -- the entry of the token has expired, and there is no other one
        refine and_iff_left_of_imp fun hlive heq => hlive.not_ge ?_
        obtain ⟨key, value⟩ := stored
        obtain rfl : key = token := heq
        rw [(JsMap.mem_iff_get? h.nodup _ _).mp hstored] at hget
        exact Option.some.inj hget ▸ hexpired
      · rw [if_neg hexpired]
        exact h
  · rw [if_pos hpattern]
    exact h

/-- **The store keeps its promises** in every run whose calls only fail where they make no room. -/
theorem sound_of_reachable (h : system.Reachable Meets run) : run.Sound := by
  refine h.invariant (I := Run.Sound) (fun run hinit => ?_) fun run event next hrun hmeets hstep => ?_
  · obtain ⟨-, hentries, hpromises⟩ := hinit
    refine ⟨?_, ?_, ?_, ?_⟩
    · exact hentries ▸ Nat.zero_le _
    · exact hentries ▸ List.nodup_nil
    · intro token htoken
      rw [hentries] at htoken
      exact absurd htoken List.not_mem_nil
    · rw [hentries, hpromises]
  · cases event with
    | advance now =>
      obtain ⟨hnow, hnext⟩ := Option.ite_none_right_eq_some.mp hstep
      cases hnext
      refine ⟨hrun.bounded, hrun.nodup, hrun.pattern, ?_⟩
      have hlive := congrArg (Promises.live · now) hrun.live
      rwa [live_live _ hnow, live_live _ hnow] at hlive
    | issueMany coordinates answers =>
      cases hstep
      exact hrun.issueMany hmeets
    | resolve token =>
      cases hstep
      exact hrun.resolve token

/-! ### What holds of a store in use -/

/-- A token resolves to the coordinate of its entry that is live. -/
theorem resolve_eq {entries : Entries} (hnodup : entries.keys.Nodup)
    (hpattern : ∀ token ∈ entries.keys, FullTokenPattern token) (token : JsString) (now : ℤ) :
    (resolve token now entries).1 =
      ((Promises.live entries now).get? token).map StoredLocationChoice.coordinate := by
  unfold LocationChoices.resolve Promises.live
  rw [JsMap.get?_filter hnodup]
  by_cases htoken : FullTokenPattern token
  · rw [if_neg (not_not.mpr htoken)]
    cases hget : entries.get? token with
    | none => rfl
    | some entry =>
      dsimp only
      by_cases hexpired : entry.expiresAtMs ≤ now
      · rw [if_pos hexpired, Option.filter_some, if_neg]
        · rfl
        · simpa using hexpired
      · rw [if_neg hexpired, Option.filter_some, if_pos]
        · rfl
        · simpa using hexpired
  · rw [if_pos htoken]
    cases hget : entries.get? token with
    | none => rfl
    | some entry =>
      exact absurd (hpattern token (List.mem_map_of_mem (f := Prod.fst) (JsMap.mem_of_get? hget)))
        htoken

/-- What holds of a store in use: it is bounded, its tokens are distinct, a token resolves to what
has been promised for it, and a call that fails leaves the tokens resolved as before, if it makes no
room. -/
structure ChoicesHold (run : Run) : Prop where
  bounded : run.entries.length ≤ run.maxEntries
  unique : run.entries.keys.Nodup
  resolves : ∀ token, (resolve token run.now run.entries).1 =
    ((run.promises.live run.now).get? token).map StoredLocationChoice.coordinate
  atomic : ∀ coordinates answers,
    (issueMany run.maxEntries coordinates run.now answers run.entries).1 = none →
      ((∀ token later, run.now ≤ later →
        (resolve token later
            (issueMany run.maxEntries coordinates run.now answers run.entries).2).1 =
          (resolve token later run.entries).1) ↔
        NeedsNoRoom run.maxEntries coordinates run.now run.entries)

/-- Where room is made, a live entry is evicted. -/
theorem exists_evicted {entries : Entries} {maxEntries : ℕ} {coordinates : List TravelCoordinate}
    {now : ℤ} (hnodup : entries.keys.Nodup)
    (hpattern : ∀ token ∈ entries.keys, FullTokenPattern token)
    (hle : coordinates.length ≤ maxEntries)
    (hroom : maxEntries < (Promises.live entries now).length + coordinates.length) :
    ∃ token, (resolve token now entries).1 ≠ none ∧
      (resolve token now (keptEntries maxEntries coordinates now entries)).1 = none := by
  obtain ⟨n, hn⟩ : ∃ n, (Promises.live entries now).length + coordinates.length - maxEntries =
      n + 1 := ⟨_, (Nat.succ_pred_eq_of_pos (Nat.sub_pos_of_lt hroom)).symm⟩
  have hkept : keptEntries maxEntries coordinates now entries =
      (Promises.live entries now).drop (n + 1) := by
    rw [keptEntries, evict_eq, prune_eq_live, hn]
  have hsublist : (keptEntries maxEntries coordinates now entries).Sublist entries :=
    keptEntries_sublist
  cases hlive : Promises.live entries now with
  | nil =>
    rw [hlive, List.length_nil] at hroom
    omega
  | cons oldest rest =>
    obtain ⟨token, entry⟩ := oldest
    refine ⟨token, ?_, ?_⟩
    · rw [resolve_eq hnodup hpattern, hlive, JsMap.get?, if_pos rfl]
      exact Option.some_ne_none _
    · have hkeys : (Promises.live entries now).keys.Nodup :=
        hnodup.sublist (List.filter_sublist.map Prod.fst)
      rw [hlive] at hkeys
      obtain ⟨hnot, -⟩ := List.nodup_cons.mp hkeys
      rw [resolve_eq (hnodup.sublist (hsublist.map Prod.fst)) fun token htoken =>
        hpattern token ((hsublist.map Prod.fst).subset htoken)]
      cases hget : (Promises.live (keptEntries maxEntries coordinates now entries) now).get? token with
      | none => rfl
      | some other =>
        refine absurd (List.mem_map.mpr ⟨(token, other), ?_, rfl⟩) hnot
        have hmem := List.mem_of_mem_filter (JsMap.mem_of_get? hget)
        rw [hkept, hlive] at hmem
        exact List.mem_of_mem_drop hmem

/-- A call that fails leaves the tokens resolved as before exactly if it makes no room. -/
theorem Run.Sound.atomic (h : run.Sound) {coordinates : List TravelCoordinate} {answers : Answers}
    (hfails : (LocationChoices.issueMany run.maxEntries coordinates run.now answers
      run.entries).1 = none) :
    (∀ token later, run.now ≤ later →
      (LocationChoices.resolve token later
          (LocationChoices.issueMany run.maxEntries coordinates run.now answers run.entries).2).1 =
        (LocationChoices.resolve token later run.entries).1) ↔
      NeedsNoRoom run.maxEntries coordinates run.now run.entries := by
  have hsame : ∀ token later, run.now ≤ later →
      (LocationChoices.resolve token later (Promises.live run.entries run.now)).1 =
        (LocationChoices.resolve token later run.entries).1 := by
    intro token later hlater
    have hsublist : List.Sublist (Promises.live run.entries run.now) run.entries :=
      List.filter_sublist
    rw [resolve_eq h.nodup h.pattern, resolve_eq (h.nodup.sublist (hsublist.map Prod.fst))
      fun token htoken => h.pattern token ((hsublist.map Prod.fst).subset htoken),
      live_live _ hlater]
  rcases issueMany_spec run.maxEntries coordinates run.now answers run.entries with
    ⟨hroom, heq⟩ | ⟨heq, hle, hroom, -⟩ | ⟨tokens, heq, -⟩
  · rw [heq]
    exact iff_of_true hsame hroom
  · rw [heq]
    constructor
    · intro hresolves
      by_contra hnot
      have hmore : run.maxEntries <
          (Promises.live run.entries run.now).length + coordinates.length := by
        rw [← prune_eq_live]
        exact Nat.lt_of_not_le fun henough => hnot (.inr (.inr henough))
      obtain ⟨token, hbefore, hafter⟩ := exists_evicted h.nodup h.pattern hle hmore
      exact hbefore ((hresolves token run.now le_rfl).symm.trans hafter)
    · intro hneeds
      rw [hroom hneeds]
      exact hsame
  · rw [heq] at hfails
    cases hfails

/-- **What holds of a store in use**, in every run whose calls only fail where they make no room. -/
theorem choices_hold (h : system.Reachable Meets run) : ChoicesHold run := by
  have hsound := sound_of_reachable h
  refine ⟨hsound.bounded, hsound.nodup, fun token => ?_, fun _ _ hfails => hsound.atomic hfails⟩
  rw [resolve_eq hsound.nodup hsound.pattern, hsound.live]

end Runs

namespace Example

/-- The text of one token. -/
def opaqueText (n : UInt16) : JsString := List.replicate 42 65 ++ [65 + n]

def token (n : UInt16) : JsString := tokenPrefix ++ opaqueText n

/-- A new store for one choice. -/
def fresh : Run := ⟨1, [], 0, []⟩

def harbour : TravelCoordinate := ⟨59907000, 10751000⟩

def station : TravelCoordinate := ⟨59910900, 10752500⟩

/-- A latitude that does not exist. -/
def nowhere : TravelCoordinate := ⟨90000001, 0⟩

/-- A call that issues one token. -/
def issues (coordinate : TravelCoordinate) (n : UInt16) : Event :=
  .issueMany [coordinate] [some (opaqueText n)]

theorem isInitial_fresh : fresh.IsInitial := ⟨⟨le_rfl, by decide⟩, rfl, rfl⟩

/-- The store in which one choice has been issued. -/
def one : Run where
  maxEntries := 1
  entries := [(token 0, ⟨harbour, 300000⟩)]
  now := 0
  promises := [(token 0, ⟨harbour, 300000⟩)]

theorem step_fresh : system.step fresh (issues harbour 0) = some one := rfl

theorem meets_fresh : Meets fresh (issues harbour 0) := .inl (.inr (.inr le_rfl))

/-- The store in which it has made room for another one. -/
def two : Run where
  maxEntries := 1
  entries := [(token 1, ⟨station, 300000⟩)]
  now := 0
  promises := [(token 1, ⟨station, 300000⟩)]

theorem step_one : system.step one (issues station 1) = some two := rfl

theorem meets_one : Meets one (issues station 1) :=
  .inr ⟨by decide, [], opaqueText 1, [], rfl, by decide, fun _ h => absurd h List.not_mem_nil,
    by decide, by decide, by decide, trivial⟩

end Example

open Example in
theorem choices_hold_two : ChoicesHold two ∧ (resolve (token 1) two.now two.entries).1 = some station :=
  ⟨choices_hold (.next (.next (.init isInitial_fresh) meets_fresh step_fresh) meets_one step_one),
    by decide⟩

open Example in
/-- In a store for one choice, a call with a coordinate that is not valid evicts the choice that was
issued before. -/
theorem not_choices_hold :
    ∃ run, system.Reachable (fun _ _ => True) run ∧ ∃ coordinates answers,
      (issueMany run.maxEntries coordinates run.now answers run.entries).1 = none ∧
        ∃ token, ((run.promises.live run.now).get? token).map StoredLocationChoice.coordinate =
            some harbour ∧
          (resolve token run.now run.entries).1 = some harbour ∧
          (resolve token run.now
            (issueMany run.maxEntries coordinates run.now answers run.entries).2).1 = none :=
  ⟨one, .next (.init isInitial_fresh) trivial step_fresh, [nowhere], [], by decide, token 0, by decide,
    by decide, by decide⟩

end Handleplan.LocationChoices
