import Handleplan.Domain.TravelContracts
import Handleplan.Lib.Transitions

/-!
# Location choices

A store in memory, of a bounded size, that keeps coordinates behind opaque tokens for five minutes.

## Main definitions

* `LocationChoices.issueMany` — the tokens of some coordinates.
* `LocationChoices.resolve` — the coordinate of a token.
* `LocationChoices.Promises` — what a store has promised, and should keep.
* `LocationChoices.system` — a store in use, while time passes.

## Implementation notes

The token source is the list of its answers, of which one that is missing is a failure; a coordinate
of another shape than that of two integers is invalid like one that is out of range.
-/

namespace Handleplan.LocationChoices

open JsString Transitions

/-- `LOCATION_CHOICE_TTL_MS`. -/
def locationChoiceTtlMs : ℤ := 5 * 60 * 1000

/-- The characters of base64 in addresses. -/
def IsTokenUnit (u : UInt16) : Prop :=
  (65 ≤ u ∧ u ≤ 90) ∨ (97 ≤ u ∧ u ≤ 122) ∨ (48 ≤ u ∧ u ≤ 57) ∨ u = 95 ∨ u = 45

instance : DecidablePred IsTokenUnit :=
  fun _ => inferInstanceAs (Decidable ((_ ∧ _) ∨ (_ ∧ _) ∨ (_ ∧ _) ∨ _ ∨ _))

/-- `TOKEN_PATTERN`. -/
def TokenPattern (opaqueText : JsString) : Prop :=
  opaqueText.length = 43 ∧ ∀ u ∈ opaqueText, IsTokenUnit u

instance : DecidablePred TokenPattern := fun _ => inferInstanceAs (Decidable (_ ∧ _))

/-- What a token begins with. -/
def tokenPrefix : JsString := js "location-choice:"

/-- `FULL_TOKEN_PATTERN`. -/
def FullTokenPattern (token : JsString) : Prop :=
  token.take tokenPrefix.length = tokenPrefix ∧ TokenPattern (token.drop tokenPrefix.length)

instance : DecidablePred FullTokenPattern := fun _ => inferInstanceAs (Decidable (_ ∧ _))

/-- `StoredLocationChoice`. -/
structure StoredLocationChoice where
  coordinate : TravelCoordinate
  expiresAtMs : ℤ

/-- `entries`. -/
abbrev Entries := JsMap JsString StoredLocationChoice

/-- What a call of the token source answers, if it does not fail. -/
abbrev Answers := List (Option JsString)

/-! ### The operations -/

/-- `prune`. -/
def prune (atMs : ℤ) (entries : Entries) : Entries :=
  entries.filter fun entry => ¬ entry.2.expiresAtMs ≤ atMs

/-- The loop that makes room: the oldest entries are deleted. -/
def evict (maxEntries count : ℕ) : Entries → Entries
  | [] => []
  | entry :: rest =>
    if maxEntries < (entry :: rest).length + count then evict maxEntries count rest
    else entry :: rest

/-- A token that is neither stored nor pending, in at most so many attempts. -/
def drawToken (entries : Entries) (pending : List JsString) :
    ℕ → Answers → Option (JsString × Answers)
  | 0, _ => none
  | _ + 1, [] => none
  | _ + 1, none :: _ => none
  | attempts + 1, some opaqueText :: answers =>
    if ¬ TokenPattern opaqueText then none
    else
      let candidate := tokenPrefix ++ opaqueText
      if entries.has candidate = false ∧ candidate ∉ pending then some (candidate, answers)
      else drawToken entries pending attempts answers

/-- The tokens of so many coordinates, after those that are pending. -/
def drawTokens (entries : Entries) : ℕ → List JsString → Answers → Option (List JsString)
  | 0, pending, _ => some pending
  | count + 1, pending, answers =>
    match drawToken entries pending 8 answers with
    | none => none
    | some (token, answers) => drawTokens entries count (pending ++ [token]) answers

/-- `issueMany`, and the entries that it leaves. -/
def issueMany (maxEntries : ℕ) (coordinates : List TravelCoordinate) (atMs : ℤ) (answers : Answers)
    (entries : Entries) : Option (List JsString) × Entries :=
  let pruned := prune atMs entries
  if 5 < coordinates.length then (none, pruned)
  else if maxEntries < coordinates.length then (none, pruned)
  else
    let kept := evict maxEntries coordinates.length pruned
    if ¬ ∀ coordinate ∈ coordinates, TravelCoordinateSchema coordinate then (none, kept)
    else
      match drawTokens kept coordinates.length [] answers with
      | none => (none, kept)
      | some tokens =>
        (some tokens, (tokens.zip coordinates).foldl
          (fun entries choice => entries.set choice.1 ⟨choice.2, atMs + locationChoiceTtlMs⟩) kept)

/-- `resolve`, and the entries that it leaves. -/
def resolve (token : JsString) (atMs : ℤ) (entries : Entries) : Option TravelCoordinate × Entries :=
  if ¬ FullTokenPattern token then (none, entries)
  else
    match entries.get? token with
    | none => (none, entries)
    | some entry =>
      if entry.expiresAtMs ≤ atMs then (none, entries.filter fun stored => stored.1 ≠ token)
      else (some entry.coordinate, entries)

/-! ### What a store has promised -/

/-- What a store has promised, from the oldest promise on. -/
abbrev Promises := JsMap JsString StoredLocationChoice

/-- The promises that have not expired. -/
def Promises.live (promises : Promises) (now : ℤ) : Promises :=
  promises.filter fun promise => now < promise.2.expiresAtMs

/-- **What tokens that are issued add**, where no more than the oldest promises are withdrawn that
there is no room for. -/
def Promises.issue (promises : Promises) (maxEntries : ℕ) (now : ℤ) (tokens : List JsString)
    (coordinates : List TravelCoordinate) : Promises :=
  let live := promises.live now
  live.drop (live.length + coordinates.length - maxEntries) ++
    (tokens.zip coordinates).map fun choice => (choice.1, ⟨choice.2, now + locationChoiceTtlMs⟩)

/-! ### A store in use -/

/-- A store, the time, and what it has promised until then. -/
structure Run where
  maxEntries : ℕ
  entries : Entries
  now : ℤ
  promises : Promises

/-- What happens to a store. -/
inductive Event where
  | advance (now : ℤ)
  | issueMany (coordinates : List TravelCoordinate) (answers : Answers)
  | resolve (token : JsString)

/-- What is promised after tokens have been issued, or have not. -/
def Run.promisesAfter (run : Run) (coordinates : List TravelCoordinate) :
    Option (List JsString) → Promises
  | none => run.promises
  | some tokens => run.promises.issue run.maxEntries run.now tokens coordinates

/-- A step, where time does not go back. -/
def Run.step (run : Run) : Event → Option Run
  | .advance now => if run.now ≤ now then some { run with now := now } else none
  | .issueMany coordinates answers =>
    let result := issueMany run.maxEntries coordinates run.now answers run.entries
    some { run with entries := result.2, promises := run.promisesAfter coordinates result.1 }
  | .resolve token => some { run with entries := (resolve token run.now run.entries).2 }

/-- A new store. -/
structure Run.IsInitial (run : Run) : Prop where
  maxEntries : 1 ≤ run.maxEntries ∧ run.maxEntries ≤ 100000
  entries : run.entries = []
  promises : run.promises = []

/-- A store in use. -/
def system : System Run Event where
  init := Run.IsInitial
  step := Run.step

end Handleplan.LocationChoices
