import Mathlib.Algebra.Order.Group.Defs
import Mathlib.Algebra.Order.Sub.Basic
import Mathlib.Data.List.Basic
import Mathlib.Order.Basic

/-!
# Admission by a sliding window

Claims are granted as long as fewer than a limit were granted within a width before. The moments of
the claims are kept as rows, of which those that have left the window are pruned from time to time;
so the rows may hold more than the window does, but never less.

## Main definitions

* `SlidingWindow.Bounded` — no more than a limit of moments are less than a width apart.
* `SlidingWindow.IsFree` — a claim at a moment is within the limit.
* `SlidingWindow.Keeps` — what the rows keep of the moments that were granted.

## Main results

* `SlidingWindow.Keeps.prune`, `SlidingWindow.Keeps.grant` — the two operations keep it.
* `SlidingWindow.Bounded.within_Ioc`, `SlidingWindow.Bounded.within_Ico` — half-open windows.
* `SlidingWindow.Covers.isFree`, `SlidingWindow.not_isFree` — from when on a claim is within the
  limit.
-/

namespace SlidingWindow

variable {α : Type*} [LinearOrder α]

/-- The moments that are later than one. -/
def after (start : α) (moments : List α) : List α := moments.filter fun moment => start < moment

variable {moment start : α} {kept : List α}

theorem mem_after {moments : List α} : moment ∈ after start moments ↔
    moment ∈ moments ∧ start < moment := by
  unfold after
  rw [List.mem_filter, decide_eq_true_iff]

theorem after_append (start : α) (moments moments' : List α) :
    after start (moments ++ moments') = after start moments ++ after start moments' :=
  List.filter_append _ _

theorem after_sublist_after {moments moments' : List α} (h : moments.Sublist moments') (start : α) :
    (after start moments).Sublist (after start moments') := h.filter _

/-- Fewer moments are later than a later one. -/
theorem after_sublist_of_le {start' : α} (h : start ≤ start') (moments : List α) :
    (after start' moments).Sublist (after start moments) := by
  refine List.monotone_filter_right moments fun m hm => ?_
  exact decide_eq_true (h.trans_lt (of_decide_eq_true hm))

/-- Moments that are later than one are all there are of those later than it. -/
theorem sublist_after {moments : List α} (h : kept.Sublist moments) (hlater : ∀ m ∈ kept, start < m) :
    kept.Sublist (after start moments) := by
  have hall : after start kept = kept :=
    List.filter_eq_self.mpr fun m hm => decide_eq_true (hlater m hm)
  exact hall ▸ after_sublist_after h start

/-- Where one moment is not later, there are fewer. -/
theorem length_after_lt {moments : List α} (hmem : moment ∈ moments) (hle : moment ≤ start) :
    (after start moments).length < moments.length := by
  refine (List.length_filter_lt_length_iff_exists).mpr ⟨moment, hmem, ?_⟩
  simpa using hle

/-! ### Windows -/

variable [AddCommGroup α]

/-- **No more than a limit of moments are less than a width apart.** -/
def Bounded (limit : ℕ) (width : α) (moments : List α) : Prop :=
  ∀ close : List α, close.Sublist moments → (∀ x ∈ close, ∀ y ∈ close, x - y < width) →
    close.length ≤ limit

/-- Rows hold every granted moment of the window that ends now. -/
def Covers (width now : α) (granted rows : List α) : Prop :=
  (after (now - width) granted).Sublist rows

/-- Whether a claim at a moment is within the limit. -/
def IsFree (limit : ℕ) (width : α) (granted : List α) (moment : α) : Prop :=
  (after (moment - width) granted).length < limit

instance (limit : ℕ) (width : α) (granted : List α) : DecidablePred (IsFree limit width granted) :=
  fun _ => inferInstanceAs (Decidable (_ < _))

/-- **What rows keep of the moments that were granted**, at a moment that is not before them. -/
structure Keeps (limit : ℕ) (width now : α) (granted rows : List α) : Prop where
  past : ∀ moment ∈ granted, moment ≤ now
  bounded : Bounded limit width granted
  few : rows.length ≤ limit
  sublist : rows.Sublist granted
  covers : Covers width now granted rows

variable {limit : ℕ} {width now : α} {granted rows : List α}

theorem Bounded.nil : Bounded limit width ([] : List α) := by
  intro close hclose _
  rw [List.sublist_nil.mp hclose]
  exact Nat.zero_le _

/-- Rows that are pruned of what has left the window cover it still. -/
theorem Covers.prune (h : Covers width now granted rows)
    (hkept : (after (now - width) rows).Sublist kept) : Covers width now granted kept := by
  refine List.Sublist.trans ?_ hkept
  exact sublist_after h fun m hm => (mem_after.mp hm).2

/-- As long as as many rows as the limit are in the window, no claim is within it. -/
theorem not_isFree (hsub : rows.Sublist granted) (hle : limit ≤ rows.length)
    (hin : ∀ m ∈ rows, moment - width < m) : ¬ IsFree limit width granted moment := by
  unfold IsFree
  rw [not_lt]
  exact hle.trans (sublist_after hsub hin).length_le

variable [IsOrderedAddMonoid α]

/-- Windows that are open on the left. -/
theorem Bounded.within_Ioc (h : Bounded limit width granted) (start : α) :
    (granted.filter fun m => start < m ∧ m ≤ start + width).length ≤ limit := by
  refine h _ List.filter_sublist fun x hx y hy => ?_
  obtain ⟨-, hx⟩ := List.mem_filter.mp hx
  obtain ⟨-, hy⟩ := List.mem_filter.mp hy
  obtain ⟨-, hx⟩ := of_decide_eq_true hx
  obtain ⟨hy, -⟩ := of_decide_eq_true hy
  exact sub_lt_iff_lt_add'.mpr (hx.trans_lt (by simpa using hy))

/-- Windows that are open on the right. -/
theorem Bounded.within_Ico (h : Bounded limit width granted) (start : α) :
    (granted.filter fun m => start ≤ m ∧ m < start + width).length ≤ limit := by
  refine h _ List.filter_sublist fun x hx y hy => ?_
  obtain ⟨-, hx⟩ := List.mem_filter.mp hx
  obtain ⟨-, hy⟩ := List.mem_filter.mp hy
  obtain ⟨-, hx⟩ := of_decide_eq_true hx
  obtain ⟨hy, -⟩ := of_decide_eq_true hy
  exact sub_lt_iff_lt_add'.mpr (hx.trans_le (by simpa using hy))

theorem Covers.later {later : α} (h : Covers width now granted rows) (hle : now ≤ later) :
    Covers width later granted rows :=
  (after_sublist_of_le (sub_le_sub_right hle width) granted).trans h

namespace Keeps

omit [IsOrderedAddMonoid α] in
theorem nil : Keeps limit width now ([] : List α) [] where
  past := fun _ hm => nomatch hm
  bounded := .nil
  few := Nat.zero_le _
  sublist := List.Sublist.refl _
  covers := List.Sublist.refl _

variable (h : Keeps limit width now granted rows)

include h

theorem later {later : α} (hle : now ≤ later) : Keeps limit width later granted rows where
  past m hm := (h.past m hm).trans hle
  bounded := h.bounded
  few := h.few
  sublist := h.sublist
  covers := h.covers.later hle

omit [IsOrderedAddMonoid α] in
/-- **Pruning**: all rows of the window stay. -/
theorem prune (hkept : (after (now - width) rows).Sublist kept) (hsub : kept.Sublist rows) :
    Keeps limit width now granted kept where
  past := h.past
  bounded := h.bounded
  few := hsub.length_le.trans h.few
  sublist := hsub.trans h.sublist
  covers := h.covers.prune hkept

/-- **Granting**, when there are fewer rows than the limit.

**Proof sketch.** Moments that are less than a width apart and of which one is now are all in the
window that ends now, and what was granted of them before is among the rows. -/
theorem grant (hlt : rows.length < limit) :
    Keeps limit width now (granted ++ [now]) (rows ++ [now]) where
  past m hm := by
    obtain hold | hnew := List.mem_append.mp hm
    · exact h.past m hold
    · exact (List.mem_singleton.mp hnew).le
  bounded := by
    intro close hclose happart
    obtain ⟨old, new, rfl, hold, hnew⟩ := List.sublist_append_iff.mp hclose
    obtain rfl | rfl := List.sublist_singleton.mp hnew
    · refine h.bounded _ (by simpa using hold) happart
    · have hin : old.Sublist (after (now - width) granted) := by
        refine sublist_after hold fun m hm => ?_
        have hm := happart now (by simp) m (List.mem_append_left _ hm)
        exact sub_lt_comm.mp hm
      have hle : old.length ≤ rows.length := (hin.trans h.covers).length_le
      rw [List.length_append, List.length_singleton]
      exact hle.trans_lt hlt
  few := by
    rw [List.length_append, List.length_singleton]
    exact hlt
  sublist := h.sublist.append (List.Sublist.refl _)
  covers := by
    unfold Covers
    rw [after_append]
    exact h.covers.append List.filter_sublist

end Keeps

/-- Once one row has left the window, a claim is within the limit. -/
theorem Covers.isFree (h : Covers width now granted rows) (hfew : rows.length ≤ limit)
    (hmem : start ∈ rows) (hle : now ≤ moment) (hleft : start ≤ moment - width) :
    IsFree limit width granted moment := by
  have hin : (after (moment - width) granted).Sublist (after (moment - width) rows) :=
    sublist_after (h.later hle) fun m hm => (mem_after.mp hm).2
  exact (hin.length_le.trans_lt (length_after_lt hmem hleft)).trans_le hfew

end SlidingWindow
