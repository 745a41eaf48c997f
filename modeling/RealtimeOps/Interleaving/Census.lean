import Mathlib.Combinatorics.Enumerative.DoubleCounting
import Mathlib.Data.Fintype.Basic

/-!
# Counting class by class

Items are in classes. Each class is counted once, at some moment of a run, and items move between
the classes all the while. An item that goes from a class that has been counted to one that has
not is counted again (`Survey.Repeats`), and one that goes the other way is missed
(`Survey.Misses`).

The balance of an item is how often it has been counted, and one more if its class is still to be
counted. Only these two kinds of moves change it (`Survey.Change.balance`), so once all classes
have been counted an item has been counted once exactly if it was as often repeated as missed
(`Survey.times_eq_one_iff`).
-/

set_option autoImplicit false

namespace Interleaving

open Finset

/-- The class of each item, and the items found in each class that has been counted. -/
structure Survey (ι κ : Type) where
  classOf : ι → Option κ
  found : κ → Option (Finset ι)

namespace Survey

variable {ι κ : Type} {s s' : Survey ι κ} {i : ι}

/-- The class is still to be counted. -/
def Due (s : Survey ι κ) (c : Option κ) : Prop :=
  ∃ k ∈ c, s.found k = none

instance (s : Survey ι κ) : DecidablePred s.Due := fun c =>
  inferInstanceAs (Decidable (∃ k ∈ c, s.found k = none))

/-- The item leaves a counted class for one still to be counted. -/
def Repeats (i : ι) (s s' : Survey ι κ) : Prop :=
  ¬s.Due (s.classOf i) ∧ s.Due (s'.classOf i)

/-- The item leaves a class still to be counted for a counted one. -/
def Misses (i : ι) (s s' : Survey ι κ) : Prop :=
  s.Due (s.classOf i) ∧ ¬s.Due (s'.classOf i)

instance (i : ι) : DecidableRel (Repeats (κ := κ) i) := fun _ _ =>
  inferInstanceAs (Decidable (_ ∧ _))

instance (i : ι) : DecidableRel (Misses (κ := κ) i) := fun _ _ =>
  inferInstanceAs (Decidable (_ ∧ _))

/-- The item was found in the class. -/
def Counted (s : Survey ι κ) (i : ι) (k : κ) : Prop :=
  ∃ items ∈ s.found k, i ∈ items

variable [DecidableEq ι]

instance (s : Survey ι κ) (i : ι) : DecidablePred (s.Counted i) := fun k =>
  inferInstanceAs (Decidable (∃ items ∈ s.found k, i ∈ items))

variable [Fintype κ]

/-- In how many classes the item was found. -/
def times (s : Survey ι κ) (i : ι) : ℕ :=
  #{k | s.Counted i k}

/-- How often the item will have been counted if it does not move any more. -/
def balance (s : Survey ι κ) (i : ι) : ℕ :=
  s.times i + if s.Due (s.classOf i) then 1 else 0

theorem times_congr (h : s'.found = s.found) : s'.times i = s.times i := by
  rw [times, times]
  exact congrArg card (filter_congr fun k _ => by rw [Counted, h, Counted])

/-- Before anything is counted. -/
theorem balance_of_uncounted (h : ∀ k, s.found k = none) :
    s.balance i = if (s.classOf i).isSome then 1 else 0 := by
  have hnone : s.times i = 0 := by
    rw [times, card_eq_zero, filter_eq_empty_iff]
    rintro k - ⟨items, hitems, -⟩
    cases (h k).symm.trans hitems
  have hdue : s.Due (s.classOf i) ↔ (s.classOf i).isSome := by
    simp [Due, h, Option.isSome_iff_exists]
  simp only [balance, hnone, hdue, Nat.zero_add]

/-- Once everything is counted. -/
theorem balance_of_counted (h : ∀ k, (s.found k).isSome) : s.balance i = s.times i := by
  have hdue : ¬s.Due (s.classOf i) := by
    rintro ⟨k, -, hk⟩
    simpa [hk] using h k
  rw [balance, if_neg hdue, Nat.add_zero]

/-- The item was found in one class. -/
theorem times_eq_one_iff : s.times i = 1 ↔ ∃! k, s.Counted i k := by
  rw [times, card_eq_one, singleton_iff_unique_mem]
  simp only [mem_filter_univ]

/-- The numbers of items found add up to how often each was found. -/
theorem sum_card_found {items : Finset ι} (h : ∀ k, ∀ found ∈ s.found k, found ⊆ items) :
    ∑ k, ((s.found k).getD ∅).card = ∑ i ∈ items, s.times i := by
  have hfound : ∀ k, (s.found k).getD ∅ = bipartiteAbove (fun k i => s.Counted i k) items k := by
    intro k
    ext i
    cases hk : s.found k with
    | none => simp [Counted, bipartiteAbove, hk]
    | some found =>
      have hsub : i ∈ found → i ∈ items := fun hi => h k found hk hi
      simpa [Counted, bipartiteAbove, hk] using hsub
  simp only [hfound, sum_card_bipartiteAbove_eq_sum_card_bipartiteBelow]
  rfl

/-! ## Changes -/

variable [DecidableEq κ]

/-- Items move between the classes, or one class is counted. -/
inductive Change (s s' : Survey ι κ) : Prop where
  | moved (hfound : s'.found = s.found)
  | counted (k : κ) (items : Finset ι) (hdue : s.found k = none) (hclass : s'.classOf = s.classOf)
    (hitems : ∀ i, i ∈ items ↔ s.classOf i = some k)
    (hfound : s'.found = Function.update s.found k (some items))

/-- Counting a class finds the items in it. -/
theorem times_count {k : κ} {items : Finset ι} (hdue : s.found k = none)
    (hfound : s'.found = Function.update s.found k (some items)) :
    s'.times i = s.times i + if i ∈ items then 1 else 0 := by
  have hother : ∀ k', k' ≠ k → (s'.Counted i k' ↔ s.Counted i k') := fun k' hk' => by
    rw [Counted, hfound, Function.update_of_ne hk', Counted]
  have hself : s'.Counted i k ↔ i ∈ items := by
    rw [Counted, hfound, Function.update_self]
    simp
  have hnot : ¬s.Counted i k := by
    rw [Counted, hdue]
    simp
  split_ifs with hi
  · have hinsert : univ.filter (s'.Counted i) = insert k (univ.filter (s.Counted i)) := by
      ext k'
      by_cases hk' : k' = k
      · simp [hk', hself, hi]
      · simp [hk', hother k' hk']
    rw [times, hinsert, card_insert_of_notMem (by simpa using hnot), times]
  · have hsame : univ.filter (s'.Counted i) = univ.filter (s.Counted i) := by
      ext k'
      by_cases hk' : k' = k
      · simp [hk', hself, hi, hnot]
      · simp [hother k' hk']
    rw [times, hsame, times, Nat.add_zero]

/-- An item is repeated or missed, or its balance stays. -/
theorem Change.balance (h : Change s s') (i : ι) :
    s'.balance i + (if Misses i s s' then 1 else 0) =
      s.balance i + if Repeats i s s' then 1 else 0 := by
  cases h with
  | moved hfound =>
    have hdue : ∀ c, s'.Due c ↔ s.Due c := fun c => by rw [Due, hfound, Due]
    simp only [Survey.balance, times_congr hfound, hdue, Misses, Repeats]
    split_ifs <;> grind
  | counted k items hdue hclass hitems hfound =>
    have hstay : ¬Misses i s s' ∧ ¬Repeats i s s' := by
      rw [Misses, Repeats, hclass]
      exact ⟨and_not_self, fun h => h.1 h.2⟩
    have hdue' : s'.Due (s.classOf i) ↔ s.Due (s.classOf i) ∧ i ∉ items := by
      rw [hitems, Due, Due, hfound]
      cases s.classOf i with
      | none => simp
      | some k' =>
        by_cases hk' : k' = k
        · simp [hk']
        · simp [hk']
    have hin : i ∈ items → s.Due (s.classOf i) := fun hi => ⟨k, (hitems i).mp hi, hdue⟩
    rw [if_neg hstay.1, if_neg hstay.2, Survey.balance, Survey.balance, hclass,
      times_count hdue hfound]
    simp only [hdue']
    split_ifs <;> grind

end Survey

/-! ## Runs -/

section Runs

variable {State Label : Type} {step : State → Label → Option State}

/-- How many moves of a run have `p` of the states before and after them. -/
def occurrences (step : State → Label → Option State) (p : State → State → Prop)
    [DecidableRel p] : State → List Label → ℕ
  | _, [] => 0
  | s, l :: ls =>
    (step s l).elim 0 fun s' => (if p s s' then 1 else 0) + occurrences step p s' ls

variable {ι κ : Type} [DecidableEq ι] [DecidableEq κ] [Fintype κ]

/-- Over a run. -/
theorem Survey.balance_run {survey : State → Survey ι κ}
    (hstep : ∀ s l s', step s l = some s' → Change (survey s) (survey s')) (i : ι) :
    ∀ {ls : List Label} {s t : State}, ls.foldlM step s = some t →
      (survey t).balance i + occurrences step (fun s s' => Misses i (survey s) (survey s')) s ls =
        (survey s).balance i + occurrences step (fun s s' => Repeats i (survey s) (survey s')) s ls
  | [], s, t, h => by
    cases h
    rfl
  | l :: ls, s, t, h => by
    obtain ⟨s₁, hs₁, hrest⟩ := Option.bind_eq_some_iff.mp (List.foldlM_cons (m := Option) ▸ h)
    have hfirst := (hstep s l s₁ hs₁).balance i
    have hafter := balance_run hstep i hrest
    rw [occurrences, occurrences, hs₁, Option.elim_some, Option.elim_some]
    omega

/-- An item that was there from the start, over a run in which every class is counted : it is
counted once exactly if it is as often repeated as missed. -/
theorem Survey.counted_once_iff {survey : State → Survey ι κ}
    (hstep : ∀ s l s', step s l = some s' → Change (survey s) (survey s')) {i : ι}
    {ls : List Label} {s t : State} (h : ls.foldlM step s = some t)
    (hfirst : ∀ k, (survey s).found k = none) (hi : ((survey s).classOf i).isSome)
    (hlast : ∀ k, ((survey t).found k).isSome) :
    (∃! k, (survey t).Counted i k) ↔
      occurrences step (fun s s' => Repeats i (survey s) (survey s')) s ls =
        occurrences step (fun s s' => Misses i (survey s) (survey s')) s ls := by
  have hbalance := balance_run hstep i h
  rw [balance_of_counted hlast, balance_of_uncounted hfirst, if_pos hi] at hbalance
  rw [← times_eq_one_iff]
  omega

end Runs

end Interleaving
