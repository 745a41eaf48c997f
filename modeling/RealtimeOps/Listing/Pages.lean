import Mathlib.Algebra.Order.Floor.Div
import Mathlib.Data.List.Pairwise
import Mathlib.Data.List.Sort
import Mathlib.Tactic.SplitIfs

/-!
# Pages of an ordered list

Rows are read page by page, each page a slice of the rows in some order that `r` allows. Rows
that are tied in `r` may stand in any order, and in another one for the next page.

`Partition` says that the pages together are the rows, each once, and all but the last of them
full. Whatever the orders, this is so exactly if no group of tied rows reaches over the end of a
page (`partition_iff`) : then the first `k` pages hold the same rows in every order
(`Ordered.take_perm`), and else the two rows next to the end may change places between two pages.
-/

set_option autoImplicit false

namespace Listing

variable {α β : Type} {r : α → α → Prop}

/-- An order of the rows that `r` allows. -/
structure Ordered (r : α → α → Prop) (rows l : List α) : Prop where
  perm : l.Perm rows
  sorted : l.Pairwise r

/-- Page `p` of a list, counted from 1. -/
def page (limit : ℕ) (l : List α) (p : ℕ) : List α :=
  (l.drop ((p - 1) * limit)).take limit

/-- The rows of the pages 1 to `n`. -/
def walk (pages : ℕ → List α) (n : ℕ) : List α :=
  (List.range' 1 n).flatMap pages

/-- The rows are split into `n` pages. -/
structure Partition (limit : ℕ) (rows : List α) (pages : ℕ → List α) (n : ℕ) : Prop where
  once : (walk pages n).Perm rows
  full : ∀ p, 1 ≤ p → p < n → (pages p).length = limit
  last : rows ≠ [] → pages n ≠ []
  after : ∀ p, n < p → pages p = []

/-- The rows tied with `x` begin before the end of some page and go on after it. -/
def Straddles (r : α → α → Prop) [DecidableRel r] (limit : ℕ) (rows : List α) (x : α) : Prop :=
  ∃ k, (rows.countP fun y => ¬r x y) < k * limit ∧ k * limit < rows.countP fun y => r y x

/-- On one page nothing straddles. -/
theorem not_straddles_of_length_le [DecidableRel r] {limit : ℕ} {rows : List α}
    (h : rows.length ≤ limit) (x : α) : ¬Straddles r limit rows x := by
  rintro ⟨k, hfirst, hlast⟩
  have hle : rows.countP (fun y => r y x) ≤ rows.length := List.countP_le_length
  have hpage := Nat.mul_le_mul_right limit (Nat.pos_of_ne_zero (by rintro rfl; omega) : 1 ≤ k)
  omega

/-! ## Sorted lists -/

/-- The rows of a set that is closed towards the front come first. -/
theorem filter_eq_take {D : α → Prop} [DecidablePred D] (hD : ∀ a b, r a b → D b → D a) :
    ∀ {l : List α}, l.Pairwise r → l.filter D = l.take (l.countP D)
  | [], _ => rfl
  | a :: l, h => by
    obtain ⟨hfirst, hrest⟩ := List.pairwise_cons.mp h
    by_cases ha : D a
    · rw [List.filter_cons_of_pos (by simpa using ha), List.countP_cons_of_pos (by simpa using ha),
        List.take_succ_cons, filter_eq_take hD hrest]
    · have hnone : ∀ b ∈ a :: l, ¬decide (D b) = true := by
        intro b hb
        rcases List.mem_cons.mp hb with rfl | hb
        · simpa using ha
        · simpa using fun hb' => ha (hD a b (hfirst b hb) hb')
      rw [List.filter_eq_nil_iff.mpr hnone, List.countP_eq_zero.mpr hnone, List.take_zero]

/-- How many rows of a set that is closed towards the front there are, by position. -/
theorem lt_countP_iff {D : α → Prop} [DecidablePred D] (hD : ∀ a b, r a b → D b → D a) {l : List α}
    (hl : l.Pairwise r) {i : ℕ} (hi : i < l.length) : i < l.countP D ↔ D l[i] := by
  have hle : l.countP D ≤ l.length := List.countP_le_length
  constructor
  · intro hlt
    have hmem : l[i] ∈ l.take (l.countP D) := List.mem_take_iff_getElem.mpr ⟨i, by omega, rfl⟩
    rw [← filter_eq_take hD hl] at hmem
    simpa using (List.mem_filter.mp hmem).2
  · intro hi'
    by_contra hge
    -- Else the rows up to `i` are in the set too, one more than there are.
    have hall : (l.take (i + 1)).countP D = (l.take (i + 1)).length := by
      refine List.countP_eq_length.mpr fun y hy => ?_
      obtain ⟨j, hj, rfl⟩ := List.mem_take_iff_getElem.mp hy
      rw [decide_eq_true_eq]
      rcases Nat.lt_or_ge j i with hlt | hge
      · exact hD _ _ (List.pairwise_iff_getElem.mp hl j i _ hi hlt) hi'
      · have hji : j = i := by omega
        subst hji
        exact hi'
    have hsub := (List.take_sublist (i + 1) l).countP_le (p := fun y => decide (D y))
    rw [hall, List.length_take] at hsub
    omega

namespace Ordered

variable [DecidableRel r] [IsTrans α r] {rows l l' : List α} {n : ℕ}

/-- The rows that may stand before `x`, by position. -/
theorem lt_countP_le (h : Ordered r rows l) (x : α) {i : ℕ} (hi : i < l.length) :
    i < rows.countP (fun y => r y x) ↔ r l[i] x := by
  rw [← h.perm.countP_eq]
  exact lt_countP_iff (fun _ _ hab hb => IsTrans.trans _ _ _ hab hb) h.sorted hi

/-- The rows that have to stand before `x`, by position. -/
theorem lt_countP_lt (h : Ordered r rows l) (x : α) {i : ℕ} (hi : i < l.length) :
    i < rows.countP (fun y => ¬r x y) ↔ ¬r x l[i] := by
  rw [← h.perm.countP_eq]
  exact lt_countP_iff (fun _ _ hab hb hxa => hb (IsTrans.trans _ _ _ hxa hab)) h.sorted hi

/-- The rows that may stand before `x` come first in every order. -/
theorem take_perm_of_countP (h : Ordered r rows l) (h' : Ordered r rows l') {x : α}
    (hn : rows.countP (fun y => r y x) = n) : (l.take n).Perm (l'.take n) := by
  have hfirst : ∀ {l : List α}, Ordered r rows l → l.take n = l.filter fun y => r y x := by
    intro l h
    rw [filter_eq_take (fun _ _ hab hb => IsTrans.trans _ _ _ hab hb) h.sorted,
      h.perm.countP_eq, hn]
  rw [hfirst h, hfirst h']
  exact (h.perm.trans h'.perm.symm).filter _

/-- If no row straddles it, the end of a page has the same rows before it in every order. -/
theorem take_perm [Std.Refl r] (h : Ordered r rows l) (h' : Ordered r rows l')
    {limit k : ℕ} (hsplit : ∀ x ∈ rows, ¬Straddles r limit rows x) :
    (l.take (k * limit)).Perm (l'.take (k * limit)) := by
  have hlength : l.length = rows.length := h.perm.length_eq
  have hlength' : l'.length = rows.length := h'.perm.length_eq
  rcases Nat.eq_zero_or_pos (k * limit) with hzero | hpos
  · rw [hzero, List.take_zero, List.take_zero]
  rcases Nat.lt_or_ge (k * limit) rows.length with hlt | hge
  · -- The last row before the end, and the rows that may stand before it.
    have hi : k * limit - 1 < l.length := by omega
    have hmem := h.perm.subset (List.getElem_mem hi)
    have hbefore := (h.lt_countP_lt l[k * limit - 1] hi).not.mpr (not_not.mpr (refl _))
    have hupto := (h.lt_countP_le l[k * limit - 1] hi).mpr (refl _)
    have hmore : ¬k * limit < rows.countP fun y => r y l[k * limit - 1] := fun hmore =>
      hsplit _ hmem ⟨k, by omega, hmore⟩
    exact h.take_perm_of_countP h' (x := l[k * limit - 1]) (by omega)
  · rw [List.take_of_length_le (by omega), List.take_of_length_le (by omega)]
    exact h.perm.trans h'.perm.symm

omit [DecidableRel r] [IsTrans α r] in
/-- Two tied rows that stand next to each other may change places. -/
theorem swap {a b : α} {before after : List α} (h : Ordered r rows (before ++ a :: b :: after))
    (hba : r b a) : Ordered r rows (before ++ b :: a :: after) := by
  refine ⟨(List.Perm.append_left _ (.swap _ _ _)).trans h.perm, ?_⟩
  have hsorted := h.sorted
  simp only [List.pairwise_append, List.pairwise_cons, List.mem_cons, forall_eq_or_imp] at hsorted ⊢
  obtain ⟨hbefore, ⟨⟨-, ha⟩, hb, hafter⟩, hacross⟩ := hsorted
  refine ⟨hbefore, ⟨⟨hba, hb⟩, ha, hafter⟩, fun c hc => ?_⟩
  exact ⟨(hacross c hc).2.1, (hacross c hc).1, (hacross c hc).2.2⟩

end Ordered

/-! ## Pages -/

@[simp] theorem walk_zero (pages : ℕ → List α) : walk pages 0 = [] := rfl

theorem walk_succ (pages : ℕ → List α) (n : ℕ) :
    walk pages (n + 1) = walk pages n ++ pages (n + 1) := by
  rw [walk, List.range'_1_concat, List.flatMap_append, List.flatMap_singleton, Nat.add_comm 1 n]
  rfl

theorem length_page (limit : ℕ) (l : List α) (p : ℕ) :
    (page limit l p).length = min limit (l.length - (p - 1) * limit) := by
  rw [page, List.length_take, List.length_drop]

theorem mem_page {limit : ℕ} {l : List α} {p i : ℕ} {a : α} (hi : l[i]? = some a)
    (hfirst : (p - 1) * limit ≤ i) (hlast : i < (p - 1) * limit + limit) : a ∈ page limit l p := by
  refine List.mem_of_getElem? (i := i - (p - 1) * limit) ?_
  rw [page, List.getElem?_take_of_lt (by omega), List.getElem?_drop, Nat.add_sub_cancel' hfirst, hi]

/-- Page `k + 1` goes on where the first `k` pages end. -/
theorem take_succ_mul (limit : ℕ) (l : List α) (k : ℕ) :
    l.take ((k + 1) * limit) = l.take (k * limit) ++ page limit l (k + 1) := by
  rw [Nat.succ_mul, List.take_add, page, Nat.add_sub_cancel]

variable [DecidableRel r] [Std.Total r] [IsTrans α r] {rows l : List α} {limit : ℕ}

/-- If no row straddles the end of a page, the first `n` pages are the first rows of any order. -/
theorem walk_perm (hsplit : ∀ x ∈ rows, ¬Straddles r limit rows x) {orders : ℕ → List α}
    (horders : ∀ p, Ordered r rows (orders p)) (hl : Ordered r rows l) (n : ℕ) :
    (walk (fun p => page limit (orders p) p) n).Perm (l.take (n * limit)) := by
  induction n generalizing l with
  | zero => rw [walk_zero, Nat.zero_mul, List.take_zero]
  | succ n ih =>
    rw [walk_succ]
    refine ((ih (horders (n + 1))).append_right _).trans ?_
    rw [← take_succ_mul]
    exact (horders (n + 1)).take_perm hl hsplit

/-- How many pages there are, at least one. -/
def pageCount (limit total : ℕ) : ℕ :=
  max (total ⌈/⌉ limit) 1

theorem le_pageCount_mul (hlimit : 1 ≤ limit) (total : ℕ) :
    total ≤ pageCount limit total * limit := by
  rw [Nat.mul_comm]
  exact (ceilDiv_le_iff_le_mul (c := pageCount limit total) hlimit).mp (le_max_left _ _)

theorem mul_lt_of_lt_pageCount (hlimit : 1 ≤ limit) {total k : ℕ} (hk : k < pageCount limit total)
    (hpos : 1 ≤ k ∨ 0 < total) : k * limit < total := by
  rcases lt_max_iff.mp hk with hlt | hlt
  · have hnot := (ceilDiv_le_iff_le_mul (b := total) (c := k) hlimit).not.mp (by omega)
    rw [Nat.mul_comm]
    omega
  · have hzero : k = 0 := by omega
    rw [hzero, Nat.zero_mul]
    omega

/-- Pages with each row once are full but for the last, and there are no rows after it. -/
theorem partition_of_once (hlimit : 1 ≤ limit) {orders : ℕ → List α}
    (hlength : ∀ p, (orders p).length = rows.length)
    (honce : (walk (fun p => page limit (orders p) p) (pageCount limit rows.length)).Perm rows) :
    Partition limit rows (fun p => page limit (orders p) p) (pageCount limit rows.length) := by
  refine ⟨honce, fun p hp hlt => ?_, fun hrows => ?_, fun p hlt => ?_⟩
  · have hbefore := mul_lt_of_lt_pageCount hlimit hlt (.inl hp)
    rw [length_page, hlength]
    obtain ⟨k, rfl⟩ := Nat.exists_eq_add_of_le' hp
    rw [Nat.succ_mul] at hbefore
    rw [Nat.add_sub_cancel]
    omega
  · have hpos := List.length_pos_iff.mpr hrows
    have hcount : 1 ≤ pageCount limit rows.length := le_max_right _ _
    have hbefore := mul_lt_of_lt_pageCount hlimit (k := pageCount limit rows.length - 1) (by omega)
      (.inr hpos)
    rw [← List.length_pos_iff, length_page, hlength]
    omega
  · have hall := le_pageCount_mul hlimit rows.length
    have hmul := Nat.mul_le_mul_right limit (Nat.le_sub_one_of_lt hlt)
    rw [← List.length_eq_zero_iff, length_page, hlength]
    omega

/-- In one order for all of them, the pages are the rows in that order. -/
theorem walk_page (hlimit : 1 ≤ limit) (l : List α) :
    walk (page limit l) (pageCount limit l.length) = l := by
  have hwalk : ∀ n, walk (page limit l) n = l.take (n * limit) := fun n => by
    induction n with
    | zero => rw [walk_zero, Nat.zero_mul, List.take_zero]
    | succ n ih => rw [walk_succ, ih, take_succ_mul]
  rw [hwalk, List.take_of_length_le (le_pageCount_mul hlimit _)]

/-- If no row straddles the end of a page, the pages split the rows, whatever their orders. -/
theorem partition_of_orders (hlimit : 1 ≤ limit) (hsplit : ∀ x ∈ rows, ¬Straddles r limit rows x)
    {orders : ℕ → List α} (horders : ∀ p, Ordered r rows (orders p)) :
    Partition limit rows (fun p => page limit (orders p) p) (pageCount limit rows.length) := by
  have hlength : ∀ p, (orders p).length = rows.length := fun p => (horders p).perm.length_eq
  refine partition_of_once hlimit hlength ((walk_perm hsplit horders (horders 0) _).trans ?_)
  rw [List.take_of_length_le ((hlength 0).trans_le (le_pageCount_mul hlimit _))]
  exact (horders 0).perm

/-- Rows that are split into pages are on one page each. -/
theorem Partition.disjoint {pages : ℕ → List α} {n : ℕ} (h : Partition limit rows pages n)
    (hrows : rows.Nodup) {p q : ℕ} (hp : 1 ≤ p ∧ p ≤ n) (hq : 1 ≤ q ∧ q ≤ n) (hne : p ≠ q) :
    List.Disjoint (pages p) (pages q) := by
  have hwalk := (List.nodup_flatMap.mp (h.once.symm.nodup hrows)).2
  have hsymm : Std.Symm (Function.onFun List.Disjoint pages) := ⟨fun _ _ h => h.symm⟩
  refine hwalk.forall ?_ ?_ hne
  · exact List.mem_range'_1.mpr ⟨hp.1, by omega⟩
  · exact List.mem_range'_1.mpr ⟨hq.1, by omega⟩

theorem walk_congr {pages pages' : ℕ → List α} {n : ℕ} (h : ∀ p, 1 ≤ p → pages p = pages' p) :
    walk pages n = walk pages' n :=
  List.flatMap_congr fun p hp => h p (List.mem_range'_1.mp hp).1

theorem Partition.congr {pages pages' : ℕ → List α} {n : ℕ} (h : Partition limit rows pages n)
    (hn : 1 ≤ n) (heq : ∀ p, 1 ≤ p → pages p = pages' p) : Partition limit rows pages' n := by
  have hwalk : walk pages n = walk pages' n := walk_congr heq
  exact ⟨hwalk ▸ h.once, fun p hp hlt => heq p hp ▸ h.full p hp hlt, fun hrows =>
    heq n hn ▸ h.last hrows, fun p hlt => heq p (by omega) ▸ h.after p hlt⟩

/-- If a row straddles the end of a page, a row may be on the page before it and after it. -/
theorem not_partition_of_straddles (hrows : rows.Nodup) (hlimit : 1 ≤ limit) {x : α}
    (hx : Straddles r limit rows x) : ∃ orders : ℕ → List α, (∀ p, Ordered r rows (orders p)) ∧
      ¬Partition limit rows (fun p => page limit (orders p) p) (pageCount limit rows.length) := by
  obtain ⟨k, hfirst, hlast⟩ := hx
  have hl : Ordered r rows (rows.insertionSort r) :=
    ⟨List.perm_insertionSort r rows, List.pairwise_insertionSort r rows⟩
  generalize rows.insertionSort r = l at hl
  have hlength := hl.perm.length_eq
  have htotal : rows.countP (fun y => r y x) ≤ rows.length := List.countP_le_length
  obtain ⟨m, hm⟩ : ∃ m, k * limit = m + 1 := Nat.exists_eq_succ_of_ne_zero (by omega)
  -- The two rows at the end of page `k` are tied with `x`.
  have hi : m < l.length := by omega
  have hj : m + 1 < l.length := by omega
  have hxi := not_not.mp ((hl.lt_countP_lt x hi).not.mp (by omega))
  have hjx := (hl.lt_countP_le x hj).mp (by omega)
  have hsplit : l = l.take m ++ l[m] :: l[m + 1] :: l.drop (m + 2) := by
    rw [List.getElem_cons_drop, List.getElem_cons_drop, List.take_append_drop]
  have hl' : Ordered r rows (l.take m ++ l[m + 1] :: l[m] :: l.drop (m + 2)) :=
    .swap (hsplit ▸ hl) (IsTrans.trans _ _ _ hjx hxi)
  generalize hswapped : l.take m ++ l[m + 1] :: l[m] :: l.drop (m + 2) = l' at hl'
  -- They change places for the next page.
  refine ⟨Function.update (fun _ => l) (k + 1) l', fun p => ?_, fun h => ?_⟩
  · rcases eq_or_ne p (k + 1) with rfl | hp
    · rw [Function.update_self]
      exact hl'
    · rw [Function.update_of_ne hp]
      exact hl
  · have hmoved : l'[m + 1]? = some l[m] := by
      rw [← hswapped, List.getElem?_append_right (by rw [List.length_take]; omega)]
      simp [List.length_take, Nat.min_eq_left hi.le]
    obtain ⟨k, rfl⟩ : ∃ j, k = j + 1 := Nat.exists_eq_succ_of_ne_zero (by rintro rfl; omega)
    have hcount : k + 1 < pageCount limit rows.length := by
      by_contra hge
      have hall := le_pageCount_mul hlimit rows.length
      have hmul := Nat.mul_le_mul_right limit (Nat.not_lt.mp hge)
      omega
    rw [Nat.succ_mul] at hm
    refine h.disjoint hrows (p := k + 1) (q := k + 1 + 1) ⟨by omega, by omega⟩ ⟨by omega, hcount⟩
      (by omega) (a := l[m]) ?_ ?_
    · rw [Function.update_of_ne (by omega)]
      refine mem_page (List.getElem?_eq_getElem hi) ?_ ?_ <;> rw [Nat.add_sub_cancel] <;> omega
    · rw [Function.update_self]
      refine mem_page hmoved ?_ ?_ <;> rw [Nat.add_sub_cancel, Nat.succ_mul] <;> omega

/-- The pages split the rows, whatever their orders, exactly if no row straddles the end of one. -/
theorem partition_iff (hrows : rows.Nodup) (hlimit : 1 ≤ limit) :
    (∀ orders : ℕ → List α, (∀ p, Ordered r rows (orders p)) →
      Partition limit rows (fun p => page limit (orders p) p) (pageCount limit rows.length)) ↔
    ∀ x ∈ rows, ¬Straddles r limit rows x := by
  constructor
  · intro hall x _ hx
    obtain ⟨orders, horders, hnot⟩ := not_partition_of_straddles hrows hlimit hx
    exact hnot (hall orders horders)
  · exact fun hsplit orders horders => partition_of_orders hlimit hsplit horders

/-- Each row is on one page, whatever the orders, exactly if no row straddles the end of one. -/
theorem once_iff (hrows : rows.Nodup) (hlimit : 1 ≤ limit) :
    (∀ orders : ℕ → List α, (∀ p, Ordered r rows (orders p)) →
      (walk (fun p => page limit (orders p) p) (pageCount limit rows.length)).Perm rows) ↔
    ∀ x ∈ rows, ¬Straddles r limit rows x := by
  rw [← partition_iff hrows hlimit]
  refine forall₂_congr fun orders horders => ⟨fun honce => ?_, fun h => h.once⟩
  exact partition_of_once hlimit (fun p => (horders p).perm.length_eq) honce

end Listing
