import Mathlib.Data.List.Nodup

/-!
# Tables with a primary key

A table is its rows in insertion order, no two with the same key. `insert` refuses a
row whose key is taken, `save` writes a whole row over the one with its key, and
`lookup` finds a row by key. The key constraint is a field, so it holds of every table
that can be built.
-/

set_option autoImplicit false

namespace Interleaving

/-- Rows with pairwise different keys. -/
structure Table {α K : Type} (key : α → K) where
  rows : List α
  nodup : (rows.map key).Nodup

namespace Table

variable {α K : Type} {key : α → K}

/-- The table with no rows. -/
def empty : Table key :=
  ⟨[], List.nodup_nil⟩

@[simp] theorem rows_empty : (empty : Table key).rows = [] :=
  rfl

theorem key_injOn (t : Table key) {a b : α} (ha : a ∈ t.rows) (hb : b ∈ t.rows)
    (h : key a = key b) : a = b :=
  List.inj_on_of_nodup_map t.nodup ha hb h

/-- Tables with the same rows are the same. -/
@[ext] theorem ext {t t' : Table key} (h : t.rows = t'.rows) : t = t' := by
  cases t
  cases t'
  cases h
  rfl

variable [DecidableEq K]

/-- The row with key `k`. -/
def lookup (t : Table key) (k : K) : Option α :=
  t.rows.find? fun a => key a = k

theorem lookup_eq_some {t : Table key} {k : K} {a : α} :
    t.lookup k = some a ↔ a ∈ t.rows ∧ key a = k := by
  constructor
  · intro h
    exact ⟨List.mem_of_find?_eq_some h, by simpa using List.find?_some h⟩
  · rintro ⟨ha, rfl⟩
    cases hf : t.lookup (key a) with
    | none => simpa using List.find?_eq_none.mp hf a ha
    | some b =>
      have hb := List.mem_of_find?_eq_some hf
      have hk : key b = key a := by simpa using List.find?_some hf
      rw [t.key_injOn hb ha hk]

theorem lookup_eq_none {t : Table key} {k : K} :
    t.lookup k = none ↔ ∀ a ∈ t.rows, key a ≠ k := by
  simp [lookup]

theorem lookup_of_mem {t : Table key} {a : α} (ha : a ∈ t.rows) : t.lookup (key a) = some a :=
  lookup_eq_some.mpr ⟨ha, rfl⟩

/-- What is found has a key under which it is found. -/
theorem lookup_key {t : Table key} {k : K} {a : α} (h : t.lookup k = some a) :
    t.lookup (key a) = some a :=
  lookup_of_mem (lookup_eq_some.mp h).1

theorem mem_iff_lookup {t : Table key} {a : α} : a ∈ t.rows ↔ t.lookup (key a) = some a :=
  ⟨lookup_of_mem, fun h => (lookup_eq_some.mp h).1⟩

@[simp] theorem lookup_empty (k : K) : (empty : Table key).lookup k = none :=
  rfl

/-- Add a row at the end, if its key is free. -/
def insert (t : Table key) (a : α) : Option (Table key) :=
  if h : key a ∈ t.rows.map key then none
  else some ⟨t.rows ++ [a], by
    rw [List.map_append, List.map_singleton]
    exact t.nodup.append (List.nodup_singleton _) (by simpa using h)⟩

theorem insert_eq_some {t t' : Table key} {a : α} (h : t.insert a = some t') :
    t'.rows = t.rows ++ [a] ∧ ∀ b ∈ t.rows, key b ≠ key a := by
  unfold insert at h
  split at h
  · cases h
  · rename_i hk
    cases h
    refine ⟨rfl, fun b hb hba => hk ?_⟩
    rw [← hba]
    exact List.mem_map_of_mem hb

/-- A row whose key is free can be added. -/
theorem exists_insert {t : Table key} {a : α} (h : ∀ b ∈ t.rows, key b ≠ key a) :
    ∃ t', t.insert a = some t' := by
  unfold insert
  rw [dif_neg]
  · exact ⟨_, rfl⟩
  · intro hk
    obtain ⟨b, hb, hba⟩ := List.mem_map.mp hk
    exact h b hb hba

/-- An insertion goes through exactly if the key is free. -/
theorem exists_map_insert_iff {β : Type} {t : Table key} {a : α} {f : Table key → β} :
    (∃ b, (t.insert a).map f = some b) ↔ ∀ b ∈ t.rows, key b ≠ key a := by
  simp only [Option.map_eq_some_iff]
  constructor
  · rintro ⟨_, t', ht, -⟩
    exact (insert_eq_some ht).2
  · intro hfree
    obtain ⟨t', ht⟩ := exists_insert hfree
    exact ⟨_, t', ht, rfl⟩

/-- With a guard, it has to hold too. -/
theorem exists_guarded_insert_iff {β : Type} {t : Table key} {a : α} {p : Prop} [Decidable p]
    {f : Table key → β} :
    (∃ b, (if p then (t.insert a).map f else none) = some b) ↔
      p ∧ ∀ b ∈ t.rows, key b ≠ key a := by
  rw [← exists_map_insert_iff (f := f)]
  simp only [Option.ite_none_right_eq_some, exists_and_left]

theorem exists_lookup_of_insert_eq_none {t : Table key} {a : α} (h : t.insert a = none) :
    ∃ b, t.lookup (key a) = some b := by
  unfold insert at h
  split at h
  · rename_i hk
    obtain ⟨b, hb, hba⟩ := List.mem_map.mp hk
    exact ⟨b, lookup_eq_some.mpr ⟨hb, hba⟩⟩
  · cases h

theorem mem_insert {t t' : Table key} {a b : α} (h : t.insert a = some t') :
    b ∈ t'.rows ↔ b ∈ t.rows ∨ b = a := by
  rw [(insert_eq_some h).1, List.mem_append, List.mem_singleton]

theorem filter_insert {t t' : Table key} {a : α} (h : t.insert a = some t') (p : α → Bool) :
    t'.rows.filter p = t.rows.filter p ++ [a].filter p := by
  rw [(insert_eq_some h).1, List.filter_append]

/-- What can be added to a table can be added to a smaller one. -/
theorem exists_insert_of_subset {t t' r' : Table key} {a : α} (h : t.rows ⊆ t'.rows)
    (hr' : t'.insert a = some r') : ∃ r, t.insert a = some r ∧ r.rows ⊆ r'.rows := by
  obtain ⟨r, hr⟩ := exists_insert (t := t) fun b hb => (insert_eq_some hr').2 b (h hb)
  refine ⟨r, hr, fun b hb => ?_⟩
  rw [mem_insert hr] at hb
  exact (mem_insert hr').mpr (hb.imp_left (h ·))

theorem exists_insert_of_sublist {t t' r' : Table key} {a : α} (h : t.rows.Sublist t'.rows)
    (hr' : t'.insert a = some r') : ∃ r, t.insert a = some r ∧ r.rows.Sublist r'.rows := by
  obtain ⟨r, hr, -⟩ := exists_insert_of_subset h.subset hr'
  refine ⟨r, hr, ?_⟩
  rw [(insert_eq_some hr).1, (insert_eq_some hr').1]
  exact h.append_right [a]

theorem lookup_insert {t t' : Table key} {a : α} (h : t.insert a = some t') (k : K) :
    t'.lookup k = if key a = k then some a else t.lookup k := by
  obtain ⟨hrows, hfresh⟩ := insert_eq_some h
  split_ifs with hk
  · exact lookup_eq_some.mpr ⟨(mem_insert h).mpr (Or.inr rfl), hk⟩
  · unfold lookup
    rw [hrows, List.find?_append]
    simp [hk]

theorem lookup_insert_self {t t' : Table key} {a : α} (h : t.insert a = some t') :
    t'.lookup (key a) = some a := by
  rw [lookup_insert h, if_pos rfl]

/-- An insertion leaves every row there was. -/
theorem lookup_of_insert {t t' : Table key} {a b : α} {k : K} (h : t.insert a = some t')
    (hb : t.lookup k = some b) : t'.lookup k = some b := by
  rw [lookup_insert h, if_neg]
  · exact hb
  · rintro rfl
    cases (lookup_eq_none.mpr (insert_eq_some h).2).symm.trans hb

theorem isSome_lookup_insert {t t' : Table key} {a : α} (h : t.insert a = some t') (k : K)
    (hk : (t.lookup k).isSome) : (t'.lookup k).isSome := by
  obtain ⟨b, hb⟩ := Option.isSome_iff_exists.mp hk
  rw [lookup_of_insert h hb]
  rfl

/-- Write `a` over the row with its key, or add it if there is none. -/
def save (t : Table key) (a : α) : Table key :=
  if h : key a ∈ t.rows.map key then
    ⟨t.rows.map fun b => if key b = key a then a else b, by
      have hmap : (t.rows.map fun b => if key b = key a then a else b).map key =
          t.rows.map key := by
        rw [List.map_map]
        refine List.map_congr_left fun b _ => ?_
        simp only [Function.comp_apply]
        split_ifs with hb
        · exact hb.symm
        · rfl
      rw [hmap]
      exact t.nodup⟩
  else ⟨t.rows ++ [a], by
    rw [List.map_append, List.map_singleton]
    exact t.nodup.append (List.nodup_singleton _) (by simpa using h)⟩

/-- A row that is there is written over in place. -/
theorem rows_save {t : Table key} {a b : α} (hb : b ∈ t.rows) (hba : key b = key a) :
    (t.save a).rows = t.rows.map fun b => if key b = key a then a else b := by
  unfold save
  rw [dif_pos (hba ▸ List.mem_map_of_mem hb)]

theorem mem_save {t : Table key} {a b : α} :
    b ∈ (t.save a).rows ↔ b = a ∨ b ∈ t.rows ∧ key b ≠ key a := by
  unfold save
  split
  · rename_i h
    obtain ⟨c, hc, hck⟩ := List.mem_map.mp h
    simp only [List.mem_map]
    constructor
    · rintro ⟨d, hd, rfl⟩
      split_ifs with hda
      · exact Or.inl rfl
      · exact Or.inr ⟨hd, hda⟩
    · rintro (rfl | ⟨hb, hba⟩)
      · exact ⟨c, hc, by simp [hck]⟩
      · exact ⟨b, hb, by simp [hba]⟩
  · rename_i h
    rw [List.mem_append, List.mem_singleton]
    constructor
    · rintro (hb | rfl)
      · refine Or.inr ⟨hb, fun hba => h ?_⟩
        rw [← hba]
        exact List.mem_map_of_mem hb
      · exact Or.inl rfl
    · rintro (rfl | ⟨hb, -⟩)
      · exact Or.inr rfl
      · exact Or.inl hb

theorem lookup_save (t : Table key) (a : α) (k : K) :
    (t.save a).lookup k = if key a = k then some a else t.lookup k := by
  split_ifs with hk
  · exact lookup_eq_some.mpr ⟨mem_save.mpr (Or.inl rfl), hk⟩
  · cases h : t.lookup k with
    | none =>
      rw [lookup_eq_none] at h ⊢
      intro b hb
      rcases mem_save.mp hb with rfl | ⟨hb, -⟩
      · exact hk
      · exact h b hb
    | some b =>
      obtain ⟨hb, rfl⟩ := lookup_eq_some.mp h
      exact lookup_eq_some.mpr ⟨mem_save.mpr (Or.inr ⟨hb, Ne.symm hk⟩), rfl⟩

theorem lookup_save_self (t : Table key) (a : α) : (t.save a).lookup (key a) = some a := by
  rw [lookup_save, if_pos rfl]

/-- Writing a row over itself changes nothing. -/
theorem map_overwrite_eq_self {l : List α} {a : α} (h : ∀ b ∈ l, key b = key a → b = a) :
    (l.map fun b => if key b = key a then a else b) = l := by
  conv_rhs => rw [← List.map_id l]
  refine List.map_congr_left fun b hb => ?_
  dsimp only [id]
  split_ifs with hk
  · exact (h b hb hk).symm
  · rfl

/-- A save changes the table unless the row is there already. -/
theorem save_eq_self_iff {t : Table key} {a : α} : t.save a = t ↔ a ∈ t.rows := by
  constructor
  · intro h
    rw [← h]
    exact mem_save.mpr (.inl rfl)
  · intro ha
    ext1
    rw [rows_save ha rfl, map_overwrite_eq_self fun b hb hk => t.key_injOn hb ha hk]

theorem rows_save_new {t : Table key} {a : α} (h : ∀ b ∈ t.rows, key b ≠ key a) :
    (t.save a).rows = t.rows ++ [a] := by
  unfold save
  rw [dif_neg]
  intro hk
  obtain ⟨b, hb, hba⟩ := List.mem_map.mp hk
  exact h b hb hba

/-- Saving the row that was inserted last is inserting it as saved. -/
theorem insert_save {t t' : Table key} {a b : α} (h : t.insert a = some t')
    (hab : key a = key b) : t.insert b = some (t'.save b) := by
  obtain ⟨hrows, hfresh⟩ := insert_eq_some h
  rw [hab] at hfresh
  obtain ⟨t'', ht''⟩ := exists_insert hfresh
  rw [ht'', Option.some.injEq]
  ext1
  rw [(insert_eq_some ht'').1, rows_save ((mem_insert h).mpr (.inr rfl)) hab, hrows,
    List.map_append, List.map_singleton, if_pos hab]
  rw [map_overwrite_eq_self fun c hc hk => absurd hk (hfresh c hc)]

/-- A second save of a row overwrites the first. -/
theorem save_save {t : Table key} {a b : α} (hab : key a = key b) :
    (t.save a).save b = t.save b := by
  ext1
  rw [rows_save (mem_save.mpr (.inl rfl)) hab]
  by_cases h : ∃ c ∈ t.rows, key c = key b
  · obtain ⟨c, hc, hcb⟩ := h
    rw [rows_save hc hcb, rows_save hc (hcb.trans hab.symm), List.map_map]
    refine List.map_congr_left fun d _ => ?_
    simp only [Function.comp_apply, hab]
    split_ifs <;> simp_all
  · push Not at h
    rw [rows_save_new h, rows_save_new (hab ▸ h), List.map_append, List.map_singleton, if_pos hab,
      map_overwrite_eq_self fun c hc hk => absurd hk (h c hc)]

/-- Each row of `t` is still in `t'`, as a row that `R` relates it to. -/
def Advances (R : α → α → Prop) (t t' : Table key) : Prop :=
  ∀ a ∈ t.rows, ∃ a' ∈ t'.rows, key a' = key a ∧ R a a'

section Advances

variable {R : α → α → Prop} {t t' t'' : Table key} {a b : α}

omit [DecidableEq K] in
theorem Advances.trans (hR : ∀ {a b c}, R a b → R b c → R a c) (h : Advances R t t')
    (h' : Advances R t' t'') : Advances R t t'' := by
  intro a ha
  obtain ⟨b, hb, hkey, hab⟩ := h a ha
  obtain ⟨c, hc, hkey', hbc⟩ := h' b hb
  exact ⟨c, hc, hkey'.trans hkey, hR hab hbc⟩

omit [DecidableEq K] in
theorem Advances.and {R' : α → α → Prop} (h : Advances R t t') (h' : Advances R' t t') :
    Advances (fun a b => R a b ∧ R' a b) t t' := by
  intro a ha
  obtain ⟨b, hb, hkey, hab⟩ := h a ha
  obtain ⟨c, hc, hkey', hac⟩ := h' a ha
  obtain rfl := t'.key_injOn hb hc (hkey.trans hkey'.symm)
  exact ⟨b, hb, hkey, hab, hac⟩

/-- The row found under a key is found there later. -/
theorem Advances.exists_lookup {k : K} (h : Advances R t t') (ha : t.lookup k = some a) :
    ∃ a', t'.lookup k = some a' ∧ R a a' := by
  obtain ⟨hmem, rfl⟩ := lookup_eq_some.mp ha
  obtain ⟨a', ha', hkey, hR⟩ := h a hmem
  exact ⟨a', lookup_eq_some.mpr ⟨ha', hkey⟩, hR⟩

theorem Advances.isSome_lookup {k : K} (h : Advances R t t') (hk : (t.lookup k).isSome) :
    (t'.lookup k).isSome := by
  obtain ⟨a, ha⟩ := Option.isSome_iff_exists.mp hk
  obtain ⟨a', ha', -⟩ := h.exists_lookup ha
  rw [ha']
  rfl

omit [DecidableEq K] in
theorem Advances.of_eq (hR : ∀ a, R a a) (h : t' = t) : Advances R t t' :=
  fun a ha => ⟨a, h ▸ ha, rfl, hR a⟩

theorem Advances.insert (hR : ∀ a, R a a) (h : t.insert a = some t') : Advances R t t' :=
  fun b hb => ⟨b, (mem_insert h).mpr (.inl hb), rfl, hR b⟩

/-- A save over a row that `R` relates, or of a new row. -/
theorem Advances.save_of (hR : ∀ a, R a a) (hab : ∀ b ∈ t.rows, key b = key a → R b a) :
    Advances R t (t.save a) := by
  intro b hb
  by_cases hk : key b = key a
  · exact ⟨a, mem_save.mpr (.inl rfl), hk.symm, hab b hb hk⟩
  · exact ⟨b, mem_save.mpr (.inr ⟨hb, hk⟩), rfl, hR b⟩

theorem Advances.save (hR : ∀ a, R a a) (hb : b ∈ t.rows) (hkey : key a = key b) (hab : R b a) :
    Advances R t (t.save a) :=
  .save_of hR fun _ hc hk => t.key_injOn hc hb (hk.trans hkey) ▸ hab

/-- What can be added to a table can be added to one of whose rows it has the keys. -/
theorem Advances.exists_insert {r' : Table key} (h : Advances R t t') (hR : ∀ a, R a a)
    (hr' : t'.insert a = some r') : ∃ r, t.insert a = some r ∧ Advances R r r' := by
  obtain ⟨r, hr⟩ := Table.exists_insert (t := t) (a := a) fun b hb hba => by
    obtain ⟨b', hb', hkey, -⟩ := h b hb
    exact (insert_eq_some hr').2 b' hb' (hkey.trans hba)
  refine ⟨r, hr, fun b hb => ?_⟩
  rcases (mem_insert hr).mp hb with hb | rfl
  · obtain ⟨b', hb', hkey, hR⟩ := h b hb
    exact ⟨b', (mem_insert hr').mpr (.inl hb'), hkey, hR⟩
  · exact ⟨b, (mem_insert hr').mpr (.inr rfl), rfl, hR b⟩

end Advances

/-- There is a row under the key of `a` that agrees with it on `f`. -/
def Matches {β : Type} (t : Table key) (f : α → β) (a : α) : Prop :=
  ∃ b, t.lookup (key a) = some b ∧ f b = f a

section Matches

variable {β : Type} {t t' : Table key} {f : α → β} {a b : α}

theorem Matches.of_lookup {k : K} (h : t.lookup k = some a) : t.Matches f a :=
  ⟨a, lookup_key h, rfl⟩

theorem Matches.of_insert (h : t.insert a = some t') : t'.Matches f a :=
  ⟨a, lookup_insert_self h, rfl⟩

theorem Matches.of_save : (t.save a).Matches f a :=
  ⟨a, lookup_save_self t a, rfl⟩

theorem Matches.isSome (h : t.Matches f a) : (t.lookup (key a)).isSome := by
  obtain ⟨b, hb, -⟩ := h
  rw [hb]
  rfl

/-- It is there as long as the rows keep `f`. -/
theorem Matches.advances (h : t.Matches f a) (hadv : Advances (fun a b => f b = f a) t t') :
    t'.Matches f a := by
  obtain ⟨b, hb, hab⟩ := h
  obtain ⟨b', hb', hbb⟩ := hadv.exists_lookup hb
  exact ⟨b', hb', hbb.trans hab⟩

/-- A save over such a row keeps `f`. -/
theorem Matches.save (h : t.Matches f a) : Advances (fun a b => f b = f a) t (t.save a) := by
  obtain ⟨b, hb, hab⟩ := h
  obtain ⟨hb, hkey⟩ := lookup_eq_some.mp hb
  exact .save (fun _ => rfl) hb hkey.symm hab.symm

/-- After a save over such a row, every row agrees with one that was there. -/
theorem Matches.exists_of_mem_save (h : t.Matches f a) (hb : b ∈ (t.save a).rows) :
    ∃ c ∈ t.rows, key c = key b ∧ f c = f b := by
  rcases mem_save.mp hb with rfl | ⟨hb, -⟩
  · obtain ⟨c, hc, hcb⟩ := h
    obtain ⟨hc, hkey⟩ := lookup_eq_some.mp hc
    exact ⟨c, hc, hkey, hcb⟩
  · exact ⟨b, hb, rfl, rfl⟩

end Matches

/-- Drop the row with key `k`. -/
def erase (t : Table key) (k : K) : Table key :=
  ⟨t.rows.filter fun a => key a ≠ k, t.nodup.sublist (List.filter_sublist.map key)⟩

theorem mem_erase {t : Table key} {k : K} {a : α} :
    a ∈ (t.erase k).rows ↔ a ∈ t.rows ∧ key a ≠ k := by
  simp [erase]

theorem lookup_erase (t : Table key) (k k' : K) :
    (t.erase k).lookup k' = if k = k' then none else t.lookup k' := by
  split_ifs with hk
  · rw [lookup_eq_none]
    intro a ha
    rw [← hk]
    exact (mem_erase.mp ha).2
  · cases h : t.lookup k' with
    | none =>
      rw [lookup_eq_none] at h ⊢
      exact fun a ha => h a (mem_erase.mp ha).1
    | some a =>
      obtain ⟨ha, rfl⟩ := lookup_eq_some.mp h
      exact lookup_eq_some.mpr ⟨mem_erase.mpr ⟨ha, Ne.symm hk⟩, rfl⟩

end Table

end Interleaving
