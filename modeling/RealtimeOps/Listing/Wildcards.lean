import Mathlib.Data.List.Infix

/-!
# Wildcard patterns

A pattern is a text with three special characters in it : `many` stands for any text, `one` for
any character, and `escape` for the character after it. Letters are compared up to a folding of
characters, which keeps the special ones.

Between two `many`, a text without special characters matches what contains it
(`like_enclose_iff`). A text with a special character also matches a text that does not contain it
(`exists_like`) : `gloss` is the shortest one.
-/

set_option autoImplicit false

namespace Wildcard

variable {α : Type}

/-! ## Patterns -/

/-- The special characters of a pattern language. -/
structure Specials (α : Type) where
  many : α
  one : α
  escape : α
  many_ne_one : many ≠ one
  many_ne_escape : many ≠ escape
  one_ne_escape : one ≠ escape

/-- A character of a pattern that is not escaped. -/
inductive Token (α : Type) where
  | many
  | one
  | lit (a : α)
  deriving DecidableEq

variable [DecidableEq α] (m : Specials α)

/-- What an unescaped character of a pattern stands for. -/
def Specials.token (c : α) : Token α :=
  if c = m.many then .many else if c = m.one then .one else .lit c

/-- The character stands for itself. -/
def Specials.Plain (c : α) : Prop :=
  c ≠ m.many ∧ c ≠ m.one ∧ c ≠ m.escape

instance (c : α) : Decidable (m.Plain c) :=
  inferInstanceAs (Decidable (_ ∧ _))

/-- Read a pattern; it must not end with an `escape`. -/
def tokens : List α → Option (List (Token α))
  | [] => some []
  | c :: pattern =>
    if c = m.escape then
      match pattern with
      | [] => none
      | d :: pattern => (tokens pattern).map (.lit d :: ·)
    else (tokens pattern).map (m.token c :: ·)

/-- The text is one the tokens stand for. -/
def fits : List (Token α) → List α → Bool
  | [], text => text.isEmpty
  | .many :: ts, text => text.tails.any (fits ts)
  | .one :: ts, text =>
    match text with
    | [] => false
    | _ :: text => fits ts text
  | .lit a :: ts, text =>
    match text with
    | [] => false
    | b :: text => a = b && fits ts text

/-- The text matches the pattern up to `fold`. -/
def like (fold : α → α) (text pattern : List α) : Bool :=
  (tokens m (pattern.map fold)).any fun ts => fits ts (text.map fold)

/-- The pattern of the texts that are to contain `s`. -/
def enclose (s : List α) : List α :=
  m.many :: s ++ [m.many]

/-- The folding keeps the special characters apart from the others. -/
structure Specials.Kept (fold : α → α) : Prop where
  many : ∀ c, fold c = m.many ↔ c = m.many
  one : ∀ c, fold c = m.one ↔ c = m.one
  escape : ∀ c, fold c = m.escape ↔ c = m.escape

/-! ## Plain texts -/

section Plain

variable {m} {fold : α → α} {s pattern text : List α} {ts : List (Token α)} {c d : α}

theorem Specials.token_of_plain (h : m.Plain c) : m.token c = .lit c := by
  rw [token, if_neg h.1, if_neg h.2.1]

theorem tokens_cons (hc : c ≠ m.escape) :
    tokens m (c :: pattern) = (tokens m pattern).map (m.token c :: ·) := by
  rw [tokens.eq_def]
  exact if_neg hc

theorem tokens_escape :
    tokens m (m.escape :: d :: pattern) = (tokens m pattern).map (.lit d :: ·) := by
  rw [tokens.eq_def]
  exact if_pos rfl

theorem tokens_many : tokens m (m.many :: pattern) = (tokens m pattern).map (.many :: ·) := by
  rw [tokens_cons m.many_ne_escape, Specials.token, if_pos rfl]

theorem tokens_append (h : ∀ c ∈ s, m.Plain c) :
    tokens m (s ++ pattern) = (tokens m pattern).map (s.map .lit ++ ·) := by
  induction s with
  | nil => simp
  | cons c s ih =>
    obtain ⟨hc, hs⟩ := List.forall_mem_cons.mp h
    rw [List.cons_append, tokens_cons hc.2.2, ih hs, m.token_of_plain hc, Option.map_map]
    rfl

theorem fits_many : fits (.many :: ts) text = true ↔
    ∃ before after, before ++ after = text ∧ fits ts after = true := by
  rw [fits, List.any_eq_true]
  constructor
  · rintro ⟨after, hmem, hfits⟩
    obtain ⟨before, h⟩ := (List.mem_tails _ _).mp hmem
    exact ⟨before, after, h, hfits⟩
  · rintro ⟨before, after, h, hfits⟩
    exact ⟨after, (List.mem_tails _ _).mpr ⟨before, h⟩, hfits⟩

theorem fits_lits : fits (s.map .lit ++ ts) text = true ↔
    ∃ after, s ++ after = text ∧ fits ts after = true := by
  induction s generalizing text with
  | nil => simp
  | cons c s ih =>
    cases text with
    | nil => simp [fits]
    | cons b text =>
      simp only [List.map_cons, List.cons_append, fits, Bool.and_eq_true, decide_eq_true_eq, ih,
        List.cons.injEq]
      constructor
      · rintro ⟨hc, after, h, hfits⟩
        exact ⟨after, ⟨hc, h⟩, hfits⟩
      · rintro ⟨after, ⟨hc, h⟩, hfits⟩
        exact ⟨hc, after, h, hfits⟩

theorem tokens_one : tokens m (m.one :: pattern) = (tokens m pattern).map (.one :: ·) := by
  rw [tokens_cons m.one_ne_escape, Specials.token, if_neg m.many_ne_one.symm, if_pos rfl]

omit [DecidableEq α] in
theorem Specials.Kept.plain (h : m.Kept fold) : m.Plain (fold c) ↔ m.Plain c := by
  rw [Plain, Plain, ne_eq, ne_eq, ne_eq, h.many, h.one, h.escape]

/-- A plain text stands for itself, wherever it is. -/
theorem like_enclose_iff (hfold : m.Kept fold) (h : ∀ c ∈ s, m.Plain c) :
    like m fold text (enclose m s) = true ↔ s.map fold <:+: text.map fold := by
  have hplain : ∀ c ∈ s.map fold, m.Plain c :=
    List.forall_mem_map.mpr fun c hc => hfold.plain.mpr (h c hc)
  have hmany : fold m.many = m.many := (hfold.many _).mpr rfl
  have htokens : tokens m ((enclose m s).map fold) =
      some (.many :: ((s.map fold).map .lit ++ [.many])) := by
    rw [enclose, List.map_append, List.map_cons, List.map_singleton, hmany, List.cons_append,
      tokens_many, tokens_append hplain, tokens_many]
    rfl
  rw [like, htokens, Option.any_some, fits_many]
  constructor
  · rintro ⟨before, rest, hrest, hfits⟩
    obtain ⟨after, rfl, -⟩ := fits_lits.mp hfits
    exact ⟨before, after, (List.append_assoc _ _ _).trans hrest⟩
  · rintro ⟨before, after, h⟩
    refine ⟨before, s.map fold ++ after, (List.append_assoc _ _ _).symm.trans h, ?_⟩
    exact fits_lits.mpr ⟨after, rfl, fits_many.mpr ⟨after, [], List.append_nil _, rfl⟩⟩

end Plain

/-! ## Other texts -/

/-- The shortest text that matches `s` between two `many`. A `many` stands for nothing there, and
the one at the end for itself if it is escaped. -/
def gloss : List α → List α
  | [] => []
  | c :: s =>
    if c = m.escape then
      match s with
      | [] => [m.many]
      | d :: s => d :: gloss s
    else if c = m.many then gloss s
    else if c = m.one then m.many :: gloss s
    else c :: gloss s

section Gloss

variable {m} {fold : α → α} {s : List α}

theorem length_gloss_le : (gloss m s).length ≤ s.length := by
  fun_induction gloss m s <;> grind

theorem fits_gloss (hfold : m.Kept fold) :
    ∃ ts, tokens m ((s ++ [m.many]).map fold) = some ts ∧
      fits ts ((gloss m s).map fold) = true := by
  have hmany : fold m.many = m.many := (hfold.many _).mpr rfl
  have hone : fold m.one = m.one := (hfold.one _).mpr rfl
  have hescape : fold m.escape = m.escape := (hfold.escape _).mpr rfl
  fun_induction gloss m s with
  | case1 =>
    refine ⟨[.many], ?_, rfl⟩
    rw [List.nil_append, List.map_singleton, hmany, tokens_many]
    rfl
  | case2 =>
    refine ⟨[.lit m.many], ?_, by simp [fits, hmany]⟩
    simp only [List.cons_append, List.nil_append, List.map_cons, List.map_nil, hescape, hmany,
      tokens_escape]
    rfl
  | case3 d s ih =>
    obtain ⟨ts, hts, hfits⟩ := ih
    refine ⟨.lit (fold d) :: ts, ?_, by simpa [fits] using hfits⟩
    simp only [List.cons_append, List.map_cons, hescape, tokens_escape, hts, Option.map_some]
  | case4 s _ ih =>
    obtain ⟨ts, hts, hfits⟩ := ih
    refine ⟨.many :: ts, ?_, fits_many.mpr ⟨[], _, rfl, hfits⟩⟩
    rw [List.cons_append, List.map_cons, hmany, tokens_many, hts, Option.map_some]
  | case5 s _ _ ih =>
    obtain ⟨ts, hts, hfits⟩ := ih
    refine ⟨.one :: ts, ?_, by simpa [fits] using hfits⟩
    rw [List.cons_append, List.map_cons, hone, tokens_one, hts, Option.map_some]
  | case6 c s hescape hmany hone ih =>
    obtain ⟨ts, hts, hfits⟩ := ih
    have hplain : m.Plain (fold c) := hfold.plain.mpr ⟨hmany, hone, hescape⟩
    refine ⟨.lit (fold c) :: ts, ?_, by simpa [fits] using hfits⟩
    rw [List.cons_append, List.map_cons, tokens_cons hplain.2.2, m.token_of_plain hplain, hts,
      Option.map_some]

/-- The shortest text is shorter than `s` or differs from it, unless `s` is plain. -/
theorem plain_of_gloss (hfold : m.Kept fold) (h : (gloss m s).map fold = s.map fold) :
    ∀ c ∈ s, m.Plain c := by
  have hmany : fold m.many = m.many := (hfold.many _).mpr rfl
  have hone : fold m.one = m.one := (hfold.one _).mpr rfl
  have hescape : fold m.escape = m.escape := (hfold.escape _).mpr rfl
  have hlength : (gloss m s).length = s.length := by simpa using congrArg List.length h
  fun_induction gloss m s with
  | case1 => simp
  | case2 =>
    rw [List.map_singleton, List.map_singleton, List.singleton_inj, hmany, hescape] at h
    exact absurd h m.many_ne_escape
  | case3 d s ih =>
    have hle := length_gloss_le (m := m) (s := s)
    simp only [List.length_cons] at hlength
    omega
  | case4 s _ ih =>
    have hle := length_gloss_le (m := m) (s := s)
    rw [List.length_cons] at hlength
    omega
  | case5 s _ _ ih =>
    rw [List.map_cons, List.map_cons, List.cons.injEq, hmany, hone] at h
    exact absurd h.1 m.many_ne_one
  | case6 c s hc₁ hc₂ hc₃ ih =>
    rw [List.map_cons, List.map_cons, List.cons.injEq] at h
    rw [List.length_cons, List.length_cons, Nat.add_right_cancel_iff] at hlength
    exact List.forall_mem_cons.mpr ⟨⟨hc₂, hc₃, hc₁⟩, ih h.2 hlength⟩

end Gloss

/-- A text with a special character matches another text than those that contain it. -/
theorem exists_like {m : Specials α} {fold : α → α} {s : List α} (hfold : m.Kept fold)
    (h : ¬∀ c ∈ s, m.Plain c) :
    ∃ text, like m fold text (enclose m s) = true ∧ ¬s.map fold <:+: text.map fold := by
  refine ⟨gloss m s, ?_, fun hsub => h (plain_of_gloss hfold ?_)⟩
  · obtain ⟨ts, hts, hfits⟩ := fits_gloss hfold (s := s)
    rw [like, enclose, List.cons_append, List.map_cons, (hfold.many _).mpr rfl, tokens_many, hts]
    exact fits_many.mpr ⟨[], _, rfl, hfits⟩
  · refine (hsub.eq_of_length_le ?_).symm
    rw [List.length_map, List.length_map]
    exact length_gloss_le

end Wildcard
