import RealtimeOps.Listing.Wildcards
import RealtimeOps.Listings

/-!
# Job search

`JobService.list` puts the search text between two `%` and hands it to `ILIKE`, so a `%`, `_` or
backslash in it is not taken for itself. `ILIKE` is that of PostgreSQL (`ilike`) : both sides are
lower-cased in the database's collation, then matched.

The pattern says of every name what the text does exactly if the text has none of the three
characters (`PlainSearch`). Over given tables, the rows of all pages and their number are those of
the jobs whose name contains the text, exactly if no job the other filters leave tells the pattern
from the text, the database can read the query, and no tie reaches over the end of a page
(`search_literal`).
-/

set_option autoImplicit false

namespace RealtimeOps

open Interleaving Listing

/-! ## ILIKE -/

/-- The special characters of a `LIKE` pattern. -/
def likeSpecials : Wildcard.Specials Char where
  many := '%'
  one := '_'
  escape := '\\'
  many_ne_one := by decide
  many_ne_escape := by decide
  one_ne_escape := by decide

/-- The letters of a database : the lower case of each character, which makes no character one of
the special ones or stop being one. -/
structure Collation where
  lower : Char → Char
  kept : likeSpecials.Kept lower

/-- PostgreSQL's `text ILIKE pattern`. -/
def ilike (collation : Collation) (text pattern : String) : Bool :=
  Wildcard.like likeSpecials collation.lower text.toList pattern.toList

/-- The text contains the other one, up to letter case. -/
def Contains (collation : Collation) (text search : String) : Prop :=
  search.toList.map collation.lower <:+: text.toList.map collation.lower

instance (collation : Collation) (text search : String) :
    Decidable (Contains collation text search) :=
  inferInstanceAs (Decidable (_ <:+: _))

/-- None of the characters is `%`, `_` or a backslash. -/
def PlainSearch (search : String) : Prop :=
  ∀ c ∈ search.toList, likeSpecials.Plain c

section

variable {collation : Collation} {search : String}

theorem toList_pattern : ("%" ++ search ++ "%").toList =
    Wildcard.enclose likeSpecials search.toList := by
  rw [String.toList_append, String.toList_append]
  rfl

/-- For every name the pattern says what the text does, exactly if the text is plain. -/
theorem ilike_iff_contains : PlainSearch search ↔
    ∀ name, ilike collation name ("%" ++ search ++ "%") = true ↔
      Contains collation name search := by
  unfold ilike Contains
  rw [toList_pattern]
  symm
  constructor
  · intro h
    by_contra hplain
    obtain ⟨text, hlike, hno⟩ := Wildcard.exists_like collation.kept hplain
    refine hno ?_
    have := h (String.ofList text)
    rw [String.toList_ofList] at this
    exact this.mp hlike
  · exact fun hplain name => Wildcard.like_enclose_iff collation.kept hplain

theorem contains_empty (name : String) : Contains collation name "" :=
  ⟨[], _, rfl⟩

end

/-! ## What is asked for -/

/-- The job meets the status and type filters. -/
def JobQuery.Meets (query : JobQuery) (job : JobEntity) : Prop :=
  (∀ status ∈ query.status, job.status = status) ∧ ∀ type ∈ truthy query.type, job.type = type

instance (query : JobQuery) : DecidablePred query.Meets := fun _ =>
  inferInstanceAs (Decidable (_ ∧ _))

/-- The database can read the texts of the query. -/
def JobQuery.Readable (query : JobQuery) : Prop :=
  (∀ type ∈ truthy query.type, Char.ofNat 0 ∉ type.toList) ∧
    ∀ search ∈ truthy query.search, Char.ofNat 0 ∉ search.toList

instance (query : JobQuery) : Decidable query.Readable :=
  inferInstanceAs (Decidable (_ ∧ _))

/-- A condition on a value that is given, if it can be read. -/
theorem mapM_ifGiven {α β : Type} (value : Option β) {condition : β → Option (α → Bool)}
    {readable : β → Prop} [DecidablePred readable] {meets : β → α → Bool}
    (h : ∀ v, condition v = if readable v then some (meets v) else none) :
    (ifGiven value condition).mapM id =
      if ∀ v ∈ value, readable v then some (value.toList.map meets) else none := by
  cases value with
  | none => rfl
  | some v =>
    simp only [ifGiven, Option.toList_some, List.map_cons, List.map_nil, List.mapM_cons,
      List.mapM_nil, id_eq, h, Option.mem_some_iff, forall_eq']
    split_ifs <;> rfl

theorem textOf_bind {γ : Type} (text : String) (f : String → γ) :
    ((textOf text).bind fun text => some (f text)) =
      if Char.ofNat 0 ∉ text.toList then some (f text) else none := by
  unfold textOf
  split_ifs <;> rfl

theorem nul_mem_pattern {search : String} :
    Char.ofNat 0 ∈ ("%" ++ search ++ "%").toList ↔ Char.ofNat 0 ∈ search.toList := by
  have hne : Char.ofNat 0 ≠ likeSpecials.many := by decide
  rw [toList_pattern, Wildcard.enclose]
  simp [hne]

/-- The jobs a query is about : those that meet its filters and match its pattern. -/
theorem matching_criteria (matchesPattern : String → String → Bool) (query : JobQuery)
    (rows : List JobEntity) :
    (JobService.criteria matchesPattern query).matching rows =
      if query.Readable then
        some (rows.filter fun job => query.Meets job ∧
          ∀ search ∈ truthy query.search, matchesPattern job.name ("%" ++ search ++ "%") = true)
      else none := by
  have hstatus : (ifGiven query.status fun status =>
      some fun job : JobEntity => job.status == status).mapM id =
        some (query.status.toList.map fun status job => job.status == status) := by
    cases query.status <;> rfl
  have htype := mapM_ifGiven (truthy query.type) fun type =>
    textOf_bind type fun type (job : JobEntity) => job.type == type
  have hsearch := mapM_ifGiven (truthy query.search) fun search =>
    (textOf_bind ("%" ++ search ++ "%") fun pattern (job : JobEntity) =>
      matchesPattern job.name pattern).trans
        (if_congr (not_congr nul_mem_pattern) rfl rfl)
  have hconditions : (JobService.criteria matchesPattern query).conditions.mapM id =
      if query.Readable then
        some ((query.status.toList.map fun status (job : JobEntity) => job.status == status) ++
          (truthy query.type).toList.map (fun type (job : JobEntity) => job.type == type) ++
          (truthy query.search).toList.map fun search (job : JobEntity) =>
            matchesPattern job.name ("%" ++ search ++ "%"))
      else none := by
    change (_ ++ _ ++ _ : List (Option (JobEntity → Bool))).mapM id = _
    rw [List.mapM_append, List.mapM_append]
    erw [hstatus, htype, hsearch]
    unfold JobQuery.Readable
    split_ifs <;> simp_all
  rw [Criteria.matching, hconditions]
  split_ifs
  · refine congrArg some (List.filter_congr fun job _ => ?_)
    rw [Bool.eq_iff_iff]
    simp [JobQuery.Meets, and_assoc]
  · rfl

/-! ## What is listed -/

/-- The jobs that meet the filters and have the text in their name. -/
def JobQuery.wanted (collation : Collation) (query : JobQuery) (rows : List JobEntity) :
    List JobEntity :=
  rows.filter fun job => query.Meets job ∧ Contains collation job.name (query.search.getD "")

/-- For the jobs that meet the filters, the pattern says what the text does. -/
def JobQuery.TakenLiterally (collation : Collation) (query : JobQuery) (rows : List JobEntity) :
    Prop :=
  ∀ job ∈ rows, query.Meets job → ∀ search ∈ truthy query.search,
    (ilike collation job.name ("%" ++ search ++ "%") = true ↔ Contains collation job.name search)

instance (collation : Collation) (query : JobQuery) (rows : List JobEntity) :
    Decidable (query.TakenLiterally collation rows) :=
  inferInstanceAs (Decidable (∀ job ∈ rows, _))

/-- No wanted jobs with one sort key reach over the end of a page. -/
def JobQuery.TiesTogether (collation : Collation) (limit : ℕ) (query : JobQuery)
    (rows : List JobEntity) : Prop :=
  ∀ job ∈ query.wanted collation rows,
    ¬Straddles (query.sortOrder.toUpperCase.Allows (query.sortBy.getD .createdAt).column) limit
      (query.wanted collation rows) job

section

variable {collation : Collation} {query : JobQuery} {rows : List JobEntity}

theorem contains_getD (name : String) : Contains collation name (query.search.getD "") ↔
    ∀ search ∈ truthy query.search, Contains collation name search := by
  cases query.search with
  | none => simp [truthy, contains_empty]
  | some search =>
    by_cases hsearch : search = ""
    · simp [truthy, hsearch, contains_empty]
    · simp [truthy, Option.filter, hsearch]

/-- Two ways to choose rows choose the same ones if they do for each row. -/
theorem filter_perm_filter {α : Type} {rows : List α} {p q : α → Prop} [DecidablePred p]
    [DecidablePred q] :
    (rows.filter p).Perm (rows.filter q) ↔ ∀ row ∈ rows, (p row ↔ q row) := by
  constructor
  · intro h row hrow
    simpa [hrow] using h.mem_iff (a := row)
  · intro h
    rw [List.filter_congr fun row hrow => decide_eq_decide.mpr (h row hrow)]

theorem takenLiterally_iff : query.TakenLiterally collation rows ↔
    ∀ job ∈ rows, ((query.Meets job ∧ ∀ search ∈ truthy query.search,
      ilike collation job.name ("%" ++ search ++ "%") = true) ↔
        query.Meets job ∧ Contains collation job.name (query.search.getD "")) := by
  refine forall₂_congr fun job _ => ?_
  rw [contains_getD, and_congr_right_iff]
  refine imp_congr_right fun _ => ?_
  cases truthy query.search with
  | none => simp
  | some search => simp

theorem filter_eq_wanted (h : query.TakenLiterally collation rows) :
    (rows.filter fun job => query.Meets job ∧ ∀ search ∈ truthy query.search,
      ilike collation job.name ("%" ++ search ++ "%") = true) = query.wanted collation rows :=
  List.filter_congr fun job hjob => decide_eq_decide.mpr (takenLiterally_iff.mp h job hjob)

end

/-- The pages of a job search list the jobs that meet the filters and have the text in their name,
exactly if the database can read the query, the pattern says of these jobs' names what the text
does, and no ties reach over the end of a page. -/
theorem lists_wanted_iff (collation : Collation) {limit : ℕ} (hlimit : 1 ≤ limit)
    (jobs : Table JobEntity.id) (query : JobQuery) :
    Lists jobs.rows (fun findAndCount page =>
        JobService.list (ilike collation) findAndCount { query with page, limit })
      (query.wanted collation jobs.rows) ↔
    query.Readable ∧ query.TakenLiterally collation jobs.rows ∧
      query.TiesTogether collation limit jobs.rows := by
  have hlists : Lists jobs.rows (fun findAndCount page =>
      listPage (JobService.criteria (ilike collation) query) page limit findAndCount)
        (query.wanted collation jobs.rows) ↔ _ := lists_iff jobs.nodup.of_map hlimit
  rw [matching_criteria] at hlists
  refine hlists.trans ?_
  constructor
  · rintro ⟨found, hfound, hsame, hties⟩
    split_ifs at hfound with hreadable
    · obtain rfl := Option.some.inj hfound
      have hliteral := takenLiterally_iff.mpr (filter_perm_filter.mp hsame)
      rw [filter_eq_wanted hliteral] at hties
      exact ⟨hreadable, hliteral, hties⟩
    · cases hfound
  · rintro ⟨hreadable, hliteral, hties⟩
    rw [if_pos hreadable, filter_eq_wanted hliteral]
    exact ⟨_, rfl, .refl _, hties⟩

/-- A search text is taken for itself, whatever the names, exactly if it has no special character;
and over given tables a job search lists what it is to list exactly if the text is taken for itself
there, the database can read the query, and no ties reach over the end of a page. -/
theorem search_literal (collation : Collation) (limit : ℕ) (hlimit : 1 ≤ limit) :
    (∀ search, PlainSearch search ↔
      ∀ name, ilike collation name ("%" ++ search ++ "%") = true ↔
        Contains collation name search) ∧
    ∀ (jobs : Table JobEntity.id) (query : JobQuery),
      Lists jobs.rows (fun findAndCount page =>
          JobService.list (ilike collation) findAndCount { query with page, limit })
        (query.wanted collation jobs.rows) ↔
      query.Readable ∧ query.TakenLiterally collation jobs.rows ∧
        query.TiesTogether collation limit jobs.rows :=
  ⟨fun _ => ilike_iff_contains, lists_wanted_iff collation hlimit⟩

/-- The letters A to Z and their lower case. -/
def letters : List (Char × Char) :=
  "ABCDEFGHIJKLMNOPQRSTUVWXYZ".toList.zip "abcdefghijklmnopqrstuvwxyz".toList

theorem lookup_letters_eq_iff {c d : Char} (hd : ∀ p ∈ letters, p.1 ≠ d ∧ p.2 ≠ d) :
    (letters.lookup c).getD c = d ↔ c = d := by
  cases hc : letters.lookup c with
  | none => rfl
  | some e =>
    obtain ⟨before, after, hletters, -⟩ := List.lookup_eq_some_iff.mp hc
    obtain ⟨hce, hed⟩ := hd (c, e) (by simp [hletters])
    exact iff_of_false hed hce

/-- Only these letters have a case, as in the locale `C`. -/
def asciiLetters : Collation where
  lower c := (letters.lookup c).getD c
  kept := by constructor <;> exact fun _ => lookup_letters_eq_iff (by decide)

/-- A search without filters, ten jobs a page. -/
def searching (search : String) : JobQuery where
  page := 1
  limit := 10
  search := some search
  sortOrder := .desc

/-- Three jobs with the name `sync`. -/
theorem search_literal_sync : Lists prioritized.rows (fun findAndCount page =>
      JobService.list (ilike asciiLetters) findAndCount { searching "Yn" with page, limit := 10 })
    ((searching "Yn").wanted asciiLetters prioritized.rows) :=
  ((search_literal asciiLetters 10 (by decide)).2 prioritized _).mpr
    ⟨by decide, by decide, fun job _ => not_straddles_of_length_le (by decide) job⟩

/-- A `_` is in none of their names, and all of them are listed. -/
theorem not_search_literal : ¬Lists prioritized.rows (fun findAndCount page =>
      JobService.list (ilike asciiLetters) findAndCount { searching "_" with page, limit := 10 })
    ((searching "_").wanted asciiLetters prioritized.rows) := by
  intro h
  obtain ⟨-, hliteral, -⟩ := (lists_wanted_iff asciiLetters (by decide) prioritized _).mp h
  exact absurd hliteral (by decide)

end RealtimeOps
