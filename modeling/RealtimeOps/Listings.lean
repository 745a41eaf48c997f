import RealtimeOps.Entities
import RealtimeOps.Interleaving.Table
import RealtimeOps.Listing.Pages

/-!
# Listings

The four listings of the API. Each asks the database for one page of the rows that meet its
query's conditions, in its query's order, and for the number of these rows, from which it
computes how many pages there are.

The database is a parameter. It answers with rows in an order that the query allows (`Serves`) :
rows with the same sort key stand in any order, and maybe in another one for the next page. No
listing sorts by a second column. So its pages split the rows, for every database, exactly if
no group of matching rows with one sort key reaches over the end of a page
(`paging_partition`).
-/

set_option autoImplicit false

namespace RealtimeOps

open Interleaving Listing

variable {α : Type}

/-! ## Queries -/

/-- `sortOrder` of a job query. -/
inductive SortOrder where
  | asc | desc
  deriving DecidableEq

/-- The direction of an `ORDER BY`. -/
inductive Direction where
  | ASC | DESC
  deriving DecidableEq

/-- The direction a job query asks for. -/
def SortOrder.toUpperCase : SortOrder → Direction
  | asc => .ASC
  | desc => .DESC

/-- The row `x` may stand before `y`. -/
def Direction.Allows (direction : Direction) (key : α → ℕ) (x y : α) : Prop :=
  match direction with
  | ASC => key x ≤ key y
  | DESC => key y ≤ key x

instance (direction : Direction) (key : α → ℕ) : DecidableRel (direction.Allows key) :=
  match direction with
  | .ASC => fun x y => inferInstanceAs (Decidable (key x ≤ key y))
  | .DESC => fun x y => inferInstanceAs (Decidable (key y ≤ key x))

instance (direction : Direction) (key : α → ℕ) : Std.Total (direction.Allows key) where
  total x y := by cases direction <;> exact Nat.le_total _ _

instance (direction : Direction) (key : α → ℕ) : IsTrans α (direction.Allows key) where
  trans x y z hxy hyz := by
    cases direction with
    | ASC => exact Nat.le_trans hxy hyz
    | DESC => exact Nat.le_trans hyz hxy

/-- What rows a query is about, and in which order. -/
structure Criteria (α : Type) where
  /-- A condition is `none` if the database cannot read the value it compares with. -/
  conditions : List (Option (α → Bool))
  orderBy : α → ℕ
  direction : Direction

/-- What `findAndCount` and `getManyAndCount` are given. -/
structure Selection (α : Type) extends Criteria α where
  skip : ℕ
  take : ℕ

/-- The rows that meet the conditions, `none` if one of these cannot be read. -/
def Criteria.matching (criteria : Criteria α) (rows : List α) : Option (List α) :=
  (criteria.conditions.mapM id).map fun conditions =>
    rows.filter fun row => conditions.all fun condition => condition row

/-- `findAndCount` or `getManyAndCount`, `none` if the database reports an error. -/
abbrev FindAndCount (α : Type) := Selection α → Option (List α × ℕ)

/-- An answer of the database to a query on these rows. -/
def Responds (rows : List α) (selection : Selection α) (answer : Option (List α × ℕ)) : Prop :=
  match selection.matching rows with
  | none => answer = none
  | some found => ∃ l, Ordered (selection.direction.Allows selection.orderBy) found l ∧
      answer = some ((l.drop selection.skip).take selection.take, found.length)

/-- The database holds these rows. -/
def Serves (rows : List α) (findAndCount : FindAndCount α) : Prop :=
  ∀ selection, Responds rows selection (findAndCount selection)

/-- `meta` of a page. -/
structure PaginationMeta where
  page : ℕ
  limit : ℕ
  total : ℕ
  totalPages : ℕ
  deriving DecidableEq

/-- A page; its `meta` is a parent here. -/
structure PaginatedResult (α : Type) extends PaginationMeta where
  items : List α

/-- What the listings have in common. -/
def listPage (criteria : Criteria α) (page limit : ℕ) (findAndCount : FindAndCount α) :
    Option (PaginatedResult α) := do
  let (items, total) ← findAndCount { criteria with skip := (page - 1) * limit, take := limit }
  return { items, page, limit, total, totalPages := max (total ⌈/⌉ limit) 1 }

/-- `if (value) …` : a condition on a value that is given. -/
def ifGiven {β : Type} (value : Option β) (condition : β → Option (α → Bool)) :
    List (Option (α → Bool)) :=
  value.toList.map condition

/-- An empty text counts as none. -/
def truthy (value : Option String) : Option String :=
  value.filter fun value => value ≠ ""

/-- The text as a value of the database, which has no text with a NUL in it. -/
def textOf (value : String) : Option String :=
  if Char.ofNat 0 ∈ value.toList then none else some value

/-! ## The listings -/

/-- The columns jobs can be sorted by. -/
inductive JobSortBy where
  | createdAt | priority | updatedAt
  deriving DecidableEq

/-- The column of that name. -/
def JobSortBy.column : JobSortBy → JobEntity → ℕ
  | createdAt => (·.createdAt)
  | priority => (·.priority)
  | updatedAt => (·.updatedAt)

/-- The query of `GET /jobs`. -/
structure JobQuery where
  page : ℕ
  limit : ℕ
  status : Option JobStatus := none
  type : Option String := none
  search : Option String := none
  sortBy : Option JobSortBy := none
  sortOrder : SortOrder

namespace JobService

/-- The `where` and `order` of a query; `ilike text pattern` is PostgreSQL's `ILIKE`. -/
def criteria (ilike : String → String → Bool) (query : JobQuery) : Criteria JobEntity where
  conditions :=
    ifGiven query.status (fun status => some fun job => job.status == status) ++
    ifGiven (truthy query.type) (fun type => do
      let type ← textOf type
      return fun job => job.type == type) ++
    ifGiven (truthy query.search) (fun search => do
      let pattern ← textOf ("%" ++ search ++ "%")
      return fun job => ilike job.name pattern)
  orderBy := (query.sortBy.getD .createdAt).column
  direction := query.sortOrder.toUpperCase

/-- `JobService.list`. -/
def list (ilike : String → String → Bool) (findAndCount : FindAndCount JobEntity)
    (query : JobQuery) : Option (PaginatedResult JobEntity) :=
  listPage (criteria ilike query) query.page query.limit findAndCount

end JobService

/-- The query of `GET /alerts`. -/
structure AlertQuery where
  status : Option AlertStatus := none
  severity : Option AlertSeverity := none
  page : ℕ
  limit : ℕ

namespace AlertService

/-- An alert with its `incident`. -/
abbrev Joined := AlertEntity × Option IncidentEntity

/-- `leftJoinAndSelect('alert.incident')`. -/
def joined (alerts : Table AlertEntity.id) (incidents : Table IncidentEntity.id) : List Joined :=
  alerts.rows.map fun alert =>
    (alert, incidents.rows.find? fun incident => incident.alertId == some alert.id)

/-- The conditions and the order of a query, which is always from the newest on. -/
def criteria (query : AlertQuery) : Criteria Joined where
  conditions :=
    ifGiven query.status (fun status => some fun row => row.1.status == status) ++
    ifGiven query.severity (fun severity => some fun row => row.1.severity == severity)
  orderBy := (·.1.createdAt)
  direction := .DESC

/-- `AlertService.list`. -/
def list (getManyAndCount : FindAndCount Joined) (query : AlertQuery) :
    Option (PaginatedResult Joined) :=
  listPage (criteria query) query.page query.limit getManyAndCount

end AlertService

/-- The query of `GET /notifications`. -/
structure NotificationQuery where
  type : Option NotificationType := none
  unreadOnly : Option Bool := none
  page : ℕ
  limit : ℕ

namespace NotificationService

/-- The conditions and the order of a query; `unreadOnly=false` is no condition. -/
def criteria (query : NotificationQuery) : Criteria NotificationEntity where
  conditions :=
    ifGiven query.type (fun type => some fun notification => notification.type == type) ++
    if query.unreadOnly = some true then [some fun notification => notification.readAt.isNone]
    else []
  orderBy := (·.createdAt)
  direction := .DESC

/-- `NotificationService.list`. -/
def list (getManyAndCount : FindAndCount NotificationEntity) (query : NotificationQuery) :
    Option (PaginatedResult NotificationEntity) :=
  listPage (criteria query) query.page query.limit getManyAndCount

end NotificationService

/-- The query of `GET /audit-entries`. -/
structure AuditQuery where
  actorType : Option AuditActorType := none
  entityType : Option EntityType := none
  entityId : Option String := none
  page : ℕ
  limit : ℕ

namespace AuditService

/-- The conditions and the order of a query. The column `entityId` is a `uuid`, and `uuidOf` is
how PostgreSQL reads one. -/
def criteria (uuidOf : String → Option Uuid) (query : AuditQuery) : Criteria AuditEntryEntity where
  conditions :=
    ifGiven query.actorType (fun actorType => some fun entry => entry.actorType == actorType) ++
    ifGiven query.entityType (fun entityType => some fun entry =>
      entry.entityType == entityType) ++
    ifGiven (truthy query.entityId) (fun entityId => do
      let entityId ← uuidOf entityId
      return fun entry => entry.entityId == some entityId)
  orderBy := (·.createdAt)
  direction := .DESC

/-- `AuditService.list`. -/
def list (uuidOf : String → Option Uuid) (getManyAndCount : FindAndCount AuditEntryEntity)
    (query : AuditQuery) : Option (PaginatedResult AuditEntryEntity) :=
  listPage (criteria uuidOf query) query.page query.limit getManyAndCount

end AuditService

/-! ## Paging -/

/-- The pages of a listing split the rows. -/
def SplitsInto (limit : ℕ) (found : List α) (list : ℕ → Option (PaginatedResult α)) : Prop :=
  ∃ (pages : ℕ → PaginatedResult α) (totalPages : ℕ),
    (∀ p, 1 ≤ p → list p = some (pages p) ∧ (pages p).totalPages = totalPages) ∧
      Partition limit found (fun p => (pages p).items) totalPages

/-- The pages of a listing split the matching rows, whatever the answers of a database that holds
the rows to the queries for the pages. -/
def PagesSplit (criteria : Criteria α) (rows : List α) (limit : ℕ)
    (list : FindAndCount α → ℕ → Option (PaginatedResult α)) : Prop :=
  ∀ db : ℕ → FindAndCount α, (∀ p, Serves rows (db p)) →
    ∃ found ∈ criteria.matching rows, SplitsInto limit found fun p => list (db p) p

/-- The rows of all pages of a listing are the wanted ones, and so is the number of rows on each
page, whatever the answers of a database that holds the rows. -/
def Lists (rows : List α) (list : FindAndCount α → ℕ → Option (PaginatedResult α))
    (wanted : List α) : Prop :=
  ∀ db : ℕ → FindAndCount α, (∀ p, Serves rows (db p)) →
    ∃ (pages : ℕ → PaginatedResult α) (totalPages : ℕ),
      (∀ p, 1 ≤ p → list (db p) p = some (pages p) ∧ (pages p).total = wanted.length ∧
        (pages p).totalPages = totalPages) ∧
      (walk (fun p => (pages p).items) totalPages).Perm wanted

/-- The database can read the values of the query, and no matching rows with one sort key reach
over the end of a page. -/
def Criteria.KeepsTies (criteria : Criteria α) (rows : List α) (limit : ℕ) : Prop :=
  ∃ found ∈ criteria.matching rows, ∀ row ∈ found,
    ¬Straddles (criteria.direction.Allows criteria.orderBy) limit found row

theorem exists_responds (rows : List α) (selection : Selection α) :
    ∃ answer, Responds rows selection answer := by
  unfold Responds
  cases selection.matching rows with
  | none => exact ⟨none, rfl⟩
  | some found =>
    exact ⟨_, found.insertionSort (selection.direction.Allows selection.orderBy),
      ⟨List.perm_insertionSort _ found, List.pairwise_insertionSort _ found⟩, rfl⟩

/-- Any answer to one query is that of some database. -/
theorem exists_serves {rows : List α} {selection : Selection α} {answer : Option (List α × ℕ)}
    (h : Responds rows selection answer) :
    ∃ findAndCount, Serves rows findAndCount ∧ findAndCount selection = answer := by
  classical
  choose other hother using exists_responds rows
  refine ⟨Function.update other selection answer, fun s => ?_, Function.update_self _ _ _⟩
  rcases eq_or_ne s selection with rfl | hne
  · rw [Function.update_self]
    exact h
  · rw [Function.update_of_ne hne]
    exact hother s

section

variable {criteria : Criteria α} {rows found : List α} {limit : ℕ}

theorem listPage_of_ordered {findAndCount : FindAndCount α} {p : ℕ} {l : List α}
    (h : findAndCount { criteria with skip := (p - 1) * limit, take := limit } =
      some (page limit l p, found.length)) :
    listPage criteria p limit findAndCount =
      some ⟨⟨p, limit, found.length, pageCount limit found.length⟩, page limit l p⟩ := by
  rw [listPage, h]
  rfl

theorem nodup_of_matching (hrows : rows.Nodup) (hmatching : criteria.matching rows = some found) :
    found.Nodup := by
  obtain ⟨conditions, -, rfl⟩ := Option.map_eq_some_iff.mp hmatching
  exact hrows.filter _

/-- Each page of a database that holds the rows is a page of the matching rows in some order. -/
theorem exists_orders (limit : ℕ) {db : ℕ → FindAndCount α}
    (hmatching : criteria.matching rows = some found) (hserves : ∀ p, Serves rows (db p)) :
    ∃ orders : ℕ → List α,
      (∀ p, Ordered (criteria.direction.Allows criteria.orderBy) found (orders p)) ∧
        ∀ p, listPage criteria p limit (db p) =
          some ⟨⟨p, limit, found.length, pageCount limit found.length⟩,
            page limit (orders p) p⟩ := by
  have hanswers : ∀ p, ∃ l, Ordered (criteria.direction.Allows criteria.orderBy) found l ∧
      db p { criteria with skip := (p - 1) * limit, take := limit } =
        some (page limit l p, found.length) := fun p => by
    have hanswer := hserves p { criteria with skip := (p - 1) * limit, take := limit }
    unfold Responds at hanswer
    rwa [show Criteria.matching { criteria with } rows = some found from hmatching] at hanswer
  choose orders horders hdb using hanswers
  exact ⟨orders, horders, fun p => listPage_of_ordered (hdb p)⟩

/-- Any orders are those of some database. -/
theorem exists_db (limit : ℕ) (hmatching : criteria.matching rows = some found)
    {orders : ℕ → List α}
    (horders : ∀ p, Ordered (criteria.direction.Allows criteria.orderBy) found (orders p)) :
    ∃ db : ℕ → FindAndCount α, (∀ p, Serves rows (db p)) ∧
      ∀ p, listPage criteria p limit (db p) =
        some ⟨⟨p, limit, found.length, pageCount limit found.length⟩,
          page limit (orders p) p⟩ := by
  have hanswers : ∀ p, Responds rows { criteria with skip := (p - 1) * limit, take := limit }
      (some (page limit (orders p) p, found.length)) := fun p => by
    unfold Responds
    rw [show Criteria.matching { criteria with } rows = some found from hmatching]
    exact ⟨orders p, horders p, rfl⟩
  choose db hserves hdb using fun p => exists_serves (hanswers p)
  exact ⟨db, hserves, fun p => listPage_of_ordered (hdb p)⟩

/-- A query with a value that cannot be read is refused. -/
theorem exists_refusing (limit : ℕ) (hmatching : criteria.matching rows = none) :
    ∃ db : ℕ → FindAndCount α, (∀ p, Serves rows (db p)) ∧
      ∀ p, listPage criteria p limit (db p) = none := by
  have hanswers : ∀ p, Responds rows { criteria with skip := (p - 1) * limit, take := limit }
      none := fun p => by
    unfold Responds
    rw [show Criteria.matching { criteria with } rows = none from hmatching]
  choose db hserves hdb using fun p => exists_serves (hanswers p)
  exact ⟨db, hserves, fun p => by rw [listPage, hdb]; rfl⟩

/-- For rows with an id, the pages of a listing split the matching rows exactly if ties do not
reach over the end of a page. -/
theorem pagesSplit_iff (hrows : rows.Nodup) (hlimit : 1 ≤ limit) :
    PagesSplit criteria rows limit (fun findAndCount p => listPage criteria p limit findAndCount) ↔
      criteria.KeepsTies rows limit := by
  constructor
  · intro hpages
    cases hmatching : criteria.matching rows with
    | none =>
      obtain ⟨db, hserves, -⟩ := exists_refusing limit hmatching
      obtain ⟨found, hfound, -⟩ := hpages db hserves
      rw [hmatching] at hfound
      cases hfound
    | some found =>
      have hnodup : found.Nodup := nodup_of_matching hrows hmatching
      refine ⟨found, hmatching, (partition_iff hnodup hlimit).mp fun orders horders => ?_⟩
      obtain ⟨db, hserves, hdb⟩ := exists_db limit hmatching horders
      obtain ⟨found', hfound', pages, totalPages, hlist, hpartition⟩ := hpages db hserves
      obtain rfl : found = found' := Option.some.inj (hmatching.symm.trans hfound')
      have hpage : ∀ p, 1 ≤ p → pages p =
          ⟨⟨p, limit, found.length, pageCount limit found.length⟩, page limit (orders p) p⟩ :=
        fun p hp => Option.some.inj ((hlist p hp).1.symm.trans (hdb p))
      have htotal : totalPages = pageCount limit found.length := by
        rw [← (hlist 1 le_rfl).2, hpage 1 le_rfl]
      rw [← htotal]
      exact hpartition.congr (htotal ▸ le_max_right _ _) fun p hp => by rw [hpage p hp]
  · rintro ⟨found, hmatching, hties⟩ db hserves
    obtain ⟨orders, horders, hdb⟩ := exists_orders limit hmatching hserves
    exact ⟨found, hmatching, _, _, fun p _ => ⟨hdb p, rfl⟩,
      partition_of_orders hlimit hties horders⟩

/-- For rows with an id, a listing lists what is wanted exactly if this is what matches, and its
ties do not reach over the end of a page. -/
theorem lists_iff {wanted : List α} (hrows : rows.Nodup) (hlimit : 1 ≤ limit) :
    Lists rows (fun findAndCount p => listPage criteria p limit findAndCount) wanted ↔
      ∃ found ∈ criteria.matching rows, found.Perm wanted ∧
        ∀ row ∈ found, ¬Straddles (criteria.direction.Allows criteria.orderBy) limit found row := by
  constructor
  · intro hlists
    cases hmatching : criteria.matching rows with
    | none =>
      obtain ⟨db, hserves, hdb⟩ := exists_refusing limit hmatching
      obtain ⟨pages, totalPages, hlist, -⟩ := hlists db hserves
      cases (hdb 1).symm.trans (hlist 1 le_rfl).1
    | some found =>
      have hwalk : ∀ orders : ℕ → List α,
          (∀ p, Ordered (criteria.direction.Allows criteria.orderBy) found (orders p)) →
          (walk (fun p => page limit (orders p) p) (pageCount limit found.length)).Perm wanted := by
        intro orders horders
        obtain ⟨db, hserves, hdb⟩ := exists_db limit hmatching horders
        obtain ⟨pages, totalPages, hlist, honce⟩ := hlists db hserves
        have hpage : ∀ p, 1 ≤ p → pages p =
            ⟨⟨p, limit, found.length, pageCount limit found.length⟩, page limit (orders p) p⟩ :=
          fun p hp => Option.some.inj ((hlist p hp).1.symm.trans (hdb p))
        have htotal : totalPages = pageCount limit found.length := by
          rw [← (hlist 1 le_rfl).2.2, hpage 1 le_rfl]
        have hsame : walk (fun p => page limit (orders p) p) totalPages =
            walk (fun p => (pages p).items) totalPages := walk_congr fun p hp => by rw [hpage p hp]
        rwa [← htotal, hsame]
      -- One order for all pages lists what matches.
      have hsorted : Ordered (criteria.direction.Allows criteria.orderBy) found
          (found.insertionSort (criteria.direction.Allows criteria.orderBy)) :=
        ⟨List.perm_insertionSort _ found, List.pairwise_insertionSort _ found⟩
      have hsame := hwalk (fun _ => _) fun _ => hsorted
      rw [← hsorted.perm.length_eq, walk_page hlimit] at hsame
      have hfound : found.Perm wanted := hsorted.perm.symm.trans hsame
      have hnodup : found.Nodup := nodup_of_matching hrows hmatching
      refine ⟨found, rfl, hfound, (once_iff hnodup hlimit).mp fun orders horders => ?_⟩
      exact (hwalk orders horders).trans hfound.symm
  · rintro ⟨found, hmatching, hfound, hties⟩ db hserves
    obtain ⟨orders, horders, hdb⟩ := exists_orders limit hmatching hserves
    refine ⟨_, _, fun p _ => ⟨hdb p, hfound.length_eq, rfl⟩, ?_⟩
    exact ((once_iff (nodup_of_matching hrows hmatching) hlimit).mpr hties orders horders).trans
      hfound

end

theorem joined_nodup (alerts : Table AlertEntity.id) (incidents : Table IncidentEntity.id) :
    (AlertService.joined alerts incidents).Nodup := by
  refine List.Nodup.of_map (f := fun row => row.1.id) ?_
  rw [AlertService.joined, List.map_map]
  exact alerts.nodup

/-- For each listing, the pages split the matching rows exactly if the database can read the
query's values and no ties reach over the end of a page.

The paged query of the alerts has a join, and TypeORM orders it by the primary key as well. A
database that does is one of those the pages have to split the rows for, so of the real listing of
alerts only the sufficiency speaks. -/
theorem paging_partition (ilike : String → String → Bool) (uuidOf : String → Option Uuid)
    (limit : ℕ) (hlimit : 1 ≤ limit) :
    (∀ (jobs : Table JobEntity.id) (query : JobQuery),
      PagesSplit (JobService.criteria ilike query) jobs.rows limit
          (fun findAndCount page => JobService.list ilike findAndCount { query with page, limit }) ↔
        (JobService.criteria ilike query).KeepsTies jobs.rows limit) ∧
    (∀ (alerts : Table AlertEntity.id) (incidents : Table IncidentEntity.id) (query : AlertQuery),
      PagesSplit (AlertService.criteria query) (AlertService.joined alerts incidents) limit
          (fun getManyAndCount page =>
            AlertService.list getManyAndCount { query with page, limit }) ↔
        (AlertService.criteria query).KeepsTies (AlertService.joined alerts incidents) limit) ∧
    (∀ (notifications : Table NotificationEntity.id) (query : NotificationQuery),
      PagesSplit (NotificationService.criteria query) notifications.rows limit
          (fun getManyAndCount page =>
            NotificationService.list getManyAndCount { query with page, limit }) ↔
        (NotificationService.criteria query).KeepsTies notifications.rows limit) ∧
    ∀ (auditEntries : Table AuditEntryEntity.id) (query : AuditQuery),
      PagesSplit (AuditService.criteria uuidOf query) auditEntries.rows limit
          (fun getManyAndCount page =>
            AuditService.list uuidOf getManyAndCount { query with page, limit }) ↔
        (AuditService.criteria uuidOf query).KeepsTies auditEntries.rows limit :=
  ⟨fun jobs _ => pagesSplit_iff jobs.nodup.of_map hlimit,
    fun alerts incidents _ => pagesSplit_iff (joined_nodup alerts incidents) hlimit,
    fun notifications _ => pagesSplit_iff notifications.nodup.of_map hlimit,
    fun auditEntries _ => pagesSplit_iff auditEntries.nodup.of_map hlimit⟩


/-- A queued job of this priority. -/
def prioritizedJob (id : Uuid) (priority : ℕ) : JobEntity where
  id := id
  name := "sync"
  type := "sync"
  payload := []
  status := .QUEUED
  priority := priority
  attemptCount := 0
  maxAttempts := 3
  lastError := none
  startedAt := none
  completedAt := none
  createdAt := id
  updatedAt := id

/-- Two jobs have the same priority. -/
def prioritized : Table JobEntity.id where
  rows := [prioritizedJob 0 5, prioritizedJob 1 5, prioritizedJob 2 1]
  nodup := by decide

/-- The jobs of the highest priority first. -/
def byPriority (limit : ℕ) : JobQuery where
  page := 1
  limit := limit
  sortBy := some .priority
  sortOrder := .desc

/-- Two jobs on a page, so that the tied ones are together. -/
theorem paging_partition_together :
    PagesSplit (JobService.criteria (· == ·) (byPriority 2)) prioritized.rows 2
      fun findAndCount page => JobService.list (· == ·) findAndCount
        { byPriority 2 with page, limit := 2 } := by
  refine ((paging_partition (· == ·) (fun _ => none) 2 (by decide)).1 prioritized _).mpr
    ⟨prioritized.rows, rfl, fun row hrow => ?_⟩
  rintro ⟨k, hfirst, hlast⟩
  have hends : ∀ row ∈ prioritized.rows,
      prioritized.rows.countP (fun y => ¬row.priority ≥ y.priority) % 2 = 0 ∧
        prioritized.rows.countP (fun y => y.priority ≥ row.priority) ≤
          prioritized.rows.countP (fun y => ¬row.priority ≥ y.priority) + 2 := by decide
  obtain ⟨heven, hgroup⟩ := hends row hrow
  change prioritized.rows.countP (fun y => ¬row.priority ≥ y.priority) < k * 2 at hfirst
  change k * 2 < prioritized.rows.countP (fun y => y.priority ≥ row.priority) at hlast
  omega

/-- One job on a page : the next one may be the same again. -/
theorem not_paging_partition :
    ¬PagesSplit (JobService.criteria (· == ·) (byPriority 1)) prioritized.rows 1
      fun findAndCount page => JobService.list (· == ·) findAndCount
        { byPriority 1 with page, limit := 1 } := by
  intro h
  obtain ⟨found, hfound, hties⟩ := (pagesSplit_iff prioritized.nodup.of_map le_rfl).mp h
  obtain rfl : found = prioritized.rows := Option.some.inj (hfound.symm.trans rfl)
  exact hties _ (List.mem_cons_self ..) ⟨1, by decide, by decide⟩

end RealtimeOps
