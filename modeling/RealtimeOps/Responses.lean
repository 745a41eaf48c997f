import RealtimeOps.Interleaving.Commitment
import RealtimeOps.Refinement

/-!
# Refusals

What a handler or a guard throws becomes a response in `GlobalExceptionFilter` : an `HttpException`
shows its own status and text, and everything else is status 500 with a fixed text.

A request that is answered with a status below 500 was refused before it did anything : one with
status 401 has made no call, one with status 429 has only counted, and one with status 400 or 404
has changed no row, no lock, no message and no event (`refused_has_only_read`). Every command checks
what it needs before its first write, and a write that fails is no `HttpException`.
-/

set_option autoImplicit false

namespace RealtimeOps

open Interleaving

/-! ## The filter -/

/-- An entry of a list of messages : a text, or a `ValidationError` by the texts of its
constraints. -/
inductive MessageEntry where
  | text (text : String)
  | validation (constraints : List String)
  deriving DecidableEq

/-- The field `message` of what an exception responds with. -/
inductive ExceptionMessage where
  | absent
  | text (text : String)
  | several (entries : List MessageEntry)
  deriving DecidableEq

/-- `HttpException.getResponse()`. -/
inductive ExceptionResponse where
  | text (text : String)
  | object (message : ExceptionMessage) (error : Option String)
  deriving DecidableEq

/-- What reaches the filter. -/
inductive Exception where
  | http (status : ℕ) (response : ExceptionResponse)
  | other
  deriving DecidableEq

/-- The body of a response with `success: false`. -/
structure ErrorResponse where
  code : ℕ
  message : String
  path : String
  timestamp : Date
  deriving DecidableEq

namespace GlobalExceptionFilter

/-- The constraints of a validation error, or the text. -/
def entryText : MessageEntry → String
  | .text text => text
  | .validation constraints => ", ".intercalate constraints

/-- One text for whatever the exception carries. -/
def normalizeMessage : ExceptionResponse → String
  | .text text => text
  | .object (.several entries) _ => "; ".intercalate ((entries.map entryText).filter (· ≠ ""))
  | .object (.text text) _ => text
  | .object .absent error => error.getD "Request failed"

/-- `catch`, with the `url` of the request. -/
def handle (exception : Exception) (url : String) (now : Date) : ErrorResponse :=
  match exception with
  | .http status response => ⟨status, normalizeMessage response, url, now⟩
  | .other => ⟨500, "Unexpected server error", url, now⟩

end GlobalExceptionFilter

/-- The exception, with what Nest's classes put into it. A request whose process has died is not
answered at all. -/
def Failure.exception : Failure → Exception
  | badRequest message => .http 400 (.object (.text message) (some "Bad Request"))
  | notFound message => .http 404 (.object (.text message) (some "Not Found"))
  | rejected | malformed | stopped => .other

/-- The exceptions of the guards, and those of the services. -/
def HttpFailure.exception : HttpFailure → Exception
  | unauthorized message => .http 401 (.object (.text message) (some "Unauthorized"))
  | tooManyRequests message => .http 429 (.text message)
  | failed failure => failure.exception

/-- What a request is answered with that has failed. -/
def HttpFailure.response (failure : HttpFailure) (url : String) (now : Date) : ErrorResponse :=
  GlobalExceptionFilter.handle failure.exception url now

/-- The status of the response. -/
def HttpFailure.status (failure : HttpFailure) : ℕ :=
  (failure.response "" 0).code

/-- What is no refusal shows nothing of what has failed. -/
theorem HttpFailure.response_unexpected {failure : HttpFailure} (h : 500 ≤ failure.status)
    (url : String) (now : Date) :
    failure.response url now = ⟨500, "Unexpected server error", url, now⟩ := by
  cases failure with
  | unauthorized => exact absurd h (by decide : ¬500 ≤ 401)
  | tooManyRequests => exact absurd h (by decide : ¬500 ≤ 429)
  | failed failure =>
    cases failure with
    | badRequest => exact absurd h (by decide : ¬500 ≤ 400)
    | notFound => exact absurd h (by decide : ¬500 ≤ 404)
    | rejected | malformed | stopped => rfl

theorem HttpFailure.status_failed (failure : Failure) :
    (failed failure).status = 400 ∨ (failed failure).status = 404 ∨
      (failed failure).status = 500 := by
  cases failure with
  | badRequest message => exact .inl rfl
  | notFound message => exact .inr (.inl rfl)
  | rejected | malformed | stopped => exact .inr (.inr rfl)

/-! ## Commands -/

/-- An error that is shown as it is. -/
def Failure.Refusal (failure : Failure) : Prop :=
  (HttpFailure.failed failure).status < 500

/-- A call that changes no row, no lock, no message and no event. -/
def SiteOp.Looks : SiteOp → Prop
  | .service (.findJob _) | .service (.findAttempts _) | .service (.findAlert _)
  | .service (.findIncident _) | .service .now => True
  | .service _ => False
  | .counter _ | .select | .ping => True

/-- A program that refuses only what it has looked at. -/
abbrev Prudent {α : Type} (p : Promise α) : Prop :=
  p.Commits (fun op => (SiteOp.service op).Looks) Failure.Refusal

section Commands

theorem spares_create (input : CreateJobInput) :
    (JobService.create input).Spares Failure.Refusal := by
  refine .await_bind fun _ => .await_bind fun _ => .await_bind fun _ => .await_bind fun _ => ?_
  exact .await_bind fun _ => .await_bind fun _ => .await_bind fun _ => trivial

theorem prudent_retry (jobId : Uuid) (operatorId : String) :
    Prudent (JobService.retry jobId operatorId) := by
  unfold JobService.retry
  rw [Prog.bind_eq, JobService.getById_bind]
  refine .free_bind trivial fun found => ?_
  cases found with
  | none => trivial
  | some job =>
    dsimp only
    split_ifs
    · trivial
    · trivial
    refine Prog.Spares.commits ?_
    refine .await_bind fun _ => .await_bind fun _ => .await_bind fun _ => .await_bind fun _ => ?_
    exact .await_bind fun _ => .await_bind fun _ => .await_bind fun _ => trivial

theorem prudent_getStatus (jobId : Uuid) : Prudent (JobService.getStatus jobId) := by
  unfold JobService.getStatus
  rw [Prog.bind_eq, JobService.getById_bind]
  refine .free_bind trivial fun found => ?_
  cases found with
  | none => trivial
  | some job => exact .free_bind trivial fun _ => trivial

theorem spares_announce (input : CreateAlertInput) (alert : AlertEntity)
    (incident : Option IncidentEntity) :
    (AlertService.announce input alert incident).Spares Failure.Refusal := by
  refine .await_bind fun _ => .await_bind fun _ => .await_bind fun _ => ?_
  cases incident with
  | none => trivial
  | some incident => exact .await_bind fun _ => trivial

theorem spares_createAlert (input : CreateAlertInput) :
    (AlertService.create input).Spares Failure.Refusal := by
  refine .await_bind fun _ => ?_
  split_ifs
  · exact .await_bind fun _ => spares_announce _ _ _
  · exact spares_announce _ _ _

theorem spares_propagate (incident updated : IncidentEntity) (operatorId : String)
    (changes : Date → AlertUpdate) (action auditAction : String) (metadata payload : Record) :
    (IncidentService.propagate incident updated operatorId changes action auditAction metadata
      payload).Spares Failure.Refusal := by
  unfold IncidentService.propagate
  cases incident.alertId with
  | none => exact .await_bind fun _ => .await_bind fun _ => .await_bind fun _ => trivial
  | some alertId =>
    refine .await_bind fun _ => .await_bind fun _ => ?_
    exact .await_bind fun _ => .await_bind fun _ => .await_bind fun _ => trivial

theorem prudent_acknowledge (incidentId : Uuid) (operatorId : String) :
    Prudent (IncidentService.acknowledge incidentId operatorId) := by
  unfold IncidentService.acknowledge
  rw [Prog.bind_eq, IncidentService.getIncident_bind]
  refine .free_bind trivial fun found => ?_
  cases found with
  | none => trivial
  | some incident =>
    dsimp only
    split_ifs
    · trivial
    · exact Prog.Spares.commits
        (.await_bind fun _ => .await_bind fun _ => spares_propagate _ _ _ _ _ _ _ _)

theorem spares_settle (incident : IncidentEntity) (operatorId : String) :
    (IncidentService.settle incident operatorId).Spares Failure.Refusal :=
  .await_bind fun _ => .await_bind fun _ => spares_propagate _ _ _ _ _ _ _ _

theorem prudent_resolve (incidentId : Uuid) (operatorId : String) :
    Prudent (IncidentService.resolve incidentId operatorId) := by
  unfold IncidentService.resolve
  rw [Prog.bind_eq, IncidentService.getIncident_bind]
  refine .free_bind trivial fun found => ?_
  cases found with
  | none => trivial
  | some incident =>
    dsimp only
    split_ifs
    · trivial
    · exact Prog.Spares.commits (.await_bind fun _ => spares_settle _ _)
    · exact (spares_settle _ _).commits

/-- Every command that can be asked for looks before it refuses. -/
theorem prudent_prog {route : ApiRoute} {operatorId : String} {c : Command}
    (hc : route.command operatorId = some c) : Prudent c.prog := by
  cases route with
  | getHealth | read | refused => cases hc
  | createJob =>
    cases hc
    exact ((spares_create _).commits.map _).map _
  | retryJob =>
    cases hc
    exact ((prudent_retry _ _).map _).map _
  | getJobStatus =>
    cases hc
    exact ((prudent_getStatus _).map _).map _
  | createAlert =>
    cases hc
    exact (spares_createAlert _).commits.map _
  | acknowledgeIncident =>
    cases hc
    exact (prudent_acknowledge _ _).map _
  | resolveIncident =>
    cases hc
    exact (prudent_resolve _ _).map _

end Commands

/-! ## Requests -/

section Requests

variable {R : HttpFailure → Prop} {free : SiteOp → Prop}

/-- What answers the call of a service. -/
theorem spared_answer {α : Type} (h : ¬R (.failed .rejected)) {r : Except HttpFailure α}
    (hr : Spared R r) :
    Spared (fun failure => R (.failed failure)) (r.mapError HttpFailure.failure) := by
  rintro failure heq hR
  cases r with
  | ok reply => cases heq
  | error err =>
    cases heq
    cases err with
    | unauthorized | tooManyRequests => exact h hR
    | failed failure => exact hr _ rfl hR

theorem spares_service {α : Type} (h : ¬R (.failed .rejected)) {p : Promise α}
    (hp : p.Spares fun failure => R (.failed failure)) : (p.embed services).Spares R :=
  hp.embed (fun _ => id) fun _ _ => spared_answer h

theorem spares_now (h : ¬R (.failed .rejected)) :
    ((await .now).embed services : Handling Date).Spares R :=
  spares_service h (.await _)

theorem spares_reads : ∀ n, (ApiRoute.reads n).Spares R
  | 0 => trivial
  | n + 1 => .await_bind fun _ => spares_reads n

theorem spares_getHealth (hnow : ((await .now).embed services : Handling Date).Spares R) :
    HealthService.getHealth.Spares R := by
  have hdown : ∀ _ : HttpFailure, (Prog.ret false : Handling Bool).Spares R := fun _ => trivial
  refine Prog.Spares.bind (fun _ => ?_) (.tryCatch hdown _)
  refine Prog.Spares.bind (fun _ => ?_) (.tryCatch hdown _)
  refine Prog.Spares.bind (fun _ => ?_) (.tryCatch hdown _)
  exact hnow.map _

/-- A handler throws what its services throw. -/
theorem spares_handler (h : ∀ failure, ¬R (.failed failure)) (route : ApiRoute)
    (operatorId : String) : (route.handler operatorId).Spares R := by
  cases route with
  | getHealth => exact (spares_getHealth (spares_now (h _))).map _
  | read queries => exact spares_reads queries
  | refused message => exact h _
  | createJob | retryJob | getJobStatus | createAlert | acknowledgeIncident | resolveIncident =>
    exact (spares_service (h _) (.of_never h _)).map _

/-- An execution throws nothing. -/
theorem spares_consume (h : ¬R (.failed .rejected)) (delivery : Delivery) :
    (Command.job (.consume delivery)).handling.Spares R := by
  have hnack : ∀ _ : Failure, (await (.nack delivery.tag)).Spares fun failure =>
      R (.failed failure) := fun _ => .await _
  exact (spares_service h (((Prog.Spares.tryCatch hnack _).map _).map _)).map _

/-- What a request does commits as soon as its guards and its handler do. -/
theorem commits_handleRequest {site : Site} (request : HttpRequest)
    (hnow : ((await .now).embed services : Handling Date).Commits free R)
    (hguard : ∀ (route : ApiRoute) r operatorId,
      (((site.limiter.canActivate ⟨route.isPublic, r⟩).embed limiting).bind fun _ =>
        route.handler operatorId).Commits free R) :
    (site.handleRequest request).Commits free R := by
  cases request with
  | unrouted r => trivial
  | realtimeHealth r => exact hnow.map _
  | api route r =>
    rw [Site.handleRequest, Site.authenticate]
    cases (OperatorAuthGuard.canActivate site.expectedToken ⟨route.isPublic, r⟩) with
    | error message => trivial
    | ok operatorId => exact hguard route r _

theorem handle_error {e : Env} {op : Op} {w : World} {failure : Failure}
    (h : (handle e op w).1 = .error failure) : failure = .rejected := by
  unfold handle at h
  dsimp only at h
  split at h
  · cases h
    rfl
  · split_ifs at h
    split at h <;> cases h <;> rfl

/-- The services and Redis reject a call, and do not refuse it. -/
theorem spared_handle (h : ¬R (.failed .rejected)) (e : Env) (op : SiteOp) (b : Backend) :
    Spared R (Backend.handle e op b).1 := by
  intro err heq
  have hrejected : err = .failed .rejected := by
    cases op with
    | service op =>
      change (handle e op b.world).1.mapError HttpFailure.failed = _ at heq
      cases hr : (handle e op b.world).1 with
      | ok reply =>
        rw [hr] at heq
        cases heq
      | error failure =>
        rw [hr] at heq
        cases heq
        rw [handle_error hr]
    | counter op =>
      change (Redis.handle e op b.redis).1 = _ at heq
      unfold Redis.handle at heq
      dsimp only at heq
      split at heq <;> cases heq <;> rfl
    | select | ping =>
      change Backend.look e _ = _ at heq
      unfold Backend.look at heq
      split_ifs at heq
      cases heq
      rfl
  rwa [hrejected]

/-! The three refusals. -/

/-- Without an operator no call is made. -/
theorem commits_unauthorized (site : Site) (request : HttpRequest) :
    (site.handleRequest request).Commits (fun _ => False) (·.status = 401) := by
  have hfailed : ∀ failure, ¬(HttpFailure.failed failure).status = 401 := by
    rintro failure h
    rcases HttpFailure.status_failed failure with h' | h' | h' <;> omega
  have hverdict : ∀ count, (site.limiter.verdict count).Spares (·.status = 401) := by
    intro count
    unfold RedisRateLimitGuard.verdict
    split_ifs
    · exact (by decide : ¬429 = 401)
    · trivial
  have hguard : ∀ context, (site.limiter.canActivate context).Spares (·.status = 401) := by
    intro context
    rw [RedisRateLimitGuard.canActivate_eq]
    split_ifs
    · trivial
    refine .await_bind fun count => ?_
    unfold RedisRateLimitGuard.counted
    split_ifs
    · exact .await_bind fun _ => hverdict count
    · exact hverdict count
  refine commits_handleRequest request (spares_now (hfailed _)).commits fun route r _ => ?_
  refine Prog.Spares.commits (Prog.Spares.bind (fun _ => spares_handler hfailed _ _) ?_)
  exact (hguard _).embed (fun _ => id) (fun _ _ => id)

/-- A request that is one too many has only been counted. -/
theorem commits_tooManyRequests (site : Site) (request : HttpRequest) :
    (site.handleRequest request).Commits (fun op => ∃ call, op = SiteOp.counter call)
      (·.status = 429) := by
  have hfailed : ∀ failure, ¬(HttpFailure.failed failure).status = 429 := by
    rintro failure h
    rcases HttpFailure.status_failed failure with h' | h' | h' <;> omega
  refine commits_handleRequest request (spares_now (hfailed _)).commits fun route r _ => ?_
  refine .of_calls (fun _ => (spares_handler hfailed _ _).commits) ?_
  exact Prog.Calls.embed ((site.limiter.calls_canActivate _).mono fun op _ => ⟨op, rfl⟩)

theorem commits_handler (route : ApiRoute) (operatorId : String) :
    (route.handler operatorId).Commits SiteOp.Looks (·.status < 500) := by
  have hrejected : ¬(HttpFailure.failed .rejected).status < 500 := by decide
  have hcommand : ∀ c, route.command operatorId = some c →
      c.handling.Commits SiteOp.Looks (·.status < 500) := fun c hc =>
    ((prudent_prog hc).embed (fun _ => id) fun _ _ => spared_answer hrejected).map _
  cases route with
  | getHealth => exact ((spares_getHealth (spares_now hrejected)).map _).commits
  | read queries => exact (spares_reads queries).commits
  | refused message => trivial
  | createJob | retryJob | getJobStatus | createAlert | acknowledgeIncident | resolveIncident =>
    exact hcommand _ rfl

/-- A request that is refused has looked at most. -/
theorem commits_refusal (site : Site) (request : HttpRequest) :
    (site.handleRequest request).Commits SiteOp.Looks (·.status < 500) := by
  refine commits_handleRequest request (spares_now (by decide)).commits fun route r operatorId => ?_
  refine .of_calls (fun _ => commits_handler route operatorId) ?_
  exact Prog.Calls.embed ((site.limiter.calls_canActivate _).mono fun _ _ => trivial)

end Requests

/-! ## Runs -/

namespace Deployment

variable {site : Site} {R : HttpFailure → Prop} {free : SiteOp → Prop} {s s' : Deployment}
  {i : ℕ} {m : SiteMove}

/-- The threads commit. -/
def Commit (free : SiteOp → Prop) (R : HttpFailure → Prop) (s : Deployment) : Prop :=
  ∀ i p, s.backend.threads i = some p → p.Commits free R

/-- Thread `i` does not refuse any more. -/
def Spares (i : ℕ) (R : HttpFailure → Prop) (s : Deployment) : Prop :=
  ∃ p, s.backend.threads i = some p ∧ p.Spares R

/-- Thread `j` goes on with `p`. -/
theorem Commit.update (h : s.Commit free R) {j : ℕ} {p : Handling HttpBody}
    (hp : p.Commits free R)
    (hs : s'.backend.threads = Function.update s.backend.threads j (some p)) :
    s'.Commit free R := by
  intro i q hq
  rw [hs, Function.update_apply] at hq
  split_ifs at hq
  · cases hq
    exact hp
  · exact h i q hq

theorem Commit.step (hrequest : ∀ request, (site.handleRequest request).Commits free R)
    (hrejected : ¬R (.failed .rejected)) (h : s.Commit free R) (hs : site.step s m = some s') :
    s'.Commit free R := by
  cases Site.step_eq_some.mp hs with
  | @request i request b hb =>
    obtain ⟨-, rfl⟩ := Named.spawn_eq_some hb
    exact h.update (hrequest request) rfl
  | deliver hready hb =>
    obtain ⟨-, rfl⟩ := Named.spawn_eq_some hb
    exact h.update (spares_consume hrejected _).commits rfl
  | step hclock hb =>
    obtain ⟨op, k, hk, rfl⟩ := Named.advance_eq_some hb
    exact h.update ((h _ _ hk).next (spared_handle hrejected _ _ _)).1 rfl
  | stop hb =>
    obtain ⟨-, rfl⟩ := Named.halt_eq_some hb
    exact h.update (p := .throw (.failed .stopped)) trivial rfl
  | redeliver | expire | broadcast | settle | recover | socket => exact h

/-- A thread that does not refuse goes on like that. -/
theorem Spares.update (h : s.Spares i R) {j : ℕ} {p : Handling HttpBody}
    (hp : ∀ q, s.backend.threads j = some q → q.Spares R → p.Spares R)
    (hs : s'.backend.threads = Function.update s.backend.threads j (some p)) : s'.Spares i R := by
  obtain ⟨q, hq, hspares⟩ := h
  unfold Spares
  rw [hs]
  by_cases hj : i = j
  · cases hj
    exact ⟨p, Function.update_self _ _ _, hp q hq hspares⟩
  · exact ⟨q, (Function.update_of_ne hj _ _).trans hq, hspares⟩

theorem Spares.step (hrejected : ¬R (.failed .rejected)) (hstopped : ¬R (.failed .stopped))
    (h : s.Spares i R) (hs : site.step s m = some s') : s'.Spares i R := by
  cases Site.step_eq_some.mp hs with
  | request hb | deliver hready hb =>
    obtain ⟨hnone, rfl⟩ := Named.spawn_eq_some hb
    refine h.update (fun q hq => ?_) rfl
    cases hnone.symm.trans hq
  | step hclock hb =>
    obtain ⟨op, k, hk, rfl⟩ := Named.advance_eq_some hb
    refine h.update (fun q hq hspares => ?_) rfl
    cases hk.symm.trans hq
    exact hspares _ (spared_handle hrejected _ _ _)
  | stop hb =>
    obtain ⟨-, rfl⟩ := Named.halt_eq_some hb
    exact h.update (p := .throw (.failed .stopped)) (fun _ _ _ => hstopped) rfl
  | redeliver | expire | broadcast | settle | recover | socket => exact h

theorem Spares.outcome (h : s.Spares i R) {err : HttpFailure}
    (hi : s.backend.outcome i = some (.error err)) : ¬R err := by
  obtain ⟨p, hp, hspares⟩ := h
  cases (Named.outcome_eq_some.mp hi).symm.trans hp
  exact hspares

/-- A thread that refuses in the end makes a free call now. -/
theorem free_of_refused (hrequest : ∀ request, (site.handleRequest request).Commits free R)
    (hrejected : ¬R (.failed .rejected)) (hstopped : ¬R (.failed .stopped))
    {ms₁ ms₂ : List SiteMove} {s₁ s₂ : Deployment} {e : Env} {err : HttpFailure}
    (h₁ : ms₁.foldlM site.step .init = some s₁) (hs : site.step s₁ (.step i e) = some s₂)
    (h₂ : ms₂.foldlM site.step s₂ = some s) (hi : s.backend.outcome i = some (.error err))
    (herr : R err) : ∃ op b, s₁.backend.awaited i = some op ∧ free op ∧ s₂ = s₁.route i b ∧
      b.world = (Backend.handle e op s₁.backend.world).2 := by
  have hcommit : s₁.Commit free R := by
    refine foldlM_invariant (fun _ _ _ h hs => h.step hrequest hrejected hs) ?_ h₁
    rintro i p ⟨⟩
  cases Site.step_eq_some.mp hs with
  | @step _ _ b hclock hb =>
    obtain ⟨op, k, hk, hadvanced⟩ := Named.advance_eq_some hb
    refine ⟨op, b, Named.awaited_eq_some.mpr ⟨k, hk⟩, by_contra fun hop => ?_, rfl,
      congrArg Named.world hadvanced⟩
    have hspares : (k (Backend.handle e op s₁.backend.world).1).Spares R :=
      ((hcommit i _ hk).next (spared_handle hrejected _ _ _)).2 hop
    have hthread : b.threads i = some (k (Backend.handle e op s₁.backend.world).1) := by
      rw [hadvanced]
      exact Function.update_self _ _ _
    have hnow : Spares i R (s₁.route i b) := ⟨_, hthread, hspares⟩
    have hend : s.Spares i R :=
      foldlM_invariant (fun _ _ _ h hs => h.step hrejected hstopped hs) hnow h₂
    exact hend.outcome hi herr

end Deployment

open Deployment

/-- A call that looks leaves the world but for its clock. -/
theorem SiteOp.Looks.handle {op : SiteOp} (h : op.Looks) (e : Env) (b : Backend) :
    ∃ clock, (Backend.handle e op b).2.world = { b.world with clock } := by
  cases op with
  | counter | select | ping => exact ⟨b.world.clock, rfl⟩
  | service op =>
    refine ⟨e.now, ?_⟩
    change (RealtimeOps.handle e op b.world).2 = _
    rcases handle_world e op b.world with hw | ⟨reply, hp⟩
    · exact hw
    · cases op with
      | findJob | findAttempts | findAlert | findIncident | now =>
        exact (congrArg Prod.snd (Option.some.inj hp)).symm
      | _ => cases h

/-- Take any call that a request makes which fails in the end. The request is not answered with
status 401; if it is answered with status 429, the call was one of the rate limiter, and changed
nothing but its counters; and if it is answered with any status below 500, the call changed no
row, no lock and no message, and published nothing. -/
theorem refused_has_only_read {site : Site} {ms₁ ms₂ : List SiteMove} {s₁ s₂ s : Deployment}
    {i : ℕ} {e : Env} {err : HttpFailure} (h₁ : ms₁.foldlM site.step .init = some s₁)
    (hs : site.step s₁ (.step i e) = some s₂) (h₂ : ms₂.foldlM site.step s₂ = some s)
    (hi : s.backend.outcome i = some (.error err)) :
    err.status ≠ 401 ∧
      (err.status = 429 → (∃ call, s₁.backend.awaited i = some (.counter call)) ∧
        s₂.world = s₁.world ∧ s₂.queue = s₁.queue) ∧
      (err.status < 500 → s₂.world = { s₁.world with clock := s₂.world.clock } ∧
        s₂.queue = s₁.queue) := by
  have hlooks : err.status < 500 → s₂.world = { s₁.world with clock := s₂.world.clock } ∧
      s₂.queue = s₁.queue := fun herr => by
    obtain ⟨op, b, -, hop, rfl, hb⟩ := free_of_refused (R := (·.status < 500))
      (commits_refusal site) (by decide) (by decide) h₁ hs h₂ hi herr
    obtain ⟨clock, hclock⟩ := hop.handle e s₁.backend.world
    have hworld : b.world.world = { s₁.world with clock } :=
      (congrArg Backend.world hb).trans hclock
    have hevents : b.world.world.events = s₁.world.events ++ [] := by
      rw [hworld, List.append_nil]
    rw [route_eq hevents]
    refine ⟨?_, EventQueue.push_nil⟩
    change b.world.world = { s₁.world with clock := b.world.world.clock }
    rw [hworld]
  refine ⟨fun herr => ?_, fun herr => ?_, hlooks⟩
  · obtain ⟨op, b, -, hop, -, -⟩ := free_of_refused (R := (·.status = 401))
      (commits_unauthorized site) (by decide) (by decide) h₁ hs h₂ hi herr
    exact hop
  · obtain ⟨op, b, hawaited, ⟨call, rfl⟩, rfl, hb⟩ := free_of_refused (R := (·.status = 429))
      (commits_tooManyRequests site) (by decide) (by decide) h₁ hs h₂ hi herr
    refine ⟨⟨call, hawaited⟩, ?_, (hlooks (by omega)).2⟩
    change b.world.world = s₁.backend.world.world
    rw [hb]
    rfl

/-- An operator retries a job that is not there. -/
def retryingNone : List SiteMove :=
  .request 0 (.api (.retryJob 7) (operatorRequest "POST" "/api/v1/jobs/:id/retry")) :: answers 0 2 1

/-- The job is looked for, and the request is answered with status 404. -/
theorem refused_has_only_read_missing : ∃ s₁ s₂,
    retryingNone.foldlM defaultSite.step .init = some s₁ ∧
      defaultSite.step s₁ (.step 0 ⟨3, 3, .resolves⟩) = some s₂ ∧
      s₂.backend.outcome 0 = some (.error (.failed (.notFound "Job 7 not found"))) ∧
      s₂.world = { s₁.world with clock := s₂.world.clock } ∧ s₂.queue = s₁.queue := by
  obtain ⟨s₁, h₁⟩ := Option.isSome_iff_exists.mp
    (by decide : (retryingNone.foldlM defaultSite.step .init).isSome)
  have hrest : ∀ s₁ ∈ retryingNone.foldlM defaultSite.step .init,
      ∃ s₂ ∈ defaultSite.step s₁ (.step 0 ⟨3, 3, .resolves⟩),
        s₂.backend.outcome 0 = some (.error (.failed (.notFound "Job 7 not found"))) := by decide
  obtain ⟨s₂, hs, hi⟩ := hrest s₁ h₁
  have hlast : ([] : List SiteMove).foldlM defaultSite.step s₂ = some s₂ := rfl
  have hrefused := refused_has_only_read h₁ hs hlast hi
  exact ⟨s₁, s₂, h₁, hs, hi, hrefused.2.2 (by decide)⟩

end RealtimeOps
