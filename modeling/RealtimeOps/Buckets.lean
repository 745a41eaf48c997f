import RealtimeOps.Interleaving.Deletion
import RealtimeOps.RateLimit

/-!
# Rate-limit buckets

A key is read from its end : the path starts at the first `/`, and the method is what follows the
last `:` before it. So requests with the same key have the same client, method and path
(`rateLimitKey_injective`), and a request touches no counter but its own. Without the requests of
all other keys, a request is admitted or rejected as before (`buckets_isolated`).
-/

set_option autoImplicit false

namespace RealtimeOps

open Interleaving

/-! ## Keys -/

/-- What is before the first `a`, and what is after it. -/
theorem eq_of_append_cons {α : Type} {a : α} {l₁ l₁' l₂ l₂' : List α} (h₁ : a ∉ l₁) (h₁' : a ∉ l₁')
    (h : l₁ ++ a :: l₂ = l₁' ++ a :: l₂') : l₁ = l₁' ∧ l₂ = l₂' := by
  rcases List.append_eq_append_iff.mp h with ⟨m, rfl, hm⟩ | ⟨m, rfl, hm⟩
  · cases m with
    | nil => simpa using hm
    | cons b m =>
      cases hm
      simp at h₁'
  · cases m with
    | nil => simpa [eq_comm] using hm
    | cons b m =>
      cases hm
      simp at h₁

/-- The client, the method and the path a request is counted by. -/
def Request.bucket (request : Request) : String × String × String :=
  (request.identifier, request.method, request.limitedPath)

/-- No `/` in the client and the method, no `:` in the method, and a path that starts with
`/`. -/
structure Request.WellFormed (request : Request) : Prop where
  identifier : '/' ∉ request.identifier.toList
  method : ':' ∉ request.method.toList ∧ '/' ∉ request.method.toList
  path : request.limitedPath.toList.head? = some '/'

theorem rateLimitKey_injective {r r' : Request} (hr : r.WellFormed) (hr' : r'.WellFormed)
    (h : rateLimitKey r = rateLimitKey r') : r.bucket = r'.bucket := by
  obtain ⟨path, hpath⟩ := List.head?_eq_some_iff.mp hr.path
  obtain ⟨path', hpath'⟩ := List.head?_eq_some_iff.mp hr'.path
  have hkey := congrArg String.toList h
  simp only [rateLimitKey, String.toList_append, hpath, hpath'] at hkey
  have hslash : ∀ {q : Request}, q.WellFormed → '/' ∉ "rate-limit:".toList ++
      q.identifier.toList ++ ":".toList ++ q.method.toList ++ ":".toList := fun hq => by
    simp [hq.identifier, hq.method.2]
  -- The path starts at the first slash.
  obtain ⟨hbefore, rfl⟩ := eq_of_append_cons (hslash hr) (hslash hr') hkey
  have hcolon := congrArg List.reverse (List.append_cancel_right hbefore)
  have hchar : ":".toList = [':'] := rfl
  rw [hchar] at hcolon
  simp only [List.reverse_append, List.reverse_singleton, List.singleton_append] at hcolon
  -- The method starts after the last colon before it.
  obtain ⟨hmethod, hidentifier⟩ := eq_of_append_cons (by simpa using hr.method.1)
    (by simpa using hr'.method.1) hcolon
  have hidentifier := List.append_cancel_right hidentifier
  rw [Request.bucket, Request.bucket, Prod.mk.injEq, Prod.mk.injEq]
  refine ⟨?_, ?_, ?_⟩
  · exact String.toList_inj.mp (List.reverse_injective hidentifier)
  · exact String.toList_inj.mp (List.reverse_injective hmethod)
  · exact String.toList_inj.mp (hpath.trans hpath'.symm)

theorem rateLimitKey_of_bucket {r r' : Request} (h : r.bucket = r'.bucket) :
    rateLimitKey r = rateLimitKey r' := by
  simp only [Request.bucket, Prod.mk.injEq] at h
  rw [rateLimitKey, h.1, h.2.1, h.2.2, rateLimitKey]

/-! ## Without the other requests -/

/-- The request a move is of. -/
def LimiterMove.name : LimiterMove → ℕ
  | .request i _ | .step i _ | .stop i => i

/-- Some request of the run known as `i` is not of the bucket. -/
def elsewhere (bucket : String × String × String) (ms : List LimiterMove) (i : ℕ) : Bool :=
  ms.any fun
    | .request j context => j = i ∧ context.request.bucket ≠ bucket
    | .step _ _ | .stop _ => false

theorem elsewhere_iff {bucket : String × String × String} {ms : List LimiterMove} {i : ℕ} :
    elsewhere bucket ms i = true ↔
      ∃ context, .request i context ∈ ms ∧ context.request.bucket ≠ bucket := by
  simp only [elsewhere, List.any_eq_true]
  constructor
  · rintro ⟨m, hm, h⟩
    cases m with
    | request j context =>
      obtain ⟨rfl, hne⟩ := by simpa using h
      exact ⟨context, hm, hne⟩
    | step | stop => cases h
  · rintro ⟨context, hm, hne⟩
    exact ⟨_, hm, by simpa using hne⟩

section Isolation

variable {guard : RedisRateLimitGuard} {s s' t : Limiter} {ms : List LimiterMove} {m : LimiterMove}
  {i : ℕ} {bucket : String × String × String} {context context' : ExecutionContext}

/-- A name stays in use. -/
theorem isSome_step (hs : guard.step s m = some s') (hi : (s.threads i).isSome) :
    (s'.threads i).isSome := by
  have hupdate : ∀ (j : ℕ) (p : Prog counting HttpFailure Bool),
      (Function.update s.threads j (some p) i).isSome := fun j p => by
    by_cases hij : i = j
    · rw [hij, Function.update_self]
      rfl
    · rwa [Function.update_of_ne hij]
  cases m with
  | request j context =>
    obtain ⟨-, rfl⟩ := Named.spawn_eq_some hs
    exact hupdate j _
  | step j e =>
    rw [RedisRateLimitGuard.step_step] at hs
    obtain ⟨op, k, -, rfl⟩ := Named.advance_eq_some hs.2
    exact hupdate j _
  | stop j =>
    obtain ⟨-, rfl⟩ := Named.halt_eq_some hs
    exact hupdate j _

/-- A name that is in use is not given again. -/
theorem request_notMem (hi : (s.threads i).isSome) (hs : ms.foldlM guard.step s = some s') :
    .request i context ∉ ms := by
  induction ms generalizing s with
  | nil => simp
  | cons m ms ih =>
    obtain ⟨s₁, hs₁, hrest⟩ := Option.bind_eq_some_iff.mp (List.foldlM_cons (m := Option) ▸ hs)
    rw [List.mem_cons, not_or]
    refine ⟨?_, ih (isSome_step hs₁ hi) hrest⟩
    rintro rfl
    rw [(Named.spawn_eq_some hs₁).1] at hi
    cases hi

/-- A name is of one request. -/
theorem request_unique (hs : ms.foldlM guard.step s = some s') (h : .request i context ∈ ms)
    (h' : .request i context' ∈ ms) : context = context' := by
  induction ms generalizing s with
  | nil => cases h
  | cons m ms ih =>
    obtain ⟨s₁, hs₁, hrest⟩ := Option.bind_eq_some_iff.mp (List.foldlM_cons (m := Option) ▸ hs)
    have hlater : ∀ {context context' : ExecutionContext}, .request i context = m →
        .request i context' ∉ ms := by
      rintro context context' rfl
      obtain ⟨-, rfl⟩ := Named.spawn_eq_some hs₁
      exact request_notMem (by simp) hrest
    rcases List.mem_cons.mp h with hm | hm <;> rcases List.mem_cons.mp h' with hm' | hm'
    · cases hm.trans hm'.symm
      rfl
    · exact absurd hm' (hlater hm)
    · exact absurd hm (hlater hm')
    · exact ih hrest hm hm'

/-- Every request of the run makes calls on its own key only. -/
def OwnKeys (ms : List LimiterMove) (s : Limiter) : Prop :=
  ∀ i p, s.threads i = some p → ∃ context, .request i context ∈ ms ∧
    p.Calls fun op : CounterOp => op.key = rateLimitKey context.request

theorem OwnKeys.update (h : OwnKeys ms s) {p : Prog counting HttpFailure Bool} {w : Redis}
    {log : List (Entry counting HttpFailure Env)}
    (hp : ∃ context, .request i context ∈ ms ∧
      p.Calls fun op : CounterOp => op.key = rateLimitKey context.request) :
    OwnKeys ms ⟨w, Function.update s.threads i (some p), log⟩ := by
  intro j q hq
  dsimp only at hq
  by_cases hji : j = i
  · rw [hji, Function.update_self] at hq
    cases hq
    exact hji ▸ hp
  · rw [Function.update_of_ne hji] at hq
    exact h j q hq

theorem OwnKeys.step (h : OwnKeys ms s) (hm : m ∈ ms) (hs : guard.step s m = some s') :
    OwnKeys ms s' := by
  cases m with
  | request i context =>
    obtain ⟨-, rfl⟩ := Named.spawn_eq_some hs
    exact h.update ⟨context, hm, guard.calls_canActivate context⟩
  | step i e =>
    rw [RedisRateLimitGuard.step_step] at hs
    obtain ⟨op, k, hk, rfl⟩ := Named.advance_eq_some hs.2
    obtain ⟨context, hmem, hcalls⟩ := h i _ hk
    exact h.update ⟨context, hmem, hcalls.2 _⟩
  | stop i =>
    obtain ⟨⟨op, hop⟩, rfl⟩ := Named.halt_eq_some hs
    obtain ⟨k, hk⟩ := Named.awaited_eq_some.mp hop
    obtain ⟨context, hmem, -⟩ := h i _ hk
    exact h.update ⟨context, hmem, trivial⟩

/-- The calls a request awaits are on its own key. -/
theorem OwnKeys.key (h : OwnKeys ms s) {op : CounterOp} (hop : s.awaited i = some op) :
    ∃ context, .request i context ∈ ms ∧ op.key = rateLimitKey context.request := by
  obtain ⟨k, hk⟩ := Named.awaited_eq_some.mp hop
  obtain ⟨context, hmem, hcalls⟩ := h i _ hk
  exact ⟨context, hmem, hcalls.1⟩

/-- `t` is `s` without the requests that are gone : its counter of the key is the same, and its
clock may be behind. -/
abbrev Apart (key : String) (gone : ℕ → Prop) (s t : Limiter) : Prop :=
  Named.Without gone (fun r r' => r'.counters key = r.counters key ∧ r'.clock ≤ r.clock) s t

section Apart

variable {key : String} {gone : ℕ → Prop}

/-- A request that is gone makes its calls on other keys. -/
theorem apart_gone (h : Apart key gone s t) (hi : gone m.name)
    (hop : ∀ op ∈ s.awaited m.name, CounterOp.key op ≠ key) (hs : guard.step s m = some s') :
    Apart key gone s' t := by
  cases m with
  | request i context => exact h.spawn_gone hi hs
  | step i e =>
    rw [RedisRateLimitGuard.step_step] at hs
    refine h.advance_gone hi (fun op hmem => ⟨?_, ?_⟩) hs.2
    · rw [Redis.counters_handle_of_ne (hop op hmem).symm]
      exact h.world.1
    · rw [Redis.clock_handle]
      exact h.world.2.trans hs.1
  | stop i => exact h.halt_gone hi hs

/-- A request that is left makes its calls on the key. -/
theorem apart_kept (h : Apart key gone s t) (hi : ¬gone m.name)
    (hop : ∀ op ∈ s.awaited m.name, CounterOp.key op = key) (hs : guard.step s m = some s') :
    ∃ t', guard.step t m = some t' ∧ Apart key gone s' t' := by
  cases m with
  | request i context => exact h.spawn_kept hi hs
  | step i e =>
    rw [RedisRateLimitGuard.step_step] at hs
    obtain ⟨t', ht', hR⟩ := h.advance_kept hi (fun op hmem => by
      obtain rfl := hop op hmem
      obtain ⟨hanswer, hcounter⟩ := Redis.handle_congr (e := e) h.world.1
      refine ⟨hanswer, hcounter, ?_⟩
      rw [Redis.clock_handle, Redis.clock_handle]) hs.2
    refine ⟨t', ?_, hR⟩
    rw [RedisRateLimitGuard.step, if_pos (h.world.2.trans hs.1)]
    exact ht'
  | stop i => exact h.halt_kept hi hs

end Apart

/-- Requests are counted by client, method and path, and nothing else is shared : without the
requests of all other buckets, each request of a bucket is admitted or rejected as before. -/
theorem buckets_isolated (guard : RedisRateLimitGuard) :
    (∀ r r' : Request, r.WellFormed → r'.WellFormed → rateLimitKey r = rateLimitKey r' →
      r.identifier = r'.identifier ∧ r.method = r'.method ∧ r.limitedPath = r'.limitedPath) ∧
    ∀ (r : Request) (ms : List LimiterMove) (s : Limiter), r.WellFormed →
      (∀ i context, .request i context ∈ ms → context.request.WellFormed) →
      ms.foldlM guard.step Limiter.init = some s →
      ∃ t, (ms.filter fun m => !elsewhere r.bucket ms m.name).foldlM guard.step Limiter.init =
          some t ∧
        ∀ i context, .request i context ∈ ms → context.request.bucket = r.bucket →
          t.outcome i = s.outcome i := by
  refine ⟨fun r r' hr hr' h => ?_, fun r ms s hr hall hrun => ?_⟩
  · simpa [Request.bucket] using rateLimitKey_injective hr hr' h
  have hgone : ∀ i context, .request i context ∈ ms →
      (elsewhere r.bucket ms i = true ↔ context.request.bucket ≠ r.bucket) := by
    intro i context hmem
    rw [elsewhere_iff]
    refine ⟨?_, fun hne => ⟨context, hmem, hne⟩⟩
    rintro ⟨context', hmem', hne⟩
    exact request_unique hrun hmem hmem' ▸ hne
  let gone i := elsewhere r.bucket ms i = true
  let R s t := OwnKeys ms s ∧ Apart (rateLimitKey r) gone s t
  have hdrop : ∀ s m s' t, R s t → m ∈ ms → elsewhere r.bucket ms m.name = true →
      guard.step s m = some s' → R s' t := by
    rintro s m s' t ⟨hown, hR⟩ hm hi hs
    refine ⟨hown.step hm hs, apart_gone hR hi (fun op hop hkey => ?_) hs⟩
    obtain ⟨context, hmem, hcontext⟩ := hown.key hop
    exact (hgone _ context hmem).mp hi
      (rateLimitKey_injective (hall _ _ hmem) hr (hcontext.symm.trans hkey))
  have hkeep : ∀ s m s' t, R s t → m ∈ ms → elsewhere r.bucket ms m.name = false →
      guard.step s m = some s' → ∃ t', guard.step t m = some t' ∧ R s' t' := by
    rintro s m s' t ⟨hown, hR⟩ hm hi hs
    have hkey : ∀ op ∈ s.awaited m.name, CounterOp.key op = rateLimitKey r := fun op hop => by
      obtain ⟨context, hmem, hcontext⟩ := hown.key hop
      have hbucket : context.request.bucket = r.bucket := by
        by_contra hne
        rw [(hgone _ context hmem).mpr hne] at hi
        cases hi
      rw [hcontext, rateLimitKey_of_bucket hbucket]
    obtain ⟨t', ht', hR'⟩ := apart_kept hR (Bool.eq_false_iff.mp hi) hkey hs
    exact ⟨t', ht', hown.step hm hs, hR'⟩
  have hinit : R .init .init := by
    refine ⟨fun i p hp => ?_, .init ⟨rfl, le_rfl⟩⟩
    cases hp
  obtain ⟨t, ht, -, hR⟩ := exists_kept hdrop hkeep hinit (fun _ => id) hrun
  refine ⟨t, kept_eq_filter hrun ▸ ht, fun i context hmem hbucket => hR.outcome fun hi => ?_⟩
  exact (hgone i context hmem).mp hi hbucket

/-- Two clients, one of them with an IPv6 address, use the one request each is allowed. -/
theorem buckets_isolated_two :
    let request (ip : String) : Request :=
      ⟨⟨.absent, .absent⟩, some ip, "GET", some "/api/v1/jobs/:jobId", "/api/v1/jobs/7"⟩
    let guard : RedisRateLimitGuard := ⟨1, 60⟩
    ∃ t, ([.request 0 ⟨false, request "::1"⟩, .step 0 ⟨5, 0, .resolves⟩,
        .step 0 ⟨6, 0, .resolves⟩] : List LimiterMove).foldlM guard.step Limiter.init = some t ∧
      t.outcome 0 = some (.ok true) := by
  intro request guard
  let ms : List LimiterMove := [.request 0 ⟨false, request "::1"⟩,
    .request 1 ⟨false, request "10.0.0.1"⟩, .step 1 ⟨4, 0, .resolves⟩, .step 0 ⟨5, 0, .resolves⟩,
    .step 0 ⟨6, 0, .resolves⟩]
  have hmethod : ':' ∉ "GET".toList ∧ '/' ∉ "GET".toList := by decide
  have hpath : "/api/v1/jobs/:jobId".toList.head? = some '/' := by decide
  have hwell : ∀ ip, '/' ∉ ip.toList → (request ip).WellFormed := fun ip hip =>
    ⟨hip, hmethod, hpath⟩
  obtain ⟨s, hs⟩ := Option.isSome_iff_exists.mp (by decide : (ms.foldlM guard.step .init).isSome)
  have houtcome : ∀ s ∈ ms.foldlM guard.step .init, s.outcome 0 = some (.ok true) := by decide
  obtain ⟨t, ht, hsame⟩ := (buckets_isolated guard).2 (request "::1") ms s (hwell _ (by decide))
    (by
      intro i context hmem
      rcases (by simpa [ms] using hmem : i = 0 ∧ context = ⟨false, request "::1"⟩ ∨
        i = 1 ∧ context = ⟨false, request "10.0.0.1"⟩) with ⟨-, rfl⟩ | ⟨-, rfl⟩
      · exact hwell _ (by decide)
      · exact hwell _ (by decide)) hs
  refine ⟨t, ?_, (hsame 0 ⟨false, request "::1"⟩ (by simp [ms]) rfl).trans (houtcome s hs)⟩
  rw [← ht]
  rfl

end Isolation

end RealtimeOps
