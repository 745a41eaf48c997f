import RealtimeOps.Interleaving.Serial

/-!
# Monitors

A monitor reads the resolved calls of a thread one after the other. Its state is what it has read
so far, and it says which calls may come next. `Prog.Follows m Q q p` : read from `q` on, the
program `p` makes only calls that `m` permits, whatever the world is at each of them, and ends as
`Q` allows. Nothing is asked after a rejected call, so this is about runs in which every call
resolves. The rules follow the program call by call.

`Pool.Monitored` : each thread of a pool follows the monitor from what its past has been read as.
It is kept by every move of such a run, so it gives what each thread's past looks like
(`Monitored.permits`, `Monitored.ends`) without a phase for every call.
-/

set_option autoImplicit false

namespace Interleaving

variable {S : Signature} {ε α β E W : Type}

/-- Reads the resolved calls of a thread. -/
structure Monitor (S : Signature) where
  State : Type
  next : State → (op : S.Op) → S.Reply op → State
  /-- The call may come next. -/
  Permits : State → S.Op → Prop

/-- What has been read after one more answered call. -/
def Monitor.readEntry (m : Monitor S) (q : m.State) (x : Entry S ε E) : m.State :=
  match x.reply with
  | .ok reply => m.next q x.op reply
  | .error _ => q

/-- What has been read of a past, from `q` on. -/
def Monitor.read (m : Monitor S) (q : m.State) (past : List (Entry S ε E)) : m.State :=
  past.foldl m.readEntry q

theorem Monitor.read_concat (m : Monitor S) (q : m.State) (past : List (Entry S ε E)) (i : ℕ)
    (e : E) (op : S.Op) (reply : S.Reply op) :
    m.read q (past ++ [(⟨i, e, op, .ok reply⟩ : Entry S ε E)]) =
      m.next (m.read q past) op reply := by
  simp [read, readEntry]

namespace Prog

/-- Every call of the program is permitted as long as none is rejected, and it ends as `Q`
says. -/
def Follows (handle : Handler S ε E W) (m : Monitor S) (Q : m.State → Except ε α → Prop) :
    m.State → Prog S ε α → Prop
  | q, ret a => Q q (.ok a)
  | q, throw err => Q q (.error err)
  | q, call op k => m.Permits q op ∧ ∀ e w reply w', handle e op w = (.ok reply, w') →
    Follows handle m Q (m.next q op reply) (k (.ok reply))

variable {handle : Handler S ε E W} {m : Monitor S}

theorem follows_resolve {Q : m.State → Except ε α → Prop} {q : m.State} {r : Except ε α} :
    Follows handle m Q q (resolve r) ↔ Q q r := by
  cases r <;> rfl

theorem Follows.mono {Q Q' : m.State → Except ε α → Prop} (hQ : ∀ q r, Q q r → Q' q r) :
    ∀ {p : Prog S ε α} {q : m.State}, Follows handle m Q q p → Follows handle m Q' q p
  | ret _, _, h => hQ _ _ h
  | throw _, _, h => hQ _ _ h
  | call _ k, _, h => ⟨h.1, fun e w reply w' hh =>
    Follows.mono (p := k (.ok reply)) hQ (h.2 e w reply w' hh)⟩

/-- First `p`, then `f` of its value; an error of `p` ends the whole. -/
theorem Follows.bind {Q : m.State → Except ε α → Prop} {Q' : m.State → Except ε β → Prop}
    {f : α → Prog S ε β} (hok : ∀ q a, Q q (.ok a) → Follows handle m Q' q (f a))
    (herr : ∀ q err, Q q (.error err) → Q' q (.error err)) :
    ∀ {p : Prog S ε α} {q : m.State}, Follows handle m Q q p → Follows handle m Q' q (p.bind f)
  | ret _, _, h => hok _ _ h
  | throw _, _, h => herr _ _ h
  | call _ k, _, h => ⟨h.1, fun e w reply w' hh =>
    Follows.bind (p := k (.ok reply)) hok herr (h.2 e w reply w' hh)⟩

/-- However `p` ends, the finalizer runs. -/
theorem Follows.tryFinally {Q Q' : m.State → Except ε α → Prop} {fin : Prog S ε Unit}
    (hfin : ∀ q r, Q q r → Follows handle m Q' q (fin.bind fun _ => resolve r)) :
    ∀ {p : Prog S ε α} {q : m.State},
      Follows handle m Q q p → Follows handle m Q' q (p.tryFinally fin)
  | ret _, _, h => hfin _ _ h
  | throw _, _, h => hfin _ _ h
  | call _ k, _, h => ⟨h.1, fun e w reply w' hh =>
    Follows.tryFinally (p := k (.ok reply)) hfin (h.2 e w reply w' hh)⟩

/-- An error of `p` goes to the handler. -/
theorem Follows.tryCatch {Q Q' : m.State → Except ε α → Prop} {handler : ε → Prog S ε α}
    (hok : ∀ q a, Q q (.ok a) → Q' q (.ok a))
    (herr : ∀ q err, Q q (.error err) → Follows handle m Q' q (handler err)) :
    ∀ {p : Prog S ε α} {q : m.State},
      Follows handle m Q q p → Follows handle m Q' q (p.tryCatch handler)
  | ret _, _, h => hok _ _ h
  | throw _, _, h => herr _ _ h
  | call _ k, _, h => ⟨h.1, fun e w reply w' hh =>
    Follows.tryCatch (p := k (.ok reply)) hok herr (h.2 e w reply w' hh)⟩

theorem Follows.await_bind {Q : m.State → Except ε α → Prop} {q : m.State} {op : S.Op}
    {f : S.Reply op → Prog S ε α} (hop : m.Permits q op)
    (hf : ∀ e w reply w', handle e op w = (.ok reply, w') →
      Follows handle m Q (m.next q op reply) (f reply)) :
    Follows handle m Q q ((await op).bind f) :=
  ⟨hop, hf⟩

end Prog

namespace Pool

/-- Each thread follows the monitor from what has been read of its past; thread `i` is read from
`q i` on. -/
structure Monitored (handle : Handler S ε E W) (m : Monitor S) (Q : m.State → Except ε α → Prop)
    (q : ℕ → m.State) (s : Pool S ε α E W) : Prop where
  follows : ∀ (i : ℕ) (p : Prog S ε α), s.threads[i]? = some p →
    p.Follows handle m Q (m.read (q i) (s.past i))
  log : ∀ x ∈ s.log, x.thread < s.threads.length

namespace Monitored

variable {handle : Handler S ε E W} {m : Monitor S} {Q : m.State → Except ε α → Prop}
  {q q' : ℕ → m.State} {s s' : Pool S ε α E W}

theorem init (w : W) : Monitored handle m Q q ⟨w, [], []⟩ := by
  constructor <;> simp

/-- A thread that was never started has answered no call. -/
theorem past_eq_nil (h : Monitored handle m Q q s) {i : ℕ} (hi : s.threads.length ≤ i) :
    s.past i = [] := by
  simp only [past, List.filter_eq_nil_iff, decide_eq_true_eq]
  intro x hx hxi
  have := h.log x hx
  omega

/-- The call a thread awaits is permitted. -/
theorem permits (h : Monitored handle m Q q s) {i : ℕ} {op : S.Op} (hi : s.awaited i = some op) :
    m.Permits (m.read (q i) (s.past i)) op := by
  obtain ⟨k, hk⟩ := awaited_eq_some.mp hi
  exact (h.follows i _ hk).1

/-- A thread has ended as `Q` allows. -/
theorem ends (h : Monitored handle m Q q s) {i : ℕ} {r : Except ε α} (hr : s.outcome i = some r) :
    Q (m.read (q i) (s.past i)) r := by
  unfold outcome at hr
  split at hr
  · rename_i hp
    cases hr
    exact h.follows i _ hp
  · rename_i hp
    cases hr
    exact h.follows i _ hp
  · cases hr

theorem world (h : Monitored handle m Q q s) (w : W) :
    Monitored handle m Q q { s with world := w } :=
  ⟨h.follows, h.log⟩

theorem spawn (h : Monitored handle m Q q s) {p : Prog S ε α}
    (hq : ∀ i < s.threads.length, q' i = q i)
    (hp : p.Follows handle m Q (q' s.threads.length)) : Monitored handle m Q q' (s.spawn p) := by
  refine ⟨fun i r hr => ?_, fun x hx => ?_⟩
  · rcases Nat.lt_trichotomy i s.threads.length with hi | rfl | hi
    · rw [Pool.spawn, List.getElem?_append_left hi] at hr
      rw [hq i hi]
      exact h.follows i r hr
    · rw [Pool.spawn, List.getElem?_concat_length, Option.some.injEq] at hr
      have hpast : (s.spawn p).past s.threads.length = [] := h.past_eq_nil (Nat.le_refl _)
      rw [← hr, hpast]
      exact hp
    · rw [Pool.spawn, List.getElem?_eq_none (by simp; omega)] at hr
      cases hr
  · exact Nat.lt_of_lt_of_le (h.log x hx) (by simp [Pool.spawn])

/-- A resolved call. -/
theorem advance (h : Monitored handle m Q q s) {i : ℕ} {e : E}
    (hok : ∀ op ∈ s.awaited i, (handle e op s.world).1.isOk = true)
    (hs : s.advance handle i e = some s') : Monitored handle m Q q s' := by
  obtain ⟨op, k, hk, -, hown, hlog, hpast, hlength, hother⟩ := advance_threads hs
  obtain ⟨reply, hr⟩ : ∃ reply, (handle e op s.world).1 = .ok reply := by
    have := hok op (awaited_eq_some.mpr ⟨k, hk⟩)
    cases hr : (handle e op s.world).1 with
    | ok reply => exact ⟨reply, rfl⟩
    | error err =>
      rw [hr] at this
      cases this
  refine ⟨fun j p hp => ?_, fun x hx => ?_⟩
  · by_cases hij : j = i
    · subst hij
      cases hown.symm.trans hp
      rw [hpast, hr, m.read_concat]
      exact (h.follows j _ hk).2 e s.world reply _ (Prod.ext hr rfl)
    · rw [(hother j hij).1] at hp
      rw [(hother j hij).2]
      exact h.follows j p hp
  · rw [hlength]
    rw [hlog] at hx
    rcases List.mem_append.mp hx with hx | hx
    · exact h.log x hx
    · rw [List.mem_singleton.mp hx]
      exact (List.getElem?_eq_some_iff.mp hk).1

end Monitored

end Pool

end Interleaving
