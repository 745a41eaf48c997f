import Mathlib.Order.Basic
import RealtimeOps.Interleaving.Pool

/-!
# What a thread may rely on

Let the worlds be ordered, `w ≤ w'` when `w'` keeps what no call undoes of `w`. A program that
has read or written something the order keeps may rely on it at all its later calls, whatever
other threads do in between. `Prog.Respects` says that it then makes only calls that `G` allows,
and `Prog.Relies` that it does so from every world where `K` holds and is kept. The rules follow
the program call by call : `Relies.await_bind` adds to `K` what the reply tells.

Calls are answered only where `A` holds : that is asked of the schedule, not of the programs. If
the calls that `G` allows then only move the world up, all threads of a pool that respect their
guarantees go on to respect them (`Pool.Respecting.advance`).
-/

set_option autoImplicit false

namespace Interleaving

variable {S : Signature} {ε α β E W : Type} [Preorder W]

/-- The calls that `G` allows move the world up when they are answered. -/
def MovesUp (handle : Handler S ε E W) (A G : W → S.Op → Prop) : Prop :=
  ∀ e op w, A w op → G w op → w ≤ (handle e op w).2

namespace Prog

/-- From `w` on, and whatever is done in between, the program makes only calls that `G`
allows. -/
def Respects (handle : Handler S ε E W) (A G : W → S.Op → Prop) : Prog S ε α → W → Prop
  | ret _, _ => True
  | throw _, _ => True
  | call op k, w =>
    ∀ w', w ≤ w' → G w' op ∧
      (A w' op → ∀ e, Respects handle A G (k (handle e op w').1) (handle e op w').2)

/-- The program respects `G` from every world from which on `K` holds. -/
def Relies (handle : Handler S ε E W) (A G : W → S.Op → Prop) (K : W → Prop)
    (p : Prog S ε α) : Prop :=
  ∀ w, (∀ w', w ≤ w' → K w') → p.Respects handle A G w

variable {handle : Handler S ε E W} {A G : W → S.Op → Prop} {K : W → Prop}

theorem Respects.mono {p : Prog S ε α} {w w' : W} (h : p.Respects handle A G w) (hw : w ≤ w') :
    p.Respects handle A G w' := by
  cases p with
  | ret a => trivial
  | throw err => trivial
  | call op k => exact fun w'' hw' => h w'' (hw.trans hw')

theorem Respects.resolve (r : Except ε α) (w : W) :
    (Prog.resolve r : Prog S ε α).Respects handle A G w := by
  cases r <;> trivial

section Rules

variable (hG : MovesUp handle A G)
include hG

theorem Respects.bind {f : α → Prog S ε β} :
    ∀ {p : Prog S ε α} {w : W}, p.Respects handle A G w →
      (∀ a w', w ≤ w' → (f a).Respects handle A G w') → (p.bind f).Respects handle A G w
  | ret a, w, _, hf => hf a w le_rfl
  | throw _, _, _, _ => trivial
  | call _ _, _, h, hf => fun w' hw =>
    ⟨(h w' hw).1, fun hA e => ((h w' hw).2 hA e).bind fun a _ hw' =>
      hf a _ ((hw.trans (hG e _ _ hA (h w' hw).1)).trans hw')⟩

theorem Respects.tryFinally {fin : Prog S ε Unit} :
    ∀ {p : Prog S ε α} {w : W}, p.Respects handle A G w →
      (∀ w', w ≤ w' → fin.Respects handle A G w') → (p.tryFinally fin).Respects handle A G w
  | ret _, w, _, hfin => (hfin w le_rfl).bind hG fun _ _ _ => trivial
  | throw _, w, _, hfin => (hfin w le_rfl).bind hG fun _ _ _ => trivial
  | call _ _, _, h, hfin => fun w' hw =>
    ⟨(h w' hw).1, fun hA e => ((h w' hw).2 hA e).tryFinally fun _ hw' =>
      hfin _ ((hw.trans (hG e _ _ hA (h w' hw).1)).trans hw')⟩

theorem Respects.tryCatch {handler : ε → Prog S ε α} :
    ∀ {p : Prog S ε α} {w : W}, p.Respects handle A G w →
      (∀ err w', w ≤ w' → (handler err).Respects handle A G w') →
      (p.tryCatch handler).Respects handle A G w
  | ret _, _, _, _ => trivial
  | throw err, w, _, hh => hh err w le_rfl
  | call _ _, _, h, hh => fun w' hw =>
    ⟨(h w' hw).1, fun hA e => ((h w' hw).2 hA e).tryCatch fun err _ hw' =>
      hh err _ ((hw.trans (hG e _ _ hA (h w' hw).1)).trans hw')⟩

/-- First `p`, then `f` of its value, relying on the same. -/
theorem Relies.bind {p : Prog S ε α} {f : α → Prog S ε β} (hp : p.Relies handle A G K)
    (hf : ∀ a, (f a).Relies handle A G K) : (p.bind f).Relies handle A G K :=
  fun w hw => (hp w hw).bind hG fun a w' hw' => hf a w' fun w'' hw'' => hw w'' (hw'.trans hw'')

theorem Relies.tryFinally {p : Prog S ε α} {fin : Prog S ε Unit} (hp : p.Relies handle A G K)
    (hfin : fin.Relies handle A G K) : (p.tryFinally fin).Relies handle A G K :=
  fun w hw => (hp w hw).tryFinally hG fun w' hw' => hfin w' fun w'' hw'' => hw w'' (hw'.trans hw'')

theorem Relies.tryCatch {p : Prog S ε α} {handler : ε → Prog S ε α} (hp : p.Relies handle A G K)
    (hh : ∀ err, (handler err).Relies handle A G K) : (p.tryCatch handler).Relies handle A G K :=
  fun w hw => (hp w hw).tryCatch hG fun err w' hw' =>
    hh err w' fun w'' hw'' => hw w'' (hw'.trans hw'')

/-- After a call that `K` allows, `K` still holds, and what the reply tells. -/
theorem Relies.await_bind {op : S.Op} {f : S.Reply op → Prog S ε α}
    {Q : S.Reply op → W → Prop} (hK : ∀ w, K w → G w op)
    (hQ : ∀ e w reply w', handle e op w = (.ok reply, w') → ∀ w'', w' ≤ w'' → Q reply w'')
    (hf : ∀ reply, (f reply).Relies handle A G fun w => K w ∧ Q reply w) :
    ((await op).bind f).Relies handle A G K := by
  intro w hw w' hw'
  refine ⟨hK w' (hw w' hw'), fun hA e => ?_⟩
  have hup : w' ≤ (handle e op w').2 := hG e op w' hA (hK w' (hw w' hw'))
  cases h : handle e op w' with
  | mk r w₁ =>
    rw [h] at hup
    cases r with
    | error err => trivial
    | ok reply =>
      exact hf reply w₁ fun w₂ hw₂ =>
        ⟨hw w₂ ((hw'.trans hup).trans hw₂), hQ e w' reply w₁ h w₂ hw₂⟩

end Rules

theorem Relies.mono {K' : W → Prop} {p : Prog S ε α} (h : p.Relies handle A G K)
    (hK : ∀ w, K' w → K w) : p.Relies handle A G K' :=
  fun w hw => h w fun w' hw' => hK w' (hw w' hw')

theorem Relies.await {op : S.Op} (hK : ∀ w, K w → G w op) :
    (Prog.await op : Prog S ε (S.Reply op)).Relies handle A G K :=
  fun _ hw w' hw' => ⟨hK w' (hw w' hw'), fun _ _ => .resolve _ _⟩

end Prog

namespace Pool

/-- Each thread respects its guarantee from here on. -/
def Respecting (handle : Handler S ε E W) (A : W → S.Op → Prop) (G : ℕ → W → S.Op → Prop)
    (s : Pool S ε α E W) : Prop :=
  ∀ i (p : Prog S ε α), s.threads[i]? = some p → p.Respects handle A (G i) s.world

namespace Respecting

variable {handle : Handler S ε E W} {A : W → S.Op → Prop} {G G' : ℕ → W → S.Op → Prop}
  {s s' : Pool S ε α E W}

/-- The call a thread awaits is allowed as the world is now. -/
theorem awaited (h : s.Respecting handle A G) {i : ℕ} {op : S.Op} (hi : s.awaited i = some op) :
    G i s.world op := by
  obtain ⟨k, hk⟩ := awaited_eq_some.mp hi
  exact (h i _ hk s.world le_rfl).1

theorem of_le (h : s.Respecting handle A G) {w : W} (hw : s.world ≤ w) :
    Respecting handle A G { s with world := w } :=
  fun i p hp => (h i p hp).mono hw

/-- One thread moves : the others rely only on what its call keeps. -/
theorem advance (hG : ∀ i, MovesUp handle A (G i)) (h : s.Respecting handle A G) {i : ℕ} {e : E}
    (hA : ∀ op ∈ s.awaited i, A s.world op) (hs : s.advance handle i e = some s') :
    s'.Respecting handle A G := by
  obtain ⟨op, k, hk, rfl⟩ := advance_eq_some hs
  have hop := h i _ hk s.world le_rfl
  have hanswered := hA op (awaited_eq_some.mpr ⟨k, hk⟩)
  intro j p hp
  rw [List.getElem?_set] at hp
  split_ifs at hp with hij hlt
  · cases hp
    cases hij
    exact hop.2 hanswered e
  · exact (h j p hp).mono (hG i e op _ hanswered hop.1)

theorem spawn (h : s.Respecting handle A G) {p : Prog S ε α}
    (hG : ∀ i < s.threads.length, G' i = G i)
    (hp : p.Respects handle A (G' s.threads.length) s.world) :
    (s.spawn p).Respecting handle A G' := by
  intro i q hq
  rcases Nat.lt_trichotomy i s.threads.length with hi | rfl | hi
  · rw [Pool.spawn, List.getElem?_append_left hi] at hq
    rw [hG i hi]
    exact h i q hq
  · rw [Pool.spawn, List.getElem?_concat_length, Option.some.injEq] at hq
    rw [← hq]
    exact hp
  · rw [Pool.spawn, List.getElem?_eq_none (by simp; omega)] at hq
    cases hq

theorem halt (h : s.Respecting handle A G) (i : ℕ) (err : ε) :
    (s.halt i err).Respecting handle A G := by
  intro j p hp
  rw [Pool.halt, List.getElem?_set] at hp
  split_ifs at hp with hij hlt
  · cases hp
    trivial
  · exact h j p hp

end Respecting

end Pool

end Interleaving
