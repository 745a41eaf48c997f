import RealtimeOps.Interleaving.Pool

/-!
# What a thread promises

A `Discipline` orders the worlds and allows some calls, which move the world up. A program that
keeps to it may rely, at each call, on what the order keeps of all it was told before, whatever the
other threads do in between. `Prog.Promises` says that it then makes only allowed calls, and that
`Q` holds of what it returns from then on; `Prog.Delivers`, that it does so from every world from
which on `K` holds. The rules follow the program call by call : `Delivers.await_bind` adds to `K`
what the reply tells.

If every thread of a pool keeps to the discipline, then all worlds of a run are in order, and what a
thread has returned satisfies its promise in every later state (`Pool.Promising`).
-/

set_option autoImplicit false

namespace Interleaving

variable {S : Signature} {ε α β E W : Type}

/-- What the calls of all threads keep, and the calls that keep it. -/
structure Discipline (handle : Handler S ε E W) where
  le : W → W → Prop
  refl : ∀ w, le w w
  trans : ∀ {w w' w''}, le w w' → le w' w'' → le w w''
  allows : W → S.Op → Prop
  up : ∀ e op w, allows w op → le w (handle e op w).2

/-- To keep to `d`, and to make only calls with `p`, which keep `r` besides. -/
def Discipline.along {handle : Handler S ε E W} (d : Discipline handle) (r : W → W → Prop)
    (hrefl : ∀ w, r w w) (htrans : ∀ {w w' w''}, r w w' → r w' w'' → r w w'') (p : W → S.Op → Prop)
    (h : ∀ e op w, d.allows w op → p w op → r w (handle e op w).2) : Discipline handle where
  le w w' := d.le w w' ∧ r w w'
  refl w := ⟨d.refl w, hrefl w⟩
  trans h h' := ⟨d.trans h.1 h'.1, htrans h.2 h'.2⟩
  allows w op := d.allows w op ∧ p w op
  up e op w hop := ⟨d.up e op w hop.1, h e op w hop.1 hop.2⟩

namespace Prog

variable {handle : Handler S ε E W}

/-- From `w` on, whatever is done in between, the program makes only calls that are allowed, and
what it returns satisfies `Q` for good. -/
def Promises (d : Discipline handle) (Q : α → W → Prop) : Prog S ε α → W → Prop
  | ret a, w => ∀ w', d.le w w' → Q a w'
  | throw _, _ => True
  | call op k, w => ∀ w', d.le w w' →
    d.allows w' op ∧ ∀ e, Promises d Q (k (handle e op w').1) (handle e op w').2

/-- The program promises `Q` from every world from which on `K` holds. -/
def Delivers (d : Discipline handle) (K : W → Prop) (Q : α → W → Prop) (p : Prog S ε α) : Prop :=
  ∀ w, (∀ w', d.le w w' → K w') → p.Promises d Q w

variable {d : Discipline handle} {Q : α → W → Prop} {Q' : β → W → Prop} {K : W → Prop}

theorem Promises.up {p : Prog S ε α} {w w' : W} (h : p.Promises d Q w) (hw : d.le w w') :
    p.Promises d Q w' := by
  cases p with
  | ret a => exact fun w'' hw' => h w'' (d.trans hw hw')
  | throw err => trivial
  | call op k => exact fun w'' hw' => h w'' (d.trans hw hw')

theorem Promises.mono {P : α → W → Prop} (h : ∀ a w, P a w → Q a w) :
    ∀ {p : Prog S ε α} {w : W}, p.Promises d P w → p.Promises d Q w
  | ret _, _, hp => fun w' hw => h _ w' (hp w' hw)
  | throw _, _, _ => trivial
  | call _ _, _, hp => fun w' hw => ⟨(hp w' hw).1, fun e => ((hp w' hw).2 e).mono h⟩

theorem Promises.bind {f : α → Prog S ε β} :
    ∀ {p : Prog S ε α} {w : W}, p.Promises d Q w →
      (∀ a w', d.le w w' → (∀ w'', d.le w' w'' → Q a w'') → (f a).Promises d Q' w') →
      (p.bind f).Promises d Q' w
  | ret a, w, h, hf => hf a w (d.refl w) h
  | throw _, _, _, _ => trivial
  | call _ _, _, h, hf => fun w' hw =>
    ⟨(h w' hw).1, fun e => ((h w' hw).2 e).bind fun a _ hw' =>
      hf a _ (d.trans (d.trans hw (d.up e _ _ (h w' hw).1)) hw')⟩

theorem Promises.tryFinally {fin : Prog S ε Unit} :
    ∀ {p : Prog S ε α} {w : W}, p.Promises d Q w →
      (∀ w', d.le w w' → fin.Promises d (fun _ _ => True) w') → (p.tryFinally fin).Promises d Q w
  | ret _, w, h, hfin =>
    (hfin w (d.refl w)).bind fun _ _ hw _ w' hw' => h w' (d.trans hw hw')
  | throw err, w, _, hfin =>
    have hthrow : ∀ (_ : Unit) (w' : W), (throw err : Prog S ε α).Promises d Q w' :=
      fun _ _ => trivial
    (hfin w (d.refl w)).bind fun u w' _ _ => hthrow u w'
  | call _ _, _, h, hfin => fun w' hw =>
    ⟨(h w' hw).1, fun e => ((h w' hw).2 e).tryFinally fun _ hw' =>
      hfin _ (d.trans (d.trans hw (d.up e _ _ (h w' hw).1)) hw')⟩

theorem Promises.tryCatch {handler : ε → Prog S ε α} :
    ∀ {p : Prog S ε α} {w : W}, p.Promises d Q w →
      (∀ err w', d.le w w' → (handler err).Promises d Q w') → (p.tryCatch handler).Promises d Q w
  | ret _, _, h, _ => h
  | throw err, w, _, hh => hh err w (d.refl w)
  | call _ _, _, h, hh => fun w' hw =>
    ⟨(h w' hw).1, fun e => ((h w' hw).2 e).tryCatch fun err _ hw' =>
      hh err _ (d.trans (d.trans hw (d.up e _ _ (h w' hw).1)) hw')⟩

theorem Delivers.ret {a : α} (h : ∀ w, K w → Q a w) : (Prog.ret a : Prog S ε α).Delivers d K Q :=
  fun _ hw w' hw' => h w' (hw w' hw')

theorem Delivers.throw {err : ε} : (Prog.throw err : Prog S ε α).Delivers d K Q :=
  fun _ _ => trivial

/-- What `K` says whatever the world is known. -/
theorem Delivers.of_fact {P : Prop} {p : Prog S ε α} (hK : ∀ w, K w → P)
    (hp : P → p.Delivers d K Q) : p.Delivers d K Q :=
  fun w hw => hp (hK w (hw w (d.refl w))) w hw

/-- First `p`, then `f` of its value, which may rely on what `p` promises. -/
theorem Delivers.bind {p : Prog S ε α} {f : α → Prog S ε β} (hp : p.Delivers d K Q)
    (hf : ∀ a, (f a).Delivers d (fun w => K w ∧ Q a w) Q') : (p.bind f).Delivers d K Q' :=
  fun w hw => (hp w hw).bind fun a w' hw' ha => hf a w' fun w'' hw'' =>
    ⟨hw w'' (d.trans hw' hw''), ha w'' hw''⟩

theorem Delivers.tryFinally {p : Prog S ε α} {fin : Prog S ε Unit} (hp : p.Delivers d K Q)
    (hfin : fin.Delivers d K fun _ _ => True) : (p.tryFinally fin).Delivers d K Q :=
  fun w hw => (hp w hw).tryFinally fun w' hw' => hfin w' fun w'' hw'' => hw w'' (d.trans hw' hw'')

theorem Delivers.tryCatch {p : Prog S ε α} {handler : ε → Prog S ε α} (hp : p.Delivers d K Q)
    (hh : ∀ err, (handler err).Delivers d K Q) : (p.tryCatch handler).Delivers d K Q :=
  fun w hw => (hp w hw).tryCatch fun err w' hw' =>
    hh err w' fun w'' hw'' => hw w'' (d.trans hw' hw'')

theorem Delivers.mono {K' : W → Prop} {Q' : α → W → Prop} {p : Prog S ε α}
    (h : p.Delivers d K Q) (hK : ∀ w, K' w → K w) (hQ : ∀ a w, Q a w → Q' a w) :
    p.Delivers d K' Q' :=
  fun w hw => (h w fun w' hw' => hK w' (hw w' hw')).mono hQ

/-- After a call that `K` allows, `K` still holds, and what the reply tells. -/
theorem Delivers.await_bind {op : S.Op} {f : S.Reply op → Prog S ε α}
    {R : S.Reply op → W → Prop} (hK : ∀ w, K w → d.allows w op)
    (hR : ∀ e w reply w', K w → handle e op w = (.ok reply, w') → ∀ w'', d.le w' w'' → R reply w'')
    (hf : ∀ reply, (f reply).Delivers d (fun w => K w ∧ R reply w) Q) :
    ((Prog.await op).bind f).Delivers d K Q := by
  intro w hw w' hw'
  refine ⟨hK w' (hw w' hw'), fun e => ?_⟩
  have hup : d.le w' (handle e op w').2 := d.up e op w' (hK w' (hw w' hw'))
  cases h : handle e op w' with
  | mk r w₁ =>
    rw [h] at hup
    cases r with
    | error err => trivial
    | ok reply =>
      exact hf reply w₁ fun w₂ hw₂ =>
        ⟨hw w₂ (d.trans (d.trans hw' hup) hw₂), hR e w' reply w₁ (hw w' hw') h w₂ hw₂⟩

/-- A program whose calls are always allowed. -/
theorem Promises.of_calls : ∀ {p : Prog S ε α}, p.Calls (fun op => ∀ w, d.allows w op) →
    ∀ w, p.Promises d (fun _ _ => True) w
  | ret _, _, _ => fun _ _ => trivial
  | throw _, _, _ => trivial
  | call _ _, h, _ => fun w' _ => ⟨h.1 w', fun _ => Promises.of_calls (h.2 _) _⟩

theorem Delivers.of_calls {p : Prog S ε α} (h : p.Calls fun op => ∀ w, d.allows w op) :
    p.Delivers d K fun _ _ => True :=
  fun w _ => .of_calls h w

end Prog

namespace Pool

variable {handle : Handler S ε E W} {d : Discipline handle} {Q : ℕ → α → W → Prop}
  {s s' : Pool S ε α E W} {i : ℕ}

/-- Every thread keeps to the discipline from here on, and promises what is asked of it. -/
def Promising (d : Discipline handle) (Q : ℕ → α → W → Prop) (s : Pool S ε α E W) : Prop :=
  ∀ (i : ℕ) (p : Prog S ε α), s.threads[i]? = some p → p.Promises d (Q i) s.world

namespace Promising

/-- What a thread has returned is as it was promised, and stays so. -/
theorem outcome (h : s.Promising d Q) {a : α} (hi : s.outcome i = some (.ok a)) {w : W}
    (hw : d.le s.world w) : Q i a w := by
  unfold Pool.outcome at hi
  split at hi
  · rename_i hp
    cases hi
    exact h i _ hp w hw
  · cases hi
  · cases hi

theorem up (h : s.Promising d Q) {w : W} (hw : d.le s.world w) :
    Promising d Q { s with world := w } :=
  fun i p hp => (h i p hp).up hw

/-- A call moves the world up, and the others rely only on what it keeps. -/
theorem advance (h : s.Promising d Q) {e : E} (hs : s.advance handle i e = some s') :
    s'.Promising d Q ∧ d.le s.world s'.world := by
  obtain ⟨op, k, hk, rfl⟩ := advance_eq_some hs
  obtain ⟨hop, hnext⟩ := h i _ hk s.world (d.refl _)
  refine ⟨fun j p hp => ?_, d.up e op _ hop⟩
  rw [List.getElem?_set] at hp
  split_ifs at hp with hij hlt
  · cases hp
    cases hij
    exact hnext e
  · exact (h j p hp).up (d.up e op _ hop)

theorem spawn (h : s.Promising d Q) {Q' : ℕ → α → W → Prop} {p : Prog S ε α}
    (hQ : ∀ i < s.threads.length, Q' i = Q i)
    (hp : p.Promises d (Q' s.threads.length) s.world) : (s.spawn p).Promising d Q' := by
  intro i q hq
  rcases Nat.lt_trichotomy i s.threads.length with hi | rfl | hi
  · rw [Pool.spawn, List.getElem?_append_left hi] at hq
    rw [hQ i hi]
    exact h i q hq
  · rw [Pool.spawn, List.getElem?_concat_length, Option.some.injEq] at hq
    rw [← hq]
    exact hp
  · rw [Pool.spawn, List.getElem?_eq_none (by simp; omega)] at hq
    cases hq

theorem halt (h : s.Promising d Q) (i : ℕ) (err : ε) : (s.halt i err).Promising d Q := by
  intro j p hp
  rw [Pool.halt, List.getElem?_set] at hp
  split_ifs at hp with hij hlt
  · cases hp
    trivial
  · exact h j p hp

end Promising

end Pool

end Interleaving
