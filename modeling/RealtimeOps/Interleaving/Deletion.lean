import RealtimeOps.Interleaving.Named

/-!
# Runs with moves left out

Leave some moves out of a run. If each of them keeps a relation to the state of the shorter run,
and each other move is possible there too and keeps the relation, then the shorter run is possible
and ends related to the longer one (`exists_kept`).

`Named.Without` is such a relation for threads with names : the shorter run lacks some threads.
Its worlds are related by a given relation, which the calls of the threads that are gone have to
keep on their own, and the calls of the others on both sides, with the same answer.
-/

set_option autoImplicit false

namespace Interleaving

/-! ## Transition systems -/

section Runs

variable {State Label : Type} {step : State → Label → Option State} {drop : State → Label → Bool}

/-- What every move preserves holds at the end of a run. -/
theorem foldlM_invariant {I : State → Prop} (hI : ∀ s l s', I s → step s l = some s' → I s') :
    ∀ {ls : List Label} {s s' : State}, I s → ls.foldlM step s = some s' → I s'
  | [], s, s', hs, h => by
    cases h
    exact hs
  | l :: ls, s, s', hs, h => by
    obtain ⟨s₁, hs₁, hrest⟩ := Option.bind_eq_some_iff.mp (List.foldlM_cons (m := Option) ▸ h)
    exact foldlM_invariant hI (hI s l s₁ hs hs₁) hrest

/-- The same, where the moves of the run are known to satisfy `P`. -/
theorem foldlM_invariant_of_forall {P : Label → Prop} {I : State → Prop}
    (hI : ∀ s l s', P l → I s → step s l = some s' → I s') :
    ∀ {ls : List Label} {s s' : State}, (∀ l ∈ ls, P l) → I s → ls.foldlM step s = some s' → I s'
  | [], s, s', _, hs, h => by
    cases h
    exact hs
  | l :: ls, s, s', hP, hs, h => by
    obtain ⟨hl, hls⟩ := List.forall_mem_cons.mp hP
    obtain ⟨s₁, hs₁, hrest⟩ := Option.bind_eq_some_iff.mp (List.foldlM_cons (m := Option) ▸ h)
    exact foldlM_invariant_of_forall hI hls (hI s l s₁ hl hs hs₁) hrest

/-- The moves of a run from `s` that are not left out. -/
def kept (step : State → Label → Option State) (drop : State → Label → Bool) :
    State → List Label → List Label
  | _, [] => []
  | s, l :: ls =>
    (if drop s l then [] else [l]) ++ (step s l).elim [] fun s' => kept step drop s' ls

/-- The run of the moves that are kept is possible, and ends related to the run of all. `P` is what
is known of the moves. -/
theorem exists_kept {R : State → State → Prop} {P : Label → Prop}
    (hdrop : ∀ s l s' t, R s t → P l → drop s l = true → step s l = some s' → R s' t)
    (hkeep : ∀ s l s' t, R s t → P l → drop s l = false → step s l = some s' →
      ∃ t', step t l = some t' ∧ R s' t') :
    ∀ {ls : List Label} {s s' t : State}, R s t → (∀ l ∈ ls, P l) → ls.foldlM step s = some s' →
      ∃ t', (kept step drop s ls).foldlM step t = some t' ∧ R s' t'
  | [], s, s', t, hR, _, h => by
    cases h
    exact ⟨t, rfl, hR⟩
  | l :: ls, s, s', t, hR, hP, h => by
    obtain ⟨s₁, hs₁, hrest⟩ := Option.bind_eq_some_iff.mp (List.foldlM_cons (m := Option) ▸ h)
    obtain ⟨hl, hls⟩ := List.forall_mem_cons.mp hP
    cases hd : drop s l with
    | true =>
      obtain ⟨t', ht', hR'⟩ := exists_kept hdrop hkeep (hdrop s l s₁ t hR hl hd hs₁) hls hrest
      refine ⟨t', ?_, hR'⟩
      simpa [kept, hd, hs₁] using ht'
    | false =>
      obtain ⟨t₁, ht₁, hR₁⟩ := hkeep s l s₁ t hR hl hd hs₁
      obtain ⟨t', ht', hR'⟩ := exists_kept hdrop hkeep hR₁ hls hrest
      refine ⟨t', ?_, hR'⟩
      simpa [kept, hd, hs₁, ht₁] using ht'

/-- If it does not depend on the state which moves are left out, the others are filtered. -/
theorem kept_eq_filter {p : Label → Bool} :
    ∀ {ls : List Label} {s s' : State}, ls.foldlM step s = some s' →
      kept step (fun _ => p) s ls = ls.filter fun l => !p l
  | [], _, _, _ => rfl
  | l :: ls, s, s', h => by
    obtain ⟨s₁, hs₁, hrest⟩ := Option.bind_eq_some_iff.mp (List.foldlM_cons (m := Option) ▸ h)
    rw [kept, hs₁, Option.elim_some, kept_eq_filter hrest, List.filter_cons]
    cases p l <;> rfl

end Runs

/-! ## Threads -/

namespace Named

variable {S : Signature} {ε α E W : Type} {gone : ℕ → Prop} {R : W → W → Prop}

/-- `t` is `s` without the threads that are gone. -/
structure Without (gone : ℕ → Prop) (R : W → W → Prop) (s t : Named S ε α E W) : Prop where
  world : R s.world t.world
  threads : ∀ i, ¬gone i → t.threads i = s.threads i

namespace Without

variable {s s' t : Named S ε α E W} {i : ℕ}

theorem init {w w' : W} (h : R w w') :
    Without gone R (Named.init w : Named S ε α E W) (Named.init w') :=
  ⟨h, fun _ _ => rfl⟩

theorem awaited (h : Without gone R s t) (hi : ¬gone i) : t.awaited i = s.awaited i := by
  rw [Named.awaited, h.threads i hi, Named.awaited]

theorem outcome (h : Without gone R s t) (hi : ¬gone i) : t.outcome i = s.outcome i := by
  rw [Named.outcome, h.threads i hi, Named.outcome]

/-- Both worlds change. -/
theorem with_world (h : Without gone R s t) {w w' : W} (hR : R w w') :
    Without gone R { s with world := w } { t with world := w' } :=
  ⟨hR, h.threads⟩

/-- A thread that is gone does something, related worlds or not. -/
theorem of_gone (h : Without gone R s t) (hi : gone i) {p : Option (Prog S ε α)}
    (hthreads : s'.threads = Function.update s.threads i p) (hR : R s'.world t.world) :
    Without gone R s' t := by
  refine ⟨hR, fun j hj => ?_⟩
  have hji : j ≠ i := by
    rintro rfl
    exact hj hi
  rw [hthreads, Function.update_of_ne hji, h.threads j hj]

/-- A thread does the same in both. -/
theorem update (h : Without gone R s t) (p : Option (Prog S ε α)) {w w' : W} (hR : R w w')
    (log log' : List (Entry S ε E)) :
    Without gone R ⟨w, Function.update s.threads i p, log⟩
      ⟨w', Function.update t.threads i p, log'⟩ := by
  refine ⟨hR, fun j hj => ?_⟩
  dsimp only
  by_cases hji : j = i
  · rw [hji, Function.update_self, Function.update_self]
  · rw [Function.update_of_ne hji, Function.update_of_ne hji, h.threads j hj]

theorem spawn_gone (h : Without gone R s t) (hi : gone i) {p : Prog S ε α}
    (hs : s.spawn i p = some s') : Without gone R s' t := by
  obtain ⟨-, rfl⟩ := spawn_eq_some hs
  exact h.of_gone hi rfl h.world

theorem spawn_kept (h : Without gone R s t) (hi : ¬gone i) {p : Prog S ε α}
    (hs : s.spawn i p = some s') : ∃ t', t.spawn i p = some t' ∧ Without gone R s' t' := by
  obtain ⟨hfree, rfl⟩ := spawn_eq_some hs
  refine ⟨_, ?_, h.update (some p) h.world s.log t.log⟩
  rw [spawn, h.threads i hi, hfree]
  rfl

theorem advance_gone {handle : Handler S ε E W} {e : E} (h : Without gone R s t) (hi : gone i)
    (hR : ∀ op ∈ s.awaited i, R (handle e op s.world).2 t.world)
    (hs : s.advance handle i e = some s') : Without gone R s' t := by
  obtain ⟨op, k, hk, rfl⟩ := advance_eq_some hs
  exact h.of_gone hi rfl (hR op (awaited_eq_some.mpr ⟨k, hk⟩))

theorem advance_kept {handle : Handler S ε E W} {e : E} (h : Without gone R s t) (hi : ¬gone i)
    (hR : ∀ op ∈ s.awaited i, (handle e op t.world).1 = (handle e op s.world).1 ∧
      R (handle e op s.world).2 (handle e op t.world).2)
    (hs : s.advance handle i e = some s') :
    ∃ t', t.advance handle i e = some t' ∧ Without gone R s' t' := by
  obtain ⟨op, k, hk, rfl⟩ := advance_eq_some hs
  obtain ⟨hanswer, hworld⟩ := hR op (awaited_eq_some.mpr ⟨k, hk⟩)
  refine ⟨_, ?_, h.update (some (k (handle e op s.world).1)) hworld _
    (t.log ++ [⟨i, e, op, (handle e op s.world).1⟩])⟩
  rw [advance, h.threads i hi, hk]
  dsimp only
  rw [hanswer]

theorem halt_gone {err : ε} (h : Without gone R s t) (hi : gone i) (hs : s.halt i err = some s') :
    Without gone R s' t := by
  obtain ⟨-, rfl⟩ := halt_eq_some hs
  exact h.of_gone hi rfl h.world

theorem halt_kept {err : ε} (h : Without gone R s t) (hi : ¬gone i)
    (hs : s.halt i err = some s') : ∃ t', t.halt i err = some t' ∧ Without gone R s' t' := by
  obtain ⟨⟨op, hop⟩, rfl⟩ := halt_eq_some hs
  refine ⟨_, ?_, h.update (some (.throw err)) h.world s.log t.log⟩
  rw [halt, h.awaited hi, hop]
  rfl

end Without

end Named

end Interleaving
