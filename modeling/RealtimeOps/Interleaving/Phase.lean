import Mathlib.Data.List.Perm.Basic
import Mathlib.Algebra.BigOperators.Group.Multiset.Basic
import RealtimeOps.Interleaving.Pool

/-!
# Phase machines

An invariant of an interleaved run has to say where each thread is. A phase machine
forgets the program text : a thread is in a phase, and `Move` lists what an answered call
does to the phase and the world together. `Sim Q q p` says that from phase `q` every call
of the program `p`, whatever the world and the environment's choice, is a move, and that
`p` ends as `Q` allows. It is built along the program by the rules below (`Sim.bind`,
`Sim.tryFinally`, `Sim.tryCatch`), one specification for each function of the program.

`Abstracts M s A` : the threads of the pool `s` are in the phases of the multiset `A`,
each with its own past. A move of one thread replaces one element of `A`
(`Abstracts.advance`), so an invariant of a world and a multiset of phases is kept by
the pool once it is kept by every `Move`.
-/

set_option autoImplicit false

namespace Interleaving

/-- What holds of every entry and of a new one holds once that is set. -/
theorem forall_getElem?_set {α : Type} {l : List α} {i : ℕ} {a : α} {P : ℕ → α → Prop}
    (h : ∀ j b, l[j]? = some b → P j b) (ha : P i a) :
    ∀ j b, (l.set i a)[j]? = some b → P j b := by
  intro j b hb
  rw [List.getElem?_set] at hb
  split_ifs at hb with hij
  · cases hb
    exact hij ▸ ha
  · exact h j b hb

/-- What a thread can do, by phase. -/
structure PhaseMachine (S : Signature) (ε α E W : Type) where
  Phase : Type
  /-- An answered call takes a world and a phase to the next. -/
  Move : E → (op : S.Op) → Except ε (S.Reply op) → W → Phase → W → Phase → Prop
  /-- A thread may end in this phase with this result. -/
  Ends : Phase → Except ε α → Prop

namespace PhaseMachine

variable {S : Signature} {ε α β E W : Type}

/-- From phase `q`, each call of the program is a move of `M`, and it ends as `Q` says. -/
def Sim (M : PhaseMachine S ε α E W) (handle : Handler S ε E W)
    (Q : M.Phase → Except ε β → Prop) : M.Phase → Prog S ε β → Prop
  | q, .ret b => Q q (.ok b)
  | q, .throw err => Q q (.error err)
  | q, .call op k =>
    ∀ e w, ∃ q', M.Move e op (handle e op w).1 w q (handle e op w).2 q' ∧
      Sim M handle Q q' (k (handle e op w).1)

variable {M : PhaseMachine S ε α E W} {handle : Handler S ε E W}

/-! ## Rules -/

theorem sim_resolve {Q : M.Phase → Except ε β → Prop} {q : M.Phase} {r : Except ε β} :
    M.Sim handle Q q (.resolve r) ↔ Q q r := by
  cases r <;> rfl

/-- First `p`, then `f` of its value; an error of `p` ends the whole. -/
theorem Sim.bind {γ : Type} {Q : M.Phase → Except ε β → Prop}
    {Q' : M.Phase → Except ε γ → Prop} {f : β → Prog S ε γ}
    (hok : ∀ q b, Q q (.ok b) → M.Sim handle Q' q (f b))
    (herr : ∀ q err, Q q (.error err) → Q' q (.error err)) :
    ∀ {p : Prog S ε β} {q : M.Phase}, M.Sim handle Q q p → M.Sim handle Q' q (p.bind f)
  | .ret _, _, h => hok _ _ h
  | .throw _, _, h => herr _ _ h
  | .call _ _, _, h => fun e w => by
    obtain ⟨q', hm, hk⟩ := h e w
    exact ⟨q', hm, hk.bind hok herr⟩

/-- However `p` ends, the finalizer runs from the phase `p` ended in. -/
theorem Sim.tryFinally {Q Q' : M.Phase → Except ε β → Prop} {fin : Prog S ε Unit}
    (hfin : ∀ q r, Q q r → M.Sim handle Q' q (fin.bind fun _ => .resolve r)) :
    ∀ {p : Prog S ε β} {q : M.Phase}, M.Sim handle Q q p → M.Sim handle Q' q (p.tryFinally fin)
  | .ret _, _, h => hfin _ _ h
  | .throw _, _, h => hfin _ _ h
  | .call _ _, _, h => fun e w => by
    obtain ⟨q', hm, hk⟩ := h e w
    exact ⟨q', hm, hk.tryFinally hfin⟩

/-- An error of `p` goes to the handler, in the phase it was thrown in. -/
theorem Sim.tryCatch {Q Q' : M.Phase → Except ε β → Prop} {handler : ε → Prog S ε β}
    (hok : ∀ q b, Q q (.ok b) → Q' q (.ok b))
    (herr : ∀ q err, Q q (.error err) → M.Sim handle Q' q (handler err)) :
    ∀ {p : Prog S ε β} {q : M.Phase},
      M.Sim handle Q q p → M.Sim handle Q' q (p.tryCatch handler)
  | .ret _, _, h => hok _ _ h
  | .throw _, _, h => herr _ _ h
  | .call _ _, _, h => fun e w => by
    obtain ⟨q', hm, hk⟩ := h e w
    exact ⟨q', hm, hk.tryCatch hok herr⟩

/-! ## Pools in phases -/

/-- A thread as its phase and its answered calls. -/
structure Local (M : PhaseMachine S ε α E W) where
  phase : M.Phase
  past : List (Entry S ε E)

/-- Thread by thread, the program simulates the machine from its phase. -/
structure Tracks (M : PhaseMachine S ε α E W) (handle : Handler S ε E W)
    (s : Pool S ε α E W) (φ : List M.Phase) : Prop where
  length : φ.length = s.threads.length
  sim : ∀ (i : ℕ) (p : Prog S ε α) (q : M.Phase), s.threads[i]? = some p → φ[i]? = some q →
    M.Sim handle M.Ends q p
  log : ∀ x ∈ s.log, x.thread < s.threads.length

/-- The phases of a pool, each with its thread's past. -/
def locals (s : Pool S ε α E W) (φ : List M.Phase) : List M.Local :=
  φ.mapIdx fun i q => ⟨q, s.past i⟩

/-- The threads of `s` are in the phases `A`. -/
def Abstracts (M : PhaseMachine S ε α E W) (handle : Handler S ε E W)
    (s : Pool S ε α E W) (A : Multiset M.Local) : Prop :=
  ∃ φ, M.Tracks handle s φ ∧ (locals s φ : Multiset M.Local) = A

@[simp] theorem length_locals (s : Pool S ε α E W) (φ : List M.Phase) :
    (locals s φ).length = φ.length := by
  simp [locals]

/-- A change at thread `i` alone is a change of one local. -/
theorem locals_set {s s' : Pool S ε α E W} {φ : List M.Phase} {i : ℕ} {q : M.Phase}
    (hpast : ∀ k, k ≠ i → s'.past k = s.past k) :
    locals s' (φ.set i q) = (locals s φ).set i ⟨q, s'.past i⟩ := by
  refine List.ext_getElem (by simp) fun k hk hk' => ?_
  simp only [locals, List.getElem_mapIdx, List.getElem_set]
  split_ifs with hik
  · rw [hik]
  · rw [hpast k (Ne.symm hik)]

theorem locals_split {s s' : Pool S ε α E W} {φ : List M.Phase} {i : ℕ} {q : M.Phase}
    (q' : M.Phase) (hq : φ[i]? = some q) (hpast : ∀ k, k ≠ i → s'.past k = s.past k) :
    ∃ rest : Multiset M.Local, (locals s φ : Multiset M.Local) = ⟨q, s.past i⟩ ::ₘ rest ∧
      (locals s' (φ.set i q') : Multiset M.Local) = ⟨q', s'.past i⟩ ::ₘ rest := by
  obtain ⟨hi, rfl⟩ := List.getElem?_eq_some_iff.mp hq
  have hi' : i < (locals s φ).length := by simpa using hi
  have hget : (locals s φ)[i] = ⟨φ[i], s.past i⟩ := by simp [locals]
  refine ⟨((locals s φ).eraseIdx i : List M.Local), ?_, ?_⟩
  · rw [Multiset.cons_coe, Multiset.coe_eq_coe, ← hget]
    exact (List.getElem_cons_eraseIdx_perm hi').symm
  · rw [Multiset.cons_coe, Multiset.coe_eq_coe, locals_set hpast]
    exact List.set_perm_cons_eraseIdx hi' _

namespace Tracks

/-- Threads that have answered no call yet. -/
theorem init {w : W} {ps : List (Prog S ε α)} {φ : List M.Phase}
    (h : List.Forall₂ (fun q p => M.Sim handle M.Ends q p) φ ps) :
    M.Tracks handle ⟨w, ps, []⟩ φ := by
  refine ⟨h.length_eq, fun i p q hp hq => ?_, by simp⟩
  obtain ⟨hi, rfl⟩ := List.getElem?_eq_some_iff.mp hp
  obtain ⟨hi', rfl⟩ := List.getElem?_eq_some_iff.mp hq
  exact h.get hi' hi

/-- Answering a call of thread `i` is a move of its phase. -/
theorem advance {s s' : Pool S ε α E W} {φ : List M.Phase} (h : M.Tracks handle s φ) {i : ℕ}
    {e : E} (hs : s.advance handle i e = some s') :
    ∃ op q q', s.awaited i = some op ∧ φ[i]? = some q ∧
      M.Move e op (handle e op s.world).1 s.world q s'.world q' ∧
      M.Tracks handle s' (φ.set i q') ∧
      s'.log = s.log ++ [⟨i, e, op, (handle e op s.world).1⟩] := by
  obtain ⟨hlen, hsim, hlog⟩ := h
  obtain ⟨op, k, hop, rfl⟩ := Pool.advance_eq_some hs
  have hi : i < s.threads.length := (List.getElem?_eq_some_iff.mp hop).1
  have hq : φ[i]? = some φ[i] := List.getElem?_eq_getElem (hlen ▸ hi)
  obtain ⟨q', hm, hk⟩ := hsim i _ _ hop hq e s.world
  refine ⟨op, φ[i], q', Pool.awaited_eq_some.mpr ⟨k, hop⟩, hq, hm, ⟨by simp [hlen], ?_, ?_⟩, rfl⟩
  · intro j p q hp hq'
    simp only [List.getElem?_set] at hp
    rw [List.getElem?_set] at hq'
    by_cases hij : i = j
    · subst hij
      rw [if_pos rfl, if_pos hi] at hp
      rw [if_pos rfl, if_pos (hlen ▸ hi)] at hq'
      cases hp
      cases hq'
      exact hk
    · rw [if_neg hij] at hp hq'
      exact hsim j p q hp hq'
  · intro x hx
    simp only [List.length_set]
    rcases List.mem_append.mp hx with hx | hx
    · exact hlog x hx
    · rw [List.mem_singleton.mp hx]
      exact hi

/-- A thread that has ended is in a phase that may end so. -/
theorem ends {s : Pool S ε α E W} {φ : List M.Phase} (h : M.Tracks handle s φ) {i : ℕ}
    {q : M.Phase} {r : Except ε α} (hq : φ[i]? = some q) (hr : s.outcome i = some r) :
    M.Ends q r := by
  unfold Pool.outcome at hr
  split at hr
  · rename_i hp
    cases hr
    exact h.sim i _ q hp hq
  · rename_i hp
    cases hr
    exact h.sim i _ q hp hq
  · cases hr

end Tracks

/-! ## Counting phases -/

/-- The sum of a weight over the phases. -/
def tally (f : M.Phase → ℕ) (A : Multiset M.Local) : ℕ :=
  (A.map fun l => f l.phase).sum

@[simp] theorem tally_zero (f : M.Phase → ℕ) : tally f (0 : Multiset M.Local) = 0 :=
  rfl

@[simp] theorem tally_cons (f : M.Phase → ℕ) (l : M.Local) (A : Multiset M.Local) :
    tally f (l ::ₘ A) = f l.phase + tally f A := by
  simp [tally]

theorem le_tally (f : M.Phase → ℕ) {l : M.Local} {A : Multiset M.Local} (hl : l ∈ A) :
    f l.phase ≤ tally f A := by
  obtain ⟨rest, rfl⟩ := Multiset.exists_cons_of_mem hl
  rw [tally_cons]
  omega

theorem exists_of_tally_ne_zero {f : M.Phase → ℕ} {A : Multiset M.Local} (h : tally f A ≠ 0) :
    ∃ l ∈ A, f l.phase ≠ 0 := by
  by_contra hno
  refine h (Multiset.sum_eq_zero fun n hn => ?_)
  obtain ⟨l, hl, rfl⟩ := Multiset.mem_map.mp hn
  by_contra hne
  exact hno ⟨l, hl, hne⟩

namespace Abstracts

/-- No threads, no phases. -/
theorem init (w : W) : M.Abstracts handle ⟨w, [], []⟩ 0 :=
  ⟨[], ⟨rfl, by simp, by simp⟩, rfl⟩

/-- A new thread starts in a phase its program simulates from, with no past. -/
theorem spawn {s : Pool S ε α E W} {A : Multiset M.Local} (h : M.Abstracts handle s A)
    {p : Prog S ε α} {q : M.Phase} (hp : M.Sim handle M.Ends q p) :
    M.Abstracts handle (s.spawn p) (⟨q, []⟩ ::ₘ A) := by
  obtain ⟨φ, ⟨hlen, hsim, hlog⟩, rfl⟩ := h
  refine ⟨φ ++ [q], ⟨by simp [Pool.spawn, hlen], ?_, ?_⟩, ?_⟩
  · intro i p' q' hp' hq'
    simp only [Pool.spawn] at hp'
    rcases Nat.lt_or_ge i s.threads.length with hi | hi
    · rw [List.getElem?_append_left hi] at hp'
      rw [List.getElem?_append_left (hlen ▸ hi)] at hq'
      exact hsim i p' q' hp' hq'
    · rw [List.getElem?_append_right hi, List.getElem?_singleton] at hp'
      rw [List.getElem?_append_right (hlen ▸ hi), List.getElem?_singleton, hlen] at hq'
      split_ifs at hp' hq'
      cases hp'
      cases hq'
      exact hp
  · intro x hx
    simpa [Pool.spawn] using (hlog x hx).trans (Nat.lt_succ_self _)
  · have hpast : s.past φ.length = [] := by
      simp only [Pool.past, List.filter_eq_nil_iff, decide_eq_true_eq]
      intro x hx hxi
      have := hlog x hx
      omega
    have hloc : locals (s.spawn p) (φ ++ [q]) = locals s φ ++ [⟨q, []⟩] := by
      simp only [locals, List.mapIdx_append, List.mapIdx_cons, List.mapIdx_nil, Nat.zero_add]
      rw [← hpast]
      rfl
    rw [hloc, Multiset.cons_coe, Multiset.coe_eq_coe]
    exact List.perm_append_singleton _ _

/-- The phases do not depend on the world. -/
theorem world {s : Pool S ε α E W} {A : Multiset M.Local} (h : M.Abstracts handle s A) (w : W) :
    M.Abstracts handle { s with world := w } A := by
  obtain ⟨φ, ⟨hlen, hsim, hlog⟩, rfl⟩ := h
  exact ⟨φ, ⟨hlen, hsim, hlog⟩, rfl⟩

/-- Answering a call of a thread is a move of its phase and of the world; the other
threads keep their phases. -/
theorem advance {s s' : Pool S ε α E W} {A : Multiset M.Local} (h : M.Abstracts handle s A)
    {i : ℕ} {e : E} (hs : s.advance handle i e = some s') :
    ∃ op l q' rest, s.awaited i = some op ∧ A = l ::ₘ rest ∧ l.past = s.past i ∧
      M.Move e op (handle e op s.world).1 s.world l.phase s'.world q' ∧
      M.Abstracts handle s'
        (⟨q', l.past ++ [⟨i, e, op, (handle e op s.world).1⟩]⟩ ::ₘ rest) := by
  obtain ⟨φ, hφ, rfl⟩ := h
  obtain ⟨op, q, q', hop, hq, hm, hφ', hlast⟩ := hφ.advance hs
  have hpast : ∀ j, j ≠ i → s'.past j = s.past j := fun j hj => by
    rw [Pool.past_append hlast j, if_neg (Ne.symm hj), List.append_nil]
  have hown : s'.past i = s.past i ++ [⟨i, e, op, (handle e op s.world).1⟩] := by
    rw [Pool.past_append hlast i, if_pos rfl]
  obtain ⟨rest, hA, hA'⟩ := locals_split q' hq hpast
  refine ⟨op, ⟨q, s.past i⟩, q', rest, hop, hA, rfl, hm, φ.set i q', hφ', ?_⟩
  rw [hA', hown]

/-- Stopping a thread puts it in a phase that may end so. -/
theorem halt {s : Pool S ε α E W} {A : Multiset M.Local} (h : M.Abstracts handle s A) {i : ℕ}
    {err : ε} {q' : M.Phase} (hq' : M.Ends q' (.error err)) (hi : i < s.threads.length) :
    ∃ l rest, A = l ::ₘ rest ∧ l.past = s.past i ∧
      M.Abstracts handle (s.halt i err) (⟨q', l.past⟩ ::ₘ rest) := by
  obtain ⟨φ, ⟨hlen, hsim, hlog⟩, rfl⟩ := h
  have hq : φ[i]? = some φ[i] := List.getElem?_eq_getElem (hlen ▸ hi)
  have hpast : ∀ j, j ≠ i → (s.halt i err).past j = s.past j := fun _ _ => rfl
  obtain ⟨rest, hA, hA'⟩ := locals_split q' hq hpast
  refine ⟨⟨φ[i], s.past i⟩, rest, hA, rfl, φ.set i q', ⟨by simp [Pool.halt, hlen], ?_, ?_⟩, hA'⟩
  · intro j p q hp hqj
    simp only [Pool.halt, List.getElem?_set] at hp
    rw [List.getElem?_set] at hqj
    by_cases hij : i = j
    · subst hij
      rw [if_pos rfl, if_pos hi] at hp
      rw [if_pos rfl, if_pos (hlen ▸ hi)] at hqj
      cases hp
      cases hqj
      exact hq'
    · rw [if_neg hij] at hp hqj
      exact hsim j p q hp hqj
  · simpa [Pool.halt] using hlog

/-- A thread that was never started has answered no call. -/
theorem past_eq_nil {s : Pool S ε α E W} {A : Multiset M.Local} (h : M.Abstracts handle s A)
    {i : ℕ} (hi : s.threads[i]? = none) : s.past i = [] := by
  obtain ⟨φ, ⟨-, -, hlog⟩, -⟩ := h
  simp only [Pool.past, List.filter_eq_nil_iff, decide_eq_true_eq]
  intro x hx hxi
  have := hlog x hx
  rw [List.getElem?_eq_none_iff] at hi
  omega

/-- Every thread has its phase in `A`. -/
theorem exists_local {s : Pool S ε α E W} {A : Multiset M.Local} (h : M.Abstracts handle s A)
    {i : ℕ} {p : Prog S ε α} (hi : s.threads[i]? = some p) :
    ∃ l ∈ A, l.past = s.past i ∧ M.Sim handle M.Ends l.phase p := by
  obtain ⟨φ, ⟨hlen, hsim, -⟩, rfl⟩ := h
  have hlt : i < φ.length := hlen ▸ (List.getElem?_eq_some_iff.mp hi).1
  refine ⟨⟨φ[i], s.past i⟩, ?_, rfl, hsim i p _ hi (List.getElem?_eq_getElem hlt)⟩
  have hlt' : i < (locals s φ).length := by simpa using hlt
  have hget : (locals s φ)[i] = ⟨φ[i], s.past i⟩ := by simp [locals]
  rw [Multiset.mem_coe, ← hget]
  exact List.getElem_mem _

/-- A thread that has ended is in a phase that may end so. -/
theorem exists_ended {s : Pool S ε α E W} {A : Multiset M.Local} (h : M.Abstracts handle s A)
    {i : ℕ} {r : Except ε α} (hi : s.outcome i = some r) :
    ∃ l ∈ A, l.past = s.past i ∧ M.Ends l.phase r := by
  unfold Pool.outcome at hi
  split at hi
  · rename_i hp
    obtain ⟨l, hl, hpast, hsim⟩ := h.exists_local hp
    cases hi
    exact ⟨l, hl, hpast, hsim⟩
  · rename_i hp
    obtain ⟨l, hl, hpast, hsim⟩ := h.exists_local hp
    cases hi
    exact ⟨l, hl, hpast, hsim⟩
  · cases hi

/-- Every phase in `A` is the phase of a thread. -/
theorem exists_thread {s : Pool S ε α E W} {A : Multiset M.Local} (h : M.Abstracts handle s A)
    {l : M.Local} (hl : l ∈ A) :
    ∃ i p, s.threads[i]? = some p ∧ l.past = s.past i ∧ M.Sim handle M.Ends l.phase p := by
  obtain ⟨φ, ⟨hlen, hsim, -⟩, rfl⟩ := h
  obtain ⟨i, hi, hget⟩ := List.getElem_of_mem (Multiset.mem_coe.mp hl)
  have hφ : i < φ.length := by simpa using hi
  have hlt : i < s.threads.length := hlen ▸ hφ
  have hli : l = ⟨φ[i], s.past i⟩ := by simp [← hget, locals]
  refine ⟨i, s.threads[i], List.getElem?_eq_getElem hlt, by rw [hli], ?_⟩
  rw [hli]
  exact hsim i _ _ (List.getElem?_eq_getElem hlt) (List.getElem?_eq_getElem hφ)

/-- Two threads are two elements of `A`. -/
theorem exists_pair {s : Pool S ε α E W} {A : Multiset M.Local} (h : M.Abstracts handle s A)
    {i j : ℕ} (hij : i ≠ j) {p p' : Prog S ε α} (hi : s.threads[i]? = some p)
    (hj : s.threads[j]? = some p') :
    ∃ l l' rest, A = l ::ₘ l' ::ₘ rest ∧ l.past = s.past i ∧ l'.past = s.past j ∧
      M.Sim handle M.Ends l.phase p ∧ M.Sim handle M.Ends l'.phase p' := by
  obtain ⟨φ, ⟨hlen, hsim, -⟩, rfl⟩ := h
  have hlt : i < φ.length := hlen ▸ (List.getElem?_eq_some_iff.mp hi).1
  have hlt' : j < φ.length := hlen ▸ (List.getElem?_eq_some_iff.mp hj).1
  have hi' : i < (locals s φ).length := by simpa using hlt
  have hj' : j < (locals s φ).length := by simpa using hlt'
  have hmem : (locals s φ)[j] ∈ (locals s φ).eraseIdx i :=
    List.mem_eraseIdx_iff_getElem.mpr ⟨j, hj', Ne.symm hij, rfl⟩
  obtain ⟨rest, hrest⟩ := Multiset.exists_cons_of_mem (Multiset.mem_coe.mpr hmem)
  refine ⟨(locals s φ)[i], (locals s φ)[j], rest, ?_, by simp [locals], by simp [locals], ?_, ?_⟩
  · rw [← hrest, Multiset.cons_coe, Multiset.coe_eq_coe]
    exact (List.getElem_cons_eraseIdx_perm hi').symm
  · simpa [locals] using hsim i p _ hi (List.getElem?_eq_getElem hlt)
  · simpa [locals] using hsim j p' _ hj (List.getElem?_eq_getElem hlt')

end Abstracts

end PhaseMachine

end Interleaving
