import Mathlib.Data.List.Nodup
import RealtimeOps.Interleaving.Named

/-!
# Simulation

A relation between the states of two transition systems is a simulation if each move of the first is
matched in the second by one move or by none. Then each run of the first is matched by a run of the
second (`Simulates.reachable`), and what holds in all states of the second can be read back.

`Named.Embeds` is such a relation for threads : some of the threads of a system, in the order in
which they began, run what the threads of a pool run, in a bigger signature.
-/

set_option autoImplicit false

namespace Interleaving

/-! ## Transition systems -/

section Runs

variable {State Label State' Label' : Type} {step : State → Label → Option State}
  {allow : State → Label → Prop} {step' : State' → Label' → Option State'}
  {allow' : State' → Label' → Prop}

/-- From related states each allowed move of the first system is matched by one allowed move of the
second or by none. -/
def Simulates (step : State → Label → Option State) (allow : State → Label → Prop)
    (step' : State' → Label' → Option State') (allow' : State' → Label' → Prop)
    (R : State → State' → Prop) : Prop :=
  ∀ s l s₁ t, R s t → allow s l → step s l = some s₁ →
    ∃ t₁, Relation.ReflGen (Next step' allow') t t₁ ∧ R s₁ t₁

/-- A run is matched by a run. -/
theorem Simulates.reachable {R : State → State' → Prop}
    (h : Simulates step allow step' allow' R) {s s₁ : State} {t : State'} (hR : R s t)
    (hs : Reachable step allow s s₁) : ∃ t₁, Reachable step' allow' t t₁ ∧ R s₁ t₁ := by
  induction hs with
  | refl => exact ⟨t, .refl, hR⟩
  | tail _ hnext ih =>
    obtain ⟨t₁, ht₁, hR₁⟩ := ih
    obtain ⟨l, hl, hstep⟩ := hnext
    obtain ⟨t₂, ht₂, hR₂⟩ := h _ l _ t₁ hR₁ hl hstep
    exact ⟨t₂, ht₁.trans ht₂.to_reflTransGen, hR₂⟩

/-- The moves of a run, taken one after the other. -/
theorem reachable_of_foldlM : ∀ {ls : List Label} {s s' : State},
    (∀ s, ∀ l ∈ ls, allow s l) → ls.foldlM step s = some s' → Reachable step allow s s'
  | [], s, s', _, h => by
    cases h
    exact .refl
  | l :: ls, s, s', hls, h => by
    obtain ⟨s₁, hs₁, hrest⟩ := Option.bind_eq_some_iff.mp (List.foldlM_cons (m := Option) ▸ h)
    refine (reachable_of_foldlM (fun s l hl => hls s l (List.mem_cons_of_mem _ hl)) hrest).head ?_
    exact ⟨l, hls s l List.mem_cons_self, hs₁⟩

end Runs

/-! ## Threads -/

namespace Named

variable {S S' : Signature} {ε ε' α β E W W' : Type} {m : Prog.Embedding S S' ε ε'} {f : α → β}

/-- What a thread of the pool runs, in the bigger signature. -/
def lifted (m : Prog.Embedding S S' ε ε') (f : α → β) (p : Prog S ε α) : Prog S' ε' β :=
  (p.embed m).bind fun a => .ret (f a)

/-- The `j`-th name is that of the thread that runs what thread `j` of the pool runs. -/
structure Embeds (m : Prog.Embedding S S' ε ε') (f : α → β) (names : List ℕ)
    (s : Named S' ε' β E W') (t : Pool S ε α E W) : Prop where
  nodup : names.Nodup
  length : names.length = t.threads.length
  threads : ∀ (j i : ℕ) (p : Prog S ε α), names[j]? = some i → t.threads[j]? = some p →
    s.threads i = some (lifted m f p)

namespace Embeds

variable {names : List ℕ} {s s' : Named S' ε' β E W'} {t t' : Pool S ε α E W} {i j : ℕ}

theorem init (w' : W') (w : W) : Embeds m f [] (Named.init w' : Named S' ε' β E W')
    (⟨w, [], []⟩ : Pool S ε α E W) :=
  ⟨List.nodup_nil, rfl, fun j i p hi => by cases hi⟩

/-- The thread behind a name. -/
theorem exists_thread (h : Embeds m f names s t) (hj : names[j]? = some i) :
    ∃ p, t.threads[j]? = some p ∧ s.threads i = some (lifted m f p) := by
  have hlt : j < t.threads.length := h.length ▸ (List.getElem?_eq_some_iff.mp hj).1
  exact ⟨_, List.getElem?_eq_getElem hlt, h.threads j i _ hj (List.getElem?_eq_getElem hlt)⟩

/-- The worlds play no part. -/
theorem of_threads (h : Embeds m f names s t) (hs : s'.threads = s.threads)
    (ht : t'.threads = t.threads) : Embeds m f names s' t' :=
  ⟨h.nodup, ht ▸ h.length, hs ▸ ht ▸ h.threads⟩

/-- A thread without a name in the list moves. -/
theorem other {p : Option (Prog S' ε' β)} (h : Embeds m f names s t) (hi : i ∉ names)
    (hs : s'.threads = Function.update s.threads i p) : Embeds m f names s' t where
  nodup := h.nodup
  length := h.length
  threads j i' q hj hq := by
    have hne : i' ≠ i := by
      rintro rfl
      exact hi (List.mem_of_getElem? hj)
    rw [hs, Function.update_of_ne hne]
    exact h.threads j i' q hj hq

/-- A thread begins in both. -/
theorem begin {p : Prog S ε α} (h : Embeds m f names s t) (hi : i ∉ names)
    (hs : s'.threads = Function.update s.threads i (some (lifted m f p)))
    (ht : t'.threads = t.threads ++ [p]) : Embeds m f (names ++ [i]) s' t' where
  nodup := h.nodup.append (List.nodup_singleton i) (List.disjoint_singleton.mpr hi)
  length := by simp [ht, h.length]
  threads j i' q hj hq := by
    rw [ht] at hq
    rcases Nat.lt_or_ge j names.length with hlt | hge
    · rw [List.getElem?_append_left hlt] at hj
      rw [List.getElem?_append_left (h.length ▸ hlt)] at hq
      exact (h.other hi hs).threads j i' q hj hq
    · have hj' : j = names.length := by
        have := (List.getElem?_eq_some_iff.mp hj).1
        rw [List.length_append, List.length_singleton] at this
        omega
      rw [hj', List.getElem?_concat_length] at hj
      rw [hj', h.length, List.getElem?_concat_length] at hq
      cases hj
      cases hq
      rw [hs, Function.update_self]

/-- The thread behind a name moves in both. -/
theorem moved {p : Prog S ε α} (h : Embeds m f names s t) (hj : names[j]? = some i)
    (hs : s'.threads = Function.update s.threads i (some (lifted m f p)))
    (ht : t'.threads = t.threads.set j p) : Embeds m f names s' t' where
  nodup := h.nodup
  length := by rw [ht, List.length_set, h.length]
  threads j' i' q hj' hq := by
    rw [ht, List.getElem?_set] at hq
    split_ifs at hq with hjj hlt
    · cases hq
      cases hjj
      cases hj.symm.trans hj'
      rw [hs, Function.update_self]
    · have hne : i' ≠ i := by
        rintro rfl
        obtain ⟨hlt, hi⟩ := List.getElem?_eq_some_iff.mp hj
        obtain ⟨hlt', hi'⟩ := List.getElem?_eq_some_iff.mp hj'
        exact hjj ((h.nodup.getElem_inj_iff).mp (hi.trans hi'.symm))
      rw [hs, Function.update_of_ne hne]
      exact h.threads j' i' q hj' hq

/-- A call of a thread behind a name is one that its thread in the pool awaits. If under some choice
the answers agree, both go on together. -/
theorem advance {handle : Handler S ε E W} {handle' : Handler S' ε' E W'} {e e' : E}
    (h : Embeds m f names s t) (hj : names[j]? = some i)
    (hanswer : ∀ op k, t.threads[j]? = some (.call op k) →
      m.answer op (handle' e' (m.op op) s.world).1 = (handle e op t.world).1)
    (hs : s.advance handle' i e' = some s') :
    ∃ op k t', t.threads[j]? = some (.call op k) ∧ t.advance handle j e = some t' ∧
      t'.world = (handle e op t.world).2 ∧ s'.world = (handle' e' (m.op op) s.world).2 ∧
      Embeds m f names s' t' := by
  obtain ⟨op', k', hk', rfl⟩ := Named.advance_eq_some hs
  obtain ⟨p, hp, hlift⟩ := h.exists_thread hj
  cases p with
  | ret a => cases hlift.symm.trans hk'
  | throw err => cases hlift.symm.trans hk'
  | call op k =>
    cases hlift.symm.trans hk'
    refine ⟨op, k, _, hp, by rw [Pool.advance, hp], rfl, rfl, h.moved hj ?_ rfl⟩
    dsimp only
    rw [hanswer op k hp]
    rfl

/-- The process of the thread behind a name dies. -/
theorem halt {err : ε} (h : Embeds m f names s t) (hj : names[j]? = some i)
    (hs : s.halt i (m.error err) = some s') :
    (t.awaited j).isSome ∧ Embeds m f names s' (t.halt j err) := by
  obtain ⟨⟨op', hop⟩, rfl⟩ := Named.halt_eq_some hs
  obtain ⟨k', hk'⟩ := Named.awaited_eq_some.mp hop
  obtain ⟨p, hp, hlift⟩ := h.exists_thread hj
  refine ⟨?_, h.moved hj rfl rfl⟩
  cases p with
  | ret a => cases hlift.symm.trans hk'
  | throw err => cases hlift.symm.trans hk'
  | call op k => exact Option.isSome_iff_exists.mpr ⟨op, Pool.awaited_eq_some.mpr ⟨k, hp⟩⟩

end Embeds

end Named

/-! ## A pool in a pool -/

/-- The calls as they are. -/
def Prog.Embedding.id (S : Signature) (ε : Type) : Prog.Embedding S S ε ε :=
  ⟨fun op => op, fun _ r => r, fun err => err⟩

theorem Prog.embed_id {S : Signature} {ε α : Type} (p : Prog S ε α) :
    p.embed (.id S ε) = p := by
  induction p with
  | ret a => rfl
  | throw err => rfl
  | call op k ih => exact congrArg (Prog.call op) (funext ih)

namespace Pool

variable {S : Signature} {ε α E W : Type} {s s' : Pool S ε α E W} {i : ℕ}

/-- A pool whose threads are named by their places. -/
def named (s : Pool S ε α E W) : Named S ε α E W :=
  ⟨s.world, fun i => s.threads[i]?, s.log⟩

theorem named_spawn (s : Pool S ε α E W) (p : Prog S ε α) :
    (s.spawn p).named.threads =
      Function.update s.named.threads s.threads.length (some p) := by
  funext i
  rw [Function.update_apply]
  split_ifs with hi
  · rw [hi]
    exact List.getElem?_concat_length
  · change (s.threads ++ [p])[i]? = s.threads[i]?
    rcases Nat.lt_or_gt_of_ne hi with hlt | hgt
    · exact List.getElem?_append_left hlt
    · rw [List.getElem?_eq_none (Nat.le_of_lt hgt), List.getElem?_eq_none]
      rw [List.length_append]
      exact hgt

theorem named_set {p : Prog S ε α} (hi : i < s.threads.length) :
    (fun j => (s.threads.set i p)[j]?) = Function.update s.named.threads i (some p) := by
  funext j
  rw [List.getElem?_set, Function.update_apply]
  by_cases hj : i = j
  · rw [if_pos hj, if_pos hj.symm, if_pos hi]
  · rw [if_neg hj, if_neg (Ne.symm hj)]
    rfl

theorem named_advance {handle : Handler S ε E W} {e : E} (h : s.advance handle i e = some s') :
    s.named.advance handle i e = some s'.named := by
  obtain ⟨op, k, hk, rfl⟩ := advance_eq_some h
  have hk' : s.named.threads i = some (.call op k) := hk
  rw [Named.advance, hk']
  refine congrArg some (congrArg (Named.mk _ · _) ?_)
  exact (named_set (List.getElem?_eq_some_iff.mp hk).1).symm

theorem named_halt (h : (s.awaited i).isSome) (err : ε) :
    s.named.halt i err = some (s.halt i err).named := by
  obtain ⟨op, hop⟩ := Option.isSome_iff_exists.mp h
  obtain ⟨k, hk⟩ := awaited_eq_some.mp hop
  have hawaited : s.named.awaited i = some op := Named.awaited_eq_some.mpr ⟨k, hk⟩
  rw [Named.halt, hawaited, if_pos (by rfl)]
  refine congrArg some (congrArg (Named.mk _ · _) ?_)
  exact (named_set (List.getElem?_eq_some_iff.mp hk).1).symm

end Pool

end Interleaving
