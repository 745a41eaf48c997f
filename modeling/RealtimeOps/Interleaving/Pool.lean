import Mathlib.Logic.Relation
import Mathlib.Tactic.SplitIfs
import RealtimeOps.Interleaving.Prog

/-!
# Interleaved runs

A transition system is a partial step function on labelled moves. `Reachable step allow`
holds between two states when a run of allowed moves leads from one to the other,
`execute` computes such a run from its list of labels, and `Reachable.invariant` is the
induction over it.

A `Pool` is a world shared by threads, each with the program it has left to run.
`advance` answers the call one thread awaits, in one atomic move, and leaves every
other thread as it is. The log keeps every answered call in order : it is ghost state,
no program reads it. `past` is one thread's part of the log.
-/

set_option autoImplicit false

namespace Interleaving

/-! ## Runs of a transition system -/

section Runs

variable {State Label : Type}

/-- One allowed move. -/
def Next (step : State → Label → Option State) (allow : State → Label → Prop)
    (s s' : State) : Prop :=
  ∃ l, allow s l ∧ step s l = some s'

/-- Some run of allowed moves leads from `s` to `s'`. -/
abbrev Reachable (step : State → Label → Option State) (allow : State → Label → Prop) :
    State → State → Prop :=
  Relation.ReflTransGen (Next step allow)

/-- The state after the moves `ls`, if each is allowed and possible in turn. -/
def execute (step : State → Label → Option State) (allow : State → Label → Prop)
    [∀ s l, Decidable (allow s l)] : State → List Label → Option State
  | s, [] => some s
  | s, l :: ls => if allow s l then (step s l).bind fun s' => execute step allow s' ls else none

variable {step : State → Label → Option State} {allow : State → Label → Prop}

theorem reachable_of_execute [∀ s l, Decidable (allow s l)] :
    ∀ {s : State} {ls : List Label} {s' : State}, execute step allow s ls = some s' →
      Reachable step allow s s'
  | s, [], s', h => by
    rw [execute, Option.some.injEq] at h
    exact h ▸ Relation.ReflTransGen.refl
  | s, l :: ls, s', h => by
    rw [execute] at h
    split_ifs at h with hl
    obtain ⟨t, ht, hrest⟩ := Option.bind_eq_some_iff.mp h
    exact (reachable_of_execute hrest).head ⟨l, hl, ht⟩

/-- A computed run to a state with `P`. -/
theorem exists_reachable_of_execute [∀ s l, Decidable (allow s l)] (s : State)
    (ls : List Label) (P : State → Prop) [DecidablePred P]
    (h : ((execute step allow s ls).any fun s' => decide (P s')) = true) :
    ∃ s', Reachable step allow s s' ∧ P s' := by
  obtain ⟨s', hs', hP⟩ := (Option.any_eq_true _ _).mp h
  exact ⟨s', reachable_of_execute hs', of_decide_eq_true hP⟩

/-- What holds at the start and is kept by every allowed move holds in every state of
every run. -/
theorem Reachable.invariant {I : State → Prop}
    (hI : ∀ s l s', I s → allow s l → step s l = some s' → I s') {s₀ s : State} (h₀ : I s₀)
    (h : Reachable step allow s₀ s) : I s := by
  induction h with
  | refl => exact h₀
  | tail _ hs ih =>
    obtain ⟨l, hl, hs⟩ := hs
    exact hI _ _ _ ih hl hs

end Runs

/-! ## Pools of threads -/

/-- An answered call : the thread that awaited it, the environment's choice, the call
and its answer. -/
structure Entry (S : Signature) (ε E : Type) where
  thread : ℕ
  env : E
  op : S.Op
  reply : Except ε (S.Reply op)

/-- A world, the threads that share it, and the calls answered so far. -/
structure Pool (S : Signature) (ε α E W : Type) where
  world : W
  threads : List (Prog S ε α)
  log : List (Entry S ε E)

namespace Pool

variable {S : Signature} {ε α E W : Type}

/-- The answered calls of thread `i`. -/
def past (s : Pool S ε α E W) (i : ℕ) : List (Entry S ε E) :=
  s.log.filter fun x => x.thread = i

/-- The call thread `i` awaits. -/
def awaited (s : Pool S ε α E W) (i : ℕ) : Option S.Op :=
  match s.threads[i]? with
  | some (.call op _) => some op
  | _ => none

/-- How thread `i` ended, if it has. -/
def outcome (s : Pool S ε α E W) (i : ℕ) : Option (Except ε α) :=
  match s.threads[i]? with
  | some (.ret a) => some (.ok a)
  | some (.throw err) => some (.error err)
  | _ => none

/-- Answer the call thread `i` awaits under the choice `e`. -/
def advance (handle : Handler S ε E W) (i : ℕ) (e : E) (s : Pool S ε α E W) :
    Option (Pool S ε α E W) :=
  match s.threads[i]? with
  | some (.call op k) =>
    some
      { world := (handle e op s.world).2
        threads := s.threads.set i (k (handle e op s.world).1)
        log := s.log ++ [⟨i, e, op, (handle e op s.world).1⟩] }
  | _ => none

/-- Start a thread. -/
def spawn (p : Prog S ε α) (s : Pool S ε α E W) : Pool S ε α E W :=
  { s with threads := s.threads ++ [p] }

/-- Thread `i` ends with `err`, wherever it was. -/
def halt (i : ℕ) (err : ε) (s : Pool S ε α E W) : Pool S ε α E W :=
  { s with threads := s.threads.set i (.throw err) }

/-- Every thread has ended. -/
def Finished (s : Pool S ε α E W) : Prop :=
  ∀ i < s.threads.length, (s.outcome i).isSome

instance (s : Pool S ε α E W) : Decidable s.Finished :=
  inferInstanceAs (Decidable (∀ i < _, _))

theorem awaited_eq_some {s : Pool S ε α E W} {i : ℕ} {op : S.Op} :
    s.awaited i = some op ↔ ∃ k, s.threads[i]? = some (.call op k) := by
  unfold awaited
  constructor
  · intro h
    split at h
    · rename_i hop
      cases h
      exact ⟨_, hop⟩
    · cases h
  · rintro ⟨k, hk⟩
    rw [hk]

/-- A move of thread `i` answers the call it awaits and touches nothing else. -/
theorem advance_eq_some {handle : Handler S ε E W} {i : ℕ} {e : E} {s s' : Pool S ε α E W}
    (h : s.advance handle i e = some s') :
    ∃ op k, s.threads[i]? = some (.call op k) ∧
      s' =
        { world := (handle e op s.world).2
          threads := s.threads.set i (k (handle e op s.world).1)
          log := s.log ++ [⟨i, e, op, (handle e op s.world).1⟩] } := by
  unfold advance at h
  split at h
  · rename_i op k hop
    cases h
    exact ⟨op, k, hop, rfl⟩
  · cases h

/-! What holds of every thread's program, wherever it has come to. -/

section Threads

variable {P : Prog S ε α → Prop} {s s' : Pool S ε α E W}

theorem forall_spawn {p : Prog S ε α} (h : ∀ q ∈ s.threads, P q) (hp : P p) :
    ∀ q ∈ (s.spawn p).threads, P q := by
  intro q hq
  rcases List.mem_append.mp hq with hq | hq
  · exact h q hq
  · rw [List.mem_singleton.mp hq]
    exact hp

theorem forall_advance {handle : Handler S ε E W} {i : ℕ} {e : E} (h : ∀ q ∈ s.threads, P q)
    (hk : ∀ op k, P (.call op k) → ∀ r, P (k r)) (hs : s.advance handle i e = some s') :
    ∀ q ∈ s'.threads, P q := by
  obtain ⟨op, k, hop, rfl⟩ := advance_eq_some hs
  intro q hq
  rcases List.mem_or_eq_of_mem_set hq with hq | rfl
  · exact h q hq
  · exact hk op k (h _ (List.mem_of_getElem? hop)) _

theorem forall_halt {i : ℕ} {err : ε} (h : ∀ q ∈ s.threads, P q) (herr : P (.throw err)) :
    ∀ q ∈ (s.halt i err).threads, P q := by
  intro q hq
  rcases List.mem_or_eq_of_mem_set hq with hq | rfl
  · exact h q hq
  · exact herr

end Threads

theorem past_append {s s' : Pool S ε α E W} {x : Entry S ε E} (h : s'.log = s.log ++ [x])
    (i : ℕ) : s'.past i = s.past i ++ if x.thread = i then [x] else [] := by
  unfold past
  rw [h, List.filter_append]
  by_cases hx : x.thread = i <;> simp [hx]

/-- The calls answered from the first one of thread `i` on. -/
def since (s : Pool S ε α E W) (i : ℕ) : List (Entry S ε E) :=
  s.log.dropWhile fun x => x.thread ≠ i

/-- A thread that has begun sees every later call. -/
theorem since_append {s s' : Pool S ε α E W} {x : Entry S ε E} (h : s'.log = s.log ++ [x])
    {i : ℕ} (hi : s.since i ≠ []) : s'.since i = s.since i ++ [x] := by
  rw [since, h, List.dropWhile_append, if_neg (by simpa [since] using hi), since]

/-- A thread begins with its first call. -/
theorem since_append_of_eq_nil {s s' : Pool S ε α E W} {x : Entry S ε E}
    (h : s'.log = s.log ++ [x]) {i : ℕ} (hi : s.since i = []) :
    s'.since i = if x.thread = i then [x] else [] := by
  rw [since, h, List.dropWhile_append, if_pos (by simpa [since] using hi)]
  by_cases hx : x.thread = i <;> simp [hx]

/-- The thread whose call was the last of these. -/
def last (p : S.Op → Bool) (s : Pool S ε α E W) : Option ℕ :=
  (s.log.filter fun x => p x.op).getLast?.map Entry.thread

theorem last_append {p : S.Op → Bool} {s s' : Pool S ε α E W} {x : Entry S ε E}
    (h : s'.log = s.log ++ [x]) : s'.last p = if p x.op then some x.thread else s.last p := by
  rw [last, h, List.filter_append]
  by_cases hx : p x.op = true <;> simp [hx, last]

theorem isSome_last {p : S.Op → Bool} {s : Pool S ε α E W} {x : Entry S ε E} (hx : x ∈ s.log)
    (hp : p x.op = true) : (s.last p).isSome := by
  rw [last, Option.isSome_map, List.getLast?_isSome]
  exact List.ne_nil_of_mem (List.mem_filter.mpr ⟨hx, hp⟩)

end Pool

end Interleaving
