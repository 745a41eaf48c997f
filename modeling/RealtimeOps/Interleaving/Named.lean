import Mathlib.Logic.Function.Basic
import RealtimeOps.Interleaving.Pool

/-!
# Threads with names

A pool whose threads have names, chosen by who starts them. A thread keeps its name whatever
others there are, so two runs that differ in some threads can be compared thread by thread.
-/

set_option autoImplicit false

namespace Interleaving

/-- A world, the threads that share it, and the calls answered so far. -/
structure Named (S : Signature) (ε α E W : Type) where
  world : W
  threads : ℕ → Option (Prog S ε α)
  log : List (Entry S ε E)

namespace Named

variable {S : Signature} {ε α E W : Type}

/-- Nothing running over `w`. -/
def init (w : W) : Named S ε α E W :=
  ⟨w, fun _ => none, []⟩

/-- The call thread `i` awaits. -/
def awaited (s : Named S ε α E W) (i : ℕ) : Option S.Op :=
  match s.threads i with
  | some (.call op _) => some op
  | _ => none

/-- How thread `i` ended, if it has. -/
def outcome (s : Named S ε α E W) (i : ℕ) : Option (Except ε α) :=
  match s.threads i with
  | some (.ret a) => some (.ok a)
  | some (.throw err) => some (.error err)
  | _ => none

/-- Start a thread under a new name. -/
def spawn (i : ℕ) (p : Prog S ε α) (s : Named S ε α E W) : Option (Named S ε α E W) :=
  if (s.threads i).isNone then some { s with threads := Function.update s.threads i (some p) }
  else none

/-- Answer the call thread `i` awaits under the choice `e`. -/
def advance (handle : Handler S ε E W) (i : ℕ) (e : E) (s : Named S ε α E W) :
    Option (Named S ε α E W) :=
  match s.threads i with
  | some (.call op k) =>
    some
      { world := (handle e op s.world).2
        threads := Function.update s.threads i (some (k (handle e op s.world).1))
        log := s.log ++ [⟨i, e, op, (handle e op s.world).1⟩] }
  | _ => none

/-- Thread `i`, which awaits a call, ends with `err`. -/
def halt (i : ℕ) (err : ε) (s : Named S ε α E W) : Option (Named S ε α E W) :=
  if (s.awaited i).isSome then
    some { s with threads := Function.update s.threads i (some (.throw err)) }
  else none

variable {s s' : Named S ε α E W} {i : ℕ}

theorem awaited_eq_some {op : S.Op} :
    s.awaited i = some op ↔ ∃ k, s.threads i = some (.call op k) := by
  unfold awaited
  constructor
  · intro h
    split at h
    · rename_i hop
      cases h
      exact ⟨_, hop⟩
    · cases h
  · rintro ⟨k, hk⟩
    rw [hk]

theorem outcome_eq_some {r : Except ε α} :
    s.outcome i = some r ↔ s.threads i = some (.resolve r) := by
  unfold outcome
  constructor
  · intro h
    split at h
    · rename_i hp
      cases h
      exact hp
    · rename_i hp
      cases h
      exact hp
    · cases h
  · intro h
    rw [h]
    cases r <;> rfl

theorem spawn_eq_some {p : Prog S ε α} (h : s.spawn i p = some s') :
    s.threads i = none ∧ s' = { s with threads := Function.update s.threads i (some p) } := by
  simp only [spawn, Option.ite_none_right_eq_some, Option.some.injEq,
    Option.isNone_iff_eq_none] at h
  exact ⟨h.1, h.2.symm⟩

/-- A move of thread `i` answers the call it awaits and touches no other thread. -/
theorem advance_eq_some {handle : Handler S ε E W} {e : E} (h : s.advance handle i e = some s') :
    ∃ op k, s.threads i = some (.call op k) ∧
      s' =
        { world := (handle e op s.world).2
          threads := Function.update s.threads i (some (k (handle e op s.world).1))
          log := s.log ++ [⟨i, e, op, (handle e op s.world).1⟩] } := by
  unfold advance at h
  split at h
  · rename_i op k hop
    cases h
    exact ⟨op, k, hop, rfl⟩
  · cases h

theorem halt_eq_some {err : ε} (h : s.halt i err = some s') :
    (∃ op, s.awaited i = some op) ∧
      s' = { s with threads := Function.update s.threads i (some (.throw err)) } := by
  simp only [halt, Option.ite_none_right_eq_some, Option.some.injEq,
    Option.isSome_iff_exists] at h
  exact ⟨h.1, h.2.symm⟩

/-! What thread `i` does changes no other thread. -/

theorem awaited_of_ne {j : ℕ} {p : Option (Prog S ε α)}
    (h : s'.threads = Function.update s.threads i p) (hj : j ≠ i) : s'.awaited j = s.awaited j := by
  rw [awaited, h, Function.update_of_ne hj, awaited]

theorem awaited_self {p : Prog S ε α} (h : s'.threads = Function.update s.threads i (some p))
    {op : S.Op} : s'.awaited i = some op ↔ ∃ k, p = .call op k := by
  rw [awaited_eq_some, h, Function.update_self]
  simp only [Option.some.injEq]

end Named

end Interleaving
