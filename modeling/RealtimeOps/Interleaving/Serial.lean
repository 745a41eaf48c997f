import RealtimeOps.Interleaving.Pool

/-!
# Serial runs

What threads do one after the other. `Prog.run` runs a program alone under a script;
`inTurn` runs a list of programs so, each from the world the one before it left. The
programs of a pool are compared with their serial runs under the choices they were answered
with (`Pool.script`).

A thread that has not ended has done a part of its run, which `Prog.replay` computes : the
calls answered so far, alone. One more answered call is one more choice to replay
(`Prog.replay_concat`), and the replay of a thread that has ended is its run
(`Prog.run_of_replay`).

`Prog.Ensures` is about one program under every choice that lets its calls go through : what
it ensures at its start it still ensures after each answered call.
-/

set_option autoImplicit false

namespace Interleaving

variable {S : Signature} {ε α E W : Type} {handle : Handler S ε E W}

namespace Prog

/-! ## Replays -/

/-- Answer the calls of a program under the choices `es`, one each, as far as it goes. Gives
what is left of the program and the last world. -/
def replay (handle : Handler S ε E W) : Prog S ε α → List E → W → Prog S ε α × W
  | call op k, e :: es, w => (k (handle e op w).1).replay handle es (handle e op w).2
  | call op k, [], w => (call op k, w)
  | ret a, _, w => (ret a, w)
  | throw err, _, w => (throw err, w)

@[simp] theorem replay_nil (p : Prog S ε α) (w : W) : p.replay handle [] w = (p, w) := by
  cases p <;> rfl

/-- The next answered call is the last choice. -/
theorem replay_concat {op : S.Op} {k : Except ε (S.Reply op) → Prog S ε α} {e : E} :
    ∀ {p : Prog S ε α} {es : List E} {w w' : W}, p.replay handle es w = (call op k, w') →
      p.replay handle (es ++ [e]) w = (k (handle e op w').1, (handle e op w').2)
  | call _ _, [], _, _, h => by
    cases h
    exact replay_nil _ _
  | call op' k', e' :: _, w, _, h => replay_concat (p := k' (handle e' op' w).1) h
  | ret _, _, _, _, h => by cases h
  | throw _, _, _, _, h => by cases h

/-- A replay to the end is the run. -/
theorem run_of_replay {script : ℕ → E} {r : Except ε α} :
    ∀ {p : Prog S ε α} {es : List E} {w w' : W} {n : ℕ},
      p.replay handle es w = (resolve r, w') → (∀ i e, es[i]? = some e → script (n + i) = e) →
      p.run handle script n w = (r, w')
  | ret a, _, _, _, _, h, _ => by
    cases r <;> cases h
    rfl
  | throw err, _, _, _, _, h, _ => by
    cases r <;> cases h
    rfl
  | call op k, [], _, _, _, h, _ => by cases r <;> cases h
  | call op k, e :: es, w, w', n, h, hs => by
    have he : script n = e := hs 0 e rfl
    rw [run, he]
    refine run_of_replay (p := k (handle e op w).1) h fun i e' hi => ?_
    rw [Nat.add_right_comm]
    exact hs (i + 1) e' hi

/-! ## One after the other -/

/-- Run programs one after the other, each under its own script. Gives how each ended and
the last world. -/
def inTurn (handle : Handler S ε E W) :
    List (Prog S ε α × (ℕ → E)) → W → List (Except ε α) × W
  | [], w => ([], w)
  | (p, script) :: rest, w =>
    ((p.run handle script 0 w).1 :: (inTurn handle rest (p.run handle script 0 w).2).1,
      (inTurn handle rest (p.run handle script 0 w).2).2)

theorem inTurn_append (xs ys : List (Prog S ε α × (ℕ → E))) (w : W) :
    (inTurn handle (xs ++ ys) w).2 = (inTurn handle ys (inTurn handle xs w).2).2 := by
  induction xs generalizing w with
  | nil => rfl
  | cons x xs ih => exact ih _

/-! ## Calls that go through -/

/-- As long as every call resolves, the program ends as `Q` says. -/
def Ensures (handle : Handler S ε E W) (Q : Except ε α → W → Prop) : Prog S ε α → W → Prop
  | ret a, w => Q (.ok a) w
  | throw err, w => Q (.error err) w
  | call op k, w => ∀ e reply w', handle e op w = (.ok reply, w') →
    Ensures handle Q (k (.ok reply)) w'

end Prog

namespace Pool

/-- The choices under which the calls of thread `i` were answered. -/
def choices (s : Pool S ε α E W) (i : ℕ) : List E :=
  (s.past i).map Entry.env

/-- The choices of thread `i` in order, then `e₀` for ever. -/
def script (e₀ : E) (s : Pool S ε α E W) (i n : ℕ) : E :=
  (s.choices i)[n]?.getD e₀

theorem script_eq {e₀ : E} {s : Pool S ε α E W} {i n : ℕ} {e : E}
    (h : (s.choices i)[n]? = some e) : s.script e₀ i n = e := by
  rw [script, h]
  rfl

/-- A move of thread `i`, seen from thread `i` and from the others. -/
theorem advance_threads {s s' : Pool S ε α E W} {i : ℕ} {e : E}
    (h : s.advance handle i e = some s') :
    ∃ op k, s.threads[i]? = some (.call op k) ∧ s'.world = (handle e op s.world).2 ∧
      s'.threads[i]? = some (k (handle e op s.world).1) ∧
      s'.log = s.log ++ [⟨i, e, op, (handle e op s.world).1⟩] ∧
      s'.past i = s.past i ++ [⟨i, e, op, (handle e op s.world).1⟩] ∧
      s'.threads.length = s.threads.length ∧
      ∀ j, j ≠ i → s'.threads[j]? = s.threads[j]? ∧ s'.past j = s.past j := by
  obtain ⟨op, k, hop, rfl⟩ := advance_eq_some h
  have hi : i < s.threads.length := (List.getElem?_eq_some_iff.mp hop).1
  refine ⟨op, k, hop, rfl, ?_, rfl, ?_, by simp, fun j hj => ⟨?_, ?_⟩⟩
  · rw [List.getElem?_set_self hi]
  · rw [past_append rfl, if_pos rfl]
  · rw [List.getElem?_set_ne (Ne.symm hj)]
  · rw [past_append rfl, if_neg (Ne.symm hj), List.append_nil]

end Pool

end Interleaving
