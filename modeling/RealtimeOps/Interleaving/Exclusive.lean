import Mathlib.Tactic.ByContra
import RealtimeOps.Interleaving.Pool

/-!
# One program at a time

A program that runs alone meets no world but those it has made itself. `Prog.Keeps` says that it
then keeps `I`, after each of its calls and whatever it is answered, and that `Q` holds of what it
returns. The rules follow the program call by call.

If the threads of a pool start only when all others have ended, then `I` holds in every state,
though a thread may be stopped anywhere (`Pool.Exclusive`).
-/

set_option autoImplicit false

namespace Interleaving

variable {S : Signature} {ε α β E W : Type}

namespace Prog

/-- Alone from `w` on, and whatever it is answered, the program keeps `I`, and `Q` holds of what it
returns. -/
def Keeps (handle : Handler S ε E W) (I : W → Prop) (Q : α → W → Prop) : Prog S ε α → W → Prop
  | ret a, w => I w ∧ Q a w
  | throw _, w => I w
  | call op k, w => I w ∧ ∀ e, Keeps handle I Q (k (handle e op w).1) (handle e op w).2

variable {handle : Handler S ε E W} {I : W → Prop} {Q : α → W → Prop} {Q' : β → W → Prop}

theorem Keeps.holds {p : Prog S ε α} {w : W} (h : p.Keeps handle I Q w) : I w := by
  cases p with
  | ret a => exact h.1
  | throw err => exact h
  | call op k => exact h.1

/-- First `p`, then `f` of its value, wherever `p` has come to. -/
theorem Keeps.bind {f : α → Prog S ε β} :
    ∀ {p : Prog S ε α} {w : W}, p.Keeps handle I Q w →
      (∀ a w', I w' → Q a w' → (f a).Keeps handle I Q' w') → (p.bind f).Keeps handle I Q' w
  | ret a, w, h, hf => hf a w h.1 h.2
  | throw _, _, h, _ => h
  | call _ _, _, h, hf => ⟨h.1, fun e => (h.2 e).bind hf⟩

theorem Keeps.tryCatch {handler : ε → Prog S ε α} :
    ∀ {p : Prog S ε α} {w : W}, p.Keeps handle I Q w →
      (∀ err w', I w' → (handler err).Keeps handle I Q w') →
      (p.tryCatch handler).Keeps handle I Q w
  | ret _, _, h, _ => h
  | throw err, w, h, hh => hh err w h
  | call _ _, _, h, hh => ⟨h.1, fun e => (h.2 e).tryCatch hh⟩

/-- A call that keeps `I` even if it is rejected. -/
theorem Keeps.await_bind {op : S.Op} {f : S.Reply op → Prog S ε α} {w : W} (hw : I w)
    (hI : ∀ e, I (handle e op w).2)
    (hf : ∀ e reply w', handle e op w = (.ok reply, w') → (f reply).Keeps handle I Q w') :
    ((await op).bind f).Keeps handle I Q w := by
  refine ⟨hw, fun e => ?_⟩
  cases h : handle e op w with
  | mk r w' =>
    cases r with
    | error err =>
      have hkept := hI e
      rw [h] at hkept
      exact hkept
    | ok reply => exact hf e reply w' h

end Prog

namespace Pool

variable {handle : Handler S ε E W} {I : W → Prop} {s s' : Pool S ε α E W}

theorem awaited_congr {i : ℕ} (h : s'.threads[i]? = s.threads[i]?) :
    s'.awaited i = s.awaited i := by
  unfold awaited
  rw [h]

/-- `I` holds, and the one thread that has not ended, if there is one, keeps it. -/
structure Exclusive (handle : Handler S ε E W) (I : W → Prop) (s : Pool S ε α E W) : Prop where
  holds : I s.world
  keeps : ∀ i p, s.threads[i]? = some p → (s.awaited i).isSome →
    p.Keeps handle I (fun _ _ => True) s.world
  alone : ∀ i j, (s.awaited i).isSome → (s.awaited j).isSome → i = j

namespace Exclusive

/-- A thread starts when all others have ended. -/
theorem spawn (h : s.Exclusive handle I) (hended : ∀ i, s.awaited i = none) {p : Prog S ε α}
    (hp : p.Keeps handle I (fun _ _ => True) s.world) : (s.spawn p).Exclusive handle I := by
  have hlast : ∀ i, ((s.spawn p).awaited i).isSome → i = s.threads.length := by
    intro i hi
    by_contra hne
    have hsame : (s.spawn p).threads[i]? = s.threads[i]? := by
      rcases Nat.lt_or_gt_of_ne hne with hlt | hgt
      · exact List.getElem?_append_left hlt
      · rw [List.getElem?_eq_none (Nat.le_of_lt hgt), List.getElem?_eq_none]
        simp only [Pool.spawn, List.length_append, List.length_singleton]
        omega
    rw [awaited_congr hsame, hended i] at hi
    cases hi
  refine ⟨h.holds, fun i q hq hi => ?_, fun i j hi hj => (hlast i hi).trans (hlast j hj).symm⟩
  rw [hlast i hi, Pool.spawn, List.getElem?_concat_length, Option.some.injEq] at hq
  exact hq ▸ hp

theorem advance (h : s.Exclusive handle I) {i : ℕ} {e : E}
    (hs : s.advance handle i e = some s') : s'.Exclusive handle I := by
  obtain ⟨op, k, hk, rfl⟩ := advance_eq_some hs
  have hi : (s.awaited i).isSome := by rw [awaited_eq_some.mpr ⟨k, hk⟩]; rfl
  have hnext := (h.keeps i _ hk hi).2 e
  -- No thread but `i` is left.
  have honly : ∀ j, (awaited ⟨(handle e op s.world).2,
      s.threads.set i (k (handle e op s.world).1),
      s.log ++ [⟨i, e, op, (handle e op s.world).1⟩]⟩ j).isSome → j = i := by
    intro j hj
    by_contra hne
    rw [awaited_congr (s := s) (List.getElem?_set_ne (Ne.symm hne))] at hj
    exact hne (h.alone j i hj hi)
  refine ⟨hnext.holds, fun j q hq hj => ?_,
    fun j j' hj hj' => (honly j hj).trans (honly j' hj').symm⟩
  have hlt : i < s.threads.length := (List.getElem?_eq_some_iff.mp hk).1
  dsimp only at hq
  rw [honly j hj, List.getElem?_set_self hlt, Option.some.injEq] at hq
  exact hq ▸ hnext

theorem halt (h : s.Exclusive handle I) (i : ℕ) (err : ε) :
    (s.halt i err).Exclusive handle I := by
  have hother : ∀ j, ((s.halt i err).awaited j).isSome →
      (s.halt i err).threads[j]? = s.threads[j]? := by
    intro j hj
    by_cases hij : i = j
    · unfold awaited at hj
      rw [← hij, Pool.halt, List.getElem?_set] at hj
      simp only [if_true] at hj
      split_ifs at hj <;> cases hj
    · exact List.getElem?_set_ne hij
  refine ⟨h.holds, fun j p hp hj => ?_, fun j j' hj hj' => ?_⟩
  · exact h.keeps j p (hother j hj ▸ hp) (awaited_congr (hother j hj) ▸ hj)
  · exact h.alone j j' (awaited_congr (hother j hj) ▸ hj) (awaited_congr (hother j' hj') ▸ hj')

end Exclusive

end Pool

end Interleaving
