import Mathlib.Data.Nat.Notation

/-!
# Programs that await calls

A program of type `Prog S ε α` is a tree of awaited calls. `S` names the calls a
program can make and the type of each reply. A call is answered by its reply or by
a rejection, and the rest of the program is a function of that answer, so a
rejection reaches the nearest handler : `bind` passes it on, `tryFinally` runs its
finalizer and then passes it on, `tryCatch` hands it to its handler.

The tree says nothing about what a call does. `Prog.run` gives a program a meaning
on its own : a handler answers each call on a world, and a script supplies what the
environment chooses at each call. Interleaved runs are in `Interleaving.Pool`.
-/

set_option autoImplicit false

namespace Interleaving

/-- The calls a program can await, and the type of each reply. -/
structure Signature where
  Op : Type
  Reply : Op → Type

/-- A program : it has returned, it has thrown, or it awaits a call and goes on with
the reply or the rejection. -/
inductive Prog (S : Signature) (ε α : Type) where
  | ret (a : α)
  | throw (err : ε)
  | call (op : S.Op) (k : Except ε (S.Reply op) → Prog S ε α)

/-- What answers a call : from the environment's choice and the world, the reply or
rejection and the world after it. -/
abbrev Handler (S : Signature) (ε E W : Type) :=
  E → (op : S.Op) → W → Except ε (S.Reply op) × W

namespace Prog

variable {S : Signature} {ε α β γ E W : Type}

/-- Go on with the value of `p`; a thrown error skips `f`. -/
def bind : Prog S ε α → (α → Prog S ε β) → Prog S ε β
  | ret a, f => f a
  | throw err, _ => throw err
  | call op k, f => call op fun r => (k r).bind f

instance : Monad (Prog S ε) where
  pure := ret
  bind := bind

/-- The program that ends as `r` says. -/
def resolve : Except ε α → Prog S ε α
  | .ok a => ret a
  | .error err => throw err

/-- Await one call; a rejection is thrown. -/
def await (op : S.Op) : Prog S ε (S.Reply op) :=
  call op resolve

/-- Run `p`, then `fin` however `p` ended, then end as `p` did. An error thrown by
`fin` replaces the outcome of `p`. -/
def tryFinally : Prog S ε α → Prog S ε Unit → Prog S ε α
  | ret a, fin => fin.bind fun _ => ret a
  | throw err, fin => fin.bind fun _ => throw err
  | call op k, fin => call op fun r => (k r).tryFinally fin

/-- Run `p`; an error it throws goes to `handler`. -/
def tryCatch : Prog S ε α → (ε → Prog S ε α) → Prog S ε α
  | ret a, _ => ret a
  | throw err, handler => handler err
  | call op k, handler => call op fun r => (k r).tryCatch handler

@[simp] theorem pure_eq_ret (a : α) : (pure a : Prog S ε α) = ret a :=
  rfl

@[simp] theorem bind_eq (p : Prog S ε α) (f : α → Prog S ε β) : p >>= f = p.bind f :=
  rfl

@[simp] theorem ret_bind (a : α) (f : α → Prog S ε β) : (ret a).bind f = f a :=
  rfl

@[simp] theorem throw_bind (err : ε) (f : α → Prog S ε β) :
    (throw err : Prog S ε α).bind f = throw err :=
  rfl

@[simp] theorem call_bind (op : S.Op) (k : Except ε (S.Reply op) → Prog S ε α)
    (f : α → Prog S ε β) : (call op k).bind f = call op fun r => (k r).bind f :=
  rfl

@[simp] theorem bind_ret (p : Prog S ε α) : p.bind ret = p := by
  induction p with
  | ret a => rfl
  | throw err => rfl
  | call op k ih =>
    simp only [call_bind]
    congr
    funext r
    exact ih r

theorem bind_assoc (p : Prog S ε α) (f : α → Prog S ε β) (g : β → Prog S ε γ) :
    (p.bind f).bind g = p.bind fun a => (f a).bind g := by
  induction p with
  | ret a => rfl
  | throw err => rfl
  | call op k ih =>
    simp only [call_bind]
    congr
    funext r
    exact ih r

/-! ## A program on its own -/

/-- Run a program alone from `w`. The `n`-th call is answered under the `n`-th choice
of `script`, counted from `n`. Gives how the program ended and the last world. -/
def run (handle : Handler S ε E W) (script : ℕ → E) : Prog S ε α → ℕ → W → Except ε α × W
  | ret a, _, w => (.ok a, w)
  | throw err, _, w => (.error err, w)
  | call op k, n, w =>
    (k (handle (script n) op w).1).run handle script (n + 1) (handle (script n) op w).2

/-- `Q` holds of how `p` ends, of the number of calls answered by then and of the last
world. -/
def wp (handle : Handler S ε E W) (script : ℕ → E) (Q : Except ε α → ℕ → W → Prop) :
    Prog S ε α → ℕ → W → Prop
  | ret a, n, w => Q (.ok a) n w
  | throw err, n, w => Q (.error err) n w
  | call op k, n, w =>
    wp handle script Q (k (handle (script n) op w).1) (n + 1) (handle (script n) op w).2

section Rules

variable {handle : Handler S ε E W} {script : ℕ → E}

theorem wp_run {Q : Except ε α → W → Prop} (p : Prog S ε α) (n : ℕ) (w : W) :
    wp handle script (fun r _ w => Q r w) p n w ↔
      Q (p.run handle script n w).1 (p.run handle script n w).2 := by
  induction p generalizing n w with
  | ret a => exact Iff.rfl
  | throw err => exact Iff.rfl
  | call op k ih => exact ih _ _ _

theorem wp.mono {Q Q' : Except ε α → ℕ → W → Prop} (hQ : ∀ r n w, Q r n w → Q' r n w) :
    ∀ {p : Prog S ε α} {n : ℕ} {w : W}, wp handle script Q p n w → wp handle script Q' p n w
  | ret _, _, _, h => hQ _ _ _ h
  | throw _, _, _, h => hQ _ _ _ h
  | call op k, n, w, h => wp.mono (p := k (handle (script n) op w).1) hQ h

theorem wp_resolve {Q : Except ε α → ℕ → W → Prop} {r : Except ε α} {n : ℕ} {w : W} :
    wp handle script Q (resolve r) n w ↔ Q r n w := by
  cases r <;> rfl

/-- First `p`, then `f` of its value; an error of `p` ends the whole. -/
theorem wp.bind {Q : Except ε α → ℕ → W → Prop} {Q' : Except ε β → ℕ → W → Prop}
    {f : α → Prog S ε β} (hok : ∀ a n w, Q (.ok a) n w → wp handle script Q' (f a) n w)
    (herr : ∀ err n w, Q (.error err) n w → Q' (.error err) n w) :
    ∀ {p : Prog S ε α} {n : ℕ} {w : W},
      wp handle script Q p n w → wp handle script Q' (p.bind f) n w
  | ret _, _, _, h => hok _ _ _ h
  | throw _, _, _, h => herr _ _ _ h
  | call op k, n, w, h => wp.bind (p := k (handle (script n) op w).1) hok herr h

/-- However `p` ends, the finalizer runs, and `p`'s end is the end unless it throws. -/
theorem wp.tryFinally {Q Q' : Except ε α → ℕ → W → Prop} {fin : Prog S ε Unit}
    (hfin : ∀ r n w, Q r n w → wp handle script Q' (fin.bind fun _ => resolve r) n w) :
    ∀ {p : Prog S ε α} {n : ℕ} {w : W},
      wp handle script Q p n w → wp handle script Q' (p.tryFinally fin) n w
  | ret _, _, _, h => hfin _ _ _ h
  | throw _, _, _, h => hfin _ _ _ h
  | call op k, n, w, h => wp.tryFinally (p := k (handle (script n) op w).1) hfin h

/-- An error of `p` goes to the handler. -/
theorem wp.tryCatch {Q Q' : Except ε α → ℕ → W → Prop} {handler : ε → Prog S ε α}
    (hok : ∀ a n w, Q (.ok a) n w → Q' (.ok a) n w)
    (herr : ∀ err n w, Q (.error err) n w → wp handle script Q' (handler err) n w) :
    ∀ {p : Prog S ε α} {n : ℕ} {w : W},
      wp handle script Q p n w → wp handle script Q' (p.tryCatch handler) n w
  | ret _, _, _, h => hok _ _ _ h
  | throw _, _, _, h => herr _ _ _ h
  | call op k, n, w, h => wp.tryCatch (p := k (handle (script n) op w).1) hok herr h

/-- The program returns exactly if `G` holds : then `Q` of its value and the last world, else
`Q'` of the last world. -/
def Decides (G : Prop) (Q : α → W → Prop) (Q' : W → Prop) : Except ε α → ℕ → W → Prop
  | .ok a, _, w => G ∧ Q a w
  | .error _, _, w => ¬G ∧ Q' w

/-- What holds at every return and at no error holds at the end exactly if `G` does. -/
theorem wp_iff_of_decides {G : Prop} {Q : Except ε α → W → Prop} :
    ∀ {p : Prog S ε α} {n : ℕ} {w : W},
      wp handle script (Decides G (fun a => Q (.ok a)) fun w' => ∀ err, ¬Q (.error err) w') p n w →
        (wp handle script (fun r _ w' => Q r w') p n w ↔ G)
  | ret _, _, _, h => iff_of_true h.2 h.1
  | throw _, _, _, h => iff_of_false (h.2 _) h.1
  | call op k, n, w, h => wp_iff_of_decides (p := k (handle (script n) op w).1) h

/-- The call resolves exactly if `g` holds, and a rejection ends the program. -/
theorem wp_await_decides {op : S.Op} {f : S.Reply op → Prog S ε α} {n : ℕ} {w : W}
    {G G' g : Prop} {Q : α → W → Prop} {Q' : W → Prop}
    (hg : (handle (script n) op w).1.isOk = true ↔ g) (hG : G ↔ g ∧ G')
    (herr : Q' (handle (script n) op w).2)
    (hf : ∀ reply w', handle (script n) op w = (.ok reply, w') →
      wp handle script (Decides G' Q Q') (f reply) (n + 1) w') :
    wp handle script (Decides G Q Q') ((await op).bind f) n w := by
  change wp handle script _ ((resolve _).bind f) (n + 1) _
  cases h : handle (script n) op w with
  | mk r w' =>
    rw [h] at hg herr
    cases r with
    | ok reply =>
      have hG' : G ↔ G' := hG.trans (and_iff_right (hg.mp rfl))
      exact propext hG' ▸ hf reply w' h
    | error err => exact ⟨fun hG' => Bool.false_ne_true (hg.mpr (hG.mp hG').1), herr⟩

/-- Every call of the program satisfies `P`. -/
def Calls (P : S.Op → Prop) : Prog S ε α → Prop
  | ret _ => True
  | throw _ => True
  | call op k => P op ∧ ∀ r, Calls P (k r)

theorem Calls.mono {P P' : S.Op → Prop} (h : ∀ op, P op → P' op) :
    ∀ {p : Prog S ε α}, Calls P p → Calls P' p
  | ret _, _ => trivial
  | throw _, _ => trivial
  | call _ _, hp => ⟨h _ hp.1, fun r => (hp.2 r).mono h⟩

theorem Calls.resolve {P : S.Op → Prop} (r : Except ε α) : Calls P (resolve r) := by
  cases r <;> trivial

theorem Calls.await {P : S.Op → Prop} {op : S.Op} (h : P op) :
    Calls P (await op : Prog S ε (S.Reply op)) :=
  ⟨h, Calls.resolve⟩

theorem Calls.bind {P : S.Op → Prop} {f : α → Prog S ε β} :
    ∀ {p : Prog S ε α}, Calls P p → (∀ a, Calls P (f a)) → Calls P (p.bind f)
  | ret a, _, hf => hf a
  | throw _, _, _ => trivial
  | call _ _, h, hf => ⟨h.1, fun r => (h.2 r).bind hf⟩

theorem Calls.await_bind {P : S.Op → Prop} {op : S.Op} {f : S.Reply op → Prog S ε α} (h : P op)
    (hf : ∀ reply, Calls P (f reply)) : Calls P ((Prog.await op).bind f) :=
  (Calls.await h).bind hf

theorem Calls.tryFinally {P : S.Op → Prop} {fin : Prog S ε Unit} (hfin : Calls P fin) :
    ∀ {p : Prog S ε α}, Calls P p → Calls P (p.tryFinally fin)
  | ret _, _ => hfin.bind fun _ => trivial
  | throw _, _ => hfin.bind fun _ => trivial
  | call _ _, h => ⟨h.1, fun r => Calls.tryFinally hfin (h.2 r)⟩

theorem Calls.tryCatch {P : S.Op → Prop} {handler : ε → Prog S ε α}
    (hh : ∀ err, Calls P (handler err)) :
    ∀ {p : Prog S ε α}, Calls P p → Calls P (p.tryCatch handler)
  | ret _, _ => trivial
  | throw _, _ => hh _
  | call _ _, h => ⟨h.1, fun r => Calls.tryCatch hh (h.2 r)⟩

/-- What every call of the program keeps holds when it ends. -/
theorem Calls.wp {P : S.Op → Prop} {I : W → Prop}
    (hI : ∀ op e w, P op → I w → I (handle e op w).2) :
    ∀ {p : Prog S ε α} {n : ℕ} {w : W}, Calls P p → I w → wp handle script (fun _ _ w => I w) p n w
  | ret _, _, _, _, h => h
  | throw _, _, _, _, h => h
  | call _ _, _, _, hp, h => (hp.2 _).wp hI (hI _ _ _ hp.1 h)

end Rules

/-! ## Programs in another signature -/

/-- How the calls of one signature are made in another : the call, the answer taken back, and the
error that is thrown. -/
structure Embedding (S S' : Signature) (ε ε' : Type) where
  op : S.Op → S'.Op
  answer : ∀ o, Except ε' (S'.Reply (op o)) → Except ε (S.Reply o)
  error : ε → ε'

section Embed

variable {S' : Signature} {ε' : Type} {m : Embedding S S' ε ε'}

/-- The program with its calls made in the other signature. -/
def embed (m : Embedding S S' ε ε') : Prog S ε α → Prog S' ε' α
  | ret a => ret a
  | throw err => throw (m.error err)
  | call op k => call (m.op op) fun r => (k (m.answer op r)).embed m

theorem Calls.embed {P : S'.Op → Prop} :
    ∀ {p : Prog S ε α}, Calls (fun op => P (m.op op)) p → Calls P (p.embed m)
  | ret _, _ => trivial
  | throw _, _ => trivial
  | call _ _, h => ⟨h.1, fun _ => (h.2 _).embed⟩

end Embed

end Prog

end Interleaving
