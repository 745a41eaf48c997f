import RealtimeOps.Interleaving.Serial

/-!
# Sessions

A session runs commands one after the other. Each runs alone from the world the one before it
left, under its own script, and only runs in which every call resolves are taken
(`Prog.goes`); a command may still end with an error that its program throws. `done` keeps the
commands with how each ended : it is ghost state.

`Prog.Ensures` gives what such a run does, whatever the script (`Ensures.run`), and is built
along the program by the rules below. So an invariant of sessions needs one specification for
each command (`Session.step_spec`).
-/

set_option autoImplicit false

namespace Interleaving

variable {S : Signature} {ε α β E W C : Type} {handle : Handler S ε E W}

namespace Prog

/-! ## Runs in which every call resolves -/

/-- Every call of the run resolves. -/
def goes (handle : Handler S ε E W) (script : ℕ → E) : Prog S ε α → ℕ → W → Bool
  | ret _, _, _ => true
  | throw _, _, _ => true
  | call op k, n, w =>
    (handle (script n) op w).1.isOk &&
      (k (handle (script n) op w).1).goes handle script (n + 1) (handle (script n) op w).2

theorem Ensures.run {Q : Except ε α → W → Prop} {script : ℕ → E} :
    ∀ {p : Prog S ε α} {n : ℕ} {w : W}, Ensures handle Q p w → p.goes handle script n w = true →
      Q (p.run handle script n w).1 (p.run handle script n w).2
  | ret _, _, _, h, _ => h
  | throw _, _, _, h, _ => h
  | call op k, n, w, h, hgoes => by
    rw [goes, Bool.and_eq_true] at hgoes
    obtain ⟨hok, hrest⟩ := hgoes
    rw [Prog.run]
    cases hh : handle (script n) op w with
    | mk r w' =>
      rw [hh] at hok hrest
      cases r with
      | ok reply => exact Ensures.run (p := k (.ok reply)) (h _ _ _ hh) hrest
      | error err => cases hok

theorem ensures_resolve {Q : Except ε α → W → Prop} {r : Except ε α} {w : W} :
    Ensures handle Q (resolve r) w ↔ Q r w := by
  cases r <;> rfl

theorem Ensures.mono {Q Q' : Except ε α → W → Prop} (hQ : ∀ r w, Q r w → Q' r w) :
    ∀ {p : Prog S ε α} {w : W}, Ensures handle Q p w → Ensures handle Q' p w
  | ret _, _, h => hQ _ _ h
  | throw _, _, h => hQ _ _ h
  | call _ k, _, h => fun e reply w' hh => Ensures.mono (p := k (.ok reply)) hQ (h e reply w' hh)

theorem Ensures.and {Q Q' : Except ε α → W → Prop} :
    ∀ {p : Prog S ε α} {w : W}, Ensures handle Q p w → Ensures handle Q' p w →
      Ensures handle (fun r w' => Q r w' ∧ Q' r w') p w
  | ret _, _, h, h' => ⟨h, h'⟩
  | throw _, _, h, h' => ⟨h, h'⟩
  | call _ k, _, h, h' => fun e reply w' hh =>
    Ensures.and (p := k (.ok reply)) (h e reply w' hh) (h' e reply w' hh)

/-- What every call of the program keeps holds at the end. -/
theorem Calls.ensures {P : S.Op → Prop} {I : W → Prop}
    (hI : ∀ e op reply w w', P op → handle e op w = (.ok reply, w') → I w → I w') :
    ∀ {p : Prog S ε α} {w : W}, Calls P p → I w → Ensures handle (fun _ w' => I w') p w
  | ret _, _, _, h => h
  | throw _, _, _, h => h
  | call _ k, _, hp, h => fun e reply w' hh =>
    Calls.ensures (p := k (.ok reply)) hI (hp.2 _) (hI e _ reply _ w' hp.1 hh h)

/-- First `p`, then `f` of its value; an error of `p` ends the whole. -/
theorem Ensures.bind {Q : Except ε α → W → Prop} {Q' : Except ε β → W → Prop}
    {f : α → Prog S ε β} (hok : ∀ a w, Q (.ok a) w → Ensures handle Q' (f a) w)
    (herr : ∀ err w, Q (.error err) w → Q' (.error err) w) :
    ∀ {p : Prog S ε α} {w : W}, Ensures handle Q p w → Ensures handle Q' (p.bind f) w
  | ret _, _, h => hok _ _ h
  | throw _, _, h => herr _ _ h
  | call _ k, _, h => fun e reply w' hh =>
    Ensures.bind (p := k (.ok reply)) hok herr (h e reply w' hh)

/-- A program whose value is only renamed. -/
theorem Ensures.map {Q : Except ε β → W → Prop} {f : α → β} {p : Prog S ε α} {w : W}
    (h : Ensures handle (fun r w' => Q (r.map f) w') p w) :
    Ensures handle Q (p.bind fun a => ret (f a)) w :=
  Ensures.bind (Q := fun r w' => Q (r.map f) w') (f := fun a => ret (f a)) (fun _ _ h => h)
    (fun _ _ h => h) h

/-- However `p` ends, the finalizer runs. -/
theorem Ensures.tryFinally {Q Q' : Except ε α → W → Prop} {fin : Prog S ε Unit}
    (hfin : ∀ r w, Q r w → Ensures handle Q' (fin.bind fun _ => resolve r) w) :
    ∀ {p : Prog S ε α} {w : W}, Ensures handle Q p w → Ensures handle Q' (p.tryFinally fin) w
  | ret _, _, h => hfin _ _ h
  | throw _, _, h => hfin _ _ h
  | call _ k, _, h => fun e reply w' hh =>
    Ensures.tryFinally (p := k (.ok reply)) hfin (h e reply w' hh)

/-- An error of `p` goes to the handler. -/
theorem Ensures.tryCatch {Q Q' : Except ε α → W → Prop} {handler : ε → Prog S ε α}
    (hok : ∀ a w, Q (.ok a) w → Q' (.ok a) w)
    (herr : ∀ err w, Q (.error err) w → Ensures handle Q' (handler err) w) :
    ∀ {p : Prog S ε α} {w : W}, Ensures handle Q p w → Ensures handle Q' (p.tryCatch handler) w
  | ret _, _, h => hok _ _ h
  | throw _, _, h => herr _ _ h
  | call _ k, _, h => fun e reply w' hh =>
    Ensures.tryCatch (p := k (.ok reply)) hok herr (h e reply w' hh)

end Prog

/-! ## Sessions -/

/-- The world, and the commands run so far with how each ended. -/
structure Session (C ε α W : Type) where
  world : W
  done : List (C × Except ε α)

namespace Session

/-- Run a command alone under a script, if every call resolves. -/
def step (handle : Handler S ε E W) (prog : C → Prog S ε α) (s : Session C ε α W)
    (l : C × (ℕ → E)) : Option (Session C ε α W) :=
  if (prog l.1).goes handle l.2 0 s.world then
    some
      { world := ((prog l.1).run handle l.2 0 s.world).2
        done := s.done ++ [(l.1, ((prog l.1).run handle l.2 0 s.world).1)] }
  else none

/-- A command does what its program ensures. -/
theorem step_spec {prog : C → Prog S ε α} {s s' : Session C ε α W} {l : C × (ℕ → E)}
    {Q : Except ε α → W → Prop} (hs : s.step handle prog l = some s')
    (hQ : (prog l.1).Ensures handle Q s.world) :
    ∃ r, Q r s'.world ∧ s'.done = s.done ++ [(l.1, r)] := by
  unfold step at hs
  split at hs
  · rename_i hgoes
    cases hs
    exact ⟨_, hQ.run hgoes, rfl⟩
  · cases hs

end Session

end Interleaving
