import RealtimeOps.Interleaving.Named

/-!
# Commitment

A program refuses when it throws an error with `R`. One that `Commits` refuses only as long as all
its calls were of the kind `free` : after any other call it throws no such error, unless a call was
rejected with one (`Prog.Spares`). So where no call ever is, a thread that has refused has made free
calls only.
-/

set_option autoImplicit false

namespace Interleaving

variable {S S' : Signature} {ε ε' α β E W : Type}

/-- The answer is no refusal. -/
def Spared (R : ε → Prop) (r : Except ε α) : Prop :=
  ∀ err, r = .error err → ¬R err

namespace Prog

variable {R : ε → Prop} {free : S.Op → Prop}

/-- The program does not refuse. -/
def Spares (R : ε → Prop) : Prog S ε α → Prop
  | ret _ => True
  | throw err => ¬R err
  | call _ k => ∀ r, Spared R r → (k r).Spares R

/-- The program refuses only after free calls. -/
def Commits (free : S.Op → Prop) (R : ε → Prop) : Prog S ε α → Prop
  | ret _ => True
  | throw _ => True
  | call op k => (free op ∧ ∀ r, (k r).Commits free R) ∨ ∀ r, Spared R r → (k r).Spares R

theorem Spares.resolve {r : Except ε α} (h : Spared R r) :
    (Prog.resolve r : Prog S ε α).Spares R := by
  cases r with
  | ok a => trivial
  | error err => exact h err rfl

theorem Spares.await (op : S.Op) : (Prog.await op : Prog S ε (S.Reply op)).Spares R :=
  fun _ => .resolve

theorem Spares.bind {f : α → Prog S ε β} (hf : ∀ a, (f a).Spares R) :
    ∀ {p : Prog S ε α}, p.Spares R → (p.bind f).Spares R
  | ret a, _ => hf a
  | throw _, h => h
  | call _ _, h => fun r hr => (h r hr).bind hf

theorem Spares.await_bind {op : S.Op} {f : S.Reply op → Prog S ε α} (hf : ∀ a, (f a).Spares R) :
    ((Prog.await op).bind f).Spares R :=
  (Spares.await op).bind hf

theorem Spares.map {p : Prog S ε α} (h : p.Spares R) (g : α → β) :
    (p.bind fun a => ret (g a)).Spares R :=
  h.bind (f := fun a => ret (g a)) fun _ => trivial

/-- The handler has the last word. -/
theorem Spares.tryCatch {handler : ε → Prog S ε α} (hh : ∀ err, (handler err).Spares R) :
    ∀ p : Prog S ε α, (p.tryCatch handler).Spares R
  | ret _ => trivial
  | throw err => hh err
  | call _ k => fun r _ => Spares.tryCatch hh (k r)

/-- There is no such error. -/
theorem Spares.of_never (h : ∀ err, ¬R err) : ∀ p : Prog S ε α, p.Spares R
  | ret _ => trivial
  | throw err => h err
  | call _ k => fun r _ => Spares.of_never h (k r)

theorem Spares.embed {e : Embedding S S' ε ε'} {R : ε → Prop} {R' : ε' → Prop}
    (hthrow : ∀ err, R' (e.error err) → R err)
    (hanswer : ∀ op r, Spared R' r → Spared R (e.answer op r)) :
    ∀ {p : Prog S ε α}, p.Spares R → (p.embed e).Spares R'
  | ret _, _ => trivial
  | throw err, h => fun hR => h (hthrow err hR)
  | call op _, h => fun r hr => (h _ (hanswer op r hr)).embed hthrow hanswer

theorem Spares.commits : ∀ {p : Prog S ε α}, p.Spares R → p.Commits free R
  | ret _, _ => trivial
  | throw _, _ => trivial
  | call _ _, h => .inr h

theorem Commits.free_bind {op : S.Op} {f : S.Reply op → Prog S ε α} (hop : free op)
    (hf : ∀ reply, (f reply).Commits free R) : ((Prog.await op).bind f).Commits free R := by
  refine .inl ⟨hop, fun r => ?_⟩
  cases r with
  | ok reply => exact hf reply
  | error err => trivial

/-- After free calls `f` may refuse. -/
theorem Commits.of_calls {f : α → Prog S ε β} (hf : ∀ a, (f a).Commits free R) :
    ∀ {p : Prog S ε α}, p.Calls free → (p.bind f).Commits free R
  | ret a, _ => hf a
  | throw _, _ => trivial
  | call _ _, h => .inl ⟨h.1, fun r => Commits.of_calls hf (h.2 r)⟩

/-- What follows does not refuse. -/
theorem Commits.bind {f : α → Prog S ε β} (hf : ∀ a, (f a).Spares R) :
    ∀ {p : Prog S ε α}, p.Commits free R → (p.bind f).Commits free R
  | ret a, _ => (hf a).commits
  | throw _, _ => trivial
  | call _ _, .inl ⟨hop, h⟩ => .inl ⟨hop, fun r => (h r).bind hf⟩
  | call _ _, .inr h => .inr fun r hr => (h r hr).bind hf

theorem Commits.map {p : Prog S ε α} (h : p.Commits free R) (g : α → β) :
    (p.bind fun a => ret (g a)).Commits free R :=
  h.bind (f := fun a => ret (g a)) fun _ => trivial

theorem Commits.embed {e : Embedding S S' ε ε'} {R : ε → Prop} {R' : ε' → Prop}
    {free : S'.Op → Prop} (hthrow : ∀ err, R' (e.error err) → R err)
    (hanswer : ∀ op r, Spared R' r → Spared R (e.answer op r)) :
    ∀ {p : Prog S ε α}, p.Commits (fun op => free (e.op op)) R → (p.embed e).Commits free R'
  | ret _, _ => trivial
  | throw _, _ => trivial
  | call _ _, .inl ⟨hop, h⟩ => .inl ⟨hop, fun _ => (h _).embed hthrow hanswer⟩
  | call op _, .inr h =>
    .inr fun r hr => (h _ (hanswer op r hr)).embed hthrow hanswer

/-- A committed program goes on committed, and after a call that is not free it does not refuse. -/
theorem Commits.next {op : S.Op} {k : Except ε (S.Reply op) → Prog S ε α}
    (h : (call op k).Commits free R) {r : Except ε (S.Reply op)} (hr : Spared R r) :
    (k r).Commits free R ∧ (¬free op → (k r).Spares R) := by
  rcases h with ⟨hop, h⟩ | h
  · exact ⟨h r, fun hnot => absurd hop hnot⟩
  · exact ⟨(h r hr).commits, fun _ => h r hr⟩

end Prog

end Interleaving
