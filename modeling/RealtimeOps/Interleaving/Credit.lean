import Mathlib.Algebra.BigOperators.Group.Finset.Piecewise
import Mathlib.Algebra.Order.BigOperators.Group.Finset
import Mathlib.Data.Fintype.EquivFin
import RealtimeOps.Interleaving.Named

/-!
# Credit

Let every call cost something, and let its reply earn something. A program affords `n` if, with
`n` in hand, it can pay for each call it makes, whatever it is answered (`Prog.Affords`). A program
that earns nothing then makes only so many calls, so `Prog.Costs` bounds its runs.

The threads of a system share what they have in hand (`Named.Affords`), and a move of one thread
spends of it what the call costs (`Named.Affords.advance`). So what all calls have spent is covered
by what was earned and what the threads came with (`Named.Affords.balance`).

`Prog.Inevitably` is about a call that a program cannot end without.
-/

set_option autoImplicit false

namespace Interleaving

variable {S S' : Signature} {ε ε' α β E W : Type}

namespace Prog

/-- With `n` in hand the program can pay for every call. -/
def Affords (gain cost : S.Op → ℕ) : Prog S ε α → ℕ → Prop
  | ret _, _ => True
  | throw _, _ => True
  | call op k, n => ∃ m, m + cost op ≤ n ∧
    (∀ reply, (k (.ok reply)).Affords gain cost (m + gain op)) ∧
    ∀ err, (k (.error err)).Affords gain cost m

/-- The calls of the program cost at most `n`. -/
abbrev Costs (cost : S.Op → ℕ) (p : Prog S ε α) (n : ℕ) : Prop :=
  p.Affords (fun _ => 0) cost n

section Rules

variable {gain cost : S.Op → ℕ} {n m : ℕ}

theorem Affords.mono {p : Prog S ε α} (h : p.Affords gain cost n) (hn : n ≤ m) :
    p.Affords gain cost m := by
  cases p with
  | ret a => trivial
  | throw err => trivial
  | call op k =>
    obtain ⟨l, hl, hrest⟩ := h
    exact ⟨l, hl.trans hn, hrest⟩

theorem Affords.resolve (r : Except ε α) (n : ℕ) :
    (Prog.resolve r : Prog S ε α).Affords gain cost n := by
  cases r <;> trivial

theorem Affords.await_bind {op : S.Op} {f : S.Reply op → Prog S ε α} (h : m + cost op ≤ n)
    (hf : ∀ reply, (f reply).Affords gain cost (m + gain op)) :
    ((Prog.await op).bind f).Affords gain cost n :=
  ⟨m, h, hf, fun _ => trivial⟩

/-- Free of charge. -/
theorem Affords.await_free {op : S.Op} {f : S.Reply op → Prog S ε α} (h : cost op = 0)
    (hf : ∀ reply, (f reply).Affords gain cost n) : ((Prog.await op).bind f).Affords gain cost n :=
  .await_bind (by rw [h, Nat.add_zero]) fun reply => (hf reply).mono (Nat.le_add_right _ _)

/-- With `n` in hand the calls in the list can be paid one after the other. -/
def Pays (gain cost : S.Op → ℕ) : List S.Op → ℕ → Prop
  | [], _ => True
  | op :: ops, n => ∃ m, m + cost op ≤ n ∧ Pays gain cost ops (m + gain op)

theorem Affords.await_pays {op : S.Op} {ops : List S.Op} {f : S.Reply op → Prog S ε α}
    (h : Pays gain cost (op :: ops) n)
    (hf : ∀ l, Pays gain cost ops l → ∀ reply, (f reply).Affords gain cost l) :
    ((Prog.await op).bind f).Affords gain cost n := by
  obtain ⟨m, hm, hops⟩ := h
  exact .await_bind hm (hf _ hops)

/-- Calls that cost nothing. -/
theorem Affords.of_calls : ∀ {p : Prog S ε α}, p.Calls (fun op => cost op = 0) → ∀ n,
    p.Affords gain cost n
  | ret _, _, _ => trivial
  | throw _, _, _ => trivial
  | call _ _, h, n =>
    ⟨n, by rw [h.1, Nat.add_zero], fun _ => .of_calls (h.2 _) _, fun _ => .of_calls (h.2 _) _⟩

/-- What is left over can be spent by `f`. -/
theorem Affords.bind {f : α → Prog S ε β} (hf : ∀ a, (f a).Affords gain cost m) :
    ∀ {p : Prog S ε α} {n : ℕ}, p.Affords gain cost n → (p.bind f).Affords gain cost (n + m)
  | ret a, n, _ => (hf a).mono (Nat.le_add_left m n)
  | throw _, _, _ => trivial
  | call op _, _, ⟨l, hl, hok, herr⟩ =>
    ⟨l + m, by omega, fun reply => Nat.add_right_comm l (gain op) m ▸ (hok reply).bind hf,
      fun err => (herr err).bind hf⟩

/-- A program whose value is only renamed. -/
theorem Affords.map {p : Prog S ε α} (h : p.Affords gain cost n) (f : α → β) :
    (p.bind fun a => ret (f a)).Affords gain cost n :=
  h.bind (m := 0) fun a => Affords.resolve (.ok (f a)) 0

theorem Affords.tryFinally {fin : Prog S ε Unit} (hfin : fin.Affords gain cost m) :
    ∀ {p : Prog S ε α} {n : ℕ}, p.Affords gain cost n →
      (p.tryFinally fin).Affords gain cost (n + m)
  | ret a, n, _ =>
    (hfin.bind fun _ => (Affords.resolve (.ok a) n : (ret a : Prog S ε α).Affords _ _ n)).mono
      (Nat.add_comm m n).le
  | throw err, n, _ =>
    (hfin.bind fun _ =>
      (Affords.resolve (.error err) n : (throw err : Prog S ε α).Affords _ _ n)).mono
        (Nat.add_comm m n).le
  | call op _, _, ⟨l, hl, hok, herr⟩ =>
    ⟨l + m, by omega,
      fun reply => Nat.add_right_comm l (gain op) m ▸ Affords.tryFinally hfin (hok reply),
      fun err => Affords.tryFinally hfin (herr err)⟩

theorem Affords.tryCatch {handler : ε → Prog S ε α}
    (hh : ∀ err, (handler err).Affords gain cost m) :
    ∀ {p : Prog S ε α} {n : ℕ}, p.Affords gain cost n →
      (p.tryCatch handler).Affords gain cost (n + m)
  | ret _, _, _ => trivial
  | throw err, n, _ => (hh err).mono (Nat.le_add_left m n)
  | call op _, _, ⟨l, hl, hok, herr⟩ =>
    ⟨l + m, by omega, fun reply => Nat.add_right_comm l (gain op) m ▸ (hok reply).tryCatch hh,
      fun err => (herr err).tryCatch hh⟩

/-! What a call costs is compared with what there is by evaluation. -/

theorem Costs.await {op : S.Op} (h : (cost op).ble n = true) :
    (Prog.await op : Prog S ε (S.Reply op)).Costs cost n :=
  ⟨0, (Nat.zero_add _).trans_le (Nat.le_of_ble_eq_true h),
    fun reply => Affords.resolve (.ok reply) 0, fun err => Affords.resolve (.error err) 0⟩

theorem Costs.await_bind {op : S.Op} {f : S.Reply op → Prog S ε α} (h : (cost op).ble n = true)
    (hf : ∀ reply, (f reply).Costs cost (n - cost op)) : ((Prog.await op).bind f).Costs cost n :=
  Affords.await_bind (Nat.sub_add_cancel (Nat.le_of_ble_eq_true h)).le hf

theorem Costs.of_ble {p : Prog S ε α} (hp : p.Costs cost m) (h : m.ble n = true) :
    p.Costs cost n :=
  hp.mono (Nat.le_of_ble_eq_true h)

end Rules

/-- In the bigger signature, where no call resolves that was rejected. -/
theorem Affords.embed {e : Embedding S S' ε ε'} {gain cost : S'.Op → ℕ}
    (herr : ∀ op err, ∃ err', e.answer op (.error err) = .error err') :
    ∀ {p : Prog S ε α} {n : ℕ},
      p.Affords (fun op => gain (e.op op)) (fun op => cost (e.op op)) n →
        (p.embed e).Affords gain cost n
  | ret _, _, _ => trivial
  | throw _, _, _ => trivial
  | call op k, _, ⟨l, hl, hok, hrejected⟩ => by
    refine ⟨l, hl, fun reply => ?_, fun err => ?_⟩
    · have hanswer : ∀ r, ((k r).embed e).Affords gain cost (l + gain (e.op op)) := by
        intro r
        cases r with
        | ok reply' => exact Affords.embed herr (hok reply')
        | error err' => exact (Affords.embed herr (hrejected err')).mono (Nat.le_add_right _ _)
      exact hanswer _
    · obtain ⟨err', h⟩ := herr op err
      dsimp only
      rw [h]
      exact Affords.embed herr (hrejected err')

/-! ## Calls that are bound to come -/

/-- The program cannot end without a call of `P`. -/
def Inevitably (P : S.Op → Prop) : Prog S ε α → Prop
  | ret _ => False
  | throw _ => False
  | call op k => P op ∨ ∀ r, (k r).Inevitably P

variable {P : S.Op → Prop}

theorem Inevitably.await_bind {op : S.Op} {f : S.Reply op → Prog S ε α} (h : P op) :
    ((Prog.await op).bind f).Inevitably P :=
  .inl h

/-- After `p` either `f` or the handler runs. -/
theorem Inevitably.tryCatch_bind {f : α → Prog S ε β} {handler : ε → Prog S ε β}
    (hf : ∀ a, ((f a).tryCatch handler).Inevitably P) (hh : ∀ err, (handler err).Inevitably P) :
    ∀ p : Prog S ε α, ((p.bind f).tryCatch handler).Inevitably P
  | ret a => hf a
  | throw err => hh err
  | call _ k => .inr fun r => tryCatch_bind hf hh (k r)

theorem Inevitably.bind {f : α → Prog S ε β} :
    ∀ {p : Prog S ε α}, p.Inevitably P → (p.bind f).Inevitably P
  | call _ _, .inl h => .inl h
  | call _ _, .inr h => .inr fun r => (h r).bind

theorem Inevitably.embed {e : Embedding S S' ε ε'} {P : S'.Op → Prop} :
    ∀ {p : Prog S ε α}, p.Inevitably (fun op => P (e.op op)) → (p.embed e).Inevitably P
  | call _ _, .inl h => .inl h
  | call _ _, .inr h => .inr fun _ => (h _).embed

end Prog

/-! ## Threads -/

namespace Named

/-- With `n` in hand the threads together can pay for all their calls. -/
def Affords (gain cost : S.Op → ℕ) (s : Named S ε α E W) (n : ℕ) : Prop :=
  ∃ (names : Finset ℕ) (share : ℕ → ℕ), ∑ i ∈ names, share i ≤ n ∧
    ∀ i (p : Prog S ε α), s.threads i = some p → i ∈ names ∧ p.Affords gain cost (share i)

namespace Affords

variable {gain cost : S.Op → ℕ} {s s' : Named S ε α E W} {n m i : ℕ}

theorem init (w : W) : (Named.init w : Named S ε α E W).Affords gain cost 0 :=
  ⟨∅, 0, le_rfl, by rintro i p ⟨⟩⟩

/-- There are only so many threads. -/
theorem exists_free (h : s.Affords gain cost n) : ∃ i, s.threads i = none := by
  obtain ⟨names, share, -, hthreads⟩ := h
  obtain ⟨i, hi⟩ := Infinite.exists_notMem_finset names
  exact ⟨i, Option.eq_none_iff_forall_ne_some.mpr fun p hp => hi (hthreads i p hp).1⟩

theorem of_threads (h : s.Affords gain cost n) (hs : s'.threads = s.threads) :
    s'.Affords gain cost n := by
  obtain ⟨names, share, hsum, hthreads⟩ := h
  exact ⟨names, share, hsum, fun i p hp => hthreads i p (hs ▸ hp)⟩

/-- Thread `i` is given `m` to go on with. -/
theorem update (h : s.Affords gain cost n) {p : Prog S ε α} (hp : p.Affords gain cost m)
    (hs : s'.threads = Function.update s.threads i (some p)) : s'.Affords gain cost (n + m) := by
  obtain ⟨names, share, hsum, hthreads⟩ := h
  refine ⟨insert i names, Function.update share i m, ?_, fun j q hq => ?_⟩
  · have hrest : ∑ j ∈ names.erase i, Function.update share i m j ≤ ∑ j ∈ names, share j :=
      (Finset.sum_congr rfl fun j hj =>
        Function.update_of_ne (Finset.ne_of_mem_erase hj) m share).trans_le
          (Finset.sum_le_sum_of_subset (Finset.erase_subset i names))
    rw [← Finset.insert_erase (Finset.mem_insert_self i names),
      Finset.sum_insert (Finset.notMem_erase i _), Function.update_self,
      Finset.erase_insert_eq_erase]
    omega
  · rw [hs] at hq
    by_cases hj : j = i
    · cases hj
      rw [Function.update_self] at hq ⊢
      cases hq
      exact ⟨Finset.mem_insert_self _ _, hp⟩
    · rw [Function.update_of_ne hj] at hq ⊢
      exact ⟨Finset.mem_insert_of_mem (hthreads j q hq).1, (hthreads j q hq).2⟩

/-- What thread `i` needs can be set aside. -/
theorem take (h : s.Affords gain cost n) {p : Prog S ε α} (hp : s.threads i = some p) :
    ∃ l r, l + r ≤ n ∧ p.Affords gain cost r ∧ ∀ (s' : Named S ε α E W) (q : Prog S ε α) (r' : ℕ),
      s'.threads = Function.update s.threads i (some q) → q.Affords gain cost r' →
        s'.Affords gain cost (l + r') := by
  obtain ⟨names, share, hsum, hthreads⟩ := h
  obtain ⟨hi, hshare⟩ := hthreads i p hp
  rw [← Finset.sum_erase_add names share hi] at hsum
  refine ⟨_, _, hsum, hshare, fun s' q r' hs' hq => ?_⟩
  have hothers : (⟨s.world, Function.update s.threads i none, []⟩ : Named S ε α E W).Affords
      gain cost (∑ j ∈ names.erase i, share j) := by
    refine ⟨names.erase i, share, le_rfl, fun j q hq => ?_⟩
    dsimp only at hq
    have hj : j ≠ i := by
      rintro rfl
      rw [Function.update_self] at hq
      cases hq
    rw [Function.update_of_ne hj] at hq
    exact ⟨Finset.mem_erase.mpr ⟨hj, (hthreads j q hq).1⟩, (hthreads j q hq).2⟩
  exact hothers.update hq (by rw [hs', Function.update_idem])

theorem spawn (h : s.Affords gain cost n) {p : Prog S ε α} (hp : p.Affords gain cost m)
    (hs : s.spawn i p = some s') : s'.Affords gain cost (n + m) := by
  obtain ⟨-, rfl⟩ := spawn_eq_some hs
  exact h.update hp rfl

/-- A call is paid for, and its reply earns. -/
theorem advance (h : s.Affords gain cost n) {handle : Handler S ε E W} {e : E}
    (hs : s.advance handle i e = some s') :
    ∃ op m, s.awaited i = some op ∧ s'.world = (handle e op s.world).2 ∧ m + cost op ≤ n ∧
      s'.Affords gain cost (m + if (handle e op s.world).1.isOk then gain op else 0) := by
  obtain ⟨op, k, hk, rfl⟩ := advance_eq_some hs
  obtain ⟨l, r, hlr, ⟨m, hm, hok, herr⟩, hput⟩ := h.take hk
  refine ⟨op, l + m, awaited_eq_some.mpr ⟨k, hk⟩, rfl, by omega, ?_⟩
  cases hr : (handle e op s.world).1 with
  | ok reply =>
    rw [Except.isOk, Except.toBool, if_pos rfl, Nat.add_assoc]
    exact hput _ _ _ rfl (hok reply)
  | error err =>
    rw [Except.isOk, Except.toBool, if_neg Bool.false_ne_true]
    exact hput _ _ _ rfl (herr err)

/-- A thread that dies needs nothing any more. -/
theorem halt (h : s.Affords gain cost n) {err : ε} (hs : s.halt i err = some s') :
    ∃ op m, s.awaited i = some op ∧ m + cost op ≤ n ∧ s'.Affords gain cost m := by
  obtain ⟨⟨op, hop⟩, rfl⟩ := halt_eq_some hs
  obtain ⟨k, hk⟩ := awaited_eq_some.mp hop
  obtain ⟨l, r, hlr, ⟨m, hm, -, -⟩, hput⟩ := h.take hk
  exact ⟨op, l, hop, by omega, hput _ (.throw err) 0 rfl trivial⟩

/-- What is spent is covered by what is earned and what the threads came with. -/
theorem balance {handle : Handler S ε E W} {spent earned : W → ℕ} {total : ℕ} {e : E}
    (hspent : ∀ op, spent (handle e op s.world).2 ≤ spent s.world + cost op)
    (hearned : ∀ op, earned s.world + (if (handle e op s.world).1.isOk then gain op else 0) ≤
      earned (handle e op s.world).2)
    (h : s.Affords gain cost n) (hn : n + spent s.world ≤ earned s.world + total)
    (hs : s.advance handle i e = some s') :
    ∃ n', s'.Affords gain cost n' ∧ n' + spent s'.world ≤ earned s'.world + total := by
  obtain ⟨op, m, -, hworld, hm, hafter⟩ := h.advance hs
  refine ⟨_, hafter, ?_⟩
  have hspent := hspent op
  have hearned := hearned op
  rw [hworld]
  omega

end Affords

end Named

end Interleaving
