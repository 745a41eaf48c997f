import Mathlib.Data.List.Infix
import Mathlib.Data.List.TakeDrop

/-!
# Messages told more than once

A reader is told the messages of a growing list one after the other. Whenever it loses its place it
is told messages again, but it is never told a message before all earlier ones.
`Retells sent n n' told` : with the first `n` messages told before, the reader is told the list
`told`, and has then been told the first `n'`.

The messages told for the first time stand in their order among those that were told
(`Retells.sublist`).
-/

set_option autoImplicit false

namespace Interleaving

variable {α : Type}

/-- From the first `n` messages to the first `n'`, by being told these. -/
inductive Retells (sent : List α) (n : ℕ) : ℕ → List α → Prop where
  | nil : Retells sent n n []
  /-- The first message that is new. -/
  | next {n' : ℕ} {told : List α} {x : α} (h : Retells sent n n' told) (hx : sent[n']? = some x) :
    Retells sent n (n' + 1) (told ++ [x])
  /-- A message that was told before. -/
  | again {n' k : ℕ} {told : List α} {x : α} (h : Retells sent n n' told) (hk : k < n')
    (hx : sent[k]? = some x) : Retells sent n n' (told ++ [x])

namespace Retells

variable {sent sent' told told' : List α} {n n' n'' : ℕ}

theorem le (h : Retells sent n n' told) : n ≤ n' := by
  induction h with
  | nil => exact Nat.le_refl n
  | next _ _ ih => exact Nat.le_succ_of_le ih
  | again _ _ _ ih => exact ih

/-- More messages are sent. -/
theorem mono (h : Retells sent n n' told) (hsent : sent <+: sent') : Retells sent' n n' told := by
  have hget : ∀ {k : ℕ} {x : α}, sent[k]? = some x → sent'[k]? = some x := by
    intro k x hx
    obtain ⟨rest, rfl⟩ := hsent
    rw [List.getElem?_append_left (List.getElem?_eq_some_iff.mp hx).1]
    exact hx
  induction h with
  | nil => exact .nil
  | next _ hx ih => exact ih.next (hget hx)
  | again _ hk hx ih => exact ih.again hk (hget hx)

theorem trans (h : Retells sent n n' told) (h' : Retells sent n' n'' told') :
    Retells sent n n'' (told ++ told') := by
  induction h' with
  | nil => simpa using h
  | next _ hx ih => simpa [← List.append_assoc] using ih.next hx
  | again _ hk hx ih => simpa [← List.append_assoc] using ih.again hk hx

/-- Only messages that were sent are told. -/
theorem subset (h : Retells sent n n' told) : ∀ x ∈ told, x ∈ sent.take n' := by
  have hmem : ∀ {k m : ℕ} {x : α}, sent[k]? = some x → k < m → x ∈ sent.take m := by
    intro k m x hx hk
    exact List.mem_of_getElem? ((List.getElem?_take_of_lt hk).trans hx)
  induction h with
  | nil => simp
  | @next n' told y _ hy ih =>
    intro x hx
    rcases List.mem_append.mp hx with hx | hx
    · exact (List.take_subset_take_left sent (Nat.le_succ n')) (ih x hx)
    · rw [List.mem_singleton.mp hx]
      exact hmem hy (Nat.lt_succ_self n')
  | again _ hk hy ih =>
    intro x hx
    rcases List.mem_append.mp hx with hx | hx
    · exact ih x hx
    · rw [List.mem_singleton.mp hx]
      exact hmem hy hk

/-- The new messages have been told in their order. -/
theorem sublist (h : Retells sent n n' told) : ((sent.take n').drop n).Sublist told := by
  induction h with
  | nil => simp
  | @next n' told x h hx ih =>
    have hlen : (sent.take n').length = n' := by
      rw [List.length_take]
      exact Nat.min_eq_left (List.getElem?_eq_some_iff.mp hx).1.le
    rw [List.take_add_one, hx, Option.toList_some, List.drop_append_of_le_length (hlen.symm ▸ h.le)]
    exact ih.append (List.Sublist.refl [x])
  | again _ _ _ ih => exact ih.trans (List.sublist_append_left _ _)

end Retells

end Interleaving
