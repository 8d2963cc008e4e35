import Mathlib.Logic.Function.Iterate
import Mathlib.Tactic.Common

/-! # Walking up

A loop that looks for something at a value, at its parent, at the parent of that
and so on, and gives up at a value that is its own parent. `walk` has a number of
rounds, and is `none` where they do not suffice; a rank that falls on the way up
bounds them (`walk_ends`). What the loop finds is the first in the chain
(`walk_some`), and where it gives up there is nothing in the chain (`walk_none`). -/
namespace WorkspaceProxy.Go
variable {α β : Type} [DecidableEq α] (parent : α → α) (find : α → Option β)

def walk : Nat → α → Option (Option β)
  | 0, _ => none
  | rounds + 1, a =>
    match find a with
    | some b => some (some b)
    | none => if parent a = a then some none else walk rounds (parent a)

/-- The chain `a`, `parent a`, `parent (parent a)`, … has its first find, `b`, at
`k`. -/
structure FirstFound (a : α) (k : Nat) (b : β) : Prop where
  found : find (parent^[k] a) = some b
  before : ∀ j < k, find (parent^[j] a) = none

variable {parent find} {a : α} {b : β} {rounds : Nat}

omit [DecidableEq α] in
theorem FirstFound.unique {b' : β} {k k' : Nat} (h : FirstFound parent find a k b)
    (h' : FirstFound parent find a k' b') : b = b' := by
  have hk : k = k' := by
    by_contra hne
    rcases Nat.lt_or_gt_of_ne hne with hlt | hlt
    · cases (h'.before k hlt).symm.trans h.found
    · cases (h.before k' hlt).symm.trans h'.found
  rw [hk] at h
  exact Option.some.inj (h.found.symm.trans h'.found)

omit [DecidableEq α] in
/-- One step up. -/
theorem FirstFound.up {k : Nat} (hnone : find a = none) (h : FirstFound parent find (parent a) k b) :
    FirstFound parent find a (k + 1) b where
  found := by rw [Function.iterate_succ_apply]; exact h.found
  before j hj := by
    cases j with
    | zero => exact hnone
    | succ j =>
      rw [Function.iterate_succ_apply]
      exact h.before j (by omega)

theorem walk_some (h : walk parent find rounds a = some (some b)) :
    ∃ k, FirstFound parent find a k b := by
  induction rounds generalizing a with
  | zero => cases h
  | succ rounds ih =>
    unfold walk at h
    split at h
    · rename_i b' hfind
      cases h
      exact ⟨0, hfind, fun j hj => absurd hj (Nat.not_lt_zero j)⟩
    · rename_i hnone
      split at h
      · cases h
      · obtain ⟨k, hk⟩ := ih h
        exact ⟨k + 1, hk.up hnone⟩

theorem walk_none (h : walk parent find rounds a = some none) (k : Nat) :
    find (parent^[k] a) = none := by
  induction rounds generalizing a k with
  | zero => cases h
  | succ rounds ih =>
    unfold walk at h
    split at h
    · cases h
    · rename_i hnone
      split at h
      · rename_i hfix
        rw [Function.iterate_fixed hfix]
        exact hnone
      · cases k with
        | zero => exact hnone
        | succ k =>
          rw [Function.iterate_succ_apply]
          exact ih h k

/-- More rounds change nothing. -/
theorem walk_of_le {rounds' : Nat} {r : Option β} (h : walk parent find rounds a = some r)
    (hle : rounds ≤ rounds') : walk parent find rounds' a = some r := by
  induction rounds generalizing a rounds' with
  | zero => cases h
  | succ rounds ih =>
    cases rounds' with
    | zero => omega
    | succ rounds' =>
      rw [walk] at h ⊢
      cases hfind : find a with
      | some b =>
        rw [hfind] at h
        exact h
      | none =>
        rw [hfind] at h
        dsimp only at h ⊢
        split at h
        · rename_i hfix
          rw [if_pos hfix]
          exact h
        · rename_i hfix
          rw [if_neg hfix]
          exact ih h (by omega)

/-- **A rank that falls on the way up bounds the rounds.** -/
theorem walk_ends {rank : α → Nat} (hrank : ∀ a, parent a = a ∨ rank (parent a) < rank a)
    (h : rank a < rounds) : (walk parent find rounds a).isSome = true := by
  induction rounds generalizing a with
  | zero => omega
  | succ rounds ih =>
    unfold walk
    split
    · rfl
    · split
      · rfl
      · rename_i hfix
        have hlt := (hrank a).resolve_left hfix
        exact ih (by omega)

end WorkspaceProxy.Go
