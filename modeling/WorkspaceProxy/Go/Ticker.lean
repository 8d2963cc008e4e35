import Mathlib.Tactic.Common

/-! # time.Ticker

A ticker fires at the multiples of its interval after it was made, and its channel
holds one tick: a tick that finds one there is dropped. Time is a natural number, and
the clock never passes a time at which the ticker is to fire. -/
namespace WorkspaceProxy.Go

/-- `next` is when the ticker fires next, `pending` the time of the tick in its channel,
and `dropped` counts the ticks that found one there. -/
structure Ticker where
  next : Nat
  pending : Option Nat
  dropped : Nat

namespace Ticker

def new (now interval : Nat) : Ticker := ⟨now + interval, none, 0⟩

def fire (k : Ticker) (interval : Nat) : Ticker :=
  match k.pending with
  | none => ⟨k.next + interval, some k.next, k.dropped⟩
  | some t => ⟨k.next + interval, some t, k.dropped + 1⟩

/-- The receive from the channel. -/
def take (k : Ticker) : Ticker := { k with pending := none }

/-- The ticker at a time: it fires within one interval, and what is in its channel fired
before. -/
structure At (interval now : Nat) (k : Ticker) : Prop where
  ahead : now ≤ k.next
  within : k.next ≤ now + interval
  past : ∀ t, k.pending = some t → t ≤ now

variable {interval now : Nat} {k : Ticker}

theorem At.new : At interval now (Ticker.new now interval) where
  ahead := Nat.le_add_right now interval
  within := Nat.le_refl _
  past t h := by cases h

theorem At.fire (h : At interval now k) (hnow : now = k.next) :
    At interval now (k.fire interval) := by
  subst hnow
  unfold Ticker.fire
  cases hp : k.pending with
  | none =>
    refine ⟨Nat.le_add_right _ _, Nat.le_refl _, ?_⟩
    intro t ht
    cases ht
    exact Nat.le_refl _
  | some u =>
    refine ⟨Nat.le_add_right _ _, Nat.le_refl _, ?_⟩
    intro t ht
    cases ht
    exact h.past u hp

theorem At.take (h : At interval now k) : At interval now k.take :=
  ⟨h.ahead, h.within, fun t ht => by cases ht⟩

theorem At.delay (h : At interval now k) (hnow : now < k.next) : At interval (now + 1) k where
  ahead := hnow
  within := Nat.le_trans h.within (by omega)
  past t ht := Nat.le_succ_of_le (h.past t ht)

@[simp] theorem fire_next : (k.fire interval).next = k.next + interval := by
  unfold fire
  split <;> rfl

theorem fire_of_none (h : k.pending = none) :
    k.fire interval = ⟨k.next + interval, some k.next, k.dropped⟩ := by
  unfold fire
  rw [h]

theorem fire_of_some {t : Nat} (h : k.pending = some t) :
    k.fire interval = ⟨k.next + interval, some t, k.dropped + 1⟩ := by
  unfold fire
  rw [h]

end Ticker
end WorkspaceProxy.Go
