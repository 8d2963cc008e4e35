import WorkspaceProxy.Conc.System
import Mathlib.Data.Nat.Init

/-! # Fair runs

An infinite run takes one action at a time, or none. A thread is given by its
actions; a run is fair to it when it does not neglect it for ever while one of
its actions is enabled. The rule `Run.leadsTo` turns a rank that the thread's
own actions lower, and that no other action raises, into progress. Where a
choice is offered again and again with pauses in between, as a case of a
`select` in a loop, strong fairness says that it is taken at some time. -/
namespace WorkspaceProxy.Conc
namespace System
variable {σ α : Type}

/-- An infinite run; where `act` is `none` nothing happens. -/
structure Run (S : System σ α) where
  state : Nat → σ
  act : Nat → Option α
  start : S.init (state 0)
  next : ∀ n, (act n = none ∧ state (n + 1) = state n) ∨
    ∃ a, act n = some a ∧ S.step (state n) a = some (state (n + 1))

variable {S : System σ α}

/-- Weak fairness to the thread with the actions `mine`. -/
def Run.Fair (r : S.Run) (mine : α → Prop) : Prop :=
  ∀ n, (∀ k, n ≤ k → ∃ a, mine a ∧ (S.step (r.state k) a).isSome = true) →
    ∃ k, n ≤ k ∧ ∃ a, mine a ∧ r.act k = some a

theorem Run.reach (r : S.Run) (n : Nat) : S.Reach (r.state n) := by
  induction n with
  | zero => exact .init r.start
  | succ n ih =>
    rcases r.next n with ⟨-, hs⟩ | ⟨a, -, hs⟩
    · rw [hs]; exact ih
    · exact ih.step hs

/-- Before `Q` holds, `P` stays and the rank does not rise. -/
theorem Run.stays (r : S.Run) {P Q : σ → Prop} {rank : σ → Nat}
    (hstep : ∀ s a t, P s → S.step s a = some t → Q t ∨ P t ∧ rank t ≤ rank s) {n : Nat}
    (hp : P (r.state n)) (hq : ∀ k, n ≤ k → ¬ Q (r.state k)) (k : Nat) (hk : n ≤ k) :
    P (r.state k) ∧ rank (r.state k) ≤ rank (r.state n) := by
  induction k, hk using Nat.le_induction with
  | base => exact ⟨hp, Nat.le_refl _⟩
  | succ k hk ih =>
    rcases r.next k with ⟨-, hs⟩ | ⟨a, -, hs⟩
    · rw [hs]; exact ih
    · rcases hstep _ a _ ih.1 hs with h | ⟨h, hr⟩
      · exact absurd h (hq (k + 1) (by omega))
      · exact ⟨h, Nat.le_trans hr ih.2⟩

/-- What every step keeps stays along a run. -/
theorem Run.keeps (r : S.Run) {P : σ → Prop} (hstep : ∀ s a t, P s → S.step s a = some t → P t)
    {n k : Nat} (hk : n ≤ k) (hp : P (r.state n)) : P (r.state k) := by
  induction k, hk using Nat.le_induction with
  | base => exact hp
  | succ k hk ih =>
    rcases r.next k with ⟨-, hs⟩ | ⟨a, -, hs⟩
    · rw [hs]; exact ih
    · exact hstep _ a _ ih hs

/-- **Progress by rank.** While `P` holds and `Q` does not, the thread has an
action, its actions lower the rank, and no action raises it: then `Q` comes. -/
theorem Run.leadsTo (r : S.Run) {mine : α → Prop} (hf : r.Fair mine) {P Q : σ → Prop}
    (rank : σ → Nat)
    (hen : ∀ s, P s → Q s ∨ ∃ a, mine a ∧ (S.step s a).isSome = true)
    (hmine : ∀ s a t, P s → mine a → S.step s a = some t → Q t ∨ rank t < rank s)
    (hstep : ∀ s a t, P s → S.step s a = some t → Q t ∨ P t ∧ rank t ≤ rank s) {n : Nat}
    (hp : P (r.state n)) : ∃ k, n ≤ k ∧ Q (r.state k) := by
  induction hm : rank (r.state n) using Nat.strong_induction_on generalizing n with
  | _ m ih =>
    subst hm
    by_contra hq
    have hq : ∀ k, n ≤ k → ¬ Q (r.state k) := fun k hk h => hq ⟨k, hk, h⟩
    have hstay := r.stays hstep hp hq
    obtain ⟨k, hk, a, ha, hact⟩ := hf n fun k hk =>
      (hen _ (hstay k hk).1).resolve_left (hq k hk)
    rcases r.next k with ⟨hn, -⟩ | ⟨b, hb, hs⟩
    · rw [hact] at hn; cases hn
    · rw [hact] at hb
      cases hb
      rcases hmine _ a _ (hstay k hk).1 ha hs with h | hlt
      · exact hq (k + 1) (by omega) h
      · have hp' := (hstay (k + 1) (by omega)).1
        obtain ⟨j, hj, h⟩ := ih _ (Nat.lt_of_lt_of_le hlt (hstay k hk).2) hp' rfl
        exact hq j (by omega) h

/-- **Progress by one action.** While `P` holds and `Q` does not, the thread has an
action, which leads to `Q`, and the actions of the others keep `P`. -/
theorem Run.leadsTo_next (r : S.Run) {mine : α → Prop} (hf : r.Fair mine) {P Q : σ → Prop}
    (hen : ∀ s, P s → Q s ∨ ∃ a, mine a ∧ (S.step s a).isSome = true)
    (hstep : ∀ s a t, P s → S.step s a = some t → Q t ∨ P t ∧ ¬ mine a) {n : Nat}
    (hp : P (r.state n)) : ∃ k, n ≤ k ∧ Q (r.state k) := by
  refine r.leadsTo hf (fun _ => 0) hen ?_ ?_ hp
  · intro s a t hp ha hst
    exact .inl ((hstep s a t hp hst).resolve_right fun h => h.2 ha)
  · intro s a t hp hst
    exact (hstep s a t hp hst).imp_right fun h => ⟨h.1, Nat.le_refl _⟩

/-- Strong fairness to the steps that meet `C`: one that is enabled again and
again is taken. -/
def Run.StronglyFair (r : S.Run) (C : σ → α → Prop) : Prop :=
  ∀ n, (∀ k, n ≤ k → ∃ m, k ≤ m ∧ ∃ a, C (r.state m) a ∧
      (S.step (r.state m) a).isSome = true) →
    ∃ k, n ≤ k ∧ ∃ a, C (r.state k) a ∧ r.act k = some a

/-- **Progress by recurrence.** While `P` holds and `Q` does not, a step that
meets `C` is enabled again and again, and it leads to `Q`: then `Q` comes. -/
theorem Run.leadsTo_recurring (r : S.Run) {C : σ → α → Prop} (hf : r.StronglyFair C)
    {P Q : σ → Prop} (hstep : ∀ s a t, P s → S.step s a = some t → Q t ∨ P t)
    (htake : ∀ s a t, P s → C s a → S.step s a = some t → Q t)
    (hrec : ∀ n, P (r.state n) → ∃ k, n ≤ k ∧ (Q (r.state k) ∨
      ∃ a, C (r.state k) a ∧ (S.step (r.state k) a).isSome = true)) {n : Nat}
    (hp : P (r.state n)) : ∃ k, n ≤ k ∧ Q (r.state k) := by
  by_contra hq
  have hq : ∀ k, n ≤ k → ¬ Q (r.state k) := fun k hk h => hq ⟨k, hk, h⟩
  have hstay : ∀ k, n ≤ k → P (r.state k) := fun k hk =>
    (@Run.stays _ _ _ r P Q (fun _ => 0)
      (fun s a t hp hst => (hstep s a t hp hst).imp_right (⟨·, Nat.le_refl _⟩)) n hp hq k hk).1
  obtain ⟨k, hk, a, hc, hact⟩ := hf n fun k hk => by
    obtain ⟨m, hm, h⟩ := hrec k (hstay k hk)
    exact ⟨m, hm, h.resolve_left (hq m (by omega))⟩
  rcases r.next k with ⟨hn, -⟩ | ⟨b, hb, hs⟩
  · rw [hact] at hn; cases hn
  · rw [hact] at hb
    cases hb
    exact hq (k + 1) (by omega) (htake _ a _ (hstay k hk) hc hs)

/-- A finite run that then pauses for ever. -/
def Run.ofList (S : System σ α) (s : σ) (as : List α) (hs : S.init s)
    (h : (S.exec s as).isSome = true) : S.Run where
  state n := (S.exec s (as.take n)).getD s
  act n := as[n]?
  start := hs
  next n := by
    obtain ⟨u, hu⟩ : ∃ u, S.exec s (as.take n) = some u := by
      rw [← List.take_append_drop n as, exec_append] at h
      obtain ⟨t, ht⟩ := Option.isSome_iff_exists.mp h
      obtain ⟨u, hu, -⟩ := Option.bind_eq_some_iff.mp ht
      exact ⟨u, hu⟩
    by_cases hn : n < as.length
    · refine .inr ⟨as[n], List.getElem?_eq_getElem hn, ?_⟩
      rw [← List.take_append_drop (n + 1) as, exec_append] at h
      obtain ⟨t, ht⟩ := Option.isSome_iff_exists.mp h
      obtain ⟨v, hv, -⟩ := Option.bind_eq_some_iff.mp ht
      rw [hu, hv]
      rw [← List.take_append_getElem hn, exec_append, hu] at hv
      obtain ⟨w, hw, he⟩ := exec_cons hv
      cases he
      exact hw
    · refine .inl ⟨List.getElem?_eq_none (by omega), ?_⟩
      rw [List.take_of_length_le (by omega), List.take_of_length_le (by omega)]

theorem Run.ofList_end {s t : σ} {as : List α} {hs : S.init s} {h : (S.exec s as).isSome = true}
    (ht : S.exec s as = some t) {n : Nat} (hn : as.length ≤ n) :
    (Run.ofList S s as hs h).state n = t := by
  show (S.exec s (as.take n)).getD s = t
  rw [List.take_of_length_le hn, ht]
  rfl

/-- It is fair to a thread that has no step at its end. -/
theorem Run.fair_ofList {s t : σ} {as : List α} {mine : α → Prop} {hs : S.init s}
    {h : (S.exec s as).isSome = true} (ht : S.exec s as = some t)
    (hno : ∀ a u, mine a → S.step t a ≠ some u) : (Run.ofList S s as hs h).Fair mine := by
  intro n hen
  obtain ⟨a, ha, hsome⟩ := hen (max n as.length) (by omega)
  obtain ⟨u, hu⟩ := Option.isSome_iff_exists.mp hsome
  rw [Run.ofList_end ht (by omega)] at hu
  exact absurd hu (hno a u ha)

theorem Run.stronglyFair_ofList {s t : σ} {as : List α} {C : σ → α → Prop} {hs : S.init s}
    {h : (S.exec s as).isSome = true} (ht : S.exec s as = some t)
    (hno : ∀ a u, C t a → S.step t a ≠ some u) : (Run.ofList S s as hs h).StronglyFair C := by
  intro n hen
  obtain ⟨m, hm, a, ha, hsome⟩ := hen (max n as.length) (by omega)
  obtain ⟨u, hu⟩ := Option.isSome_iff_exists.mp hsome
  rw [Run.ofList_end ht (by omega)] at hu ha
  exact absurd hu (hno a u ha)

end System
end WorkspaceProxy.Conc
