import Mathlib.Data.List.Induction
import Mathlib.Logic.Function.Basic
import Mathlib.Tactic.Common

/-! # Interleaved systems

A system is a set of initial states and a partial step function: an action of
one thread is atomic, and a run is any list of actions. Nothing is assumed
about the scheduler. A run may be restricted to steps that meet a condition;
`ReachOn` then says what holds under that condition and nothing else.
-/
namespace WorkspaceProxy.Conc

/-- Initial states, and what one action of one thread does. `none` means the
action is not enabled. -/
structure System (σ α : Type) where
  init : σ → Prop
  step : σ → α → Option σ

namespace System
variable {σ α : Type} (S : System σ α)

/-- Perform a list of actions; `none` when one of them is not enabled. -/
def exec : σ → List α → Option σ
  | s, [] => some s
  | s, a :: as => (S.step s a).bind fun t => exec t as

/-- The states that some interleaving reaches. -/
inductive Reach : σ → Prop
  | init {s : σ} : S.init s → Reach s
  | step {s t : σ} {a : α} : Reach s → S.step s a = some t → Reach t

/-- The states reached by runs every step of which meets `C`, a condition on
the state before the step and the action taken. -/
inductive ReachOn (C : σ → α → Prop) : σ → Prop
  | init {s : σ} : S.init s → ReachOn C s
  | step {s t : σ} {a : α} : ReachOn C s → C s a → S.step s a = some t → ReachOn C t

/-- Every step of a list of actions meets `C`. -/
def Along (C : σ → α → Prop) : σ → List α → Prop
  | _, [] => True
  | s, a :: as => C s a ∧ match S.step s a with
    | some t => Along C t as
    | none => True

/-- An invariant that every step keeps. -/
structure Stable (I : σ → Prop) : Prop where
  init : ∀ s, S.init s → I s
  step : ∀ s a t, I s → S.step s a = some t → I t

variable {S}

theorem exec_cons {s t : σ} {a : α} {as : List α} (h : S.exec s (a :: as) = some t) :
    ∃ u, S.step s a = some u ∧ S.exec u as = some t :=
  Option.bind_eq_some_iff.mp h

theorem exec_step {s t u : σ} {a : α} {as : List α} (h : S.step s a = some t)
    (h' : S.exec t as = some u) : S.exec s (a :: as) = some u := by
  rw [exec, h]
  exact h'

theorem exec_append {s : σ} {as bs : List α} :
    S.exec s (as ++ bs) = (S.exec s as).bind fun t => S.exec t bs := by
  induction as generalizing s with
  | nil => rfl
  | cons a as ih =>
    simp only [List.cons_append, exec, Option.bind_assoc]
    exact congrArg _ (funext fun u => ih)

theorem exec_trans {s t u : σ} {as bs : List α} (h : S.exec s as = some t)
    (h' : S.exec t bs = some u) : S.exec s (as ++ bs) = some u := by
  rw [exec_append, h]
  exact h'

theorem Stable.reach {I : σ → Prop} (h : S.Stable I) {s : σ} (hs : S.Reach s) : I s := by
  induction hs with
  | init hi => exact h.init _ hi
  | step _ hst ih => exact h.step _ _ _ ih hst

/-- What every step keeps, every run keeps. -/
theorem exec_keeps {P : σ → Prop} (hstep : ∀ s a t, P s → S.step s a = some t → P t) {s t : σ}
    {as : List α} (hs : P s) (he : S.exec s as = some t) : P t := by
  induction as generalizing s with
  | nil => cases he; exact hs
  | cons a as ih =>
    obtain ⟨u, hu, hr⟩ := exec_cons he
    exact ih (hstep _ _ _ hs hu) hr

theorem Reach.exec {s t : σ} {as : List α} (hs : S.Reach s) (he : S.exec s as = some t) :
    S.Reach t := by
  induction as generalizing s with
  | nil => cases he; exact hs
  | cons a as ih =>
    obtain ⟨u, hu, hr⟩ := exec_cons he
    exact ih (hs.step hu) hr

/-- Once `F` holds for good, no action of a kind that `F` excludes is taken. -/
theorem countP_eq_zero {I F : σ → Prop} (hI : S.Stable I) {p : α → Bool}
    (hkeep : ∀ s a t, I s → F s → S.step s a = some t → F t)
    (hexcl : ∀ s a t, I s → p a = true → S.step s a = some t → ¬ F s) {s t : σ}
    {as : List α} (hs : I s) (hF : F s) (he : S.exec s as = some t) : as.countP p = 0 := by
  induction as generalizing s with
  | nil => rfl
  | cons a as ih =>
    obtain ⟨u, hu, hr⟩ := exec_cons he
    have ha : ¬ p a = true := fun hp => hexcl s a u hs hp hu hF
    rw [List.countP_cons_of_neg ha]
    exact ih (hI.step s a u hs hu) (hkeep s a u hs hF hu) hr

/-- Actions of a kind that `F` excludes, and that make `F` hold for good, are
taken at most once in a run. -/
theorem countP_le_one {I F : σ → Prop} (hI : S.Stable I) {p : α → Bool}
    (hkeep : ∀ s a t, I s → F s → S.step s a = some t → F t)
    (hexcl : ∀ s a t, I s → p a = true → S.step s a = some t → ¬ F s)
    (hmake : ∀ s a t, I s → p a = true → S.step s a = some t → F t) {s t : σ}
    {as : List α} (hs : I s) (he : S.exec s as = some t) : as.countP p ≤ 1 := by
  induction as generalizing s with
  | nil => exact Nat.zero_le _
  | cons a as ih =>
    obtain ⟨u, hu, hr⟩ := exec_cons he
    have hiu := hI.step s a u hs hu
    by_cases hp : p a = true
    · have hrest := countP_eq_zero hI hkeep hexcl hiu (hmake s a u hs hp hu) hr
      rw [List.countP_cons_of_pos hp]
      omega
    · rw [List.countP_cons_of_neg hp]
      exact ih hiu hr

/-- Where every state of `P` is in `Q` or has a step within `P` that lowers the
rank, some run comes to `Q`. -/
theorem exec_of_rank {P Q : σ → Prop} (rank : σ → Nat)
    (hstep : ∀ s, P s → Q s ∨ ∃ a t, S.step s a = some t ∧ P t ∧ rank t < rank s) {s : σ}
    (hs : P s) : ∃ as t, S.exec s as = some t ∧ Q t := by
  induction hm : rank s using Nat.strongRecOn generalizing s with
  | ind m ih =>
    subst hm
    rcases hstep s hs with hq | ⟨a, u, hu, hp, hlt⟩
    · exact ⟨[], s, rfl, hq⟩
    · obtain ⟨as, t, ht, hq⟩ := ih _ hlt hp rfl
      exact ⟨a :: as, t, exec_step hu ht, hq⟩

/-- Each step of `S` is, through `f`, a run of `T`. -/
theorem Reach.map_runs {τ β : Type} {T : System τ β} (f : σ → τ)
    (hinit : ∀ s, S.init s → T.init (f s))
    (hstep : ∀ s a t, S.step s a = some t → ∃ bs, T.exec (f s) bs = some (f t)) {s : σ}
    (hs : S.Reach s) : T.Reach (f s) := by
  induction hs with
  | init hi => exact .init (hinit _ hi)
  | step _ hst ih =>
    obtain ⟨bs, hb⟩ := hstep _ _ _ hst
    exact ih.exec hb

/-- A run of `S` is, through `f`, a run of `T` with pauses. -/
theorem Reach.map {τ β : Type} {T : System τ β} (f : σ → τ) (hinit : ∀ s, S.init s → T.init (f s))
    (hstep : ∀ s a t, S.step s a = some t → f t = f s ∨ ∃ b, T.step (f s) b = some (f t)) {s : σ}
    (hs : S.Reach s) : T.Reach (f s) := by
  refine hs.map_runs f hinit fun s a t hst => ?_
  rcases hstep s a t hst with he | ⟨b, hb⟩
  · exact ⟨[], by rw [he]; rfl⟩
  · exact ⟨[b], by simp only [System.exec, hb, Option.bind_some]⟩

/-- A concrete run, for evaluation. -/
theorem reach_get (S : System σ α) {s : σ} (as : List α) (hs : S.init s)
    (h : (S.exec s as).isSome = true) : S.Reach ((S.exec s as).get h) :=
  (Reach.init hs).exec (Option.some_get h).symm

theorem ReachOn.reach {C : σ → α → Prop} {s : σ} (hs : S.ReachOn C s) : S.Reach s := by
  induction hs with
  | init hi => exact .init hi
  | step _ _ hst ih => exact .step ih hst

instance decidableAlong {C : σ → α → Prop} [∀ s a, Decidable (C s a)] :
    ∀ (s : σ) (as : List α), Decidable (S.Along C s as)
  | _, [] => inferInstanceAs (Decidable True)
  | s, a :: as =>
    match h : S.step s a with
    | some t =>
      have : Decidable (S.Along C t as) := decidableAlong t as
      decidable_of_iff (C s a ∧ S.Along C t as) (by simp only [Along, h])
    | none => decidable_of_iff (C s a) (by simp only [Along, h, and_true])

theorem Along.of_forall {C : σ → α → Prop} {as : List α} (h : ∀ a ∈ as, ∀ s, C s a) (s : σ) :
    S.Along C s as := by
  induction as generalizing s with
  | nil => trivial
  | cons a as ih =>
    refine ⟨h a (by simp) s, ?_⟩
    split
    · exact ih (fun b hb => h b (by simp [hb])) _
    · trivial

theorem Along.mono {C C' : σ → α → Prop} {as : List α} {s : σ} (h : S.Along C s as)
    (hc : ∀ s a, C s a → C' s a) : S.Along C' s as := by
  induction as generalizing s with
  | nil => trivial
  | cons a as ih =>
    obtain ⟨ha, hrest⟩ := h
    refine ⟨hc s a ha, ?_⟩
    split
    · rename_i t ht
      rw [ht] at hrest
      exact ih hrest
    · trivial

theorem Along.append {C : σ → α → Prop} {as bs : List α} {s : σ} (h : S.Along C s as)
    (h' : ∀ t, S.exec s as = some t → S.Along C t bs) : S.Along C s (as ++ bs) := by
  induction as generalizing s with
  | nil => exact h' s rfl
  | cons a as ih =>
    obtain ⟨ha, hrest⟩ := h
    refine ⟨ha, ?_⟩
    split
    · rename_i t ht
      rw [ht] at hrest
      exact ih hrest fun u hu => h' u (exec_step ht hu)
    · trivial

theorem ReachOn.exec {C : σ → α → Prop} {s t : σ} {as : List α} (hs : S.ReachOn C s)
    (hc : S.Along C s as) (he : S.exec s as = some t) : S.ReachOn C t := by
  induction as generalizing s with
  | nil => cases he; exact hs
  | cons a as ih =>
    obtain ⟨u, hu, hr⟩ := exec_cons he
    obtain ⟨ha, hrest⟩ := hc
    rw [hu] at hrest
    exact ih (hs.step ha hu) hrest hr

theorem reachOn_get (S : System σ α) {C : σ → α → Prop} {s : σ} (as : List α) (hs : S.init s)
    (hc : S.Along C s as) (h : (S.exec s as).isSome = true) :
    S.ReachOn C ((S.exec s as).get h) :=
  (ReachOn.init hs).exec hc (Option.some_get h).symm

theorem Along.left {C : σ → α → Prop} {as bs : List α} {s : σ} (h : S.Along C s (as ++ bs)) :
    S.Along C s as := by
  induction as generalizing s with
  | nil => trivial
  | cons a as ih =>
    obtain ⟨ha, hrest⟩ := h
    refine ⟨ha, ?_⟩
    split
    · rename_i t ht
      rw [ht] at hrest
      exact ih hrest
    · trivial

theorem Along.right {C : σ → α → Prop} {as bs : List α} {s t : σ} (h : S.Along C s (as ++ bs))
    (he : S.exec s as = some t) : S.Along C t bs := by
  induction as generalizing s with
  | nil => cases he; exact h
  | cons a as ih =>
    obtain ⟨u, hu, hr⟩ := exec_cons he
    obtain ⟨-, hrest⟩ := h
    rw [List.append_eq, hu] at hrest
    exact ih hrest hr

/-- Runs with their history: a property of the actions taken so far and the
state they lead to, which every step meeting `C` carries on. -/
theorem exec_history {C : σ → α → Prop} {P : List α → σ → Prop} {s₀ : σ} (hnil : P [] s₀)
    (hstep : ∀ as s a t, S.exec s₀ as = some s → S.Along C s₀ as → P as s → C s a →
      S.step s a = some t → P (as ++ [a]) t) {as : List α} {s : σ}
    (he : S.exec s₀ as = some s) (hc : S.Along C s₀ as) : P as s := by
  induction as using List.reverseRecOn generalizing s with
  | nil => cases he; exact hnil
  | append_singleton as a ih =>
    rw [exec_append] at he
    obtain ⟨u, hu, hlast⟩ := Option.bind_eq_some_iff.mp he
    obtain ⟨v, hv, hend⟩ := exec_cons hlast
    cases hend
    exact hstep as u a _ hu hc.left (ih hu hc.left) (hc.right hu).1 hv

/-- Restricted runs: an invariant that the steps meeting `C` keep, in the
presence of an invariant `J` of all runs. -/
theorem ReachOn.invariant {C : σ → α → Prop} {I J : σ → Prop} (hJ : ∀ s, S.Reach s → J s)
    (hinit : ∀ s, S.init s → I s)
    (hstep : ∀ s a t, J s → I s → C s a → S.step s a = some t → I t)
    {s : σ} (hs : S.ReachOn C s) : I s := by
  induction hs with
  | init hi => exact hinit _ hi
  | step hr hc hst ih => exact hstep _ _ _ (hJ _ hr.reach) ih hc hst

end System
end WorkspaceProxy.Conc
