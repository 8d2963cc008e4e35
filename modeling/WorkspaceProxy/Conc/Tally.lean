import Mathlib.Data.Set.Card

/-! # Counting the threads in a phase

Any number of threads, each in a phase; `tally p` counts those whose phase
satisfies `p`. It is a number as long as they are finitely many, which one
move of one thread keeps. -/
namespace WorkspaceProxy.Conc
variable {ι P : Type} {p : P → Prop} {f : ι → P} {i : ι} {c : P}

/-- The threads whose phase satisfies `p`. -/
def among (p : P → Prop) (f : ι → P) : Set ι := {i | p (f i)}

noncomputable def tally (p : P → Prop) (f : ι → P) : Nat := (among p f).ncard

theorem tally_pos (hf : (among p f).Finite) (hi : p (f i)) : 0 < tally p f :=
  (Set.ncard_pos hf).mpr ⟨i, hi⟩

variable [DecidableEq ι]

theorem among_update_of_pos (hc : p c) :
    among p (Function.update f i c) = insert i (among p f) := by
  ext j
  by_cases hj : j = i
  · subst hj; simp [among, hc]
  · simp [among, hj]

theorem among_update_of_neg (hc : ¬ p c) :
    among p (Function.update f i c) = among p f \ {i} := by
  ext j
  by_cases hj : j = i
  · subst hj; simp [among, hc]
  · simp [among, hj]

theorem finite_among_update (hf : (among p f).Finite) :
    (among p (Function.update f i c)).Finite := by
  by_cases hc : p c
  · rw [among_update_of_pos hc]; exact hf.insert i
  · rw [among_update_of_neg hc]; exact hf.sdiff

theorem tally_enter (hf : (among p f).Finite) (hi : ¬ p (f i)) (hc : p c) :
    tally p (Function.update f i c) = tally p f + 1 := by
  unfold tally
  rw [among_update_of_pos hc]
  exact Set.ncard_insert_of_notMem hi hf

theorem tally_leave (hf : (among p f).Finite) (hi : p (f i)) (hc : ¬ p c) :
    tally p (Function.update f i c) + 1 = tally p f := by
  unfold tally
  rw [among_update_of_neg hc]
  exact Set.ncard_sdiff_singleton_add_one hi hf

theorem tally_stay (h : p c ↔ p (f i)) : tally p (Function.update f i c) = tally p f := by
  unfold tally
  by_cases hc : p c
  · rw [among_update_of_pos hc, Set.insert_eq_of_mem (show i ∈ among p f from h.mp hc)]
  · have hi : i ∉ among p f := fun hi => hc (h.mpr hi)
    rw [among_update_of_neg hc, Set.sdiff_singleton_eq_self hi]

end WorkspaceProxy.Conc
