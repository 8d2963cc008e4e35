import Mathlib.Tactic.Common

/-! # A mutex and its critical sections

The mutex names its holder. It guards the critical sections when the parties
inside one are those it names, so that at most one is inside at a time. -/
namespace WorkspaceProxy.Conc
variable {H : Type}

/-- The parties that are inside are the holders. -/
def Guards (mu : Option H) (inside : H → Prop) : Prop := ∀ h, inside h ↔ mu = some h

variable {mu : Option H} {inside inside' : H → Prop}

/-- Nobody is inside while the mutex is free. -/
theorem Guards.free (hg : Guards none inside) (h : H) : ¬ inside h := fun hi => by
  cases (hg h).mp hi

theorem Guards.lock {me : H} (hg : Guards none inside) (hme : inside' me)
    (hothers : ∀ h, h ≠ me → (inside' h ↔ inside h)) : Guards (some me) inside' := by
  intro h
  by_cases hh : h = me
  · subst hh; exact iff_of_true hme rfl
  · refine iff_of_false (fun hi => hg.free h ((hothers h hh).mp hi)) fun he => hh ?_
    exact (Option.some.inj he).symm

theorem Guards.unlock (hg : Guards mu inside) (me : H) (hin : inside me) (hme : ¬ inside' me)
    (hothers : ∀ h, h ≠ me → (inside' h ↔ inside h)) : Guards none inside' := by
  intro h
  refine iff_of_false (fun hi => ?_) nofun
  by_cases hh : h = me
  · subst hh; exact hme hi
  · have hmine := (hg me).mp hin
    rw [(hg h).mp ((hothers h hh).mp hi)] at hmine
    exact hh (Option.some.inj hmine)

/-- A party moves within its critical section, or outside. -/
theorem Guards.keep (hg : Guards mu inside) (me : H) (hme : inside' me ↔ inside me)
    (hothers : ∀ h, h ≠ me → (inside' h ↔ inside h)) : Guards mu inside' := by
  intro h
  by_cases hh : h = me
  · subst hh; exact hme.trans (hg h)
  · exact (hothers h hh).trans (hg h)

theorem Guards.stay (hg : Guards mu inside) (h : ∀ h, inside' h ↔ inside h) : Guards mu inside' :=
  fun k => (h k).trans (hg k)

end WorkspaceProxy.Conc
