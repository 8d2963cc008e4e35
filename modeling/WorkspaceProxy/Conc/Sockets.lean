import Mathlib.Tactic.Common
import Mathlib.Data.List.Basic
import Mathlib.Data.Set.Insert

/-! # Resources held exclusively by address

A table of everything that was ever bound, in the order of binding. A bind
needs an address that no open entry holds, closing an entry frees its address,
and an entry is never removed, so its index identifies it for good. `tag` is
whatever the user of the table wants to remember about an entry. -/
namespace WorkspaceProxy.Conc

structure Sock (A T : Type) where
  addr : A
  isOpen : Bool
  tag : T
  deriving DecidableEq, Repr

namespace Sock
variable {A T : Type}

/-- No open entry holds `a`. -/
def free [DecidableEq A] (ss : List (Sock A T)) (a : A) : Bool :=
  ss.all fun f => !(f.isOpen && f.addr == a)

/-- Close entry `i`. Closing twice changes nothing more. -/
def shut (ss : List (Sock A T)) (i : Nat) : List (Sock A T) :=
  ss.modify i fun f => { f with isOpen := false }

/-- At most one open entry for each address. -/
def Exclusive (ss : List (Sock A T)) : Prop :=
  ∀ (i j : Nat) (f g : Sock A T), ss[i]? = some f → ss[j]? = some g → f.isOpen = true → g.isOpen = true →
    f.addr = g.addr → i = j

theorem getElem?_bind {ss : List (Sock A T)} {f g : Sock A T} {i : Nat} :
    (ss ++ [f])[i]? = some g ↔ ss[i]? = some g ∨ (i = ss.length ∧ f = g) := by
  rcases Nat.lt_trichotomy i ss.length with h | h | h
  · rw [List.getElem?_append_left h]
    constructor
    · exact Or.inl
    · rintro (hg | ⟨rfl, -⟩)
      · exact hg
      · omega
  · subst h; simp
  · rw [List.getElem?_append_right (by omega)]
    have hn : i - ss.length ≠ 0 := by omega
    have hs : ss[i]? = none := List.getElem?_eq_none (by omega)
    simp [hn, hs, Nat.ne_of_gt h]

theorem getElem?_shut {ss : List (Sock A T)} {g : Sock A T} {i j : Nat} :
    (shut ss i)[j]? = some g ↔
      ∃ f, ss[j]? = some f ∧ g = if i = j then { f with isOpen := false } else f := by
  simp only [shut, List.getElem?_modify, Option.map_eq_map, Option.map_eq_some_iff]
  split <;> simp [eq_comm (b := g)]

theorem exclusive_nil : Exclusive ([] : List (Sock A T)) := by
  intro i j f g hi; simp at hi

theorem Exclusive.bind [DecidableEq A] {ss : List (Sock A T)} (h : Exclusive ss) {f : Sock A T}
    (hf : free ss f.addr = true) : Exclusive (ss ++ [f]) := by
  -- an open entry of the old table does not hold the new address
  have hne : ∀ (i : Nat) g, ss[i]? = some g → g.isOpen = true → g.addr ≠ f.addr := by
    intro i g hg ho he
    have := List.all_eq_true.mp hf g (List.mem_of_getElem? hg)
    simp [ho, he] at this
  intro i j g₁ g₂ h₁ h₂ o₁ o₂ he
  rcases getElem?_bind.mp h₁ with h₁ | ⟨rfl, rfl⟩ <;> rcases getElem?_bind.mp h₂ with h₂ | ⟨rfl, rfl⟩
  · exact h i j g₁ g₂ h₁ h₂ o₁ o₂ he
  · exact absurd he (hne i g₁ h₁ o₁)
  · exact absurd he.symm (hne j g₂ h₂ o₂)
  · rfl

theorem Exclusive.shut {ss : List (Sock A T)} (h : Exclusive ss) (i : Nat) :
    Exclusive (shut ss i) := by
  intro j k g₁ g₂ h₁ h₂ o₁ o₂ he
  obtain ⟨f₁, hf₁, rfl⟩ := getElem?_shut.mp h₁
  obtain ⟨f₂, hf₂, rfl⟩ := getElem?_shut.mp h₂
  split at o₁
  · cases o₁
  · split at o₂
    · cases o₂
    · rename_i hj hk
      simp only [hj, hk, if_false] at he
      exact h j k f₁ f₂ hf₁ hf₂ o₁ o₂ he

/-! ## The open entries -/

/-- The open entries, each with its index. -/
def opened (ss : List (Sock A T)) : Set (Nat × Sock A T) :=
  {x | ss[x.1]? = some x.2 ∧ x.2.isOpen = true}

theorem mem_opened {ss : List (Sock A T)} {i : Nat} {f : Sock A T} :
    (i, f) ∈ opened ss ↔ ss[i]? = some f ∧ f.isOpen = true := Iff.rfl

theorem not_mem_opened_length (ss : List (Sock A T)) (f : Sock A T) :
    (ss.length, f) ∉ opened ss := by
  intro h
  rw [mem_opened, List.getElem?_eq_none (Nat.le_refl _)] at h
  cases h.1

theorem opened_bind (ss : List (Sock A T)) {f : Sock A T} (hf : f.isOpen = true) :
    opened (ss ++ [f]) = insert (ss.length, f) (opened ss) := by
  ext ⟨i, g⟩
  rw [Set.mem_insert_iff, mem_opened, mem_opened, getElem?_bind, Prod.mk.injEq]
  constructor
  · rintro ⟨h | ⟨hi, rfl⟩, ho⟩
    · exact .inr ⟨h, ho⟩
    · exact .inl ⟨hi, rfl⟩
  · rintro (⟨hi, rfl⟩ | ⟨h, ho⟩)
    · exact ⟨.inr ⟨hi, rfl⟩, hf⟩
    · exact ⟨.inl h, ho⟩

theorem opened_shut {ss : List (Sock A T)} {i : Nat} {f : Sock A T} (hf : ss[i]? = some f) :
    opened (shut ss i) = opened ss \ {(i, f)} := by
  ext ⟨j, g⟩
  rw [Set.mem_sdiff, Set.mem_singleton_iff, mem_opened, mem_opened, getElem?_shut, Prod.mk.injEq]
  constructor
  · rintro ⟨⟨g', hg', rfl⟩, ho⟩
    split at ho
    · cases ho
    · rename_i hne
      rw [if_neg hne]
      exact ⟨⟨hg', ho⟩, fun h => hne h.1.symm⟩
  · rintro ⟨⟨hg, ho⟩, hne⟩
    have hij : i ≠ j := by
      rintro rfl
      rw [hf] at hg
      exact hne ⟨rfl, (Option.some.inj hg).symm⟩
    exact ⟨⟨g, hg, (if_neg hij).symm⟩, ho⟩

end Sock
end WorkspaceProxy.Conc
