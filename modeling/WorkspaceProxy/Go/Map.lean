import Mathlib.Data.List.Nodup
import Mathlib.Data.List.Perm.Basic
import Mathlib.Logic.Function.Basic

/-! # Maps and range loops

A Go map is a partial function with finitely many keys. A range loop visits
each of its entries once, in an order that the language leaves open: `Ranges m l`
says that the loop over `m` may visit the list `l`. Assigning to a key keeps a
list of the entries, so a map that is built by assignments has such an order. -/
namespace WorkspaceProxy.Go

variable {K V : Type} {m : K → Option V} {l l' : List (K × V)} {k : K} {v : V}

structure Ranges (m : K → Option V) (l : List (K × V)) : Prop where
  once : (l.map Prod.fst).Nodup
  mem : ∀ k v, (k, v) ∈ l ↔ m k = some v

theorem ranges_empty : Ranges (fun _ => none : K → Option V) [] :=
  ⟨List.nodup_nil, fun _ _ => iff_of_false List.not_mem_nil (fun h => by cases h)⟩

theorem Ranges.of_perm (h : Ranges m l) (hp : l.Perm l') : Ranges m l' :=
  ⟨(hp.map Prod.fst).nodup_iff.mp h.once, fun k v => hp.mem_iff.symm.trans (h.mem k v)⟩

/-- Two orders of one map visit the same entries. -/
theorem Ranges.perm (h : Ranges m l) (h' : Ranges m l') : l.Perm l' := by
  refine (List.perm_ext_iff_of_nodup (.of_map _ h.once) (.of_map _ h'.once)).mpr ?_
  rintro ⟨k, v⟩
  rw [h.mem, h'.mem]

variable [DecidableEq K]

/-- The first entry for a key is the only one. -/
theorem Ranges.find? (h : Ranges m l) (k : K) :
    (l.find? fun kv => kv.1 = k).map Prod.snd = m k := by
  cases hf : l.find? fun kv => kv.1 = k with
  | none =>
    cases hm : m k with
    | none => rfl
    | some v =>
      have hmem := (h.mem k v).mpr hm
      have hne := List.find?_eq_none.mp hf (k, v) hmem
      exact absurd (decide_eq_true rfl) hne
  | some kv =>
    obtain ⟨k', v⟩ := kv
    have hk : k' = k := by simpa using List.find?_some hf
    subst hk
    exact ((h.mem k' v).mp (List.mem_of_find?_eq_some hf)).symm

/-- A list of entries after `m[k] = v`. -/
def assign (l : List (K × V)) (k : K) (v : V) : List (K × V) :=
  l.filter (fun kv => kv.1 ≠ k) ++ [(k, v)]

theorem Ranges.assign (h : Ranges m l) (k : K) (v : V) :
    Ranges (Function.update m k (some v)) (Go.assign l k v) where
  once := by
    have hsub : ((l.filter fun kv => kv.1 ≠ k).map Prod.fst).Sublist (l.map Prod.fst) :=
      List.filter_sublist.map _
    rw [Go.assign, List.map_append, List.nodup_append]
    refine ⟨hsub.nodup h.once, List.nodup_singleton _, ?_⟩
    intro a ha b hb
    obtain ⟨kv, hkv, rfl⟩ := List.mem_map.mp ha
    have hbk : b = k := List.mem_singleton.mp hb
    rw [hbk]
    exact of_decide_eq_true (List.mem_filter.mp hkv).2
  mem k' v' := by
    rw [Go.assign, List.mem_append, List.mem_filter, List.mem_singleton, Function.update_apply]
    by_cases hk : k' = k
    · subst hk
      simp [eq_comm]
    · simp [hk, h.mem]

/-- A key that is new comes to the end. -/
theorem Ranges.snoc (h : Ranges m l) (hk : m k = none) (v : V) :
    Ranges (Function.update m k (some v)) (l ++ [(k, v)]) := by
  have hfilter : l.filter (fun kv => kv.1 ≠ k) = l := by
    refine List.filter_eq_self.mpr fun kv hkv => decide_eq_true ?_
    rintro rfl
    have := (h.mem kv.1 kv.2).mp hkv
    rw [hk] at this
    cases this
  have hassign := h.assign k v
  rwa [Go.assign, hfilter] at hassign

end WorkspaceProxy.Go
