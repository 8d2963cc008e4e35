import WorkspaceProxy.Go.Strings
import WorkspaceProxy.Go.Map

/-! # Environments

An environment is a list of strings, most of them of the form `key=value`. The
key ends at the first equals sign, and a string without one has no key. Among
several entries for a key some readers take the first and others the last; for
a list that has each key once they agree (`firstValue_of_ranges`,
`lastValue_of_ranges`). The run-time system keeps the first entry of the block
that a process is started with (`environ`, `lookupEnviron`). -/
namespace WorkspaceProxy.Go

/-- The byte `=`. -/
abbrev equals : UInt8 := 61

/-- `strings.Cut` at a separator of one byte. -/
def cut : GoString → UInt8 → Option (GoString × GoString)
  | [], _ => none
  | b :: s, sep =>
    if b = sep then some ([], s) else (cut s sep).map fun kv => (b :: kv.1, kv.2)

theorem cut_append {k : GoString} {sep : UInt8} (v : GoString) (h : sep ∉ k) :
    cut (k ++ sep :: v) sep = some (k, v) := by
  induction k with
  | nil => simp [cut]
  | cons b k ih =>
    have hb : b ≠ sep := fun he => h (he ▸ List.mem_cons_self ..)
    have hk := ih fun hmem => h (List.mem_cons_of_mem b hmem)
    simp [cut, hb, hk]

theorem cut_some {s k v : GoString} {sep : UInt8} (h : cut s sep = some (k, v)) :
    s = k ++ sep :: v ∧ sep ∉ k := by
  induction s generalizing k with
  | nil => cases h
  | cons b s ih =>
    rw [cut] at h
    split at h
    · rename_i hb
      cases h
      exact ⟨by rw [hb]; rfl, List.not_mem_nil⟩
    · rename_i hb
      obtain ⟨⟨k', v'⟩, hs, he⟩ := Option.map_eq_some_iff.mp h
      cases he
      obtain ⟨rfl, hk⟩ := ih hs
      exact ⟨rfl, List.not_mem_cons_of_ne_of_not_mem (Ne.symm hb) hk⟩

/-- An entry of an environment. -/
def entry (kv : GoString × GoString) : GoString := kv.1 ++ equals :: kv.2

/-- The value of an entry, if it is for `key`. -/
def valueFor (key e : GoString) : Option GoString :=
  match cut e equals with
  | some (k, v) => if k = key then some v else none
  | none => none

theorem valueFor_eq_some {key e v : GoString} :
    valueFor key e = some v ↔ cut e equals = some (key, v) := by
  unfold valueFor
  split
  · rename_i k v' hcut
    split
    · rename_i hk
      subst hk
      rw [hcut]
      simp
    · rename_i hk
      rw [hcut]
      simp [hk]
  · rename_i hcut
    simp [hcut]

theorem valueFor_entry {k v : GoString} (hk : equals ∉ k) (key : GoString) :
    valueFor key (entry (k, v)) = if k = key then some v else none := by
  rw [valueFor, entry, cut_append v hk]

/-- The value in the first entry for a key. -/
def firstValue (env : List GoString) (key : GoString) : Option GoString :=
  env.findSome? (valueFor key)

/-- The value in the last entry for a key. -/
def lastValue (env : List GoString) (key : GoString) : Option GoString :=
  firstValue env.reverse key

theorem firstValue_cons (e : GoString) (env : List GoString) (key : GoString) :
    firstValue (e :: env) key = (valueFor key e).or (firstValue env key) := by
  unfold firstValue
  rw [List.findSome?_cons]
  cases valueFor key e <;> rfl

theorem firstValue_append (env env' : List GoString) (key : GoString) :
    firstValue (env ++ env') key = (firstValue env key).or (firstValue env' key) := by
  unfold firstValue
  rw [List.findSome?_append]

theorem lastValue_append (env env' : List GoString) (key : GoString) :
    lastValue (env ++ env') key = (lastValue env' key).or (lastValue env key) := by
  rw [lastValue, List.reverse_append, firstValue_append]
  rfl

theorem lastValue_cons (e : GoString) (env : List GoString) (key : GoString) :
    lastValue (e :: env) key = (lastValue env key).or (valueFor key e) := by
  have hone : lastValue [e] key = valueFor key e := by
    rw [lastValue, List.reverse_singleton, firstValue_cons]
    exact Option.or_none
  rw [← List.singleton_append, lastValue_append, hone]

/-- No entry is for `key`. -/
def Absent (env : List GoString) (key : GoString) : Prop :=
  ∀ e ∈ env, ∀ v, cut e equals ≠ some (key, v)

/-- The last entry for `key` has the value `v`. -/
def LastEntry (env : List GoString) (key v : GoString) : Prop :=
  ∃ before e after, env = before ++ e :: after ∧ cut e equals = some (key, v) ∧ Absent after key

theorem lastValue_eq_none {env : List GoString} {key : GoString} :
    lastValue env key = none ↔ Absent env key := by
  simp only [lastValue, firstValue, List.findSome?_eq_none_iff, List.mem_reverse]
  refine forall₂_congr fun e _ => ?_
  rw [Option.eq_none_iff_forall_ne_some]
  exact forall_congr' fun v => not_congr valueFor_eq_some

theorem lastEntry_iff {env : List GoString} {key v : GoString} :
    LastEntry env key v ↔ lastValue env key = some v := by
  constructor
  · rintro ⟨before, e, after, rfl, hcut, habsent⟩
    rw [lastValue_append, lastValue_cons, lastValue_eq_none.mpr habsent, Option.none_or,
      valueFor_eq_some.mpr hcut]
    rfl
  · intro h
    induction env with
    | nil => cases h
    | cons e env ih =>
      rw [lastValue_cons] at h
      cases hrest : lastValue env key with
      | some w =>
        rw [hrest, Option.some_or] at h
        obtain ⟨before, e', after, henv, hlast⟩ := ih (hrest.trans h)
        exact ⟨e :: before, e', after, by rw [henv]; rfl, hlast⟩
      | none =>
        rw [hrest, Option.none_or] at h
        exact ⟨[], e, env, rfl, valueFor_eq_some.mp h, lastValue_eq_none.mp hrest⟩

theorem LastEntry.key {env : List GoString} {key v : GoString} (h : LastEntry env key v) :
    equals ∉ key := by
  obtain ⟨_, _, _, -, hcut, -⟩ := h
  exact (cut_some hcut).2

/-! ## Lists that have each key once -/

section
variable {m : GoString → Option GoString} {kvs : List (GoString × GoString)}

theorem firstValue_map_entry (hkeys : ∀ kv ∈ kvs, equals ∉ kv.1) (key : GoString) :
    firstValue (kvs.map entry) key = (kvs.find? fun kv => kv.1 = key).map Prod.snd := by
  induction kvs with
  | nil => rfl
  | cons kv kvs ih =>
    have hkv : equals ∉ kv.1 := hkeys kv (by simp)
    rw [List.map_cons, firstValue_cons, valueFor_entry hkv, List.find?_cons,
      ih fun kv' hkv' => hkeys kv' (by simp [hkv'])]
    by_cases hk : kv.1 = key <;> simp [hk]

theorem firstValue_of_ranges (h : Ranges m kvs) (hkeys : ∀ kv ∈ kvs, equals ∉ kv.1)
    (key : GoString) : firstValue (kvs.map entry) key = m key := by
  rw [firstValue_map_entry hkeys, h.find?]

theorem lastValue_of_ranges (h : Ranges m kvs) (hkeys : ∀ kv ∈ kvs, equals ∉ kv.1)
    (key : GoString) : lastValue (kvs.map entry) key = m key := by
  have hperm := (List.reverse_perm kvs).symm
  rw [lastValue, ← List.map_reverse]
  exact firstValue_of_ranges (h.of_perm hperm)
    (fun kv hkv => hkeys kv (List.mem_reverse.mp hkv)) key

end

/-! ## The environment of a process -/

/-- `os.Environ` of a process that was started with the block `envs`, once the
entries for the keys in `seen` are dropped: later entries for a key are cleared,
and empty strings are left out. -/
def environFrom (seen : List GoString) : List GoString → List GoString
  | [] => []
  | e :: envs =>
    match cut e equals with
    | some (k, _) =>
      if seen.contains k then environFrom seen envs else e :: environFrom (k :: seen) envs
    | none => if e = [] then environFrom seen envs else e :: environFrom seen envs

/-- `os.Environ`. -/
def environ (envs : List GoString) : List GoString := environFrom [] envs

/-- `os.LookupEnv`; an empty key is never found. -/
def lookupEnviron (envs : List GoString) (key : GoString) : Option GoString :=
  if key = [] then none else firstValue envs key

theorem lastValue_environFrom (seen envs : List GoString) (key : GoString) :
    lastValue (environFrom seen envs) key = if key ∈ seen then none else firstValue envs key := by
  induction envs generalizing seen with
  | nil => simp [environFrom, lastValue, firstValue]
  | cons e envs ih =>
    rw [environFrom, firstValue_cons]
    cases hcut : cut e equals with
    | none =>
      have hnone : valueFor key e = none := by simp [valueFor, hcut]
      dsimp only
      split
      · rw [ih, hnone, Option.none_or]
      · rw [lastValue_cons, ih, hnone, Option.none_or, Option.or_none]
    | some kv =>
      obtain ⟨k, v⟩ := kv
      have hval : valueFor key e = if k = key then some v else none := by simp [valueFor, hcut]
      dsimp only
      split
      · rename_i hseen
        rw [ih, hval]
        by_cases hkey : key ∈ seen
        · rw [if_pos hkey, if_pos hkey]
        · have hne : k ≠ key := fun he => hkey (he ▸ List.contains_iff_mem.mp hseen)
          rw [if_neg hkey, if_neg hkey, if_neg hne, Option.none_or]
      · rename_i hseen
        rw [List.contains_iff_mem] at hseen
        rw [lastValue_cons, ih, hval]
        by_cases hk : k = key
        · subst hk
          simp [hseen]
        · simp [hk, Ne.symm hk]

/-- The environment of a process has each key once, with the value that
`os.LookupEnv` finds. -/
theorem lastValue_environ (envs : List GoString) {key : GoString} (hkey : key ≠ []) :
    lastValue (environ envs) key = lookupEnviron envs key := by
  rw [environ, lastValue_environFrom, lookupEnviron, if_neg hkey, if_neg List.not_mem_nil]

end WorkspaceProxy.Go
