import WorkspaceProxy.Go.Environ

/-! # The environment of a session

A session's process gets the environment of the server, overridden by what the
client sent, with the account variables filled in from the passwd entry. The
merge goes through a map, so its result comes in any order. Whatever the order
is, each key is there once, so the first-match lookup that picks the working
directory and the last-match rule of package os/exec see the same values. -/
namespace WorkspaceProxy.SshServer.Environment
open WorkspaceProxy.Go

def envHome : GoString := bytes "HOME"
def envUser : GoString := bytes "USER"
def envLogname : GoString := bytes "LOGNAME"

/-- What is read of a `user.User`. -/
structure Passwd where
  username : GoString
  homeDir : GoString
  deriving DecidableEq

/-- One round of the first loop of `mergeEnv`. -/
def mergeEntry (merged : GoString → Option GoString) (e : GoString) :
    GoString → Option GoString :=
  match cut e equals with
  | some (key, value) => Function.update merged key (some value)
  | none => merged

/-- The map of `mergeEnv`; `environ` is the list that `os.Environ` returns. -/
def merged (environ sessionEnv : List GoString) : GoString → Option GoString :=
  (environ ++ sessionEnv).foldl mergeEntry fun _ => none

/-- `mergeEnv` may return `out`: its second loop visits the map in any order. -/
def MergeEnv (environ sessionEnv out : List GoString) : Prop :=
  ∃ order, Ranges (merged environ sessionEnv) order ∧ out = order.map entry

/-- `lookupEnv`, whose second result is whether there is a first. -/
def lookupEnv : List GoString → GoString → Option GoString
  | [], _ => none
  | e :: env, key =>
    if (key ++ [equals]).isPrefixOf e then some (e.drop (key ++ [equals]).length)
    else lookupEnv env key

/-- `withPasswdFallback`, with the result of `user.Current`. -/
def withPasswdFallback (current : Option Passwd) (env : List GoString) : List GoString :=
  let hasHome := (lookupEnv env envHome).isSome
  let hasUser := (lookupEnv env envUser).isSome
  let hasLogname := (lookupEnv env envLogname).isSome
  if hasHome ∧ hasUser ∧ hasLogname then env
  else match current with
    | none => env
    | some current =>
      let env := if ¬ hasHome ∧ current.homeDir ≠ [] then env ++ [entry (envHome, current.homeDir)]
        else env
      if current.username ≠ [] then
        let env := if ¬ hasUser then env ++ [entry (envUser, current.username)] else env
        if ¬ hasLogname then env ++ [entry (envLogname, current.username)] else env
      else env

/-- `sessionWorkingDir`; `isDir` is whether `os.Stat` finds a directory. -/
def sessionWorkingDir (isDir : GoString → Bool) (env : List GoString) : GoString :=
  match lookupEnv env envHome with
  | none => []
  | some home => if home = [] then [] else if isDir home then home else []

/-! ## The merge -/

theorem mergeEntry_apply (m : GoString → Option GoString) (e key : GoString) :
    mergeEntry m e key = (valueFor key e).or (m key) := by
  cases hcut : cut e equals with
  | none => simp only [mergeEntry, valueFor, hcut, Option.none_or]
  | some kv =>
    simp only [mergeEntry, valueFor, hcut, Function.update_apply]
    by_cases hk : key = kv.1
    · simp [hk]
    · simp [hk, Ne.symm hk]

theorem foldl_mergeEntry (l : List GoString) (m : GoString → Option GoString) (key : GoString) :
    l.foldl mergeEntry m key = (lastValue l key).or (m key) := by
  induction l generalizing m with
  | nil => rfl
  | cons e l ih => rw [List.foldl_cons, ih, mergeEntry_apply, lastValue_cons, Option.or_assoc]

/-- The last entry for a key wins. -/
theorem merged_apply (environ sessionEnv : List GoString) (key : GoString) :
    merged environ sessionEnv key = lastValue (environ ++ sessionEnv) key := by
  rw [merged, foldl_mergeEntry, Option.or_none]

/-- One round of the first loop, with the map as a list. -/
def assignEntry (kvs : List (GoString × GoString)) (e : GoString) : List (GoString × GoString) :=
  match cut e equals with
  | some (key, value) => assign kvs key value
  | none => kvs

theorem ranges_foldl {m : GoString → Option GoString} {kvs : List (GoString × GoString)}
    (h : Ranges m kvs) (l : List GoString) :
    Ranges (l.foldl mergeEntry m) (l.foldl assignEntry kvs) := by
  induction l generalizing m kvs with
  | nil => exact h
  | cons e l ih =>
    refine ih ?_
    cases hcut : cut e equals with
    | none => simpa only [mergeEntry, assignEntry, hcut] using h
    | some kv => simpa only [mergeEntry, assignEntry, hcut] using h.assign kv.1 kv.2

/-- The order in which the keys were assigned is one that `mergeEnv` may take. -/
theorem mergeEnv_foldl (environ sessionEnv : List GoString) :
    MergeEnv environ sessionEnv (((environ ++ sessionEnv).foldl assignEntry []).map entry) :=
  ⟨_, ranges_foldl ranges_empty _, rfl⟩

/-! ## Environments that list a map -/

/-- `env` has an entry for each key of `m` and no other. -/
def Lists (m : GoString → Option GoString) (env : List GoString) : Prop :=
  ∃ kvs, Ranges m kvs ∧ (∀ kv ∈ kvs, equals ∉ kv.1) ∧ env = kvs.map entry

theorem MergeEnv.lists {environ sessionEnv out : List GoString}
    (h : MergeEnv environ sessionEnv out) : Lists (merged environ sessionEnv) out := by
  obtain ⟨order, hranges, hout⟩ := h
  refine ⟨order, hranges, fun kv hkv => ?_, hout⟩
  -- a key comes from a cut, so it has no equals sign
  have hmem : (kv.1, kv.2) ∈ order := hkv
  rw [hranges.mem, merged_apply, lastValue, firstValue] at hmem
  obtain ⟨e, -, hvalue⟩ := List.exists_of_findSome?_eq_some hmem
  exact (cut_some (valueFor_eq_some.mp hvalue)).2

theorem lookupEnv_eq_firstValue {key : GoString} (hkey : equals ∉ key) (env : List GoString) :
    lookupEnv env key = firstValue env key := by
  induction env with
  | nil => rfl
  | cons e env ih =>
    rw [lookupEnv, firstValue_cons]
    split
    · rename_i hprefix
      obtain ⟨v, rfl⟩ := List.isPrefixOf_iff_prefix.mp hprefix
      have hvalue : valueFor key (key ++ [equals] ++ v) = some v := by
        rw [valueFor_eq_some, List.append_assoc]
        exact cut_append v hkey
      rw [hvalue, List.drop_left, Option.some_or]
    · rename_i hprefix
      have hvalue : valueFor key e = none := by
        refine Option.eq_none_iff_forall_ne_some.mpr fun v hv => hprefix ?_
        obtain ⟨rfl, -⟩ := cut_some (valueFor_eq_some.mp hv)
        exact List.isPrefixOf_iff_prefix.mpr ⟨v, by simp⟩
      rw [hvalue, ih, Option.none_or]

section
variable {m : GoString → Option GoString} {env env' : List GoString} {key : GoString}

theorem Lists.lookupEnv (h : Lists m env) (hkey : equals ∉ key) :
    Environment.lookupEnv env key = m key := by
  obtain ⟨kvs, hranges, hkeys, rfl⟩ := h
  rw [lookupEnv_eq_firstValue hkey, firstValue_of_ranges hranges hkeys]

theorem Lists.lastValue (h : Lists m env) (key : GoString) : Go.lastValue env key = m key := by
  obtain ⟨kvs, hranges, hkeys, rfl⟩ := h
  exact lastValue_of_ranges hranges hkeys key

theorem Lists.mem (h : Lists m env) {v : GoString} (hv : m key = some v) :
    entry (key, v) ∈ env := by
  obtain ⟨kvs, hranges, -, rfl⟩ := h
  exact List.mem_map_of_mem ((hranges.mem key v).mpr hv)

theorem Lists.perm (h : Lists m env) (h' : Lists m env') : env.Perm env' := by
  obtain ⟨kvs, hranges, -, rfl⟩ := h
  obtain ⟨kvs', hranges', -, rfl⟩ := h'
  exact (hranges.perm hranges').map entry

/-- The key of an entry. -/
def keyOf (e : GoString) : Option GoString := (cut e equals).map Prod.fst

theorem Lists.keys (h : Lists m env) :
    (∀ e ∈ env, (keyOf e).isSome = true) ∧ (env.map keyOf).Nodup := by
  obtain ⟨kvs, hranges, hkeys, rfl⟩ := h
  have hkey : ∀ kv ∈ kvs, keyOf (entry kv) = some kv.1 := fun kv hkv => by
    rw [keyOf, entry, cut_append kv.2 (hkeys kv hkv)]
    rfl
  constructor
  · intro e he
    obtain ⟨kv, hkv, rfl⟩ := List.mem_map.mp he
    rw [hkey kv hkv]
    rfl
  · have hmap : (kvs.map entry).map keyOf = (kvs.map Prod.fst).map some := by
      rw [List.map_map, List.map_map]
      exact List.map_congr_left hkey
    rw [hmap]
    exact hranges.once.map (Option.some_injective _)

/-- A key that has no value takes one. -/
def withDefault (m : GoString → Option GoString) (key : GoString) (value : Option GoString) :
    GoString → Option GoString := Function.update m key ((m key).or value)

/-- An entry for `key`, unless there is one or there is no value for it. -/
def fill (env : List GoString) (has : Bool) (key value : GoString) : List GoString :=
  if has = false ∧ value ≠ [] then env ++ [entry (key, value)] else env

/-- A value of the passwd entry counts if it is not empty. -/
def nonEmpty (value : GoString) : Option GoString := if value = [] then none else some value

theorem Lists.fill (h : Lists m env) (hkey : equals ∉ key) (value : GoString) {has : Bool}
    (hhas : has = (m key).isSome) :
    Lists (withDefault m key (nonEmpty value)) (Environment.fill env has key value) := by
  unfold Environment.fill
  split
  · rename_i hc
    have hnone : m key = none := by
      rw [hhas] at hc
      exact Option.isSome_eq_false_iff.mp hc.1 |> Option.isNone_iff_eq_none.mp
    obtain ⟨kvs, hranges, hkeys, rfl⟩ := h
    refine ⟨kvs ++ [(key, value)], ?_, ?_, by simp⟩
    · rw [withDefault, hnone, nonEmpty, if_neg hc.2]
      exact hranges.snoc hnone value
    · intro kv hkv
      rcases List.mem_append.mp hkv with hkv | hkv
      · exact hkeys kv hkv
      · rw [List.mem_singleton.mp hkv]
        exact hkey
  · rename_i hc
    have hor : (m key).or (nonEmpty value) = m key := by
      cases hm : m key with
      | some v => rfl
      | none =>
        rw [hhas, hm] at hc
        have hvalue : value = [] := not_not.mp fun hne => hc ⟨rfl, hne⟩
        rw [nonEmpty, if_pos hvalue, Option.or_none]
    rwa [withDefault, hor, Function.update_eq_self]

end

/-! ## The account variables -/

/-- What the passwd entry has for a key. -/
def account (current : Option Passwd) (key : GoString) : Option GoString :=
  match current with
  | none => none
  | some p =>
    if key = envHome then nonEmpty p.homeDir
    else if key = envUser ∨ key = envLogname then nonEmpty p.username
    else none

theorem equals_not_mem_envHome : equals ∉ envHome := by decide
theorem equals_not_mem_envUser : equals ∉ envUser := by decide
theorem equals_not_mem_envLogname : equals ∉ envLogname := by decide

theorem account_key {current : Option Passwd} {key v : GoString}
    (h : account current key = some v) : key = envHome ∨ key = envUser ∨ key = envLogname := by
  unfold account at h
  split at h
  · cases h
  · split at h
    · exact .inl ‹_›
    · split at h
      · exact .inr ‹_›
      · cases h

section
variable {m : GoString → Option GoString} {env : List GoString}

/-- The three variables one after the other. -/
theorem withDefault_account (m : GoString → Option GoString) (p : Passwd) :
    withDefault (withDefault (withDefault m envHome (nonEmpty p.homeDir))
      envUser (nonEmpty p.username)) envLogname (nonEmpty p.username) =
      fun key => (m key).or (account (some p) key) := by
  have huh : envUser ≠ envHome := by decide
  have hlh : envLogname ≠ envHome := by decide
  have hlu : envLogname ≠ envUser := by decide
  funext key
  simp only [withDefault, Function.update_apply, account, huh, hlh, hlu, if_false]
  by_cases hl : key = envLogname
  · simp [hl, hlh]
  · by_cases hu : key = envUser
    · simp [hu, hlu.symm, huh]
    · by_cases hh : key = envHome <;> simp [hl, hu, hh, hlh.symm, huh.symm]

theorem withPasswdFallback_none (env : List GoString) : withPasswdFallback none env = env :=
  ite_self _

theorem withPasswdFallback_some (p : Passwd) (env : List GoString) :
    withPasswdFallback (some p) env =
      fill (fill (fill env (lookupEnv env envHome).isSome envHome p.homeDir)
        (lookupEnv env envUser).isSome envUser p.username)
        (lookupEnv env envLogname).isSome envLogname p.username := by
  unfold withPasswdFallback fill
  dsimp only
  cases (lookupEnv env envHome).isSome <;> cases (lookupEnv env envUser).isSome <;>
    cases (lookupEnv env envLogname).isSome <;> by_cases hname : p.username = [] <;>
    simp [hname]

/-- `withPasswdFallback` fills in what the environment does not have. -/
theorem Lists.withPasswdFallback (h : Lists m env) (current : Option Passwd) :
    Lists (fun key => (m key).or (account current key))
      (Environment.withPasswdFallback current env) := by
  cases current with
  | none =>
    rw [withPasswdFallback_none]
    simpa only [account, Option.or_none] using h
  | some p =>
    have huh : envUser ≠ envHome := by decide
    have hlh : envLogname ≠ envHome := by decide
    have hlu : envLogname ≠ envUser := by decide
    rw [withPasswdFallback_some, ← withDefault_account, h.lookupEnv equals_not_mem_envHome,
      h.lookupEnv equals_not_mem_envUser, h.lookupEnv equals_not_mem_envLogname]
    -- the keys differ, so filling in one leaves the others as they were
    refine ((h.fill equals_not_mem_envHome _ rfl).fill equals_not_mem_envUser _ ?_).fill
      equals_not_mem_envLogname _ ?_
    · rw [withDefault, Function.update_of_ne huh]
    · rw [withDefault, Function.update_of_ne hlu, withDefault, Function.update_of_ne hlh]

end

/-! ## The environment of a session -/

/-- The one value of `key` in `env`: for a reader that takes the first entry,
and for one that takes the last. -/
structure Holds (env : List GoString) (key v : GoString) : Prop where
  mem : entry (key, v) ∈ env
  first : lookupEnv env key = some v
  last : lastValue env key = some v

/-- What the environment of a session is, given that of the server, what the
client sent, and the passwd entry. -/
structure SessionEnvironment (environ sessionEnv : List GoString) (current : Option Passwd)
    (env : List GoString) : Prop where
  keyed : ∀ e ∈ env, (keyOf e).isSome = true
  once : (env.map keyOf).Nodup
  given : ∀ key v, LastEntry (environ ++ sessionEnv) key v → Holds env key v
  account : ∀ key v, Absent (environ ++ sessionEnv) key → account current key = some v →
    Holds env key v
  absent : ∀ key, Absent (environ ++ sessionEnv) key → Environment.account current key = none →
    Absent env key
  agree : ∀ key, equals ∉ key → lookupEnv env key = lastValue env key

theorem Lists.holds {m : GoString → Option GoString} {env : List GoString} {key v : GoString}
    (h : Lists m env) (hkey : equals ∉ key) (hv : m key = some v) : Holds env key v :=
  ⟨h.mem hv, (h.lookupEnv hkey).trans hv, (h.lastValue key).trans hv⟩

theorem sessionEnvironment_of_lists {environ sessionEnv env : List GoString}
    {current : Option Passwd}
    (h : Lists (fun key => (merged environ sessionEnv key).or (account current key)) env) :
    SessionEnvironment environ sessionEnv current env where
  keyed := h.keys.1
  once := h.keys.2
  given key v hlast := by
    refine h.holds hlast.key ?_
    rw [merged_apply, lastEntry_iff.mp hlast, Option.some_or]
  account key v habsent hv := by
    have hkey : equals ∉ key := by
      rcases account_key hv with rfl | rfl | rfl <;> decide
    refine h.holds hkey ?_
    rw [merged_apply, lastValue_eq_none.mpr habsent, hv, Option.none_or]
  absent key habsent hnone := by
    rw [← lastValue_eq_none, h.lastValue, merged_apply, lastValue_eq_none.mpr habsent, hnone]
    rfl
  agree key hkey := (h.lookupEnv hkey).trans (h.lastValue key).symm

/-- **The environment of a session.** Whatever order the merge takes, each key
is there once, with the value of its last entry in the environment of the
server followed by that of the client, or else with that of the passwd entry.
The environment of the server is any list here; `os.Environ` gives a list that
has each key once. -/
theorem session_environment {environ sessionEnv out : List GoString} (current : Option Passwd)
    (hout : MergeEnv environ sessionEnv out) :
    SessionEnvironment environ sessionEnv current (withPasswdFallback current out) ∧
    ∀ out', MergeEnv environ sessionEnv out' →
      (withPasswdFallback current out).Perm (withPasswdFallback current out') ∧
      ∀ key, equals ∉ key → lookupEnv (withPasswdFallback current out) key =
        lookupEnv (withPasswdFallback current out') key := by
  have h := hout.lists.withPasswdFallback current
  refine ⟨sessionEnvironment_of_lists h, fun out' hout' => ?_⟩
  have h' := hout'.lists.withPasswdFallback current
  exact ⟨h.perm h', fun key hkey => (h.lookupEnv hkey).trans (h'.lookupEnv hkey).symm⟩

/-- A client that overrides HOME with a value that has an equals sign, and a
server that has no USER. -/
theorem session_environment_override : ∃ out,
    MergeEnv [bytes "HOME=/root", bytes "PATH=/bin"] [bytes "HOME=/srv/a=b"] out ∧
    Holds (withPasswdFallback (some ⟨bytes "ide", bytes "/home/ide"⟩) out)
      envHome (bytes "/srv/a=b") ∧
    Holds (withPasswdFallback (some ⟨bytes "ide", bytes "/home/ide"⟩) out)
      envUser (bytes "ide") := by
  have hout := mergeEnv_foldl [bytes "HOME=/root", bytes "PATH=/bin"] [bytes "HOME=/srv/a=b"]
  have henv := (session_environment (some ⟨bytes "ide", bytes "/home/ide"⟩) hout).1
  exact ⟨_, hout, henv.given _ _ (lastEntry_iff.mpr rfl),
    henv.account _ _ (lastValue_eq_none.mp rfl) rfl⟩

/-- A session starts in the home directory that its process sees, or where the
server is. -/
theorem SessionEnvironment.workingDir {environ sessionEnv env : List GoString}
    {current : Option Passwd} (h : SessionEnvironment environ sessionEnv current env)
    (isDir : GoString → Bool) : sessionWorkingDir isDir env = [] ∨
      lastValue env envHome = some (sessionWorkingDir isDir env) := by
  rw [← h.agree envHome equals_not_mem_envHome, sessionWorkingDir]
  cases hhome : lookupEnv env envHome with
  | none => exact .inl rfl
  | some home =>
    by_cases hempty : home = []
    · exact .inl (by simp [hempty])
    · by_cases hdir : isDir home = true
      · exact .inr (by simp [hempty, hdir])
      · exact .inl (by simp [hdir])

end WorkspaceProxy.SshServer.Environment
