import WorkspaceProxy.SshServer.HostKey

/-! # Concurrent starts

Several processes call `loadOrCreateHostKey` on one path. Between the read that
finds no key and the rename that installs one, another process may have
installed its own, and the rename replaces it. As long as the starts do not
overlap so, every process has the key that is at the path. -/
namespace WorkspaceProxy.SshServer.HostKey
open WorkspaceProxy.Conc WorkspaceProxy.Go

variable {fmt : Format} {d d' : Dir} {p p' : Proc fmt} {op : Op fmt} {s s' : State fmt}
  {a : Act fmt} {k : fmt.Key} {t n m : Nat}

/-! ## What a process leaves alone -/

theorem ProcStep.files_other (h : ProcStep d p op d' p') (hm : ∀ t, p.own ≠ some (t, m))
    (hf : d.files m ≠ none) : d'.files m = d.files m := by
  cases h with
  | create ht hn =>
    have hne : m ≠ _ := fun he => hf (he ▸ hn)
    simp [hne]
  | chmod | write | writeFails =>
    exact Disk.files_write_of_ne fun he => hm _ (by rw [he]; rfl)
  | sync => exact Disk.files_sync_of_ne fun he => hm _ (by rw [he]; rfl)
  | _ => rfl

theorem ProcStep.tmp_other (h : ProcStep d p op d' p') (ht : ∀ n, p.own ≠ some (t, n))
    (he : d.entries (.tmp t) ≠ none) : d'.entries (.tmp t) = d.entries (.tmp t) := by
  cases h with
  | create ht' hn =>
    have hne : t ≠ _ := fun heq => he (heq ▸ ht')
    simp [hne]
  | chmod | write | writeFails => simp
  | sync => simp
  | rename | remove =>
    have hne : t ≠ _ := fun heq => ht _ (by rw [heq]; rfl)
    simp [hne]
  | _ => rfl

/-- A temporary file is new, or was there. -/
theorem ProcStep.own_cases (h : ProcStep d p op d' p') (ho : p'.own = some (t, n)) :
    p.own = some (t, n) ∨ d.entries (.tmp t) = none ∧ d.files n = none := by
  cases h with
  | create ht hn =>
    cases ho
    exact .inr ⟨ht, hn⟩
  | chmod | chmodFails | write | writeFails | sync | syncFails | close | closeFails
  | renameFails => exact .inl ho
  | _ => cases ho

/-- Only a rename changes the entry of the path. -/
theorem ProcStep.path_cases (h : ProcStep d p op d' p') :
    d'.entries .path = d.entries .path ∨ ∃ k t n, p = .installing k t n ∧ op = .rename true ∧
      d' = d.rename (.tmp t) .path ∧ p' = .openingDir k := by
  cases h with
  | rename => exact .inr ⟨_, _, _, rfl, rfl, rfl, rfl⟩
  | _ => left; simp

/-- The key that a process has at the path, and returns. -/
def Proc.chosen : Proc fmt → Option fmt.Key
  | .openingDir k | .syncingDir k | .parsing k | .returned k _ => some k
  | _ => none

/-- The process found no key, and may still install its own. -/
def Proc.creating : Proc fmt → Prop
  | .generating | .makingDir _ | .creatingTemp _ | .chmodding _ _ _ | .writing _ _ _
  | .syncing _ _ _ | .installing _ _ _ => True
  | .closing _ _ _ ok => ok = true
  | _ => False

/-- A process comes to create a key by a read that finds none. -/
theorem ProcStep.creating (h : ProcStep d p op d' p') (hc : p'.creating) :
    p.creating ∨ p = .reading ∧ op = .readFile true ∧ d.lookup .path = none := by
  cases h with
  | absent hn => exact .inr ⟨rfl, rfl, hn⟩
  | generate | mkdir | create | chmod | write | sync => exact .inl trivial
  | close => exact .inl rfl
  | chmodFails | writeFails | syncFails => cases hc
  | _ => exact hc.elim

/-! ## The temporary files of the processes -/

/-- No two processes have a temporary file in common, and none has the file of
the path. -/
structure Inv (s : State fmt) : Prop where
  own : ∀ i, OwnOk s.dir (s.procs i)
  path : ∀ i t n, (s.procs i).own = some (t, n) → s.dir.entries .path ≠ some n
  apart : ∀ i j t n t' n', i ≠ j → (s.procs i).own = some (t, n) →
    (s.procs j).own = some (t', n') → t ≠ t' ∧ n ≠ n'

/-- The temporary file of another process is not the one that a step makes or
has. -/
theorem Inv.apart_step (hi : Inv s) {i j : Nat} {t' n' : Nat} (hij : i ≠ j)
    (hst : ProcStep s.dir (s.procs i) op d p) (ho : p.own = some (t, n))
    (ho' : (s.procs j).own = some (t', n')) : t ≠ t' ∧ n ≠ n' := by
  obtain ⟨he, f, hf, -⟩ := hi.own j t' n' ho'
  rcases hst.own_cases ho with hold | ⟨ht, hn⟩
  · exact hi.apart i j t n t' n' hij hold ho'
  · constructor
    · rintro rfl
      rw [ht] at he
      cases he
    · rintro rfl
      rw [hn] at hf
      cases hf

theorem Inv.path_step (hi : Inv s) {i j : Nat} (hst : ProcStep s.dir (s.procs i) op d p)
    (ho : (Function.update s.procs i p j).own = some (t, n)) : d.entries .path ≠ some n := by
  rcases hst.path_cases with hsame | ⟨k, t', n', hp, -, rfl, rfl⟩
  · rw [hsame]
    by_cases hji : j = i
    · subst hji
      rw [Function.update_self] at ho
      rcases hst.own_cases ho with hold | ⟨-, hn⟩
      · exact hi.path j t n hold
      · exact fun he => s.dir.sound .path n (.inl he) hn
    · rw [Function.update_of_ne hji] at ho
      exact hi.path j t n ho
  · -- the path has got the file of the process that renames
    have hown : (s.procs i).own = some (t', n') := by rw [hp]; rfl
    have hji : j ≠ i := by
      rintro rfl
      rw [Function.update_self] at ho
      cases ho
    rw [Function.update_of_ne hji] at ho
    have hne := (hi.apart i j t' n' t n hji.symm hown ho).2
    simpa [(hi.own i t' n' hown).1] using hne

theorem Inv.step (hi : Inv s) (hst : (system fmt).step s a = some s') : Inv s' := by
  obtain ⟨d, p, hproc, rfl⟩ := step_cases hst
  refine ⟨(Function.forall_update_iff s.procs fun _ => OwnOk d).mpr
      ⟨(hi.own _).step hproc, fun j hj t n ho => ?_⟩,
    fun j t n ho => hi.path_step hproc ho, fun i j t n t' n' hij ho ho' => ?_⟩
  · obtain ⟨he, f, hf, hd⟩ := hi.own j t n ho
    have htmp := hproc.tmp_other (fun n' ho' =>
      (hi.apart _ j t n' t n (Ne.symm hj) ho' ho).1 rfl) (by rw [he]; simp)
    have hfile := hproc.files_other (fun t' ho' =>
      (hi.apart _ j t' n t n (Ne.symm hj) ho' ho).2 rfl) (by rw [hf]; simp)
    exact ⟨htmp.trans he, f, hfile.trans hf, hd⟩
  · by_cases hia : i = a.proc
    · subst hia
      simp only [Function.update_self, Function.update_of_ne hij.symm] at ho ho'
      exact hi.apart_step hij hproc ho ho'
    · by_cases hja : j = a.proc
      · subst hja
        simp only [Function.update_self, Function.update_of_ne hij] at ho ho'
        exact (hi.apart_step hij.symm hproc ho' ho).imp Ne.symm Ne.symm
      · simp only [Function.update_of_ne hia, Function.update_of_ne hja] at ho ho'
        exact hi.apart i j t n t' n' hij ho ho'

theorem inv_stable : (system fmt).Stable Inv where
  init s h := by
    refine ⟨fun i t n ho => ?_, fun i t n ho => ?_, fun i j t n t' n' _ ho => ?_⟩ <;>
    · rw [h i] at ho
      cases ho
  step _ _ _ hi hst := hi.step hst

/-! ## The key at the path -/

/-- A rename brings the whole key to the path. -/
theorem Inv.lookup_rename (hi : Inv s) {i : Nat} (hp : s.procs i = .installing k t n) :
    (s.dir.rename (.tmp t) .path).lookup .path = some (keyFile k) := by
  have hown : (s.procs i).own = some (t, n) := by rw [hp]; rfl
  obtain ⟨he, f, hf, hd⟩ := hi.own i t n hown
  rw [hp] at hd
  have hd : f = ⟨keyFile k, true⟩ := hd
  have hpath : (s.dir.rename (.tmp t) .path).entries .path = some n := by simpa using he
  rw [Disk.lookup_of_file hpath hf, hd]

/-- A step leaves what the path has, or is a rename. -/
theorem Inv.lookup_cases (hi : Inv s) {i : Nat} (hst : ProcStep s.dir (s.procs i) op d p) :
    d.lookup .path = s.dir.lookup .path ∨ ∃ k t n, s.procs i = .installing k t n ∧
      op = .rename true ∧ p = .openingDir k ∧ d.lookup .path = some (keyFile k) := by
  rcases hst.path_cases with hsame | ⟨k, t, n, hp, rfl, rfl, rfl⟩
  · left
    refine Disk.lookup_congr hsame fun m hm => ?_
    exact hst.files_other (fun t ho => hi.path i t m ho hm) (s.dir.sound .path m (.inl hm))
  · exact .inr ⟨k, t, n, hp, rfl, rfl, hi.lookup_rename hp⟩

/-- The key is the one at the path, which the next start will read. -/
def Stored (d : Dir) (k : fmt.Key) : Prop :=
  ∃ c, d.lookup .path = some c ∧ fmt.parsePrivateKey c.bytes = some k

theorem Stored.unique {k' : fmt.Key} (h : Stored d k) (h' : Stored d k') : k = k' := by
  obtain ⟨c, hc, hk⟩ := h
  obtain ⟨c', hc', hk'⟩ := h'
  rw [hc] at hc'
  cases hc'
  exact Option.some.inj (hk.symm.trans hk')

/-- The calls that succeeded returned one key, which is the one at the path. -/
structure Agreed (s : State fmt) : Prop where
  same : ∀ i j k k' g g', s.procs i = .returned k g → s.procs j = .returned k' g' → k = k'
  stored : ∀ i k g, s.procs i = .returned k g → Stored s.dir k

/-- A key file is not replaced by another. -/
def KeyKept (d d' : Dir) : Prop :=
  ∀ c, d.lookup .path = some c → ∃ c', d'.lookup .path = some c' ∧ c'.bytes = c.bytes

theorem Stored.kept (h : Stored d k) (hk : KeyKept d d') : Stored d' k := by
  obtain ⟨c, hc, hparse⟩ := h
  obtain ⟨c', hc', hbytes⟩ := hk c hc
  exact ⟨c', hc', by rw [hbytes]; exact hparse⟩

/-- Every key that a process has settled on is the one at the path. -/
def AllStored (s : State fmt) : Prop := ∀ i k, (s.procs i).chosen = some k → Stored s.dir k

/-- A process settles on the key that it reads or installs. -/
theorem Inv.chosen_cases (hi : Inv s) {i : Nat} (hst : ProcStep s.dir (s.procs i) op d p)
    (hk : p.chosen = some k) : (s.procs i).chosen = some k ∨ Stored d k := by
  generalize hq : s.procs i = q at hst
  cases hst with
  | found hc hparse =>
    cases hk
    exact .inr ⟨_, hc, hparse⟩
  | rename =>
    cases hk
    exact .inr ⟨_, hi.lookup_rename hq, fmt.parse_pem k⟩
  | openDir | openDirFails | syncDir | syncDirFails | parse => exact .inl hk
  | _ => cases hk

theorem AllStored.step (h : AllStored s) (hi : Inv s) (hst : (system fmt).step s a = some s')
    (hkept : KeyKept s.dir s'.dir) : AllStored s' := by
  obtain ⟨d, p, hproc, rfl⟩ := step_cases hst
  refine (Function.forall_update_iff s.procs fun _ p => ∀ k, p.chosen = some k → Stored d k).mpr
    ⟨fun k hk => ?_, fun i _ k hk => (h i k hk).kept hkept⟩
  rcases hi.chosen_cases hproc hk with hold | hnew
  · exact (h _ k hold).kept hkept
  · exact hnew

theorem AllStored.agreed (h : AllStored s) : Agreed s := by
  have hstored : ∀ i k g, s.procs i = .returned k g → Stored s.dir k :=
    fun i k g hi => h i k (by rw [hi]; rfl)
  exact ⟨fun i j k k' g g' hi hj => (hstored i k g hi).unique (hstored j k' g' hj), hstored⟩

/-! ## Starts that do not overlap -/

/-- A read finds no key only while no process is between such a read and its
rename. -/
def StartsApart (s : State fmt) (a : Act fmt) : Prop :=
  s.procs a.proc = .reading → a.op = .readFile true → s.dir.lookup .path = none →
    ∀ j, ¬ (s.procs j).creating

/-- At most one process creates a key, and the path has none meanwhile. -/
structure Alone (s : State fmt) : Prop where
  absent : ∀ i, (s.procs i).creating → s.dir.lookup .path = none
  unique : ∀ i j, (s.procs i).creating → (s.procs j).creating → i = j

theorem Alone.step (h : Alone s) (hi : Inv s) (hc : StartsApart s a)
    (hst : (system fmt).step s a = some s') : Alone s' := by
  obtain ⟨d, p, hproc, rfl⟩ := step_cases hst
  have hbefore : ∀ i, (Function.update s.procs a.proc p i).creating → (s.procs i).creating ∨
      i = a.proc ∧ s.dir.lookup .path = none ∧ ∀ j, ¬ (s.procs j).creating := by
    intro i hcreating
    by_cases hia : i = a.proc
    · subst hia
      rw [Function.update_self] at hcreating
      refine (hproc.creating hcreating).imp_right ?_
      rintro ⟨hreading, hop, hnone⟩
      exact ⟨rfl, hnone, hc hreading hop hnone⟩
    · rw [Function.update_of_ne hia] at hcreating
      exact .inl hcreating
  rcases hi.lookup_cases hproc with hsame | ⟨k, t, n, hp, -, rfl, -⟩
  · refine ⟨fun i hcreating => ?_, fun i j hcreating hcreating' => ?_⟩
    · rcases hbefore i hcreating with hold | ⟨-, hnone, -⟩
      · exact hsame.trans (h.absent i hold)
      · exact hsame.trans hnone
    · rcases hbefore i hcreating with hold | ⟨hia, -, hnobody⟩ <;>
        rcases hbefore j hcreating' with hold' | ⟨hja, -, hnobody'⟩
      · exact h.unique i j hold hold'
      · exact absurd hold (hnobody' i)
      · exact absurd hold' (hnobody j)
      · rw [hia, hja]
  · -- the one process that created a key has installed it
    have hnobody : ∀ i, ¬ (Function.update s.procs a.proc (.openingDir k) i).creating := by
      intro i hcreating
      by_cases hia : i = a.proc
      · subst hia
        rw [Function.update_self] at hcreating
        exact hcreating
      · rw [Function.update_of_ne hia] at hcreating
        exact hia (h.unique i a.proc hcreating (by rw [hp]; trivial))
    exact ⟨fun i hcreating => absurd hcreating (hnobody i),
      fun i j hcreating => absurd hcreating (hnobody i)⟩

theorem Alone.keyKept (h : Alone s) (hi : Inv s) (hst : (system fmt).step s a = some s') :
    KeyKept s.dir s'.dir := by
  obtain ⟨d, p, hproc, rfl⟩ := step_cases hst
  intro c hlookup
  rcases hi.lookup_cases hproc with hsame | ⟨k, t, n, hp, -, -, -⟩
  · exact ⟨c, hsame.trans hlookup, rfl⟩
  · have hnone := h.absent a.proc (by rw [hp]; trivial)
    rw [hlookup] at hnone
    cases hnone

/-! ## Starts that overlap -/

theorem step_of_proc {i : Nat} (hp : s.procs i = p) (hst : p.step fmt s.dir op = some (d, p')) :
    (system fmt).step s ⟨i, op⟩ = some ⟨d, Function.update s.procs i p'⟩ := by
  subst hp
  exact Option.map_eq_some_iff.mpr ⟨(d, p'), hst, rfl⟩

theorem step_rename {i : Nat} (hp : s.procs i = .installing k t n) :
    (system fmt).step s ⟨i, .rename true⟩ =
      some ⟨s.dir.rename (.tmp t) .path, Function.update s.procs i (.openingDir k)⟩ :=
  step_of_proc hp rfl

/-- A process that has settled on a key can return it, and changes nothing. -/
theorem exec_return {i : Nat} (hk : (s.procs i).chosen = some k) :
    ∃ as g, (system fmt).exec s as =
      some ⟨s.dir, Function.update s.procs i (.returned k g)⟩ := by
  cases hp : s.procs i with
  | openingDir k' =>
    rw [hp] at hk
    cases hk
    exact ⟨[⟨i, .openDir false⟩, ⟨i, .parse⟩], true,
      by simp [System.exec, system, step, Proc.step, hp, fmt.parse_pem]⟩
  | syncingDir k' =>
    rw [hp] at hk
    cases hk
    exact ⟨[⟨i, .syncDir false⟩, ⟨i, .parse⟩], true,
      by simp [System.exec, system, step, Proc.step, hp, fmt.parse_pem]⟩
  | parsing k' =>
    rw [hp] at hk
    cases hk
    exact ⟨[⟨i, .parse⟩], true, by simp [System.exec, system, step, Proc.step, hp, fmt.parse_pem]⟩
  | returned k' g =>
    rw [hp] at hk
    cases hk
    exact ⟨[], g, by rw [← hp, Function.update_eq_self]; rfl⟩
  | _ =>
    rw [hp] at hk
    cases hk

/-- A rename replaces the key of a process that has settled on another one, and that
process can still return its own. -/
theorem disagree_of_rename {i j : Nat} {k' : fmt.Key} (hi : Inv s)
    (hp : s.procs i = .installing k t n) (hj : (s.procs j).chosen = some k') (hne : k' ≠ k) :
    ∃ as u, (system fmt).exec s as = some u ∧ ¬ Agreed u := by
  have hji : j ≠ i := by
    rintro rfl
    rw [hp] at hj
    cases hj
  have hchosen : (Function.update s.procs i (.openingDir k) j).chosen = some k' := by
    rw [Function.update_of_ne hji]
    exact hj
  obtain ⟨as, g, hexec⟩ := exec_return
    (s := ⟨s.dir.rename (.tmp t) .path, Function.update s.procs i (.openingDir k)⟩) hchosen
  refine ⟨_, _, System.exec_step (step_rename hp) hexec, fun hagreed => ?_⟩
  have hstored := hagreed.stored j k' g (Function.update_self ..)
  exact hne (hstored.unique ⟨_, hi.lookup_rename hp, fmt.parse_pem k⟩)

/-- From some number on, the names of temporary files and the files are free. -/
def Room (d : Dir) : Prop := ∃ b, ∀ m, b ≤ m → d.entries (.tmp m) = none ∧ d.files m = none

theorem ProcStep.room (h : ProcStep d p op d' p') (hroom : Room d) : Room d' := by
  obtain ⟨b, hb⟩ := hroom
  cases h with
  | @create k t n =>
    refine ⟨b + (t + n + 1), fun m hm => ?_⟩
    have ht : m ≠ t := by omega
    have hn : m ≠ n := by omega
    obtain ⟨he, hf⟩ := hb m (by omega)
    exact ⟨by simpa [ht] using he, by simpa [hn] using hf⟩
  | chmod | write | writeFails =>
    refine ⟨b, fun m hm => ?_⟩
    rw [Disk.entries_write, Disk.files_write_eq_none]
    exact hb m hm
  | sync =>
    refine ⟨b, fun m hm => ?_⟩
    rw [Disk.entries_sync, Disk.files_sync_eq_none]
    exact hb m hm
  | rename | remove =>
    refine ⟨b, fun m hm => ⟨?_, (hb m hm).2⟩⟩
    simp [Function.update_apply, (hb m hm).1]
  | _ => exact ⟨b, hb⟩

/-- The process has generated `k`, and may still install it. -/
def Proc.drafting (k : fmt.Key) : Proc fmt → Prop
  | .makingDir k' | .creatingTemp k' | .chmodding k' _ _ | .writing k' _ _ | .syncing k' _ _
  | .installing k' _ _ => k' = k
  | .closing k' _ _ ok => k' = k ∧ ok = true
  | _ => False

/-- How many operations the process has before its rename. -/
def Proc.before : Proc fmt → Nat
  | .makingDir _ => 6
  | .creatingTemp _ => 5
  | .chmodding _ _ _ => 4
  | .writing _ _ _ => 3
  | .syncing _ _ _ => 2
  | .closing _ _ _ _ => 1
  | _ => 0

theorem Proc.drafting.next (h : p.drafting k) (hroom : Room d) :
    (∃ t n, p = .installing k t n) ∨
      ∃ op d' p', p.step fmt d op = some (d', p') ∧ p'.drafting k ∧ p'.before < p.before := by
  cases p with
  | makingDir => exact .inr ⟨.mkdirAll true, _, _, rfl, h, Nat.lt_add_one 5⟩
  | creatingTemp =>
    obtain ⟨b, hb⟩ := hroom
    have hfree : d.entries (.tmp b) = none ∧ (d.files b).isNone = true :=
      (hb b le_rfl).imp_right Option.isNone_iff_eq_none.mpr
    exact .inr ⟨.createTemp (some (b, b)), _, _, if_pos hfree, h, Nat.lt_add_one 4⟩
  | chmodding => exact .inr ⟨.chmod true, _, _, rfl, h, Nat.lt_add_one 3⟩
  | writing => exact .inr ⟨.write none, _, _, rfl, h, Nat.lt_add_one 2⟩
  | syncing => exact .inr ⟨.sync true, _, _, rfl, ⟨h, rfl⟩, Nat.lt_add_one 1⟩
  | closing k' t n ok =>
    obtain ⟨hk, rfl⟩ := h
    exact .inr ⟨.close true, _, _, rfl, hk, Nat.lt_add_one 0⟩
  | installing k' t n =>
    cases h
    exact .inl ⟨t, n, rfl⟩
  | _ => exact h.elim

/-- Only `i` has moved from `s` to `s'`, and there is room still. -/
structure DraftedAlone (i : Nat) (s s' : State fmt) : Prop where
  room : Room s'.dir
  others : ∀ j, j ≠ i → s'.procs j = s.procs j

theorem DraftedAlone.step {s₀ : State fmt} {i : Nat} (h : DraftedAlone i s₀ s)
    (hst : (s.procs i).step fmt s.dir op = some (d, p)) :
    DraftedAlone i s₀ ⟨d, Function.update s.procs i p⟩ where
  room := (Proc.step_cases hst).room h.room
  others j hj := (Function.update_of_ne hj _ _).trans (h.others j hj)

theorem exec_draft {i : Nat} (hroom : Room s.dir) (hk : (s.procs i).drafting k) :
    ∃ as s', (system fmt).exec s as = some s' ∧ DraftedAlone i s s' ∧
      ∃ t n, s'.procs i = .installing k t n := by
  refine System.exec_of_rank (P := fun s' => DraftedAlone i s s' ∧ (s'.procs i).drafting k)
    (fun s' => (s'.procs i).before) ?_ ⟨⟨hroom, fun _ _ => rfl⟩, hk⟩
  rintro s' ⟨halone, hk⟩
  rcases hk.next halone.room with hdone | ⟨op, d, p, hst, hk', hlt⟩
  · exact .inl ⟨halone, hdone⟩
  · refine .inr ⟨⟨i, op⟩, _, step_of_proc rfl hst, ⟨halone.step hst, ?_⟩, ?_⟩
    · simpa only [Function.update_self] using hk'
    · simpa only [Function.update_self] using hlt

/-- A process that has found no key comes to its rename with any key. -/
theorem exec_draft_generating {i : Nat} (hroom : Room s.dir) (hp : s.procs i = .generating)
    (k : fmt.Key) : ∃ as s', (system fmt).exec s as = some s' ∧ DraftedAlone i s s' ∧
      ∃ t n, s'.procs i = .installing k t n := by
  have hgenerate : (system fmt).step s ⟨i, .generateHostKeyPEM (.ok k)⟩ =
      some ⟨s.dir, Function.update s.procs i (.makingDir k)⟩ := step_of_proc hp rfl
  obtain ⟨as, s', hexec, halone, hdone⟩ :=
    exec_draft (s := ⟨s.dir, Function.update s.procs i (.makingDir k)⟩) (i := i) (k := k) hroom
      (by simp only [Function.update_self]; rfl)
  refine ⟨_, s', System.exec_step hgenerate hexec, ⟨halone.room, ?_⟩, hdone⟩
  intro j hj
  exact (halone.others j hj).trans (Function.update_of_ne hj _ _)

theorem exec_draft_creating [Nonempty fmt.Key] {i : Nat} (hroom : Room s.dir)
    (hc : (s.procs i).creating) : ∃ as s', (system fmt).exec s as = some s' ∧
      DraftedAlone i s s' ∧ ∃ k t n, s'.procs i = .installing k t n := by
  have hdraft : ∀ k, (s.procs i).drafting k → ∃ as s', (system fmt).exec s as = some s' ∧
      DraftedAlone i s s' ∧ ∃ k t n, s'.procs i = .installing k t n := by
    intro k hk
    obtain ⟨as, s', hexec, halone, t, n, hdone⟩ := exec_draft hroom hk
    exact ⟨as, s', hexec, halone, k, t, n, hdone⟩
  cases hp : s.procs i with
  | generating =>
    obtain ⟨as, s', hexec, halone, t, n, hdone⟩ :=
      exec_draft_generating hroom hp (Classical.arbitrary fmt.Key)
    exact ⟨as, s', hexec, halone, _, t, n, hdone⟩
  | makingDir k | creatingTemp k | chmodding k | writing k | syncing k | installing k =>
    exact hdraft k (by rw [hp]; rfl)
  | closing k t n ok =>
    rw [hp] at hc
    exact hdraft k (by rw [hp]; exact ⟨rfl, hc⟩)
  | _ =>
    rw [hp] at hc
    exact hc.elim

/-- Two processes that both create a key can return different ones: both come to
their rename, and the second rename replaces the key of the first. -/
theorem disagree_of_overlap [Nontrivial fmt.Key] {i j : Nat} (hs : (system fmt).Reach s)
    (hroom : Room s.dir) (hij : i ≠ j) (hgen : s.procs i = .generating)
    (hj : (s.procs j).creating) : ∃ as u, (system fmt).exec s as = some u ∧ ¬ Agreed u := by
  obtain ⟨as₁, s₁, he₁, halone₁, k, t, n, hj₁⟩ := exec_draft_creating hroom hj
  obtain ⟨k', hne⟩ := exists_ne k
  obtain ⟨as₂, s₂, he₂, halone₂, t', n', hi₂⟩ :=
    exec_draft_generating halone₁.room ((halone₁.others i hij).trans hgen) k'
  have hj₂ : s₂.procs j = .installing k t n := (halone₂.others j hij.symm).trans hj₁
  have hrename := step_rename hj₂
  have hs₃ := ((hs.exec he₁).exec he₂).step hrename
  have hi₃ : Function.update s₂.procs j (.openingDir k) i = .installing k' t' n' := by
    rw [Function.update_of_ne hij]
    exact hi₂
  have hj₃ : (Function.update s₂.procs j (.openingDir k) j).chosen = some k := by
    rw [Function.update_self]
    rfl
  obtain ⟨as₃, u, he₃, hu⟩ := disagree_of_rename (inv_stable.reach hs₃) hi₃ hj₃ hne.symm
  exact ⟨_, u, System.exec_trans he₁ (System.exec_trans he₂ (System.exec_step hrename he₃)), hu⟩

/-- As long as no start finds no key while another is between such a read and its
rename, the key at the path stays and all calls that succeed return it. Starts that
overlap so can return different keys. -/
theorem host_keys_agree_of_startsApart (fmt : Format) :
    (∀ s, (system fmt).ReachOn StartsApart s → Agreed s ∧
      ∀ a t, (system fmt).step s a = some t → KeyKept s.dir t.dir) ∧
    ∀ s a t, (system fmt).Reach s → Room s.dir → Nontrivial fmt.Key → ¬ StartsApart s a →
      (system fmt).step s a = some t → ∃ as u, (system fmt).exec t as = some u ∧ ¬ Agreed u := by
  constructor
  · intro s hs
    have h : Alone s ∧ AllStored s := by
      refine hs.invariant (I := fun s => Alone s ∧ AllStored s) (fun _ => inv_stable.reach)
        (fun s h => ⟨⟨fun i hc => ?_, fun i j hc => ?_⟩, fun i k hk => ?_⟩)
        fun s a t hi h hc hst => ⟨h.1.step hi hc hst, h.2.step hi hst (h.1.keyKept hi hst)⟩
      · rw [h i] at hc
        exact hc.elim
      · rw [h i] at hc
        exact hc.elim
      · rw [h i] at hk
        cases hk
    exact ⟨h.2.agreed, fun a t hst => h.1.keyKept (inv_stable.reach hs.reach) hst⟩
  · intro s a t hs hroom hkeys hc hst
    simp only [StartsApart, not_forall, not_not] at hc
    obtain ⟨hreading, hop, hnone, j, hj⟩ := hc
    obtain ⟨i, op⟩ := a
    cases hop
    have hij : i ≠ j := by
      rintro rfl
      rw [hreading] at hj
      exact hj
    have hread : (system fmt).step s ⟨i, .readFile true⟩ =
        some ⟨s.dir, Function.update s.procs i .generating⟩ := by
      refine step_of_proc hreading ?_
      simp only [Proc.step, hnone]
    rw [hread] at hst
    cases hst
    refine disagree_of_overlap (hs.step hread) hroom hij (Function.update_self ..) ?_
    show (Function.update s.procs i .generating j).creating
    rwa [Function.update_of_ne hij.symm]

/-- A first start that generates the key, and a second one that reads it. -/
def secondStart : List (Act oneByte) :=
  [⟨0, .rename true⟩, ⟨0, .openDir false⟩, ⟨0, .parse⟩, ⟨1, .readFile true⟩]

theorem along_secondStart : (system oneByte).Along StartsApart (start oneByte)
    (draftRun oneByte 0 (7 : UInt8) 0 0 ++ secondStart) := by
  -- the first read finds every process at its read
  have hfirst : (system oneByte).Along StartsApart (start oneByte)
      (draftRun oneByte 0 (7 : UInt8) 0 0 ++ secondStart.take 3) := by
    refine ⟨fun _ _ _ j hj => hj, ?_⟩
    split
    · refine .of_forall (fun a ha s _ hop => ?_) _
      cases a
      subst hop
      simp [secondStart] at ha
    · trivial
  show (system oneByte).Along StartsApart (start oneByte)
    (draftRun oneByte 0 (7 : UInt8) 0 0 ++ secondStart.take 3 ++ [⟨1, .readFile true⟩])
  refine hfirst.append fun s hs => ⟨?_, by split <;> trivial⟩
  cases hs
  intro _ _ hnone
  cases hnone

theorem host_keys_agree_second_start :
    ∃ s, (system oneByte).exec (start oneByte)
        (draftRun oneByte 0 (7 : UInt8) 0 0 ++ secondStart) = some s ∧
      s.procs 0 = .returned (7 : UInt8) true ∧ s.procs 1 = .returned (7 : UInt8) false ∧
      Agreed s := by
  have hs := (host_keys_agree_of_startsApart oneByte).1 _
    (System.reachOn_get (system oneByte) _ (fun _ => rfl) along_secondStart rfl)
  exact ⟨_, rfl, rfl, rfl, hs.1⟩

/-- Two starts that both find no key. The second rename replaces the key that
the first start returned. -/
theorem concurrent_starts_replace_key :
    ¬ ∀ (fmt : Format) (s : State fmt), (system fmt).Reach s → Agreed s ∧
      ∀ a t, (system fmt).step s a = some t → KeyKept s.dir t.dir := by
  intro h
  have hreach := System.reach_get (system oneByte) (s := start oneByte)
    (draftRun oneByte 0 (1 : UInt8) 0 0 ++ draftRun oneByte 1 (2 : UInt8) 1 1 ++
      [⟨0, .rename true⟩, ⟨0, .openDir false⟩, ⟨0, .parse⟩, ⟨1, .rename true⟩])
    (fun _ => rfl) rfl
  obtain ⟨c, hc, hparse⟩ := (h oneByte _ hreach).1.stored 0 (1 : UInt8) true rfl
  cases hc
  have hkey : (2 : UInt8) = 1 := Option.some.inj hparse
  cases hkey

end WorkspaceProxy.SshServer.HostKey
