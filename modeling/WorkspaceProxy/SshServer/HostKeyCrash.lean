import WorkspaceProxy.SshServer.HostKey

/-! # Installing the host key is atomic

One process calls `loadOrCreateHostKey` on a directory in any state. Whatever
fails, and wherever a crash comes, the path has what it had before the call or,
where there was nothing, the whole key. -/
namespace WorkspaceProxy.SshServer.HostKey
open WorkspaceProxy.Conc WorkspaceProxy.Go

variable {fmt : Format} {d₀ d d' : Dir} {p p' : Proc fmt} {op : Op fmt} {k : fmt.Key} {t n : Nat}

/-- The path, and all the files there were, are as they were. -/
structure Kept (d₀ d : Dir) : Prop where
  entry : d.entries .path = d₀.entries .path
  past : d.past .path = d₀.past .path
  files : ∀ n f, d₀.files n = some f → d.files n = some f

theorem Kept.refl (d : Dir) : Kept d d := ⟨rfl, rfl, fun _ _ h => h⟩

/-- There is a new temporary file and nothing else is new. -/
structure Temporary (d₀ d : Dir) (t n : Nat) : Prop where
  absent : d₀.entries .path = none
  kept : Kept d₀ d
  fresh : d₀.files n = none
  free : d₀.entries (.tmp t) = none
  others : ∀ t', t' ≠ t → d.entries (.tmp t') = d₀.entries (.tmp t')

/-- The path has the key, durable but for its entry. -/
structure Installed (d₀ d : Dir) (k : fmt.Key) : Prop where
  absent : d₀.entries .path = none
  file : ∃ n, d.entries .path = some n ∧ d.files n = some ⟨keyFile k, true⟩
  past : ∀ v ∈ d.past .path, v = none ∨ v ∈ d₀.past .path
  files : ∀ n f, d₀.files n = some f → d.files n = some f

/-- An error was returned. -/
structure Failed (d₀ d : Dir) (left : Option Nat) : Prop where
  kept : Kept d₀ d
  others : ∀ t, left ≠ some t → d.entries (.tmp t) = d₀.entries (.tmp t)
  existing : d₀.entries .path ≠ none → d = d₀

theorem Failed.refl (d : Dir) : Failed d d none := ⟨.refl d, fun _ _ => rfl, fun _ => rfl⟩

/-- What the call has done to the directory `d₀` it began with. -/
def Since (d₀ d : Dir) : Proc fmt → Prop
  | .reading | .returned _ false => d = d₀
  | .generating | .makingDir _ | .creatingTemp _ => d = d₀ ∧ d₀.entries .path = none
  | .chmodding _ t n | .writing _ t n | .syncing _ t n | .closing _ t n _ | .installing _ t n
  | .removing t n _ => Temporary d₀ d t n
  | .openingDir k | .syncingDir k | .parsing k | .returned k true => Installed d₀ d k
  | .failed _ left => Failed d₀ d left

/-! ## The steps -/

theorem Temporary.create (hp : d.entries .path = none) (ht : d.entries (.tmp t) = none)
    (hn : d.files n = none) (c : Contents) : Temporary d (d.create (.tmp t) n c) t n where
  absent := hp
  kept := by
    refine ⟨by simp, by simp, fun m f hf => ?_⟩
    have hne : m ≠ n := fun he => by rw [he, hn] at hf; cases hf
    simpa [hne] using hf
  fresh := hn
  free := ht
  others t' hne := by simp [hne]

/-- Only the temporary file changes. -/
theorem Temporary.draft (h : Temporary d₀ d t n) {f : File Contents}
    (he : d'.entries = d.entries) (hp : d'.past = d.past)
    (hf : d'.files = Function.update d.files n (some f)) : Temporary d₀ d' t n where
  absent := h.absent
  kept := by
    refine ⟨by rw [he]; exact h.kept.entry, by rw [hp]; exact h.kept.past, fun m g hg => ?_⟩
    have hne : m ≠ n := fun hm => by rw [hm, h.fresh] at hg; cases hg
    rw [hf, Function.update_of_ne hne]
    exact h.kept.files m g hg
  fresh := h.fresh
  free := h.free
  others t' hne := by rw [he]; exact h.others t' hne

theorem Temporary.rename (h : Temporary d₀ d t n) (ht : d.entries (.tmp t) = some n)
    (hf : d.files n = some ⟨keyFile k, true⟩) : Installed d₀ (d.rename (.tmp t) .path) k where
  absent := h.absent
  file := ⟨n, by simp [ht], hf⟩
  past := by
    intro v hv
    rw [Disk.past_rename (by simp), h.kept.entry, h.kept.past, h.absent] at hv
    exact List.mem_cons.mp hv
  files := h.kept.files

theorem Temporary.remove (h : Temporary d₀ d t n) : Failed d₀ (d.remove (.tmp t)) none where
  kept := ⟨by simpa using h.kept.entry, by simpa using h.kept.past, h.kept.files⟩
  others t' _ := by
    by_cases hne : t' = t
    · subst hne; simpa using h.free.symm
    · simpa [hne] using h.others t' hne
  existing hex := absurd h.absent hex

theorem Temporary.failed (h : Temporary d₀ d t n) : Failed d₀ d (some t) where
  kept := h.kept
  others t' hne := h.others t' fun he => hne (by rw [he])
  existing hex := absurd h.absent hex

theorem Installed.syncDir (h : Installed d₀ d k) : Installed d₀ d.syncDir k where
  absent := h.absent
  file := h.file
  past := by simp
  files := h.files

theorem Since.step (h : Since d₀ d p) (hown : OwnOk d p) (hst : ProcStep d p op d' p') :
    Since d₀ d' p' := by
  cases hst with
  | found | generate | mkdir | chmodFails | syncFails | close | closeFails | renameFails
  | openDir | openDirFails | syncDirFails | parse => exact h
  | unreadable | readFails =>
    cases h
    exact .refl _
  | absent hc =>
    cases h
    exact ⟨rfl, Disk.lookup_eq_none.mp hc⟩
  | generateFails | mkdirFails | createFails =>
    cases h.1
    exact .refl _
  | create ht hn =>
    obtain ⟨rfl, hp⟩ := h
    exact .create hp ht hn _
  | chmod | write | writeFails =>
    obtain ⟨-, f, hf, -⟩ := hown _ _ rfl
    exact Temporary.draft h Disk.entries_write Disk.past_write (Disk.files_write hf)
  | sync =>
    obtain ⟨-, f, hf, -⟩ := hown _ _ rfl
    exact Temporary.draft h Disk.entries_sync Disk.past_sync (Disk.files_sync hf)
  | rename =>
    obtain ⟨ht, f, hf, hd⟩ := hown _ _ rfl
    have hd : f = ⟨keyFile _, true⟩ := hd
    exact Temporary.rename h ht (by rw [hf, hd])
  | remove => exact Temporary.remove h
  | removeFails => exact Temporary.failed h
  | syncDir => exact Installed.syncDir h

/-! ## What the path has -/

/-- The key that a process generated, as long as it has it. -/
def Proc.key : Proc fmt → Option fmt.Key
  | .makingDir k | .creatingTemp k | .chmodding k _ _ | .writing k _ _ | .syncing k _ _
  | .closing k _ _ _ | .installing k _ _ | .openingDir k | .syncingDir k | .parsing k
  | .returned k true => some k
  | _ => none

/-- The path was absent, and `c` is the whole key that the process generated. -/
def Complete (d₀ : Dir) (p : Proc fmt) (c : Option Contents) : Prop :=
  d₀.lookup .path = none ∧ ∃ k, p.key = some k ∧ c = some (keyFile k)

/-- The call of `loadOrCreateHostKey` that began with `d₀` is atomic. -/
structure InstallAtomic (d₀ d : Dir) (p : Proc fmt) : Prop where
  now : d.lookup .path = d₀.lookup .path ∨ Complete d₀ p (d.lookup .path)
  /-- What was durable is as before; what was not is as a crash before the call
  could have left it. -/
  crash : ∀ d', d.Crash d' →
    (∃ d₁, d₀.Crash d₁ ∧ d'.lookup .path = d₁.lookup .path) ∨ Complete d₀ p (d'.lookup .path)
  crash_durable : d₀.Durable .path → ∀ d', d.Crash d' →
    d'.lookup .path = d₀.lookup .path ∨ Complete d₀ p (d'.lookup .path)
  existing : d₀.lookup .path ≠ none → d = d₀
  failed : ∀ e left, p = .failed e left →
    d.lookup .path = d₀.lookup .path ∧
      ∀ t, left ≠ some t → d.entries (.tmp t) = d₀.entries (.tmp t)

theorem Kept.lookup (h : Kept d₀ d) : d.lookup .path = d₀.lookup .path := by
  refine Disk.lookup_congr h.entry fun i hi => ?_
  obtain ⟨f, hf⟩ := Option.ne_none_iff_exists'.mp (d₀.sound .path i (.inl hi))
  rw [hf, h.files i f hf]

/-- A crash finds the path as it was, where nothing is installed. -/
theorem Kept.crash (h : Kept d₀ d) (hc : d.Crash d') :
    ∃ d₁, d₀.Crash d₁ ∧ d'.lookup .path = d₁.lookup .path := by
  refine hc.earlier h.files ?_
  rw [← h.entry, ← h.past]
  exact hc.entries .path

theorem Installed.lookup (h : Installed d₀ d k) : d.lookup .path = some (keyFile k) := by
  obtain ⟨n, he, hf⟩ := h.file
  exact Disk.lookup_of_file he hf

/-- A crash undoes the rename or leaves the key: the file was synced before. -/
theorem Installed.crash (h : Installed d₀ d k) (hc : d.Crash d') :
    (∃ d₁, d₀.Crash d₁ ∧ d'.lookup .path = d₁.lookup .path) ∨
      d'.lookup .path = some (keyFile k) := by
  obtain ⟨n, he, hf⟩ := h.file
  rcases hc.entries .path with hnew | hold
  · right
    exact hc.lookup_synced (hnew.trans he) hf
  · left
    refine hc.earlier h.files ?_
    rw [h.absent]
    exact h.past _ hold

/-- The path was kept, or has the key of the process. -/
theorem Since.kept_or_installed (h : Since d₀ d p) :
    Kept d₀ d ∨ ∃ k, p.key = some k ∧ Installed d₀ d k := by
  cases p with
  | reading => left; cases h; exact .refl _
  | generating => left; cases h.1; exact .refl _
  | makingDir | creatingTemp => left; cases h.1; exact .refl _
  | chmodding | writing | syncing | closing | installing | removing =>
    exact .inl (Temporary.kept h)
  | openingDir k | syncingDir k | parsing k => exact .inr ⟨k, rfl, h⟩
  | returned k generated =>
    cases generated
    · left; cases h; exact .refl _
    · exact .inr ⟨k, rfl, h⟩
  | failed => exact .inl (Failed.kept h)

theorem Since.existing (h : Since d₀ d p) (hex : d₀.entries .path ≠ none) : d = d₀ := by
  cases p with
  | reading => exact h
  | generating | makingDir | creatingTemp => exact h.1
  | chmodding | writing | syncing | closing | installing | removing =>
    exact absurd (Temporary.absent h) hex
  | openingDir | syncingDir | parsing => exact absurd (Installed.absent h) hex
  | returned k generated =>
    cases generated
    · exact h
    · exact absurd (Installed.absent h) hex
  | failed => exact Failed.existing h hex

theorem Since.crash (h : Since d₀ d p) (hc : d.Crash d') :
    (∃ d₁, d₀.Crash d₁ ∧ d'.lookup .path = d₁.lookup .path) ∨
      Complete d₀ p (d'.lookup .path) := by
  rcases h.kept_or_installed with hk | ⟨k, hkey, hi⟩
  · exact .inl (hk.crash hc)
  · exact (hi.crash hc).imp id fun hl => ⟨Disk.lookup_eq_none.mpr hi.absent, k, hkey, hl⟩

theorem Since.installAtomic (h : Since d₀ d p) : InstallAtomic d₀ d p where
  now := by
    rcases h.kept_or_installed with hk | ⟨k, hkey, hi⟩
    · exact .inl hk.lookup
    · exact .inr ⟨Disk.lookup_eq_none.mpr hi.absent, k, hkey, hi.lookup⟩
  crash _ hc := h.crash hc
  crash_durable hd d' hc := by
    rcases h.crash hc with ⟨d₁, h₁, hl⟩ | hcomplete
    · exact .inl (hl.trans (h₁.lookup_durable hd))
    · exact .inr hcomplete
  existing hex := h.existing fun he => hex (Disk.lookup_eq_none.mpr he)
  failed e left hp := by
    subst hp
    exact ⟨(Failed.kept h).lookup, Failed.others h⟩

/-- A single caller installs its host key atomically: from any directory, with
any outcome of every file operation, at every moment and after a crash. -/
theorem host_key_install_atomic (fmt : Format) (i : Nat) {s₀ s : State fmt}
    {as : List (Act fmt)} (h₀ : (system fmt).init s₀) (hsingle : ∀ a ∈ as, a.proc = i)
    (he : (system fmt).exec s₀ as = some s) : InstallAtomic s₀.dir s.dir (s.procs i) := by
  have halong : (system fmt).Along (fun _ a => a.proc = i) s₀ as :=
    .of_forall (fun a ha _ => hsingle a ha) s₀
  have hrun : OwnOk s.dir (s.procs i) ∧ Since s₀.dir s.dir (s.procs i) := by
    refine System.exec_history (P := fun _ u => OwnOk u.dir (u.procs i) ∧
      Since s₀.dir u.dir (u.procs i)) ?_ ?_ he halong
    · rw [h₀ i]
      exact ⟨nofun, rfl⟩
    · rintro - u a v - - ⟨hown, hsince⟩ rfl hst
      obtain ⟨d, p, hproc, rfl⟩ := step_cases hst
      simp only [Function.update_self]
      exact ⟨hown.step hproc, hsince.step hown hproc⟩
  exact hrun.2.installAtomic

theorem host_key_install_atomic_renamed :
    ∃ s, (system oneByte).exec (start oneByte)
        (draftRun oneByte 0 (7 : UInt8) 0 0 ++ [⟨0, .rename true⟩]) = some s ∧
      s.dir.lookup .path = some ⟨[7], 0o600⟩ ∧ InstallAtomic emptyDir s.dir (s.procs 0) := by
  refine ⟨_, rfl, rfl, host_key_install_atomic oneByte 0 (fun _ => rfl) ?_
    (rfl : (system oneByte).exec (start oneByte)
      (draftRun oneByte 0 (7 : UInt8) 0 0 ++ [⟨0, .rename true⟩]) = _)⟩
  simp [draftRun]

end WorkspaceProxy.SshServer.HostKey
