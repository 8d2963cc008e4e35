import WorkspaceProxy.SshServer.HostKeyCrash

/-! # The host key over the life of a volume

One container after the other starts on a volume, each calls `loadOrCreateHostKey`, is
stopped anywhere, and the node crashes at any time. The path then never has a file that
a start cannot read. All starts give the same key, as long as no crash comes before the
directory was synced once. After that no crash changes it where the directory's own
entry is durable; the code syncs the directory and never its parent, so a crash may lose
a directory that `os.MkdirAll` has just made. -/
namespace WorkspaceProxy.SshServer.HostKey
open WorkspaceProxy.Conc WorkspaceProxy.Go

/-- The entry of the key's directory in its parent. One that `os.MkdirAll` has made is
durable when a crash has kept it. -/
inductive DirEntry
  | absent
  | made
  | durable
  deriving DecidableEq

/-- `keys` are the keys that starts have given since the last crash that could lose the
key, and `synced` says whether the directory was synced with a key in it. -/
structure Volume (fmt : Format) where
  dir : Dir
  entry : DirEntry
  proc : Proc fmt
  keys : List fmt.Key
  synced : Bool

/-- `restart` is a start after the last one ended or was stopped. `keep` says whether a
crash keeps a directory whose entry is not durable. -/
inductive Event (fmt : Format)
  | op (op : Op fmt)
  | restart
  | crash (keep : Bool) (pick : Name → Nat) (junk : Nat → Contents)

/-- The key that a start gives. -/
def Proc.given {fmt : Format} : Proc fmt → List fmt.Key
  | .returned k _ => [k]
  | _ => []

def Op.syncs {fmt : Format} : Op fmt → Bool
  | .syncDir true => true
  | _ => false

/-- The entry of the directory after an operation. -/
def Op.mkdirs {fmt : Format} : Op fmt → DirEntry → DirEntry
  | .mkdirAll true, .absent => .made
  | _, entry => entry

variable {fmt : Format}

namespace Volume

def step (v : Volume fmt) : Event fmt → Option (Volume fmt)
  | .op op =>
    (v.proc.step fmt v.dir op).map fun r =>
      { dir := r.1
        entry := op.mkdirs v.entry
        proc := r.2
        keys := v.keys ++ r.2.given
        synced := v.synced || op.syncs }
  | .restart => some { v with proc := .reading }
  | .crash keep pick junk =>
    if v.entry = .made ∧ keep = false then
      -- the directory is lost with all that it has
      some { dir := emptyDir, entry := .absent, proc := .reading, keys := [], synced := false }
    else
      some { v with
        dir := v.dir.crashed pick junk
        entry := if v.entry = .made then .durable else v.entry
        proc := .reading
        keys := if v.synced then v.keys else [] }

/-- The file at the path has the contents `c`, and they are durable. -/
def Has (d : Dir) (c : Contents) : Prop :=
  ∃ n, d.entries .path = some n ∧ d.files n = some ⟨c, true⟩

/-- What the path is now or may be after a crash: nothing, or a durable file that
parses. -/
def PathOk (fmt : Format) (d : Dir) : Prop :=
  ∀ n, some n ∈ d.entries .path :: d.past .path →
    ∃ c k, d.files n = some ⟨c, true⟩ ∧ fmt.parsePrivateKey c.bytes = some k

/-- The volumes before the first start: the path has nothing or a private key, of an
earlier server or of anyone, whose data is durable. The entry of that file may be durable
as well, or not. A file that does not parse is not admitted: every start fails on it. -/
structure Initial (v : Volume fmt) : Prop where
  path : PathOk fmt v.dir
  absent : v.entry = .absent → v.dir = emptyDir
  proc : v.proc = .reading
  keys : v.keys = []
  synced : v.synced = true → v.dir.past .path = [] ∧ v.dir.entries .path ≠ none

def system (fmt : Format) : System (Volume fmt) (Event fmt) := ⟨Initial, step⟩

/-! ## The file at the path -/

/-- The temporary file of the process is not the one at the path, now or after a
crash. -/
def Apart (d : Dir) (p : Proc fmt) : Prop :=
  ∀ t n, p.own = some (t, n) → some n ∉ d.entries .path :: d.past .path

variable {d d' : Dir} {p p' : Proc fmt} {op : Op fmt}

/-- What keeps the path and the files it may lead to keeps `PathOk`. -/
theorem PathOk.keep (h : PathOk fmt d) (he : d'.entries .path = d.entries .path)
    (hp : d'.past .path = d.past .path)
    (hf : ∀ n, some n ∈ d.entries .path :: d.past .path → d'.files n = d.files n) :
    PathOk fmt d' := by
  intro n hn
  rw [he, hp] at hn
  obtain ⟨c, k, hc, hk⟩ := h n hn
  exact ⟨c, k, (hf n hn).trans hc, hk⟩

theorem files_path (d : Dir) {n : Nat} (hn : some n ∈ d.entries .path :: d.past .path) :
    d.files n ≠ none :=
  d.sound .path n ((List.mem_cons.mp hn).imp Eq.symm id)

/-- The process changes its own file. -/
theorem PathOk.draft {t n : Nat} {f : File Contents} (h : PathOk fmt d) (hapart : Apart d p)
    (hp : p.own = some (t, n)) (hown : p'.own = some (t, n)) (he : d'.entries = d.entries)
    (hpast : d'.past = d.past) (hf : d'.files = Function.update d.files n (some f)) :
    PathOk fmt d' ∧ Apart d' p' := by
  have hn := hapart t n hp
  refine ⟨h.keep (by rw [he]) (by rw [hpast]) ?_, ?_⟩
  · intro m hm
    have hne : m ≠ n := fun hmn => hn (hmn ▸ hm)
    rw [hf, Function.update_of_ne hne]
  · intro t' n' hown'
    rw [hown] at hown'
    cases hown'
    rwa [he, hpast]

theorem Apart.none (h : p.own = none) : Apart d p := by
  intro t n hown
  rw [h] at hown
  cases hown

theorem PathOk.step (h : PathOk fmt d) (hown : OwnOk d p) (hapart : Apart d p)
    (hst : ProcStep d p op d' p') : PathOk fmt d' ∧ Apart d' p' := by
  cases hst with
  | found | unreadable | absent | readFails | generate | generateFails | mkdir | mkdirFails
  | createFails | openDir | openDirFails | syncDirFails | parse | removeFails =>
    exact ⟨h, .none rfl⟩
  | chmodFails | syncFails | close | closeFails | renameFails => exact ⟨h, hapart⟩
  | @create k t n ht hn =>
    have hfresh : some n ∉ d.entries .path :: d.past .path := fun hm => files_path d hm hn
    refine ⟨h.keep (by simp) (by simp) ?_, ?_⟩
    · intro m hm
      have hne : m ≠ n := fun hmn => hfresh (hmn ▸ hm)
      simp [hne]
    · intro t' n' hown'
      cases hown'
      simpa using hfresh
  | chmod | write | writeFails =>
    obtain ⟨-, f, hf, -⟩ := hown _ _ rfl
    exact h.draft hapart rfl rfl Disk.entries_write Disk.past_write (Disk.files_write hf)
  | sync =>
    obtain ⟨-, f, hf, -⟩ := hown _ _ rfl
    exact h.draft hapart rfl rfl Disk.entries_sync Disk.past_sync (Disk.files_sync hf)
  | @rename k t n =>
    obtain ⟨ht, f, hf, hd⟩ := hown _ _ rfl
    have hd : f = ⟨keyFile k, true⟩ := hd
    refine ⟨?_, .none rfl⟩
    intro m hm
    rw [Disk.past_rename (by simp)] at hm
    obtain hnew | hold := List.mem_cons.mp hm
    · have hmn : m = n := by simpa [ht] using hnew
      exact ⟨keyFile k, k, by rw [hmn, Disk.files_rename, hf, hd], fmt.parse_pem k⟩
    · exact h m hold
  | remove => exact ⟨h.keep (by simp) (by simp) fun _ _ => rfl, .none rfl⟩
  | syncDir =>
    refine ⟨?_, .none rfl⟩
    intro m hm
    obtain hm | hm := List.mem_cons.mp hm
    · exact h m (hm ▸ List.mem_cons_self)
    · cases hm

theorem PathOk.crash (h : PathOk fmt d) (hc : d.Crash d') : PathOk fmt d' := by
  intro n hn
  rw [hc.past .path, List.mem_singleton] at hn
  have hold : some n ∈ d.entries .path :: d.past .path := by
    rw [hn]
    exact List.mem_cons.mpr (hc.entries .path)
  obtain ⟨c, k, hfile, hk⟩ := h n hold
  obtain ⟨x, hx, hdata⟩ := hc.files n _ hfile
  exact ⟨c, k, by rw [hx, hdata rfl], hk⟩

theorem PathOk.empty : PathOk fmt emptyDir := by
  simp [PathOk, emptyDir]

/-! ## The key of all starts -/

variable {v w : Volume fmt} {c : Contents} {k : fmt.Key}

theorem Has.lookup (h : Has d c) : d.lookup .path = some c := by
  obtain ⟨n, he, hf⟩ := h
  exact Disk.lookup_of_file he hf

/-- What a read of the file gives. -/
theorem Has.parsed {c' : Contents} {k' : fmt.Key} (h : Has d c)
    (hk : fmt.parsePrivateKey c.bytes = some k) (hc : d.lookup .path = some c')
    (hk' : fmt.parsePrivateKey c'.bytes = some k') : k' = k := by
  rw [h.lookup] at hc
  cases hc
  exact Option.some.inj (hk'.symm.trans hk)

theorem Has.crash (h : Has d c) (hp : d.past .path = []) (hc : d.Crash d') : Has d' c := by
  obtain ⟨n, he, hf⟩ := h
  have he' : d'.entries .path = d.entries .path := by
    refine (hc.entries .path).resolve_right ?_
    rw [hp]
    exact List.not_mem_nil
  obtain ⟨x, hx, hdata⟩ := hc.files n _ hf
  exact ⟨n, he'.trans he, by rw [hx, hdata rfl]⟩

/-- Whether a process is past its installation, or has not come to generate a key. -/
def Settled (d : Dir) : Proc fmt → Prop
  | .reading | .returned _ _ | .failed _ _ => True
  | .openingDir k | .syncingDir k | .parsing k => Has d (keyFile k)
  | _ => False

/-- After a key was given or the directory synced: the path has the key `k` of all
starts in the file `c`. -/
structure Agreed (c : Contents) (k : fmt.Key) (v : Volume fmt) : Prop where
  has : Has v.dir c
  key : fmt.parsePrivateKey c.bytes = some k
  keys : ∀ k' ∈ v.keys, k' = k
  settled : Settled v.dir v.proc
  durable : v.synced = true → v.dir.past .path = []

/-- Behind the rename the path has the key of the process. -/
def InstalledOk (d : Dir) (p : Proc fmt) : Prop :=
  ∀ k, p = .openingDir k ∨ p = .syncingDir k ∨ p = .parsing k → Has d (keyFile k)

structure Inv (v : Volume fmt) : Prop where
  path : PathOk fmt v.dir
  own : OwnOk v.dir v.proc
  apart : Apart v.dir v.proc
  installed : InstalledOk v.dir v.proc
  agreed : v.keys ≠ [] ∨ v.synced = true → ∃ c k, Agreed c k v

/-- Where the path has a key, a start gives that key and leaves it there. -/
theorem Settled.step (h : Settled d p) (hc : Has d c)
    (hk : fmt.parsePrivateKey c.bytes = some k) (hst : ProcStep d p op d' p') :
    Has d' c ∧ Settled d' p' ∧ (∀ k' ∈ p'.given, k' = k) ∧
      (d.past .path = [] ∨ op.syncs = true → d'.past .path = []) := by
  cases hst with
  | found hread hparse =>
    refine ⟨hc, trivial, ?_, by simp [Op.syncs]⟩
    intro k' hk'
    rw [List.mem_singleton.mp hk']
    exact hc.parsed hk hread hparse
  | absent hread =>
    rw [hc.lookup] at hread
    cases hread
  | unreadable | readFails => exact ⟨hc, trivial, by simp [Proc.given], by simp [Op.syncs]⟩
  | openDir | openDirFails | syncDirFails =>
    exact ⟨hc, h, by simp [Proc.given], by simp [Op.syncs]⟩
  | syncDir => exact ⟨hc, h, by simp [Proc.given], fun _ => rfl⟩
  | parse =>
    refine ⟨hc, trivial, ?_, by simp [Op.syncs]⟩
    intro k' hk'
    rw [List.mem_singleton.mp hk']
    exact hc.parsed hk (Has.lookup h) (fmt.parse_pem _)
  | _ => exact h.elim

theorem Agreed.operate (h : Agreed c k v) (hst : ProcStep v.dir v.proc op d' p')
    {entry : DirEntry} : Agreed c k ⟨d', entry, p', v.keys ++ p'.given, v.synced || op.syncs⟩ := by
  obtain ⟨hhas, hsettled, hgiven, hpast⟩ := h.settled.step h.has h.key hst
  refine ⟨hhas, h.key, fun k' hk' => ?_, hsettled, fun hsync => ?_⟩
  · obtain hk' | hk' := List.mem_append.mp hk'
    · exact h.keys k' hk'
    · exact hgiven k' hk'
  · exact hpast ((Bool.or_eq_true_iff.mp hsync).imp_left h.durable)

theorem Agreed.restart (h : Agreed c k v) : Agreed c k { v with proc := .reading } :=
  ⟨h.has, h.key, h.keys, trivial, h.durable⟩

/-- A crash that keeps the directory keeps the key, once it was synced. -/
theorem Agreed.crash (h : Agreed c k v) (hsynced : v.synced = true) (hc : v.dir.Crash d')
    {entry : DirEntry} : Agreed c k { v with
      dir := d', entry := entry, proc := .reading, keys := if v.synced then v.keys else [] } := by
  refine ⟨h.has.crash (h.durable hsynced) hc, h.key, ?_, trivial, fun _ => hc.past .path⟩
  rw [if_pos hsynced]
  exact h.keys

/-- The first key that is given, or the first sync, finds the key at the path. -/
theorem PathOk.first (hpath : PathOk fmt d) (hinst : InstalledOk d p)
    (hst : ProcStep d p op d' p') (hnew : p'.given ≠ [] ∨ op.syncs = true) :
    ∃ (c : Contents) (k : fmt.Key), Has d c ∧ fmt.parsePrivateKey c.bytes = some k ∧
      Settled d p := by
  cases hst with
  | found hc hparse =>
    obtain ⟨n, he⟩ := Option.ne_none_iff_exists'.mp
      (mt Disk.lookup_eq_none.mpr (by rw [hc]; simp))
    obtain ⟨c, k, hfile, hk⟩ := hpath n (he ▸ List.mem_cons_self)
    exact ⟨c, k, ⟨n, he, hfile⟩, hk, trivial⟩
  | @syncDir k =>
    have hhas := hinst k (.inr (.inl rfl))
    exact ⟨_, k, hhas, fmt.parse_pem k, hhas⟩
  | @parse k =>
    have hhas := hinst k (.inr (.inr rfl))
    exact ⟨_, k, hhas, fmt.parse_pem k, hhas⟩
  | _ => simp [Proc.given, Op.syncs] at hnew

theorem InstalledOk.step (hinst : InstalledOk d p) (hown : OwnOk d p)
    (hst : ProcStep d p op d' p') : InstalledOk d' p' := by
  intro k hp
  cases hst with
  | @rename k' t n =>
    obtain ⟨ht, f, hf, hd⟩ := hown _ _ rfl
    have hd : f = ⟨keyFile k', true⟩ := hd
    have hk : k' = k := by simpa using hp
    exact ⟨n, by simp [ht], by rw [Disk.files_rename, hf, hd, hk]⟩
  | @openDir k' | @openDirFails k' =>
    have hk : k' = k := by simpa using hp
    exact hinst k (.inl (by rw [hk]))
  | @syncDir k' | @syncDirFails k' =>
    have hk : k' = k := by simpa using hp
    exact hinst k (.inr (.inl (by rw [hk])))
  | _ => simp at hp

theorem Inv.operate (h : Inv v) (hst : ProcStep v.dir v.proc op d' p') {entry : DirEntry} :
    Inv ⟨d', entry, p', v.keys ++ p'.given, v.synced || op.syncs⟩ := by
  obtain ⟨hpath, hapart⟩ := h.path.step h.own h.apart hst
  refine ⟨hpath, h.own.step hst, hapart, h.installed.step h.own hst, ?_⟩
  intro hany
  suffices hbefore : ∃ c k, Agreed c k v by
    obtain ⟨c, k, hagreed⟩ := hbefore
    exact ⟨c, k, hagreed.operate hst⟩
  by_cases hold : v.keys ≠ [] ∨ v.synced = true
  · exact h.agreed hold
  · rw [not_or, not_not, Bool.not_eq_true] at hold
    obtain ⟨hkeys, hsynced⟩ := hold
    have hnew : p'.given ≠ [] ∨ op.syncs = true := by
      simpa only [hkeys, hsynced, List.nil_append, Bool.false_or] using hany
    obtain ⟨c, k, hhas, hk, hsettled⟩ := h.path.first h.installed hst hnew
    exact ⟨c, k, hhas, hk, by simp [hkeys], hsettled, by simp [hsynced]⟩

/-- A start finds the directory as it is. -/
theorem Inv.restart (h : Inv v) : Inv { v with proc := .reading } := by
  refine ⟨h.path, by simp [OwnOk, Proc.own], .none rfl, by simp [InstalledOk], ?_⟩
  intro hany
  obtain ⟨c, k, hagreed⟩ := h.agreed hany
  exact ⟨c, k, hagreed.restart⟩

theorem Inv.crash (h : Inv v) (hc : v.dir.Crash d') {entry : DirEntry} : Inv { v with
    dir := d', entry := entry, proc := .reading, keys := if v.synced then v.keys else [] } := by
  refine ⟨h.path.crash hc, by simp [OwnOk, Proc.own], .none rfl, by simp [InstalledOk], ?_⟩
  intro hany
  have hsynced : v.synced = true := by
    by_contra hno
    rw [Bool.not_eq_true] at hno
    simp [hno] at hany
  obtain ⟨c, k, hagreed⟩ := h.agreed (.inr hsynced)
  exact ⟨c, k, hagreed.crash hsynced hc⟩

theorem Inv.fresh (hpath : PathOk fmt v.dir) (hproc : v.proc = .reading) (hkeys : v.keys = [])
    (hsynced : v.synced = true → v.dir.past .path = [] ∧ v.dir.entries .path ≠ none) : Inv v := by
  refine ⟨hpath, ?_, ?_, ?_, fun hany => ?_⟩
  · simp [OwnOk, hproc, Proc.own]
  · exact .none (by rw [hproc]; rfl)
  · simp [hproc, InstalledOk]
  · obtain ⟨hpast, hentry⟩ := hsynced (hany.resolve_left (not_not_intro hkeys))
    obtain ⟨n, he⟩ := Option.ne_none_iff_exists'.mp hentry
    obtain ⟨c, k, hfile, hk⟩ := hpath n (he ▸ List.mem_cons_self)
    exact ⟨c, k, ⟨n, he, hfile⟩, hk, by simp [hkeys], by rw [hproc]; trivial, fun _ => hpast⟩

theorem inv_stable (fmt : Format) : (system fmt).Stable Inv where
  init v h := .fresh h.path h.proc h.keys h.synced
  step v e w h hst := by
    cases e with
    | op op =>
      obtain ⟨r, hr, rfl⟩ := Option.map_eq_some_iff.mp hst
      exact h.operate (Proc.step_cases hr)
    | restart =>
      cases hst
      exact h.restart
    | crash keep pick junk =>
      have hst : step v (.crash keep pick junk) = some w := hst
      rw [step] at hst
      split at hst <;> cases hst
      · exact .fresh .empty rfl rfl nofun
      · exact h.crash (Disk.crash_crashed v.dir pick junk)

/-- A volume whose key was synced and whose directory is durable. -/
structure Lasting (c : Contents) (k : fmt.Key) (v : Volume fmt) : Prop where
  agreed : Agreed c k v
  synced : v.synced = true
  entry : v.entry = .durable

theorem Lasting.step {e : Event fmt} (h : Lasting c k v) (hst : (system fmt).step v e = some w) :
    Lasting c k w := by
  cases e with
  | op op =>
    obtain ⟨r, hr, rfl⟩ := Option.map_eq_some_iff.mp hst
    refine ⟨h.agreed.operate (Proc.step_cases hr), by simp [h.synced], ?_⟩
    show op.mkdirs v.entry = .durable
    rw [h.entry, Op.mkdirs]
    simp
  | restart =>
    cases hst
    exact ⟨h.agreed.restart, h.synced, h.entry⟩
  | crash keep pick junk =>
    have hst : Volume.step v (.crash keep pick junk) = some w := hst
    rw [Volume.step, if_neg (by simp [h.entry])] at hst
    cases hst
    exact ⟨h.agreed.crash h.synced (Disk.crash_crashed v.dir pick junk), h.synced,
      by simp [h.entry]⟩

end Volume
end WorkspaceProxy.SshServer.HostKey
