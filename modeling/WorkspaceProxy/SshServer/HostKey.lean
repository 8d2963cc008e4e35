import WorkspaceProxy.Conc.Disk
import WorkspaceProxy.Conc.System
import WorkspaceProxy.Go.Strings

/-! # The host key

`loadOrCreateHostKey` reads the key at a path, or makes one: a temporary file in
the same directory is written, synced and closed, and renamed to the path. Any
number of processes do so on one directory. Every file operation may fail, and
is one step. -/
namespace WorkspaceProxy.SshServer.HostKey
open WorkspaceProxy.Conc WorkspaceProxy.Go

/-- `gossh.ParsePrivateKey`, and the PEM of `generateHostKeyPEM`, which parses. -/
structure Format where
  Key : Type
  pem : Key → GoString
  parsePrivateKey : GoString → Option Key
  parse_pem : ∀ k, parsePrivateKey (pem k) = some k

def hostKeyFileMode : Nat := 0o600

/-- The names of the directory that the code uses: the path itself, and those
that `os.CreateTemp` makes of it. -/
inductive Name
  | path
  | tmp (suffix : Nat)
  deriving DecidableEq

structure Contents where
  bytes : GoString
  mode : Nat
  deriving DecidableEq

abbrev Dir := Disk Name Contents

/-- The errors of `loadOrCreateHostKey`, by what failed. -/
inductive Error
  | parseExisting
  | readFile
  | generateKey
  | marshalKey
  | mkdirAll
  | createTemp
  | writeAndSync
  | rename
  | parseGenerated
  deriving DecidableEq

/-- Where a process is. `t` is the suffix of its temporary file and `n` the file;
`failed` keeps the suffix of a temporary file that could not be removed. -/
inductive Proc (fmt : Format)
  | reading
  | generating
  | makingDir (k : fmt.Key)
  | creatingTemp (k : fmt.Key)
  | chmodding (k : fmt.Key) (t n : Nat)
  | writing (k : fmt.Key) (t n : Nat)
  | syncing (k : fmt.Key) (t n : Nat)
  | closing (k : fmt.Key) (t n : Nat) (ok : Bool)
  | installing (k : fmt.Key) (t n : Nat)
  | removing (t n : Nat) (e : Error)
  | openingDir (k : fmt.Key)
  | syncingDir (k : fmt.Key)
  | parsing (k : fmt.Key)
  | returned (k : fmt.Key) (generated : Bool)
  | failed (e : Error) (left : Option Nat)

/-- A file operation and its outcome. -/
inductive Op (fmt : Format)
  | readFile (ok : Bool)
  | generateHostKeyPEM (result : Except Error fmt.Key)
  | mkdirAll (ok : Bool)
  | createTemp (tmp : Option (Nat × Nat))
  | chmod (ok : Bool)
  /-- `some m` is an error after `m` bytes. -/
  | write (short : Option Nat)
  | sync (ok : Bool)
  | close (ok : Bool)
  | rename (ok : Bool)
  | remove (ok : Bool)
  | openDir (ok : Bool)
  | syncDir (ok : Bool)
  | parse

variable (fmt : Format)

def Proc.step (d : Dir) : Proc fmt → Op fmt → Option (Dir × Proc fmt)
  | .reading, .readFile true =>
    match d.lookup .path with
    | some c =>
      match fmt.parsePrivateKey c.bytes with
      | some k => some (d, .returned k false)
      | none => some (d, .failed .parseExisting none)
    -- os.ErrNotExist
    | none => some (d, .generating)
  | .reading, .readFile false => some (d, .failed .readFile none)
  | .generating, .generateHostKeyPEM (.ok k) => some (d, .makingDir k)
  | .generating, .generateHostKeyPEM (.error e) =>
    if e = .generateKey ∨ e = .marshalKey then some (d, .failed e none) else none
  | .makingDir k, .mkdirAll true => some (d, .creatingTemp k)
  | .makingDir _, .mkdirAll false => some (d, .failed .mkdirAll none)
  -- O_EXCL: the name is free, and the file new
  | .creatingTemp k, .createTemp (some (t, n)) =>
    if d.entries (.tmp t) = none ∧ (d.files n).isNone then
      some (d.create (.tmp t) n ⟨[], 0o600⟩, .chmodding k t n)
    else none
  | .creatingTemp _, .createTemp none => some (d, .failed .createTemp none)
  | .chmodding k t n, .chmod true =>
    some (d.write n fun c => { c with mode := hostKeyFileMode }, .writing k t n)
  | .chmodding k t n, .chmod false => some (d, .closing k t n false)
  | .writing k t n, .write none =>
    some (d.write n fun c => { c with bytes := c.bytes ++ fmt.pem k }, .syncing k t n)
  | .writing k t n, .write (some m) =>
    some (d.write n fun c => { c with bytes := c.bytes ++ (fmt.pem k).take m },
      .closing k t n false)
  | .syncing k t n, .sync true => some (d.sync n, .closing k t n true)
  | .syncing k t n, .sync false => some (d, .closing k t n false)
  | .closing k t n ok, .close closed =>
    some (d, if ok && closed then .installing k t n else .removing t n .writeAndSync)
  | .installing k t _, .rename true => some (d.rename (.tmp t) .path, .openingDir k)
  | .installing _ t n, .rename false => some (d, .removing t n .rename)
  | .removing t _ e, .remove true => some (d.remove (.tmp t), .failed e none)
  | .removing t _ e, .remove false => some (d, .failed e (some t))
  | .openingDir k, .openDir true => some (d, .syncingDir k)
  | .openingDir k, .openDir false => some (d, .parsing k)
  | .syncingDir k, .syncDir true => some (d.syncDir, .parsing k)
  | .syncingDir k, .syncDir false => some (d, .parsing k)
  | .parsing k, .parse =>
    match fmt.parsePrivateKey (fmt.pem k) with
    | some k' => some (d, .returned k' true)
    | none => some (d, .failed .parseGenerated none)
  | _, _ => none

structure State where
  dir : Dir
  procs : Nat → Proc fmt

structure Act where
  proc : Nat
  op : Op fmt

def step (s : State fmt) (a : Act fmt) : Option (State fmt) :=
  ((s.procs a.proc).step fmt s.dir a.op).map fun r => ⟨r.1, Function.update s.procs a.proc r.2⟩

def system : System (State fmt) (Act fmt) where
  init s := ∀ i, s.procs i = .reading
  step := step fmt

/-- Keys of one byte, for evaluation. -/
def oneByte : Format where
  Key := UInt8
  pem k := [k]
  parsePrivateKey
    | [k] => some k
    | _ => none
  parse_pem _ := rfl

def emptyDir : Dir where
  entries _ := none
  past _ := []
  files _ := none
  sound := by simp

def start : State fmt := ⟨emptyDir, fun _ => .reading⟩

/-- A process that comes to the rename without an error. -/
def draftRun (i : Nat) (k : fmt.Key) (t n : Nat) : List (Act fmt) :=
  [.readFile true, .generateHostKeyPEM (.ok k), .mkdirAll true, .createTemp (some (t, n)),
    .chmod true, .write none, .sync true, .close true].map (⟨i, ·⟩)

variable {fmt} {d d' : Dir} {p p' : Proc fmt} {op : Op fmt}

/-- What one operation of a process does. -/
inductive ProcStep (d : Dir) : Proc fmt → Op fmt → Dir → Proc fmt → Prop
  | found {c : Contents} {k : fmt.Key} (hc : d.lookup .path = some c)
      (hk : fmt.parsePrivateKey c.bytes = some k) :
      ProcStep d .reading (.readFile true) d (.returned k false)
  | unreadable {c : Contents} (hc : d.lookup .path = some c)
      (hk : fmt.parsePrivateKey c.bytes = none) :
      ProcStep d .reading (.readFile true) d (.failed .parseExisting none)
  | absent (hc : d.lookup .path = none) : ProcStep d .reading (.readFile true) d .generating
  | readFails : ProcStep d .reading (.readFile false) d (.failed .readFile none)
  | generate {k : fmt.Key} :
      ProcStep d .generating (.generateHostKeyPEM (.ok k)) d (.makingDir k)
  | generateFails {e : Error} (he : e = .generateKey ∨ e = .marshalKey) :
      ProcStep d .generating (.generateHostKeyPEM (.error e)) d (.failed e none)
  | mkdir {k : fmt.Key} : ProcStep d (.makingDir k) (.mkdirAll true) d (.creatingTemp k)
  | mkdirFails {k : fmt.Key} :
      ProcStep d (.makingDir k) (.mkdirAll false) d (.failed .mkdirAll none)
  | create {k : fmt.Key} {t n : Nat} (ht : d.entries (.tmp t) = none) (hn : d.files n = none) :
      ProcStep d (.creatingTemp k) (.createTemp (some (t, n)))
        (d.create (.tmp t) n ⟨[], 0o600⟩) (.chmodding k t n)
  | createFails {k : fmt.Key} :
      ProcStep d (.creatingTemp k) (.createTemp none) d (.failed .createTemp none)
  | chmod {k : fmt.Key} {t n : Nat} : ProcStep d (.chmodding k t n) (.chmod true)
      (d.write n fun c => { c with mode := hostKeyFileMode }) (.writing k t n)
  | chmodFails {k : fmt.Key} {t n : Nat} :
      ProcStep d (.chmodding k t n) (.chmod false) d (.closing k t n false)
  | write {k : fmt.Key} {t n : Nat} : ProcStep d (.writing k t n) (.write none)
      (d.write n fun c => { c with bytes := c.bytes ++ fmt.pem k }) (.syncing k t n)
  | writeFails {k : fmt.Key} {t n m : Nat} : ProcStep d (.writing k t n) (.write (some m))
      (d.write n fun c => { c with bytes := c.bytes ++ (fmt.pem k).take m }) (.closing k t n false)
  | sync {k : fmt.Key} {t n : Nat} :
      ProcStep d (.syncing k t n) (.sync true) (d.sync n) (.closing k t n true)
  | syncFails {k : fmt.Key} {t n : Nat} :
      ProcStep d (.syncing k t n) (.sync false) d (.closing k t n false)
  | close {k : fmt.Key} {t n : Nat} :
      ProcStep d (.closing k t n true) (.close true) d (.installing k t n)
  | closeFails {k : fmt.Key} {t n : Nat} {ok closed : Bool} (h : ok = false ∨ closed = false) :
      ProcStep d (.closing k t n ok) (.close closed) d (.removing t n .writeAndSync)
  | rename {k : fmt.Key} {t n : Nat} :
      ProcStep d (.installing k t n) (.rename true) (d.rename (.tmp t) .path) (.openingDir k)
  | renameFails {k : fmt.Key} {t n : Nat} :
      ProcStep d (.installing k t n) (.rename false) d (.removing t n .rename)
  | remove {t n : Nat} {e : Error} :
      ProcStep d (.removing t n e) (.remove true) (d.remove (.tmp t)) (.failed e none)
  | removeFails {t n : Nat} {e : Error} :
      ProcStep d (.removing t n e) (.remove false) d (.failed e (some t))
  | openDir {k : fmt.Key} : ProcStep d (.openingDir k) (.openDir true) d (.syncingDir k)
  | openDirFails {k : fmt.Key} : ProcStep d (.openingDir k) (.openDir false) d (.parsing k)
  | syncDir {k : fmt.Key} : ProcStep d (.syncingDir k) (.syncDir true) d.syncDir (.parsing k)
  | syncDirFails {k : fmt.Key} : ProcStep d (.syncingDir k) (.syncDir false) d (.parsing k)
  | parse {k : fmt.Key} : ProcStep d (.parsing k) .parse d (.returned k true)

theorem Proc.step_cases {r : Dir × Proc fmt} (h : p.step fmt d op = some r) :
    ProcStep d p op r.1 r.2 := by
  unfold Proc.step at h
  split at h
  case h_1 =>
    split at h
    · split at h <;> cases h
      · exact .found ‹_› ‹_›
      · exact .unreadable ‹_› ‹_›
    · cases h
      exact .absent ‹_›
  case h_4 =>
    split at h <;> cases h
    exact .generateFails ‹_›
  case h_7 =>
    split at h <;> cases h
    rename_i hfree
    exact .create hfree.1 (Option.isNone_iff_eq_none.mp hfree.2)
  case h_15 ok closed =>
    cases h
    cases ok <;> cases closed
    · exact .closeFails (.inl rfl)
    · exact .closeFails (.inl rfl)
    · exact .closeFails (.inr rfl)
    · exact .close
  case h_24 =>
    rw [fmt.parse_pem] at h
    cases h
    exact .parse
  case h_25 => cases h
  all_goals
    cases h
    constructor

theorem step_cases {s s' : State fmt} {a : Act fmt} (h : (system fmt).step s a = some s') :
    ∃ d p, ProcStep s.dir (s.procs a.proc) a.op d p ∧
      s' = ⟨d, Function.update s.procs a.proc p⟩ := by
  obtain ⟨r, hr, rfl⟩ := Option.map_eq_some_iff.mp h
  exact ⟨r.1, r.2, Proc.step_cases hr, rfl⟩

/-! ## The temporary file of a process -/

/-- The temporary file that a process has: its suffix and the file. -/
def Proc.own : Proc fmt → Option (Nat × Nat)
  | .chmodding _ t n | .writing _ t n | .syncing _ t n | .closing _ t n _ | .installing _ t n
  | .removing t n _ => some (t, n)
  | _ => none

/-- The contents of a host key file. -/
def keyFile (k : fmt.Key) : Contents := ⟨fmt.pem k, hostKeyFileMode⟩

/-- What the temporary file has got. -/
def Drafted (f : File Contents) : Proc fmt → Prop
  | .chmodding _ _ _ => f.data.bytes = []
  | .writing _ _ _ => f.data = ⟨[], hostKeyFileMode⟩
  | .syncing k _ _ => f.data = keyFile k
  | .closing k _ _ true | .installing k _ _ => f = ⟨keyFile k, true⟩
  | _ => True

def OwnOk (d : Dir) (p : Proc fmt) : Prop :=
  ∀ t n, p.own = some (t, n) →
    d.entries (.tmp t) = some n ∧ ∃ f, d.files n = some f ∧ Drafted f p

/-- A process brings its temporary file forward. -/
theorem OwnOk.step (h : OwnOk d p) (hst : ProcStep d p op d' p') : OwnOk d' p' := by
  intro t n hown
  cases hst with
  | create ht hn =>
    cases hown
    exact ⟨by simp, ⟨⟨[], 0o600⟩, false⟩, by simp, rfl⟩
  | chmod =>
    cases hown
    obtain ⟨he, f, hf, hd⟩ := h _ _ rfl
    have hd : f.data.bytes = [] := hd
    exact ⟨by simpa using he, ⟨⟨f.data.bytes, hostKeyFileMode⟩, false⟩,
      by simp [Disk.files_write hf], by simp [Drafted, hd]⟩
  | write =>
    cases hown
    obtain ⟨he, f, hf, hd⟩ := h _ _ rfl
    have hd : f.data = ⟨[], hostKeyFileMode⟩ := hd
    exact ⟨by simpa using he, _, by rw [Disk.files_write hf, Function.update_self],
      by simp [Drafted, keyFile, hd]⟩
  | writeFails =>
    cases hown
    obtain ⟨he, f, hf, -⟩ := h _ _ rfl
    exact ⟨by simpa using he, _, by rw [Disk.files_write hf, Function.update_self], trivial⟩
  | sync =>
    cases hown
    obtain ⟨he, f, hf, hd⟩ := h _ _ rfl
    have hd : f.data = keyFile _ := hd
    exact ⟨by simpa using he, _, by rw [Disk.files_sync hf, Function.update_self],
      by simp [Drafted, hd]⟩
  | close =>
    cases hown
    exact h _ _ rfl
  | chmodFails | syncFails | closeFails | renameFails =>
    cases hown
    obtain ⟨he, f, hf, -⟩ := h _ _ rfl
    exact ⟨he, f, hf, trivial⟩
  | _ => cases hown

end WorkspaceProxy.SshServer.HostKey
