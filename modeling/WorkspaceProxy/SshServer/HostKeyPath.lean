import WorkspaceProxy.Go.Duration
import WorkspaceProxy.Go.Filepath
import WorkspaceProxy.Go.Quote
import WorkspaceProxy.Go.Walk
import WorkspaceProxy.SshServer.Config

/-! # Where the host key is

`validate` wants an absolute path for the host key, and `hasEphemeralHostKeyPath`
warns of one that a restart wipes. The directory of the key may not exist yet, so
`isOnRootDevice` asks for the device of the nearest ancestor that does. The file
system is what `os.Stat` answers for each path. -/
namespace WorkspaceProxy.SshServer.HostKeyPath
open WorkspaceProxy.Go WorkspaceProxy.Go.Filepath

/-! ## The configuration -/

structure Config where
  listenAddr : GoString
  hostKeyPath : GoString
  idleTimeout : Int
  maxSessions : Int
  allowNonLoopback : Bool

/-- `convErr != nil || p < 1 || p > 65535`. -/
def badPort (port : GoString) : Bool :=
  match atoi port with
  | .error _ => true
  | .ok p => p < 1 || p > 65535

/-- The checks of `validate` after the one of the address, with the text of the
error. -/
def Config.validateParts (table : Nat → Bool) (c : Config) (host port : GoString) :
    Option GoString :=
  if badPort port = true then
    some (bytes "SSH_LISTEN_ADDR port must be between 1 and 65535, got " ++ quote table port)
  else if c.hostKeyPath = [] then
    some (bytes "host key path is empty and no home directory could be determined: " ++
      bytes "set SSH_HOST_KEY_PATH to a location on persistent storage")
  else if isAbs c.hostKeyPath = false then
    some (bytes "SSH_HOST_KEY_PATH must be an absolute path, got " ++ quote table c.hostKeyPath)
  else if c.maxSessions < 0 then
    some (bytes "SSH_MAX_SESSIONS must not be negative, got " ++ itoa c.maxSessions)
  else if c.idleTimeout < 0 then
    some (bytes "SSH_IDLE_TIMEOUT must not be negative, got " ++ durationString c.idleTimeout)
  else if c.allowNonLoopback = false ∧ isLoopback host = false then
    some (bytes "refusing to listen on " ++ quote table c.listenAddr ++
      bytes ": this server performs no SSH authentication and " ++
      bytes "must stay on loopback behind the authenticating ingress; set " ++
      bytes "SSH_ALLOW_NON_LOOPBACK=true only if an equivalent authentication layer " ++
      bytes "is provably in front of it")
  else none

/-- Rejects a configuration the server must not run with; `none` is no error. -/
def Config.validate (table : Nat → Bool) (c : Config) : Option GoString :=
  match splitHostPort c.listenAddr with
  | .error err =>
    some (bytes "SSH_LISTEN_ADDR must be host:port, got " ++ quote table c.listenAddr ++
      bytes ": " ++ err.error c.listenAddr)
  | .ok (host, port) => c.validateParts table host port

/-- What the checks of `validate` guarantee. -/
structure Config.Valid (c : Config) : Prop where
  address : ∃ host port p, splitHostPort c.listenAddr = .ok (host, port) ∧ atoi port = .ok p ∧
    1 ≤ p ∧ p ≤ 65535 ∧ (c.allowNonLoopback = true ∨ LoopbackHost host)
  hostKeyPath : isAbs c.hostKeyPath = true
  maxSessions : 0 ≤ c.maxSessions
  idleTimeout : 0 ≤ c.idleTimeout

theorem badPort_eq_false_iff {port : GoString} :
    badPort port = false ↔ ∃ p, atoi port = .ok p ∧ 1 ≤ p ∧ p ≤ 65535 := by
  unfold badPort
  cases atoi port with
  | error e => simp
  | ok p => simp

/-- One check passes, and so do those after it. -/
theorem check_eq_none_iff {P : Prop} [Decidable P] {err : GoString} {rest : Option GoString} :
    (if P then some err else rest) = none ↔ ¬ P ∧ rest = none := by
  split
  · rename_i hP
    exact ⟨(fun h => by cases h), fun h => absurd hP h.1⟩
  · rename_i hP
    exact (and_iff_right hP).symm

theorem validateParts_eq_none_iff {table : Nat → Bool} {c : Config} {host port : GoString} :
    c.validateParts table host port = none ↔
      badPort port = false ∧ isAbs c.hostKeyPath = true ∧ 0 ≤ c.maxSessions ∧
        0 ≤ c.idleTimeout ∧ (c.allowNonLoopback = true ∨ isLoopback host = true) := by
  have hempty : isAbs c.hostKeyPath = true → c.hostKeyPath ≠ [] := by
    intro habs hnil
    rw [hnil] at habs
    cases habs
  simp only [Config.validateParts, check_eq_none_iff, Bool.not_eq_true, Bool.not_eq_false,
    not_and_or, Int.not_lt, and_true]
  constructor
  · intro h
    obtain ⟨hport, -, habs, hrest⟩ := h
    exact ⟨hport, habs, hrest⟩
  · intro h
    obtain ⟨hport, habs, hrest⟩ := h
    exact ⟨hport, hempty habs, habs, hrest⟩

theorem validate_eq_none_iff (table : Nat → Bool) (c : Config) :
    c.validate table = none ↔ c.Valid := by
  unfold Config.validate
  constructor
  · intro h
    split at h
    · cases h
    · rename_i host port hsplit
      obtain ⟨hport, habs, hsessions, hidle, hloop⟩ := validateParts_eq_none_iff.mp h
      obtain ⟨p, hp, hlow, hhigh⟩ := badPort_eq_false_iff.mp hport
      rw [isLoopback_iff] at hloop
      exact ⟨⟨host, port, p, hsplit, hp, hlow, hhigh, hloop⟩, habs, hsessions, hidle⟩
  · intro hv
    obtain ⟨host, port, p, hsplit, hp, hlow, hhigh, hloop⟩ := hv.address
    rw [← isLoopback_iff] at hloop
    rw [hsplit]
    exact validateParts_eq_none_iff.mpr ⟨badPort_eq_false_iff.mpr ⟨p, hp, hlow, hhigh⟩,
      hv.hostKeyPath, hv.maxSessions, hv.idleTimeout, hloop⟩

/-! ## The device of a path -/

/-- `os.FileInfo`: the device, where `Sys` is a `*syscall.Stat_t`. -/
structure FileInfo where
  sys : Option UInt64
deriving DecidableEq

def rootPath : GoString := bytes "/"

/-- Locations a restart wipes despite sitting on their own filesystem. -/
def ephemeralPathPrefixes : List GoString :=
  [bytes "/tmp/", bytes "/var/tmp/", bytes "/run/", bytes "/dev/shm/"]

def onSameDevice (a b : FileInfo) : Bool :=
  match a.sys, b.sys with
  | some aDev, some bDev => aDev == bDev
  | _, _ => false

/-- The rounds of the loop suffice, for paths are at most as deep as they are long. -/
theorem walk_dir_ends {β : Type} (find : GoString → Option β) (path : GoString) :
    (walk dir find (path.length + 2) path).isSome = true :=
  walk_ends rank_dir (by have := rank_le path; omega)

section
variable (stat : GoString → Option FileInfo)

/-- Walks up from `path` until it finds something that exists. -/
def statNearestAncestor (path : GoString) : Option FileInfo :=
  (walk dir stat (path.length + 2) path).get (walk_dir_ends stat path)

/-- Whether `path` shares a filesystem with the root directory. -/
def isOnRootDevice (path : GoString) : Bool :=
  match stat rootPath with
  | none => false
  | some rootInfo =>
    match statNearestAncestor stat path with
    | none => false
    | some pathInfo => onSameDevice pathInfo rootInfo

/-- Whether the host key lives somewhere a restart wipes. -/
def Config.hasEphemeralHostKeyPath (c : Config) : Bool :=
  if ephemeralPathPrefixes.any fun p => p.isPrefixOf c.hostKeyPath then true
  else isOnRootDevice stat (dir c.hostKeyPath)

end

/-! ## The walk -/

section
variable {stat : GoString → Option FileInfo} {path : GoString}

theorem walk_eq_statNearestAncestor {rounds : Nat} (hle : path.length + 2 ≤ rounds) :
    walk dir stat rounds path = some (statNearestAncestor stat path) :=
  walk_of_le (Option.some_get (walk_dir_ends stat path)).symm hle

theorem statNearestAncestor_eq_none_iff :
    statNearestAncestor stat path = none ↔ ∀ k, stat (dir^[k] path) = none := by
  have hwalk : walk dir stat (path.length + 2) path = some (statNearestAncestor stat path) :=
    walk_eq_statNearestAncestor (Nat.le_refl _)
  constructor
  · intro h
    rw [h] at hwalk
    exact walk_none hwalk
  · intro h
    cases hr : statNearestAncestor stat path with
    | none => rfl
    | some info =>
      rw [hr] at hwalk
      obtain ⟨k, hk⟩ := walk_some hwalk
      cases (h k).symm.trans hk.found

theorem statNearestAncestor_eq_some_iff {info : FileInfo} :
    statNearestAncestor stat path = some info ↔ ∃ k, FirstFound dir stat path k info := by
  have hwalk : walk dir stat (path.length + 2) path = some (statNearestAncestor stat path) :=
    walk_eq_statNearestAncestor (Nat.le_refl _)
  constructor
  · intro h
    rw [h] at hwalk
    exact walk_some hwalk
  · intro h
    obtain ⟨k, hk⟩ := h
    cases hr : statNearestAncestor stat path with
    | none => cases (statNearestAncestor_eq_none_iff.mp hr k).symm.trans hk.found
    | some info' =>
      rw [hr] at hwalk
      obtain ⟨k', hk'⟩ := walk_some hwalk
      rw [hk.unique hk']

/-- The chain of an absolute path has the root in it. -/
theorem statNearestAncestor_isSome {root : FileInfo} (habs : isAbs path = true)
    (hroot : stat rootPath = some root) : ∃ info, statNearestAncestor stat path = some info := by
  cases hr : statNearestAncestor stat path with
  | some info => exact ⟨info, rfl⟩
  | none =>
    obtain ⟨k, hk⟩ := exists_iterate_root habs
    have hnone := statNearestAncestor_eq_none_iff.mp hr k
    rw [hk] at hnone
    cases hnone.symm.trans hroot

/-- The answer for `path` is by the device of its nearest ancestor that exists. -/
def ByNearestAncestor (stat : GoString → Option FileInfo) (root : FileInfo) (path : GoString) :
    Prop :=
  ∃ k info, FirstFound dir stat path k info ∧ isOnRootDevice stat path = onSameDevice info root

theorem byNearestAncestor {root : FileInfo} (habs : isAbs path = true)
    (hroot : stat rootPath = some root) : ByNearestAncestor stat root path := by
  obtain ⟨info, hinfo⟩ := statNearestAncestor_isSome habs hroot
  obtain ⟨k, hk⟩ := statNearestAncestor_eq_some_iff.mp hinfo
  refine ⟨k, info, hk, ?_⟩
  simp only [isOnRootDevice, hroot, hinfo]

/-- **The warning at startup.** A host key path that `validate` accepts counts as
ephemeral exactly if it is below one of the listed locations or its nearest ancestor
that exists is on the device of the root. -/
theorem hasEphemeralHostKeyPath_iff {table : Nat → Bool} {c : Config} {root : FileInfo}
    (hvalid : c.validate table = none) (hroot : stat rootPath = some root) :
    ∃ k info, FirstFound dir stat (dir c.hostKeyPath) k info ∧
      (c.hasEphemeralHostKeyPath stat = true ↔
        (∃ p ∈ ephemeralPathPrefixes, p <+: c.hostKeyPath) ∨ onSameDevice info root = true) := by
  have habs := ((validate_eq_none_iff table c).mp hvalid).hostKeyPath
  obtain ⟨k, info, hfirst, hdevice⟩ :=
    byNearestAncestor ((isAbs_dir c.hostKeyPath).trans habs) hroot
  refine ⟨k, info, hfirst, ?_⟩
  unfold Config.hasEphemeralHostKeyPath
  rw [hdevice]
  split
  · rename_i hany
    obtain ⟨p, hp, hpre⟩ := List.any_eq_true.mp hany
    exact ⟨fun _ => .inl ⟨p, hp, List.isPrefixOf_iff_prefix.mp hpre⟩, fun _ => rfl⟩
  · rename_i hnone
    refine (or_iff_right ?_).symm
    intro h
    obtain ⟨p, hp, hpre⟩ := h
    exact hnone (List.any_eq_true.mpr ⟨p, hp, List.isPrefixOf_iff_prefix.mpr hpre⟩)

end

/-- What the walk of `statNearestAncestor` gives on a file system. -/
structure AncestorWalk (stat : GoString → Option FileInfo) : Prop where
  /-- The loop ends for every path, after a number of rounds that does not depend on
  the file system. -/
  ends : ∀ path rounds, path.length + 2 ≤ rounds →
    walk dir stat rounds path = some (statNearestAncestor stat path)
  /-- It returns the first of the chain that exists. -/
  first : ∀ path info, statNearestAncestor stat path = some info ↔
    ∃ k, FirstFound dir stat path k info
  /-- It fails only if nothing in the chain exists. -/
  nothing : ∀ path, statNearestAncestor stat path = none ↔ ∀ k, stat (dir^[k] path) = none
  /-- It succeeds for an absolute path where the root exists. -/
  absolute : ∀ path, isAbs path = true → (stat rootPath).isSome = true →
    (statNearestAncestor stat path).isSome = true
  /-- So the device of the nearest ancestor answers for a key path that `validate`
  accepts, and for its directory. -/
  hostKeyPath : ∀ table (c : Config) root, c.validate table = none → stat rootPath = some root →
    ByNearestAncestor stat root c.hostKeyPath ∧ ByNearestAncestor stat root (dir c.hostKeyPath)

/-- **The walk up from a path ends at the nearest ancestor that exists.** -/
theorem ancestor_walk (stat : GoString → Option FileInfo) : AncestorWalk stat where
  ends _ _ hle := walk_eq_statNearestAncestor hle
  first _ _ := statNearestAncestor_eq_some_iff
  nothing _ := statNearestAncestor_eq_none_iff
  absolute path habs hroot := by
    obtain ⟨root, hroot⟩ := Option.isSome_iff_exists.mp hroot
    obtain ⟨info, hinfo⟩ := statNearestAncestor_isSome habs hroot
    rw [hinfo]
    rfl
  hostKeyPath table c root hvalid hroot := by
    have habs := ((validate_eq_none_iff table c).mp hvalid).hostKeyPath
    exact ⟨byNearestAncestor habs hroot,
      byNearestAncestor ((isAbs_dir c.hostKeyPath).trans habs) hroot⟩

/-- A system with the root and a volume at `/home`, on a device of its own. -/
def homeVolume (path : GoString) : Option FileInfo :=
  if path = rootPath then some ⟨some 1⟩
  else if path = bytes "/home" then some ⟨some 2⟩
  else none

/-- The host key in a directory of the volume that does not exist yet. -/
def homeConfig : Config where
  listenAddr := bytes "127.0.0.1:2222"
  hostKeyPath := bytes "/home//jovyan/./.ssh/../.ssh/ssh_host_ed25519_key"
  idleTimeout := 0
  maxSessions := 10
  allowNonLoopback := false

theorem ancestor_walk_homeVolume :
    homeConfig.validate (fun _ => true) = none ∧ homeVolume rootPath = some ⟨some 1⟩ ∧
      ByNearestAncestor homeVolume ⟨some 1⟩ (dir homeConfig.hostKeyPath) ∧
      statNearestAncestor homeVolume (dir homeConfig.hostKeyPath) = some ⟨some 2⟩ := by
  have hvalid : homeConfig.validate (fun _ => true) = none := by decide
  have hroot : homeVolume rootPath = some ⟨some 1⟩ := by decide
  have hwalk := ancestor_walk homeVolume
  refine ⟨hvalid, hroot, (hwalk.hostKeyPath _ homeConfig _ hvalid hroot).2, ?_⟩
  exact (hwalk.first _ _).mpr ⟨2, by decide, by decide⟩

end WorkspaceProxy.SshServer.HostKeyPath
