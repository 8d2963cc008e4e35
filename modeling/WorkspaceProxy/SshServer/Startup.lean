import WorkspaceProxy.Proxy.Config
import WorkspaceProxy.SshServer.HomeDir
import WorkspaceProxy.SshServer.HostKeyPath

/-! # How the SSH server comes to its configuration

`main` reads the environment with `LoadConfig`, lets the flags override it, and `New`
refuses what `validate` does not accept. The server performs no authentication, so the
address that comes out of this is what keeps it from the network. -/
namespace WorkspaceProxy.SshServer.Startup
open WorkspaceProxy.Go WorkspaceProxy.Go.Filepath
open Environment (Passwd homeDir)

/-! ## The environment -/

/-- `strconv.ParseBool`. -/
def parseBool (s : GoString) : Option Bool :=
  if s = bytes "1" ∨ s = bytes "t" ∨ s = bytes "T" ∨ s = bytes "true" ∨ s = bytes "TRUE" ∨
      s = bytes "True" then some true
  else if s = bytes "0" ∨ s = bytes "f" ∨ s = bytes "F" ∨ s = bytes "false" ∨
      s = bytes "FALSE" ∨ s = bytes "False" then some false
  else none

/-- The variables of the process, as the helpers of the two packages read them. -/
def vars (envs : List GoString) : Proxy.Env := fun key => lookupEnviron envs (bytes key)

def getEnv (envs : List GoString) : String → GoString → GoString := Proxy.getEnv (vars envs)

def getDurationEnv (envs : List GoString) : String → Int → Int :=
  Proxy.getDurationEnv (vars envs)

def getIntEnv (envs : List GoString) : String → Int → Int := Proxy.getIntEnv (vars envs)

def getBoolEnv (envs : List GoString) (key : String) (defaultValue : Bool) : Bool :=
  if Proxy.getenv (vars envs) key ≠ [] then
    match parseBool (Proxy.getenv (vars envs) key) with
    | some b => b
    | none => defaultValue
  else defaultValue

/-! ## The configuration -/

def defaultPort : Int := 2222
def defaultMaxSessions : Int := 10
def defaultIdleTimeout : Int := 12 * Proxy.hour
def hostKeyDirName : GoString := bytes ".ssh"
def hostKeyFileName : GoString := bytes "ssh_host_ed25519_key"

def defaultHostKeyPath (envs : List GoString) (current : Option Passwd) : GoString :=
  if homeDir envs current = [] then []
  else join [homeDir envs current, hostKeyDirName, hostKeyFileName]

/-- `Config`, with the field that `validate` does not look at. -/
structure Config extends HostKeyPath.Config where
  loginShell : Bool

def loadConfig (envs : List GoString) (current : Option Passwd) : Config where
  listenAddr := getEnv envs "SSH_LISTEN_ADDR" (loopbackIPv4 ++ colon :: itoa defaultPort)
  hostKeyPath := getEnv envs "SSH_HOST_KEY_PATH" (defaultHostKeyPath envs current)
  idleTimeout := getDurationEnv envs "SSH_IDLE_TIMEOUT" defaultIdleTimeout
  maxSessions := getIntEnv envs "SSH_MAX_SESSIONS" defaultMaxSessions
  loginShell := getBoolEnv envs "SSH_LOGIN_SHELL" false
  allowNonLoopback := getBoolEnv envs "SSH_ALLOW_NON_LOOPBACK" false

/-- The flags of the command; `loginShell` is there if `isFlagSet` finds it. -/
structure Flags where
  port : Int
  hostKey : GoString
  loginShell : Option Bool

/-- `main` up to the call of `New`. -/
def configure (flags : Flags) (c : Config) : Config :=
  { c with
    listenAddr :=
      if flags.port ≠ 0 then bytes "127.0.0.1:" ++ itoa flags.port else c.listenAddr
    hostKeyPath := if flags.hostKey ≠ [] then flags.hostKey else c.hostKeyPath
    loginShell := flags.loginShell.getD c.loginShell }

/-- The configuration that `New` goes on with, or the error of `validate`. -/
def start (table : Nat → Bool) (envs : List GoString) (current : Option Passwd)
    (flags : Flags) : Except GoString Config :=
  let c := configure flags (loadConfig envs current)
  match c.validate table with
  | some err => .error err
  | none => .ok c

variable {table : Nat → Bool} {envs : List GoString} {current : Option Passwd} {flags : Flags}
  {c : Config}

theorem start_eq_ok_iff : start table envs current flags = .ok c ↔
    c = configure flags (loadConfig envs current) ∧ c.Valid := by
  unfold start
  dsimp only
  constructor
  · intro h
    split at h
    · cases h
    · rename_i hnone
      cases h
      exact ⟨rfl, (HostKeyPath.validate_eq_none_iff table _).mp hnone⟩
  · intro h
    obtain ⟨rfl, hv⟩ := h
    rw [(HostKeyPath.validate_eq_none_iff table _).mpr hv]

/-! ## The address -/

/-- The setting that lifts the restriction. -/
def Lifted (envs : List GoString) : Prop :=
  ∃ v, lookupEnviron envs (bytes "SSH_ALLOW_NON_LOOPBACK") = some v ∧ parseBool v = some true

theorem getBoolEnv_eq_true {key : String} (h : getBoolEnv envs key false = true) :
    ∃ v, lookupEnviron envs (bytes key) = some v ∧ parseBool v = some true := by
  unfold getBoolEnv at h
  split at h
  · rename_i hne
    split at h
    · rename_i b hb
      subst h
      cases hv : lookupEnviron envs (bytes key) with
      | none => simp [Proxy.getenv, vars, hv] at hne
      | some v =>
        refine ⟨v, rfl, ?_⟩
        simpa [Proxy.getenv, vars, hv] using hb
    · cases h
  · cases h

/-- The address that the flag gives. -/
theorem split_port (n : Int) :
    splitHostPort (bytes "127.0.0.1:" ++ itoa n) = .ok (loopbackIPv4, itoa n) := by
  have hjoin : bytes "127.0.0.1:" ++ itoa n = joinHostPort loopbackIPv4 (itoa n) := by
    have hcolon : colon ∉ loopbackIPv4 := by decide
    simp only [joinHostPort, if_neg hcolon]
    rfl
  rw [hjoin]
  exact split_join (itoa_plain n) (by decide) (by decide)

/-- **Loopback, whatever the environment and the flags.** A server that comes up listens
on a port of a loopback host, unless SSH_ALLOW_NON_LOOPBACK is set to a true value; and
with the flag `-port` it listens on 127.0.0.1 even then. -/
theorem listens_on_loopback (h : start table envs current flags = .ok c) :
    ∃ host port p, splitHostPort c.listenAddr = .ok (host, port) ∧ atoi port = .ok p ∧
      1 ≤ p ∧ p ≤ 65535 ∧ (LoopbackHost host ∨ Lifted envs) ∧
      (flags.port ≠ 0 → host = loopbackIPv4 ∧ port = itoa flags.port) := by
  obtain ⟨hc, hv⟩ := start_eq_ok_iff.mp h
  obtain ⟨host, port, p, hsplit, hp, hlow, hhigh, hloop⟩ := hv.address
  refine ⟨host, port, p, hsplit, hp, hlow, hhigh, ?_, ?_⟩
  · obtain hallow | hloop := hloop
    · rw [hc] at hallow
      exact .inr (getBoolEnv_eq_true hallow)
    · exact .inl hloop
  · intro hport
    have haddr : c.listenAddr = bytes "127.0.0.1:" ++ itoa flags.port := by
      rw [hc]
      exact if_pos hport
    rw [haddr, split_port] at hsplit
    cases hsplit
    exact ⟨rfl, rfl⟩

/-- The flag `-port 2200` in an environment that asks for all interfaces. -/
def portFlags : Flags := ⟨2200, [], none⟩

def openEnviron : List GoString :=
  [bytes "HOME=/home/jovyan", bytes "SSH_LISTEN_ADDR=0.0.0.0:2222",
    bytes "SSH_ALLOW_NON_LOOPBACK=true"]

theorem listens_on_loopback_port : ∃ c, start (fun _ => true) openEnviron none portFlags = .ok c ∧
    splitHostPort c.listenAddr = .ok (loopbackIPv4, bytes "2200") := by
  obtain ⟨c, hc⟩ : ∃ c, start (fun _ => true) openEnviron none portFlags = .ok c := ⟨_, rfl⟩
  obtain ⟨host, port, p, hsplit, -, -, -, -, hflag⟩ := listens_on_loopback hc
  obtain ⟨rfl, rfl⟩ := hflag (by decide)
  exact ⟨c, hc, hsplit⟩

/-! ## The host key -/

theorem isName_hostKeyDirName : IsName hostKeyDirName := by decide

theorem isName_hostKeyFileName : IsName hostKeyFileName := by decide

/-- **The default place of the host key.** Where neither the flag nor the environment
names one, a server that comes up has an absolute home directory, and its host key is
ssh_host_ed25519_key in the directory .ssh directly below it. -/
theorem default_host_key_in_home (h : start table envs current flags = .ok c)
    (hflag : flags.hostKey = [])
    (hunset : Proxy.getenv (vars envs) "SSH_HOST_KEY_PATH" = []) :
    isAbs (homeDir envs current) = true ∧
      c.hostKeyPath = join [homeDir envs current, hostKeyDirName, hostKeyFileName] ∧
      dir c.hostKeyPath = join [homeDir envs current, hostKeyDirName] ∧
      dir (dir c.hostKeyPath) = clean (homeDir envs current) := by
  obtain ⟨hc, hv⟩ := start_eq_ok_iff.mp h
  have habs := hv.hostKeyPath
  have hpath : c.hostKeyPath = defaultHostKeyPath envs current := by
    rw [hc]
    simp [configure, hflag, loadConfig, getEnv, Proxy.getEnv, hunset]
  have hhome : homeDir envs current ≠ [] := by
    intro hnil
    rw [hpath, defaultHostKeyPath, if_pos hnil] at habs
    cases habs
  rw [hpath, defaultHostKeyPath, if_neg hhome] at habs ⊢
  rw [isAbs_join hhome isName_hostKeyDirName isName_hostKeyFileName] at habs
  rw [dir_join_two_names hhome isName_hostKeyDirName isName_hostKeyFileName]
  exact ⟨habs, rfl, rfl, dir_join_name hhome isName_hostKeyDirName⟩

theorem default_host_key_in_home_jovyan :
    ∃ c, start (fun _ => true) openEnviron none portFlags = .ok c ∧
      c.hostKeyPath = bytes "/home/jovyan/.ssh/ssh_host_ed25519_key" ∧
      dir c.hostKeyPath = bytes "/home/jovyan/.ssh" ∧
      dir (dir c.hostKeyPath) = bytes "/home/jovyan" := by
  obtain ⟨c, hc⟩ : ∃ c, start (fun _ => true) openEnviron none portFlags = .ok c := ⟨_, rfl⟩
  exact ⟨c, hc, (default_host_key_in_home hc rfl rfl).2⟩

end WorkspaceProxy.SshServer.Startup
