import WorkspaceProxy.Go.Duration
import WorkspaceProxy.Go.HostPort

/-! # The configuration of the proxy

`LoadConfig` reads the environment, with a default for what is unset, empty or
does not parse, and checks some of the values. What it accepts goes to the
tickers of `pingLoop` and of the target prober, and `time.NewTicker` panics on
an interval that is not positive. -/
namespace WorkspaceProxy.Proxy
open WorkspaceProxy.Go

/-- `os.LookupEnv`. -/
abbrev Env := String → Option GoString

/-- `os.Getenv`, where an unset variable is empty. -/
def getenv (env : Env) (key : String) : GoString := (env key).getD []

def getEnv (env : Env) (key : String) (defaultValue : GoString) : GoString :=
  if getenv env key ≠ [] then getenv env key else defaultValue

/-- `getEnv` for settings that may be empty. -/
def getEnvAllowEmpty (env : Env) (key : String) (defaultValue : GoString) : GoString :=
  (env key).getD defaultValue

/-- The value of a variable that is parsed. -/
def getParsedEnv {ε : Type} (parse : GoString → Except ε Int) (env : Env) (key : String)
    (defaultValue : Int) : Int :=
  if getenv env key ≠ [] then
    match parse (getenv env key) with
    | .ok value => value
    | .error _ => defaultValue
  else defaultValue

def getDurationEnv : Env → String → Int → Int := getParsedEnv parseDuration

def getIntEnv : Env → String → Int → Int := getParsedEnv atoi

def second : Int := 1000000000
def minute : Int := 60 * second
def hour : Int := 60 * minute

def defaultTargetHealthBannerPrefix : GoString := bytes "SSH-2.0-"

def defaultTargetHealthInterval : Int := 30 * second

def targetHealthDialTimeout : Int := 2 * second

structure Config where
  listenAddr : GoString
  targetHost : GoString
  targetPort : Int
  maxSessionDuration : Int
  pingInterval : Int
  pingTimeout : Int
  maxConnections : Int
  readLimit : Int
  revalidationInterval : Int
  revalidationEndpoint : GoString
  targetHealthBannerPrefix : GoString
  targetHealthInterval : Int

/-- The values that `LoadConfig` reads, before its checks. -/
def readConfig (env : Env) : Config where
  listenAddr := getEnv env "LISTEN_ADDR" (bytes ":8080")
  targetHost := getEnv env "TARGET_HOST" (bytes "127.0.0.1")
  targetPort := getIntEnv env "TARGET_PORT" 2222
  maxSessionDuration := getDurationEnv env "MAX_SESSION_DURATION" (12 * hour)
  pingInterval := getDurationEnv env "PING_INTERVAL" (30 * second)
  pingTimeout := getDurationEnv env "PING_TIMEOUT" (60 * second)
  maxConnections := getIntEnv env "MAX_CONNECTIONS" 10
  readLimit := getIntEnv env "READ_LIMIT" 65536
  revalidationInterval := getDurationEnv env "REVALIDATION_INTERVAL" (5 * minute)
  revalidationEndpoint := getEnv env "REVALIDATION_ENDPOINT" []
  targetHealthBannerPrefix :=
    getEnvAllowEmpty env "TARGET_HEALTH_BANNER_PREFIX" defaultTargetHealthBannerPrefix
  targetHealthInterval := getDurationEnv env "TARGET_HEALTH_INTERVAL" defaultTargetHealthInterval

/-- `LoadConfig`, with the text of its errors. -/
def loadConfig (env : Env) : Except GoString Config :=
  let config := readConfig env
  if config.targetPort < 1 ∨ config.targetPort > 65535 then
    .error (bytes "TARGET_PORT must be between 1 and 65535, got: " ++ itoa config.targetPort)
  else if config.pingInterval ≥ config.pingTimeout then
    .error (bytes "PING_INTERVAL (" ++ durationString config.pingInterval ++
      bytes ") must be less than PING_TIMEOUT (" ++ durationString config.pingTimeout ++ bytes ")")
  else if config.readLimit < 1024 ∨ config.readLimit > 10 * 1024 * 1024 then
    .error (bytes "READ_LIMIT must be between 1024 and 10485760, got: " ++ itoa config.readLimit)
  else if config.targetHealthInterval ≤ targetHealthDialTimeout then
    .error (bytes "TARGET_HEALTH_INTERVAL (" ++ durationString config.targetHealthInterval ++
      bytes ") must be greater than the probe timeout (" ++
      durationString targetHealthDialTimeout ++ bytes ")")
  else .ok config

/-- What the checks of `LoadConfig` guarantee. -/
structure Config.Valid (c : Config) : Prop where
  targetPort : 1 ≤ c.targetPort ∧ c.targetPort ≤ 65535
  ping : c.pingInterval < c.pingTimeout
  readLimit : 1024 ≤ c.readLimit ∧ c.readLimit ≤ 10 * 1024 * 1024
  targetHealth : targetHealthDialTimeout < c.targetHealthInterval

instance (c : Config) : Decidable c.Valid :=
  decidable_of_iff ((1 ≤ c.targetPort ∧ c.targetPort ≤ 65535) ∧ c.pingInterval < c.pingTimeout ∧
      (1024 ≤ c.readLimit ∧ c.readLimit ≤ 10 * 1024 * 1024) ∧
      targetHealthDialTimeout < c.targetHealthInterval)
    ⟨fun ⟨h1, h2, h3, h4⟩ => ⟨h1, h2, h3, h4⟩, fun ⟨h1, h2, h3, h4⟩ => ⟨h1, h2, h3, h4⟩⟩

theorem loadConfig_ok_iff {env : Env} {c : Config} :
    loadConfig env = .ok c ↔ c = readConfig env ∧ c.Valid := by
  unfold loadConfig
  dsimp only
  constructor
  · intro h
    split at h
    · cases h
    · split at h
      · cases h
      · split at h
        · cases h
        · split at h
          · cases h
          · cases h
            exact ⟨rfl, by omega, by omega, by omega, by omega⟩
  · rintro ⟨rfl, hv⟩
    have h1 := hv.targetPort
    have h2 := hv.ping
    have h3 := hv.readLimit
    have h4 := hv.targetHealth
    rw [if_neg (by omega), if_neg (by omega), if_neg (by omega), if_neg (by omega)]

/-- The defaults pass the checks. -/
example : (readConfig fun _ => none).Valid := by decide

/-! ## The tickers -/

/-- The interval of the ticker of `Session.pingLoop`. -/
def Config.pingTicker (c : Config) : Int := c.pingInterval

/-- The interval of the ticker of `startTargetProber`. -/
def Config.proberTicker (c : Config) : Int :=
  if c.targetHealthInterval ≤ 0 then defaultTargetHealthInterval else c.targetHealthInterval

/-- The intervals that a server with this configuration gives to
`time.NewTicker`. -/
def Config.tickers (c : Config) : List Int := [c.pingTicker, c.proberTicker]

theorem Config.Valid.proberTicker_pos {c : Config} (h : c.Valid) : 0 < c.proberTicker := by
  have hlt := h.targetHealth
  unfold proberTicker
  split
  · decide
  · simp only [targetHealthDialTimeout, second] at hlt
    omega

/-- A variable gives its default or a value that was parsed. -/
theorem getParsedEnv_cases {ε : Type} (parse : GoString → Except ε Int) (env : Env) (key : String)
    (defaultValue : Int) :
    (getParsedEnv parse env key defaultValue = defaultValue ∧
      ∀ d, parse (getenv env key) = .ok d → getenv env key = []) ∨
    ∃ d, parse (getenv env key) = .ok d ∧ getParsedEnv parse env key defaultValue = d := by
  unfold getParsedEnv
  split
  · cases hp : parse (getenv env key) with
    | ok d => exact .inr ⟨d, rfl, rfl⟩
    | error e => exact .inl ⟨rfl, nofun⟩
  · rename_i hempty
    exact .inl ⟨rfl, fun _ _ => not_not.mp hempty⟩

theorem parseDuration_empty (d : Int) : parseDuration [] ≠ .ok d := nofun

/-- **The tickers of an accepted configuration are positive exactly if the ping
interval is not set to a duration that is not.** -/
theorem tickers_positive_iff {env : Env} {c : Config} (h : loadConfig env = .ok c) :
    (∀ d ∈ c.tickers, 0 < d) ↔
      ∀ d, parseDuration (getenv env "PING_INTERVAL") = .ok d → 0 < d := by
  obtain ⟨rfl, hv⟩ := loadConfig_ok_iff.mp h
  have hping : (readConfig env).pingTicker =
      getParsedEnv parseDuration env "PING_INTERVAL" (30 * second) := rfl
  have htickers : (∀ d ∈ (readConfig env).tickers, 0 < d) ↔ 0 < (readConfig env).pingTicker := by
    simp [Config.tickers, hv.proberTicker_pos]
  rw [htickers, hping]
  rcases getParsedEnv_cases parseDuration env "PING_INTERVAL" (30 * second) with
    ⟨hdefault, hempty⟩ | ⟨d, hd, hvalue⟩
  · refine iff_of_true (by rw [hdefault]; decide) fun d hd => ?_
    rw [hempty d hd] at hd
    exact absurd hd (parseDuration_empty d)
  · rw [hvalue]
    refine ⟨fun hpos e he => ?_, fun hall => hall d hd⟩
    rw [hd] at he
    cases he
    exact hpos

/-- An environment with one variable. -/
def only (key : String) (value : String) : Env :=
  fun k => if k = key then some (bytes value) else none

theorem valid_only_ping : (readConfig (only "PING_INTERVAL" "20s")).Valid := by
  decide

theorem tickers_positive_twenty_seconds :
    ∃ c, loadConfig (only "PING_INTERVAL" "20s") = .ok c ∧ c.pingInterval = 20 * second ∧
      ∀ d ∈ c.tickers, 0 < d := by
  have h := loadConfig_ok_iff.mpr ⟨rfl, valid_only_ping⟩
  refine ⟨_, h, by decide, (tickers_positive_iff h).mpr fun d hd => ?_⟩
  have hp : (parseDuration (getenv (only "PING_INTERVAL" "20s") "PING_INTERVAL")).toOption =
    some (20 * second) := by decide
  rw [hd] at hp
  rw [Option.some.inj hp]
  decide

/-- `PING_INTERVAL=0s` is accepted, and the ticker of the first connection
panics. -/
theorem zero_ping_interval_accepted :
    ¬ ∀ env c, loadConfig env = .ok c → ∀ d ∈ c.tickers, 0 < d := by
  intro h
  have hv : (readConfig (only "PING_INTERVAL" "0s")).Valid := by decide
  have hpos := h _ _ (loadConfig_ok_iff.mpr ⟨rfl, hv⟩) _ (List.mem_cons_self ..)
  exact absurd hpos (by decide)

/-! ## The target's address -/

/-- `TargetAddr`, which formats with `%s:%d`. -/
def Config.targetAddr (c : Config) : GoString := c.targetHost ++ colon :: itoa c.targetPort

/-- Without a colon in the host this is what `net.JoinHostPort` gives. -/
theorem Config.targetAddr_eq_join {c : Config} (h : colon ∉ c.targetHost) :
    c.targetAddr = joinHostPort c.targetHost (itoa c.targetPort) := (if_neg h).symm

/-- **The address splits back exactly if the host has no colon.** A host with
a colon and without brackets, which every IPv6 literal is, makes an address
that no dialer takes. -/
theorem targetAddr_splits_iff {env : Env} {c : Config} (h : loadConfig env = .ok c)
    (ho : openBracket ∉ c.targetHost) (hc : closeBracket ∉ c.targetHost) :
    (splitHostPort c.targetAddr = .ok (c.targetHost, itoa c.targetPort) ∧
        atoi (itoa c.targetPort) = .ok c.targetPort ↔ colon ∉ c.targetHost) ∧
      (colon ∈ c.targetHost → splitHostPort c.targetAddr = .error .tooManyColons) := by
  obtain ⟨-, hv⟩ := loadConfig_ok_iff.mp h
  obtain ⟨hlow, hhigh⟩ := hv.targetPort
  have hplain := itoa_plain c.targetPort
  have hport : atoi (itoa c.targetPort) = .ok c.targetPort := by
    have := atoi_itoa c.targetPort.toNat (by omega)
    rwa [Int.toNat_of_nonneg (by omega)] at this
  have herr (hm : colon ∈ c.targetHost) : splitHostPort c.targetAddr = .error .tooManyColons :=
    splitHostPort_unbracketed_colon ho hplain.noColon hm
  refine ⟨⟨fun hs hm => ?_, fun hm => ⟨?_, hport⟩⟩, herr⟩
  · rw [herr hm] at hs
    cases hs.1
  · rw [Config.targetAddr_eq_join hm, split_join hplain ho hc]

theorem targetAddr_splits_localhost : ∃ c, loadConfig (only "TARGET_HOST" "localhost") = .ok c ∧
    c.targetAddr = bytes "localhost:2222" ∧
    splitHostPort c.targetAddr = .ok (bytes "localhost", bytes "2222") := by
  have hv : (readConfig (only "TARGET_HOST" "localhost")).Valid := by decide
  have h := loadConfig_ok_iff.mpr ⟨rfl, hv⟩
  exact ⟨_, h, by decide,
    ((targetAddr_splits_iff h (by decide) (by decide)).1.mpr (by decide)).1⟩

/-- `TARGET_HOST=::1` is accepted, and its address has too many colons. -/
theorem ipv6_target_not_dialled :
    ¬ ∀ env c, loadConfig env = .ok c → openBracket ∉ c.targetHost →
      closeBracket ∉ c.targetHost →
      splitHostPort c.targetAddr = .ok (c.targetHost, itoa c.targetPort) := by
  intro h
  have hv : (readConfig (only "TARGET_HOST" "::1")).Valid := by decide
  have hs := h _ _ (loadConfig_ok_iff.mpr ⟨rfl, hv⟩) (by decide) (by decide)
  have he : splitHostPort (readConfig (only "TARGET_HOST" "::1")).targetAddr =
    .error .tooManyColons := by decide
  rw [he] at hs
  cases hs

end WorkspaceProxy.Proxy
