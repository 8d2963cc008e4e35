import WorkspaceProxy.Conc.System
import WorkspaceProxy.Proxy.Config

/-! # The two commands

`ws-proxy` and `remote-access-server` serve in a goroutine that hands its error to `main`
over a channel of one, and `main` waits for that or for a signal, upon which it shuts the
server down. `ws-proxy` is also the probe of its own container: with `--healthcheck` it
asks the server that runs beside it. -/
namespace WorkspaceProxy.Commands
open WorkspaceProxy.Conc WorkspaceProxy.Go
open Proxy (Env getenv readConfig)

/-! ## The health check -/

/-- The URL of the health check. -/
def healthcheckURL (env : Env) : GoString :=
  let addr := if getenv env "LISTEN_ADDR" = [] then bytes ":8080" else getenv env "LISTEN_ADDR"
  let port := match lastIndexByte addr colon with
    | some idx => addr.drop idx
    | none => addr
  bytes "http://127.0.0.1" ++ port ++ bytes "/health"

/-- The bytes that end the authority of a URL: a slash, a question mark, a number sign. -/
def endsAuthority (b : UInt8) : Bool := b == 47 || b == 63 || b == 35

/-- The byte that ends the user part of an authority. -/
def atSign : UInt8 := 64

/-- The authority of a URL of http. -/
def authority (url : GoString) : GoString :=
  (url.drop (bytes "http://").length).takeWhile fun b => !endsAuthority b

/-- The address has the host `host` and, in decimal digits, the port `p`. `net.Listen`
takes more than that: the name of a service, and 0 or nothing for a port that it picks
itself. -/
def NamesPort (addr host : GoString) (p : Int) : Prop :=
  ∃ port, splitHostPort addr = .ok (host, port) ∧ (∀ b ∈ port, isDigit b = true) ∧
    atoi port = .ok p ∧ 1 ≤ p ∧ p ≤ 65535

theorem not_endsAuthority {b : UInt8} (h : isDigit b = true) :
    endsAuthority b = false ∧ b ≠ atSign := by
  have hne : ∀ c, isDigit c = false → b ≠ c := by
    rintro c hc rfl
    rw [h] at hc
    cases hc
  simp [endsAuthority, hne 47 rfl, hne 63 rfl, hne 35 rfl, hne atSign rfl]

theorem joined_bytes {port : GoString} (hdigits : ∀ b ∈ port, isDigit b = true) :
    ∀ b ∈ joinHostPort (bytes "127.0.0.1") port, endsAuthority b = false ∧ b ≠ atSign := by
  intro b hb
  rw [joinHostPort, if_neg (by decide), List.mem_append, List.mem_cons] at hb
  obtain hb | rfl | hb := hb
  · have hhost : (bytes "127.0.0.1").all (fun b => !endsAuthority b && b != atSign) = true := rfl
    simpa using List.all_eq_true.mp hhost b hb
  · exact ⟨rfl, by decide⟩
  · exact not_endsAuthority (hdigits b hb)

theorem authority_joined {port : GoString} (hdigits : ∀ b ∈ port, isDigit b = true) :
    authority (bytes "http://" ++ joinHostPort (bytes "127.0.0.1") port ++ bytes "/health") =
      joinHostPort (bytes "127.0.0.1") port := by
  have hpath : (bytes "/health").takeWhile (fun b => !endsAuthority b) = [] := rfl
  rw [authority, List.append_assoc, List.drop_left, List.takeWhile_append_of_pos, hpath,
    List.append_nil]
  intro b hb
  simp [(joined_bytes hdigits b hb).1]

/-- The URL has the port of the listen address. -/
theorem healthcheckURL_eq {env : Env} {host port : GoString}
    (h : splitHostPort (readConfig env).listenAddr = .ok (host, port)) :
    healthcheckURL env =
      bytes "http://" ++ joinHostPort (bytes "127.0.0.1") port ++ bytes "/health" := by
  obtain ⟨pre, haddr, hport⟩ := splitHostPort_port h
  have hsame : (if getenv env "LISTEN_ADDR" = [] then bytes ":8080"
      else getenv env "LISTEN_ADDR") = pre ++ colon :: port := by
    rw [← haddr]
    exact (ite_not ..).symm
  have hjoin : joinHostPort (bytes "127.0.0.1") port = bytes "127.0.0.1" ++ colon :: port :=
    if_neg (by decide)
  have hscheme : bytes "http://127.0.0.1" = bytes "http://" ++ bytes "127.0.0.1" := by decide
  simp only [healthcheckURL, hsame, lastIndexByte_append hport, List.drop_left, hjoin, hscheme,
    List.append_assoc]

/-- **The health check asks for the port that the server listens on**, for every
environment in which the listen address names a port: the authority of its URL is that
of 127.0.0.1 and this port. -/
theorem healthcheck_asks_listener {env : Env} {host : GoString} {p : Int}
    (h : NamesPort (readConfig env).listenAddr host p) :
    healthcheckURL env = bytes "http://" ++ authority (healthcheckURL env) ++ bytes "/health" ∧
      atSign ∉ authority (healthcheckURL env) ∧
      NamesPort (authority (healthcheckURL env)) (bytes "127.0.0.1") p := by
  obtain ⟨port, hsplit, hdigits, hp⟩ := h
  rw [healthcheckURL_eq hsplit, authority_joined hdigits]
  refine ⟨rfl, fun hat => (joined_bytes hdigits _ hat).2 rfl, port, ?_, hdigits, hp⟩
  exact split_join (plain_of_digits hdigits) (by decide) (by decide)

theorem healthcheck_asks_listener_wildcard :
    NamesPort (readConfig fun _ => some (bytes "0.0.0.0:9000")).listenAddr
      (bytes "0.0.0.0") 9000 ∧
    NamesPort (authority (healthcheckURL fun _ => some (bytes "0.0.0.0:9000")))
      (bytes "127.0.0.1") 9000 := by
  have hnames : NamesPort (readConfig fun _ => some (bytes "0.0.0.0:9000")).listenAddr
      (bytes "0.0.0.0") 9000 :=
    ⟨bytes "9000", rfl, List.all_eq_true.mp rfl, rfl, by norm_num, by norm_num⟩
  exact ⟨hnames, (healthcheck_asks_listener hnames).2.2⟩

/-! ## Serving until a signal -/

/-- The errors of `ListenAndServe`, by how they compare with `ErrServerClosed`: it is that
error, or wraps it, or neither. -/
inductive ServeErr
  | closed
  | wrapped
  | other
deriving DecidableEq

/-- The errors of a drain. `expired` is that of its context. -/
inductive DrainErr
  | expired
  | other
deriving DecidableEq

/-- Where the commands differ: what the goroutine sends, upon which of what it receives
`main` fails, and whether `Shutdown` fails, given the results of the drain and of the
`Close` that may follow it. -/
structure Command where
  sends : Option ServeErr → Bool
  fails : Option ServeErr → Bool
  shutdownFails : Option DrainErr → Bool → Bool
  nil_passes : fails none = false

def wsProxy : Command where
  sends err := decide (err ≠ none ∧ err ≠ some .closed)
  fails err := decide (err ≠ none)
  shutdownFails err _ := decide (err ≠ none)
  nil_passes := rfl

def remoteAccessServer : Command where
  sends _ := true
  fails err := decide (err ≠ none ∧ ¬ (err = some .closed ∨ err = some .wrapped))
  -- a drain that ran out of time is followed by `Close`
  shutdownFails err closeFails := if err = some .expired then closeFails else decide (err ≠ none)
  nil_passes := rfl

inductive Server
  | serving
  | sending (err : Option ServeErr)
  | closing
  | finished

inductive Main
  | selecting
  | shuttingDown
  | exited (status : Nat)

/-- `errCh` is the buffer of the channel and `errChClosed` whether it was closed. `served`
is what `ListenAndServe` returned, and `shutdown` what the drain and the `Close` of
`Shutdown` gave. -/
structure State where
  server : Server
  main : Main
  signalled : Bool
  errCh : Option (Option ServeErr)
  errChClosed : Bool
  served : Option (Option ServeErr)
  shutdown : Option (Option DrainErr × Bool)

inductive Act
  | serve (err : Option ServeErr)
  | send
  | close
  | signal
  | seeSignal
  | receive
  | shutdown (drain : Option DrainErr) (closeFails : Bool)

def status (failed : Bool) : Nat := if failed then 1 else 0

/-- The goroutine. -/
def serveStep (c : Command) (s : State) : Act → Option State
  | .serve err =>
    match s.server with
    | .serving => some { s with server := .sending err, served := some err }
    | _ => none
  | .send =>
    match s.server with
    | .sending err =>
      if c.sends err then
        -- a send on a channel that is full waits
        if s.errCh.isNone then some { s with server := .closing, errCh := some err } else none
      else some { s with server := .closing }
    | _ => none
  | .close =>
    match s.server with
    | .closing => some { s with server := .finished, errChClosed := true }
    | _ => none
  | _ => none

/-- `main` after it has started the goroutine. A receive from a closed channel gives nil. -/
def mainStep (c : Command) (s : State) : Act → Option State
  | .seeSignal =>
    match s.main with
    | .selecting => if s.signalled then some { s with main := .shuttingDown } else none
    | _ => none
  | .receive =>
    match s.main, s.errCh with
    | .selecting, some err => some { s with main := .exited (status (c.fails err)), errCh := none }
    | .selecting, none =>
      if s.errChClosed then some { s with main := .exited (status (c.fails none)) } else none
    | _, _ => none
  | .shutdown drain closeFails =>
    match s.main with
    | .shuttingDown => some { s with
        main := .exited (status (c.shutdownFails drain closeFails))
        shutdown := some (drain, closeFails) }
    | _ => none
  | _ => none

/-- A process that has exited takes no step. -/
def step (c : Command) (s : State) (a : Act) : Option State :=
  match s.main, a with
  | .exited _, _ => none
  | _, .signal => some { s with signalled := true }
  | _, .serve _ | _, .send | _, .close => serveStep c s a
  | _, _ => mainStep c s a

def initial : State := ⟨.serving, .selecting, false, none, false, none, none⟩

def system (c : Command) : System State Act := ⟨(· = initial), step c⟩

def Main.Exited : Main → Prop
  | .exited _ => True
  | _ => False

variable {c : Command} {s t : State} {a : Act}

/-- The steps of `step`, one constructor for each branch. -/
inductive Step (c : Command) (s : State) : Act → State → Prop
  | signal : ¬ s.main.Exited → Step c s .signal { s with signalled := true }
  | serve {err} : ¬ s.main.Exited → s.server = .serving →
      Step c s (.serve err) { s with server := .sending err, served := some err }
  | send {err} : ¬ s.main.Exited → s.server = .sending err → c.sends err = true →
      Step c s .send { s with server := .closing, errCh := some err }
  | skip {err} : ¬ s.main.Exited → s.server = .sending err → c.sends err = false →
      Step c s .send { s with server := .closing }
  | close : ¬ s.main.Exited → s.server = .closing →
      Step c s .close { s with server := .finished, errChClosed := true }
  | seeSignal : s.main = .selecting → s.signalled = true →
      Step c s .seeSignal { s with main := .shuttingDown }
  | receive {err} : s.main = .selecting → s.errCh = some err →
      Step c s .receive { s with main := .exited (status (c.fails err)), errCh := none }
  | receiveClosed : s.main = .selecting → s.errCh = none → s.errChClosed = true →
      Step c s .receive { s with main := .exited (status (c.fails none)) }
  | shutdown {drain closeFails} : s.main = .shuttingDown →
      Step c s (.shutdown drain closeFails) { s with
        main := .exited (status (c.shutdownFails drain closeFails))
        shutdown := some (drain, closeFails) }

theorem serveStep_cases (hm : ¬ s.main.Exited) (h : serveStep c s a = some t) : Step c s a t := by
  unfold serveStep at h
  split at h
  · split at h
    · cases h; exact .serve hm ‹_›
    · cases h
  · split at h
    · split at h
      · split at h
        · cases h; exact .send hm ‹_› ‹_›
        · cases h
      · cases h; exact .skip hm ‹_› (Bool.eq_false_iff.mpr ‹_›)
    · cases h
  · split at h
    · cases h; exact .close hm ‹_›
    · cases h
  · cases h

theorem mainStep_cases (h : mainStep c s a = some t) : Step c s a t := by
  unfold mainStep at h
  split at h
  · split at h
    · split at h
      · cases h; exact .seeSignal ‹_› ‹_›
      · cases h
    · cases h
  · split at h
    · cases h; exact .receive ‹_› ‹_›
    · split at h
      · cases h; exact .receiveClosed ‹_› ‹_› ‹_›
      · cases h
    · cases h
  · split at h
    · cases h; exact .shutdown ‹_›
    · cases h
  · cases h

theorem step_cases (h : step c s a = some t) : Step c s a t := by
  have hm : ¬ s.main.Exited := by
    intro hexited
    unfold step at h
    cases hmain : s.main with
    | exited st => simp [hmain] at h
    | _ => simp [hmain, Main.Exited] at hexited
  unfold step at h
  split at h
  · cases h
  · cases h; exact .signal hm
  · exact serveStep_cases hm h
  · exact serveStep_cases hm h
  · exact serveStep_cases hm h
  · exact mainStep_cases h

/-! ## What the exit status says -/

/-- The goroutine is past the send of `err`, and `main` has received nothing. -/
def Handed (c : Command) (s : State) (err : Option ServeErr) : Prop :=
  s.served = some err ∧ s.errCh = if c.sends err then some err else none

def ServerOk (c : Command) (s : State) : Prop :=
  match s.server with
  | .serving => s.errCh = none ∧ s.errChClosed = false
  | .sending err => s.served = some err ∧ s.errCh = none ∧ s.errChClosed = false
  | .closing => s.errChClosed = false ∧ ∃ err, Handed c s err
  | .finished => ∃ err, Handed c s err

/-- Whether the result of `ListenAndServe` is a failure of the command. -/
def Command.failed (c : Command) (err : Option ServeErr) : Bool := c.sends err && c.fails err

/-- The status is that of a shutdown after a signal, or of the server's own result. -/
def Outcome (c : Command) (s : State) (st : Nat) : Prop :=
  (s.signalled = true ∧ ∃ drain closeFails, s.shutdown = some (drain, closeFails) ∧
    st = status (c.shutdownFails drain closeFails)) ∨
  (s.shutdown = none ∧ ∃ err, s.served = some err ∧ st = status (c.failed err))

def Inv (c : Command) (s : State) : Prop :=
  match s.main with
  | .selecting => s.shutdown = none ∧ ServerOk c s
  | .shuttingDown => s.signalled = true ∧ ServerOk c s
  | .exited st => Outcome c s st

theorem Inv.serverOk (h : Inv c s) (hm : ¬ s.main.Exited) : ServerOk c s := by
  unfold Inv at h
  cases hmain : s.main with
  | selecting => rw [hmain] at h; exact h.2
  | shuttingDown => rw [hmain] at h; exact h.2
  | exited st => rw [hmain] at hm; exact absurd trivial hm

/-- A step that leaves `main` where it is. -/
theorem Inv.keep (h : Inv c s) (hm : ¬ s.main.Exited) (hmain : t.main = s.main)
    (hshutdown : t.shutdown = s.shutdown) (hsignal : s.signalled = true → t.signalled = true)
    (ht : ServerOk c t) : Inv c t := by
  unfold Inv at h ⊢
  rw [hmain]
  cases hs : s.main with
  | selecting => rw [hs] at h; exact ⟨hshutdown.trans h.1, ht⟩
  | shuttingDown => rw [hs] at h; exact ⟨hsignal h.1, ht⟩
  | exited st => rw [hs] at hm; exact absurd trivial hm

theorem Handed.received {err err' : Option ServeErr} (h : Handed c s err')
    (he : s.errCh = some err) : s.served = some err ∧ c.sends err = true := by
  obtain ⟨hserved, hch⟩ := h
  rw [he] at hch
  by_cases hsends : c.sends err' = true
  · rw [if_pos hsends] at hch
    cases hch
    exact ⟨hserved, hsends⟩
  · rw [if_neg hsends] at hch
    cases hch

theorem Handed.unsent {err : Option ServeErr} (h : Handed c s err) (he : s.errCh = none) :
    c.sends err = false := by
  obtain ⟨-, hch⟩ := h
  rw [he] at hch
  by_contra hsends
  rw [if_pos (Bool.eq_true_of_not_eq_false hsends)] at hch
  cases hch

/-- What `main` receives is what was served. -/
theorem ServerOk.received {err : Option ServeErr} (h : ServerOk c s) (he : s.errCh = some err) :
    s.served = some err ∧ c.sends err = true := by
  unfold ServerOk at h
  split at h
  · rw [h.1] at he; cases he
  · rw [h.2.1] at he; cases he
  · obtain ⟨-, err', handed⟩ := h
    exact handed.received he
  · obtain ⟨err', handed⟩ := h
    exact handed.received he

/-- A channel that was closed empty is one that nothing was sent on. -/
theorem ServerOk.closed_empty (h : ServerOk c s) (hclosed : s.errChClosed = true)
    (he : s.errCh = none) : ∃ err, s.served = some err ∧ c.sends err = false := by
  unfold ServerOk at h
  split at h
  · rw [h.2] at hclosed; cases hclosed
  · rw [h.2.2] at hclosed; cases hclosed
  · rw [h.1] at hclosed; cases hclosed
  · obtain ⟨err, handed⟩ := h
    exact ⟨err, handed.1, handed.unsent he⟩

theorem Inv.next (h : Inv c s) (hst : Step c s a t) : Inv c t := by
  cases hst with
  | signal hm => exact h.keep hm rfl rfl (fun _ => rfl) (h.serverOk hm)
  | serve hm hserver =>
    have hok := h.serverOk hm
    simp only [ServerOk, hserver] at hok
    exact h.keep hm rfl rfl id ⟨rfl, hok⟩
  | send hm hserver hsends =>
    have hok := h.serverOk hm
    simp only [ServerOk, hserver] at hok
    exact h.keep hm rfl rfl id ⟨hok.2.2, _, hok.1, (if_pos hsends).symm⟩
  | skip hm hserver hsends =>
    have hok := h.serverOk hm
    simp only [ServerOk, hserver] at hok
    refine h.keep hm rfl rfl id ⟨hok.2.2, _, hok.1, ?_⟩
    rw [hsends]
    exact hok.2.1
  | close hm hserver =>
    have hok := h.serverOk hm
    simp only [ServerOk, hserver] at hok
    exact h.keep hm rfl rfl id hok.2
  | seeSignal hmain hsignalled =>
    simp only [Inv, hmain] at h
    exact ⟨hsignalled, h.2⟩
  | receive hmain he =>
    simp only [Inv, hmain] at h
    obtain ⟨hserved, hsends⟩ := h.2.received he
    refine .inr ⟨h.1, _, hserved, ?_⟩
    rw [Command.failed, hsends, Bool.true_and]
  | receiveClosed hmain he hclosed =>
    simp only [Inv, hmain] at h
    obtain ⟨err, hserved, hsends⟩ := h.2.closed_empty hclosed he
    refine .inr ⟨h.1, err, hserved, ?_⟩
    rw [Command.failed, hsends, Bool.false_and, c.nil_passes]
  | shutdown hmain =>
    simp only [Inv, hmain] at h
    exact .inl ⟨h.1, _, _, rfl, rfl⟩

theorem inv_stable (c : Command) : (system c).Stable (Inv c) where
  init s hi := by
    rw [show s = initial from hi]
    exact ⟨rfl, rfl, rfl⟩
  step _ _ _ h hst := h.next (step_cases hst)

/-- The goroutine can send: nothing is in the channel before. -/
theorem Inv.send_enabled {err : Option ServeErr} (h : Inv c s) (hm : ¬ s.main.Exited)
    (hserver : s.server = .sending err) : (step c s .send).isSome = true := by
  have hok := h.serverOk hm
  simp only [ServerOk, hserver] at hok
  have hsend : (serveStep c s .send).isSome = true := by
    simp only [serveStep, hserver, hok.2.1]
    cases c.sends err <;> rfl
  unfold step
  cases hmain : s.main with
  | exited st => rw [hmain] at hm; exact absurd trivial hm
  | selecting => exact hsend
  | shuttingDown => exact hsend

theorem Inv.outcome {st : Nat} (h : Inv c s) (hmain : s.main = .exited st) : Outcome c s st := by
  simpa only [Inv, hmain] using h

theorem wsProxy_failed (err : Option ServeErr) :
    wsProxy.failed err = decide (err ≠ none ∧ err ≠ some .closed) := by
  cases err with
  | none => rfl
  | some err => cases err <;> rfl

theorem remoteAccessServer_failed (err : Option ServeErr) :
    remoteAccessServer.failed err = decide (err = some .other) := by
  cases err with
  | none => rfl
  | some err => cases err <;> rfl

theorem remoteAccessServer_shutdownFails (drain : Option DrainErr) (closeFails : Bool) :
    remoteAccessServer.shutdownFails drain closeFails =
      decide (drain = some .other ∨ (drain = some .expired ∧ closeFails = true)) := by
  cases drain with
  | none => rfl
  | some err => cases err <;> cases closeFails <;> rfl

/-- The goroutine is never held up, and the status of an exit is that of a shutdown after a
signal or that of the server. -/
structure Explained (c : Command) (shutdownFailed : Option DrainErr → Bool → Prop)
    (serveFailed : Option ServeErr → Prop) (s : State) : Prop where
  sends : ∀ err, s.server = .sending err → ¬ s.main.Exited → (step c s .send).isSome = true
  exits : ∀ st, s.main = .exited st → st ≤ 1 ∧
    ((s.signalled = true ∧ ∃ drain closeFails, s.shutdown = some (drain, closeFails) ∧
      (st = 1 ↔ shutdownFailed drain closeFails)) ∨
    (s.shutdown = none ∧ ∃ err, s.served = some err ∧ (st = 1 ↔ serveFailed err)))

theorem status_le (failed : Bool) : status failed ≤ 1 := by cases failed <;> decide

theorem status_eq_one {failed : Bool} : status failed = 1 ↔ failed = true := by
  cases failed <;> decide

theorem Inv.explained {shutdownFailed : Option DrainErr → Bool → Prop}
    {serveFailed : Option ServeErr → Prop} (h : Inv c s)
    (hshutdown : ∀ drain closeFails,
      c.shutdownFails drain closeFails = true ↔ shutdownFailed drain closeFails)
    (hserve : ∀ err, c.failed err = true ↔ serveFailed err) :
    Explained c shutdownFailed serveFailed s := by
  refine ⟨fun err hserver hm => h.send_enabled hm hserver, fun st hmain => ?_⟩
  obtain ⟨hsignalled, drain, closeFails, hs, rfl⟩ | ⟨hs, err, hserved, rfl⟩ := h.outcome hmain
  · exact ⟨status_le _, .inl ⟨hsignalled, drain, closeFails, hs,
      status_eq_one.trans (hshutdown drain closeFails)⟩⟩
  · exact ⟨status_le _, .inr ⟨hs, err, hserved, status_eq_one.trans (hserve err)⟩⟩

/-- **What the exit status says**, for every order of the goroutine, of `main` and of the
signal. It is 1 after a shutdown that failed, or after a server that failed, and 0 after one
that did not; a failure of the server that `main` waits for is not lost, and a stop that is
none is not reported. A drain that runs out of time is a failure of `ws-proxy`, and of
`remote-access-server` only if the connections cannot be closed either. -/
theorem exit_status_explained :
    (∀ s, (system wsProxy).Reach s → Explained wsProxy (fun drain _ => drain ≠ none)
      (fun err => err ≠ none ∧ err ≠ some .closed) s) ∧
    (∀ s, (system remoteAccessServer).Reach s → Explained remoteAccessServer
      (fun drain closeFails =>
        drain = some .other ∨ (drain = some .expired ∧ closeFails = true))
      (fun err => err = some .other) s) := by
  refine ⟨fun s hs => ((inv_stable wsProxy).reach hs).explained ?_ ?_,
    fun s hs => ((inv_stable remoteAccessServer).reach hs).explained ?_ ?_⟩
  · exact fun drain _ => decide_eq_true_iff
  · intro err
    rw [wsProxy_failed, decide_eq_true_iff]
  · intro drain closeFails
    rw [remoteAccessServer_shutdownFails, decide_eq_true_iff]
  · intro err
    rw [remoteAccessServer_failed, decide_eq_true_iff]

/-- A server that is signalled and whose drain runs out of time. -/
theorem exit_status_explained_expired :
    ∃ s, (system remoteAccessServer).Reach s ∧ s.main = .exited 0 ∧
      s.shutdown = some (some .expired, false) ∧
      Explained remoteAccessServer
        (fun drain closeFails =>
          drain = some .other ∨ (drain = some .expired ∧ closeFails = true))
        (fun err => err = some .other) s := by
  obtain ⟨s, hs, hmain, hshutdown⟩ : ∃ s, (system remoteAccessServer).Reach s ∧
      s.main = .exited 0 ∧ s.shutdown = some (some .expired, false) :=
    ⟨_, System.reach_get (system remoteAccessServer)
      [.signal, .seeSignal, .serve (some .closed), .shutdown (some .expired) false] rfl rfl,
      rfl, rfl⟩
  exact ⟨s, hs, hmain, hshutdown, exit_status_explained.2 s hs⟩

end WorkspaceProxy.Commands
