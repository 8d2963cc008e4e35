import Mathlib.Tactic.Simps.Basic
import WorkspaceProxy.Conc.System
import WorkspaceProxy.Conc.Sockets
import WorkspaceProxy.SshServer.Config

/-! # Reverse port forwarding

The `loopbackForwardHandler` of forward.go, shared by every SSH connection of
one server. Its table is only touched under the handler's mutex, so each
critical section is one action; `net.Listen`, the insertion, the removal,
`listener.Close` and the cleanup of an accept loop are separate actions, and
the goroutines of any number of connections take them in any order.

The operating system's part is in `System`'s actions: `net.Listen` may fail
for any reason, `Accept` may fail at any time, and a bind succeeds only on an
address that no open listener holds. Decoding a request is the SSH library's,
so it is a parameter (`World.unmarshal`), and so is what a bind host resolves to. -/
namespace WorkspaceProxy.SshServer.Forward
open WorkspaceProxy.Go WorkspaceProxy.Conc

def requestTypeForward : GoString := bytes "tcpip-forward"
def requestTypeCancelForward : GoString := bytes "cancel-tcpip-forward"

def bindAnyWildcard : GoString := bytes "*"
def bindAnyIPv4 : GoString := bytes "0.0.0.0"
def bindAnyIPv6 : GoString := bytes "::"

/-- The bind addresses that mean every interface to `net.Listen`. -/
def anyBindAddresses : List GoString := [bytes "", bindAnyWildcard, bindAnyIPv4, bindAnyIPv6]

structure RemoteForwardRequest where
  bindAddr : GoString
  bindPort : UInt32
  deriving DecidableEq, Repr

structure RemoteForwardSuccess where
  bindPort : UInt32
  deriving DecidableEq, Repr

structure RemoteForwardChannelData where
  destAddr : GoString
  destPort : UInt32
  originAddr : GoString
  originPort : UInt32
  deriving DecidableEq, Repr

/-- A `gossh.Request`. -/
structure Request where
  type : GoString
  payload : List UInt8
  deriving DecidableEq, Repr

/-- What the handler reads of an `ssh.Context`: which connection it belongs
to, and whether it carries a `*gossh.ServerConn`. -/
structure Context where
  conn : Nat
  hasConn : Bool
  deriving DecidableEq, Repr

/-- The `ssh.Server` field that the handler consults. -/
structure Server where
  reversePortForwardingCallback : Option (Context → GoString → UInt32 → Bool)

def allowReverseForward (_ : Context) (bindHost : GoString) (_ : UInt32) : Bool :=
  isLoopback bindHost

/-- The server that `New` builds. -/
def newServer : Server := ⟨some allowReverseForward⟩

/-- What the handler returns with `ok`: nothing, a text, or the marshalled port. -/
inductive ReplyPayload where
  | nil
  | text (s : GoString)
  | success (r : RemoteForwardSuccess)
  deriving DecidableEq, Repr

structure Reply where
  ok : Bool
  payload : ReplyPayload
  deriving DecidableEq, Repr

/-- Code outside the repository that the handler calls. -/
structure World where
  /-- `gossh.Unmarshal` into a `remoteForwardRequest`. -/
  unmarshal : List UInt8 → Option RemoteForwardRequest
  /-- The address that a bind host names, the same each time. -/
  resolve : GoString → IP

def forwardKey (host : GoString) (port : Int) : GoString := joinHostPort host (itoa port)

/-- Splits a remote address for the origin fields of a channel. -/
def splitAddr (addr : GoString) : GoString × Int :=
  match splitHostPort addr with
  | .error _ => (addr, 0)
  | .ok (host, portStr) =>
    match atoi portStr with
    | .ok port => (host, port)
    | .error .badSyntax => (host, 0)
    | .error (.range nearest) => (host, nearest)

/-! ## Listening -/

/-- The port of a bound TCP listener. -/
structure BoundPort where
  val : Nat
  pos : 0 < val
  lt : val < 65536
  deriving DecidableEq, Repr

/-- What a listener was opened for: the request and the goroutine that served
it, and the host that `net.Listen` was given. -/
structure Opened where
  goroutine : Nat
  ctx : Context
  payload : RemoteForwardRequest
  host : GoString
  deriving DecidableEq, Repr

/-- A `net.Listener`, identified by its index in the table of all listeners. -/
abbrev Listener := Sock (IP × Nat) Opened

/-- The key under which `openForward` records a listener. -/
def keyOf (f : Listener) : GoString := forwardKey f.tag.payload.bindAddr f.addr.2

/-- `openForward`'s rewriting of a wildcard to loopback. -/
def bindHost (payload : RemoteForwardRequest) : GoString :=
  if payload.bindAddr ∈ anyBindAddresses then loopbackIPv4 else payload.bindAddr

/-- `openForward`'s policy: the callback sees the address that will be bound. -/
def policyAllows (srv : Server) (ctx : Context) (payload : RemoteForwardRequest) : Bool :=
  match srv.reversePortForwardingCallback with
  | none => false
  | some callback => callback ctx (bindHost payload) payload.bindPort

def listenAddress (payload : RemoteForwardRequest) : GoString :=
  joinHostPort (bindHost payload) (itoa payload.bindPort.toNat)

/-- How `net.Listen` reads its address: a host and a 16-bit port. -/
def listenTarget (address : GoString) : Option (GoString × Nat) :=
  match splitHostPort address with
  | .error _ => none
  | .ok (host, portStr) =>
    match atoi portStr with
    | .error _ => none
    | .ok port => if 0 ≤ port ∧ port ≤ 65535 then some (host, port.toNat) else none

/-! ## Goroutines -/

/-- Who runs `closeForward`. -/
inductive Caller where
  /-- `cancelForward`. -/
  | cancel (ctx : Context) (payload : RemoteForwardRequest)
  /-- The goroutine of `startForward` that waits for the end of the context. -/
  | teardown (ctx : Context)
  /-- `startForward` itself, when the context has no connection. -/
  | abort (ctx : Context) (payload : RemoteForwardRequest)
  deriving DecidableEq, Repr

/-- Where a goroutine is. -/
inductive Proc where
  | idle
  /-- `HandleSSHRequest` returned false before doing anything. -/
  | rejected
  /-- `openForward` is about to call `net.Listen`. -/
  | listening (ctx : Context) (payload : RemoteForwardRequest)
  /-- `openForward` failed and `startForward` returned. -/
  | refused (ctx : Context) (payload : RemoteForwardRequest)
  /-- `openForward` has its listener and is about to record it. -/
  | recording (ctx : Context) (payload : RemoteForwardRequest) (l : Nat) (boundPort : BoundPort)
  /-- `openForward` returned true; `startForward` looks for the connection. -/
  | starting (ctx : Context) (payload : RemoteForwardRequest) (l : Nat) (boundPort : BoundPort)
  /-- `startForward` spawned its two goroutines and returned true. -/
  | served (ctx : Context) (payload : RemoteForwardRequest) (l : Nat) (boundPort : BoundPort)
  /-- Blocked on `<-ctx.Done()`. -/
  | watching (ctx : Context) (key : GoString)
  /-- About to enter `closeForward`'s critical section. -/
  | closing (who : Caller) (key : GoString)
  /-- `closeForward` took `l` out of the table and is about to close it. -/
  | closingListener (who : Caller) (key : GoString) (l : Nat)
  /-- `closeForward` returned, with the listener that it closed. -/
  | closed (who : Caller) (key : GoString) (l : Option Nat)
  /-- `acceptLoop` is in `Accept`. -/
  | accepting (l : Nat) (requestedAddr : GoString) (boundPort : BoundPort) (key : GoString)
  /-- `Accept` failed; the deferred cleanup of `acceptLoop` is still to run. -/
  | cleaning (l : Nat) (key : GoString)
  | exited
  deriving DecidableEq, Repr

/-- What `HandleSSHRequest` returned on this goroutine. -/
def Proc.reply : Proc → Option Reply
  | .rejected => some ⟨false, .nil⟩
  | .refused _ _ => some ⟨false, .text (bytes "port forwarding is disabled")⟩
  | .served _ _ _ boundPort => some ⟨true, .success ⟨UInt32.ofNat boundPort.val⟩⟩
  | .closed (.cancel _ _) _ l => some ⟨l.isSome, .nil⟩
  | .closed (.abort _ _) _ _ => some ⟨false, .nil⟩
  | _ => none

/-- `HandleSSHRequest` up to its first action on shared state. -/
def handleSSHRequest (W : World) (srv : Server) (ctx : Context) (req : Request) : Proc :=
  match W.unmarshal req.payload with
  | none => .rejected
  | some payload =>
    if req.type = requestTypeForward then
      if policyAllows srv ctx payload then .listening ctx payload else .refused ctx payload
    else if req.type = requestTypeCancelForward then
      .closing (.cancel ctx payload) (forwardKey payload.bindAddr payload.bindPort.toNat)
    else .rejected

/-! ## The shared state -/

structure State where
  /-- The table `h.forwards`. -/
  forwards : GoString → Option Nat
  /-- Every listener that `net.Listen` ever returned. -/
  sockets : List Listener
  procs : Nat → Proc
  /-- The connections whose context has ended. -/
  ctxDone : Nat → Bool
  /-- The listeners that `openForward` has recorded so far. -/
  recorded : List Nat
  /-- The `forwarded-tcpip` channels opened so far, each with its listener. -/
  channels : List (Nat × RemoteForwardChannelData)

namespace State

/-- Goroutine `t` moves on and nothing else happens. -/
@[simps] def goto (s : State) (t : Nat) (p : Proc) : State :=
  { s with procs := Function.update s.procs t p }

/-- `net.Listen` returned a listener for `host` on port `p`. -/
@[simps] def bound (s : State) (t : Nat) (ctx : Context) (payload : RemoteForwardRequest)
    (addr : IP) (host : GoString) (p : BoundPort) : State :=
  { s with
    sockets := s.sockets ++ [⟨(addr, p.val), true, ⟨t, ctx, payload, host⟩⟩]
    procs := Function.update s.procs t (.recording ctx payload s.sockets.length p) }

/-- `h.forwards[forwardKey(payload.BindAddr, boundPort)] = listener`. -/
@[simps] def record (s : State) (t : Nat) (ctx : Context) (payload : RemoteForwardRequest)
    (l : Nat) (p : BoundPort) : State :=
  { s with
    forwards := Function.update s.forwards (forwardKey payload.bindAddr p.val) (some l)
    recorded := s.recorded ++ [l]
    procs := Function.update s.procs t (.starting ctx payload l p) }

/-- `startForward` spawns the goroutine that waits for the context (`tw`) and
the accept loop (`ta`), and returns. -/
@[simps] def spawn (s : State) (t tw ta : Nat) (ctx : Context) (payload : RemoteForwardRequest)
    (l : Nat) (p : BoundPort) : State :=
  { s with
    procs := Function.update (Function.update (Function.update s.procs
      t (.served ctx payload l p))
      tw (.watching ctx (forwardKey payload.bindAddr p.val)))
      ta (.accepting l payload.bindAddr p (forwardKey payload.bindAddr p.val)) }

@[simps] def endCtx (s : State) (c : Nat) : State :=
  { s with ctxDone := Function.update s.ctxDone c true }

/-- `closeForward`'s critical section found `l` under `key`. -/
@[simps] def take (s : State) (t : Nat) (who : Caller) (key : GoString) (l : Nat) : State :=
  { s with
    forwards := Function.update s.forwards key none
    procs := Function.update s.procs t (.closingListener who key l) }

/-- `listener.Close()` in `closeForward`. -/
@[simps] def close (s : State) (t : Nat) (who : Caller) (key : GoString) (l : Nat) : State :=
  { s with
    sockets := Sock.shut s.sockets l
    procs := Function.update s.procs t (.closed who key (some l)) }

/-- `Accept` returned a connection from `remote`, and `relay` opens its channel. -/
@[simps] def relay (s : State) (l : Nat) (requestedAddr : GoString) (p : BoundPort)
    (remote : GoString) : State :=
  { s with
    channels := s.channels ++ [(l,
      { destAddr := requestedAddr
        destPort := UInt32.ofNat p.val
        originAddr := (splitAddr remote).1
        originPort := UInt32.ofInt (splitAddr remote).2 })] }

/-- The deferred cleanup of `acceptLoop`: the entry is removed only when it
still refers to this listener. -/
@[simps] def cleanup (s : State) (t : Nat) (l : Nat) (key : GoString) : State :=
  { s with
    forwards := if s.forwards key = some l then Function.update s.forwards key none else s.forwards
    procs := Function.update s.procs t .exited }

end State

/-! ## Actions -/

inductive Act where
  /-- A global request arrives and is handled on goroutine `t`. -/
  | request (t : Nat) (ctx : Context) (req : Request)
  /-- `net.Listen` returns: an error, or a listener with its port. -/
  | listen (t : Nat) (port : Option BoundPort)
  | record (t : Nat)
  | spawn (t tw ta : Nat)
  | abort (t : Nat)
  /-- The context of a connection ends. -/
  | endCtx (c : Nat)
  /-- `<-ctx.Done()` returns. -/
  | wake (t : Nat)
  /-- The critical section of `closeForward`. -/
  | remove (t : Nat)
  | close (t : Nat)
  | accept (t : Nat) (remote : GoString)
  | acceptFail (t : Nat)
  | cleanup (t : Nat)
  deriving DecidableEq, Repr

/-- One action. A goroutine that is spawned gets an id that was never used. -/
def step (W : World) (s : State) : Act → Option State
  | .request t ctx req =>
    if s.procs t = .idle then some (s.goto t (handleSSHRequest W newServer ctx req)) else none
  | .listen t port =>
    match s.procs t, port with
    | .listening ctx payload, none => some (s.goto t (.refused ctx payload))
    | .listening ctx payload, some p =>
      match listenTarget (listenAddress payload) with
      | none => none
      | some (host, q) =>
        if (q = 0 ∨ p.val = q) ∧ Sock.free s.sockets (W.resolve host, p.val) = true then
          some (s.bound t ctx payload (W.resolve host) host p)
        else none
    | _, _ => none
  | .record t =>
    match s.procs t with
    | .recording ctx payload l p => some (s.record t ctx payload l p)
    | _ => none
  | .spawn t tw ta =>
    match s.procs t with
    | .starting ctx payload l p =>
      if ctx.hasConn = true ∧ s.procs tw = .idle ∧ s.procs ta = .idle ∧ tw ≠ ta then
        some (s.spawn t tw ta ctx payload l p)
      else none
    | _ => none
  | .abort t =>
    match s.procs t with
    | .starting ctx payload _ p =>
      if ctx.hasConn = false then
        some (s.goto t (.closing (.abort ctx payload) (forwardKey payload.bindAddr p.val)))
      else none
    | _ => none
  | .endCtx c => some (s.endCtx c)
  | .wake t =>
    match s.procs t with
    | .watching ctx key =>
      if s.ctxDone ctx.conn = true then some (s.goto t (.closing (.teardown ctx) key)) else none
    | _ => none
  | .remove t =>
    match s.procs t with
    | .closing who key =>
      match s.forwards key with
      | none => some (s.goto t (.closed who key none))
      | some l => some (s.take t who key l)
    | _ => none
  | .close t =>
    match s.procs t with
    | .closingListener who key l => some (s.close t who key l)
    | _ => none
  | .accept t remote =>
    match s.procs t with
    | .accepting l requestedAddr p _ =>
      if (s.sockets[l]?.map Sock.isOpen) = some true then some (s.relay l requestedAddr p remote)
      else none
    | _ => none
  | .acceptFail t =>
    match s.procs t with
    | .accepting l _ _ key => some (s.goto t (.cleaning l key))
    | _ => none
  | .cleanup t =>
    match s.procs t with
    | .cleaning l key => some (s.cleanup t l key)
    | _ => none

/-- `newLoopbackForwardHandler`: an empty table, and no goroutine yet. -/
def initial : State where
  forwards := fun _ => none
  sockets := []
  procs := fun _ => .idle
  ctxDone := fun _ => false
  recorded := []
  channels := []

/-- The handler of a server that `New` built, with all its connections. -/
def system (W : World) : System State Act where
  init := (· = initial)
  step := step W

/-! ## What one action can do -/

/-- Every action with its guard and its effect, one case for each branch. -/
inductive Step (W : World) (s : State) : Act → State → Prop
  | request {t ctx req} : s.procs t = .idle →
      Step W s (.request t ctx req) (s.goto t (handleSSHRequest W newServer ctx req))
  | listenFail {t ctx payload} : s.procs t = .listening ctx payload →
      Step W s (.listen t none) (s.goto t (.refused ctx payload))
  | listen {t ctx payload host q} {p : BoundPort} : s.procs t = .listening ctx payload →
      listenTarget (listenAddress payload) = some (host, q) → (q = 0 ∨ p.val = q) →
      Sock.free s.sockets (W.resolve host, p.val) = true →
      Step W s (.listen t (some p)) (s.bound t ctx payload (W.resolve host) host p)
  | record {t ctx payload l p} : s.procs t = .recording ctx payload l p →
      Step W s (.record t) (s.record t ctx payload l p)
  | spawn {t tw ta ctx payload l p} : s.procs t = .starting ctx payload l p →
      ctx.hasConn = true → s.procs tw = .idle → s.procs ta = .idle → tw ≠ ta →
      Step W s (.spawn t tw ta) (s.spawn t tw ta ctx payload l p)
  | abort {t ctx payload l p} : s.procs t = .starting ctx payload l p → ctx.hasConn = false →
      Step W s (.abort t)
        (s.goto t (.closing (.abort ctx payload) (forwardKey payload.bindAddr p.val)))
  | endCtx {c} : Step W s (.endCtx c) (s.endCtx c)
  | wake {t ctx key} : s.procs t = .watching ctx key → s.ctxDone ctx.conn = true →
      Step W s (.wake t) (s.goto t (.closing (.teardown ctx) key))
  | removeNone {t who key} : s.procs t = .closing who key → s.forwards key = none →
      Step W s (.remove t) (s.goto t (.closed who key none))
  | remove {t who key l} : s.procs t = .closing who key → s.forwards key = some l →
      Step W s (.remove t) (s.take t who key l)
  | close {t who key l} : s.procs t = .closingListener who key l →
      Step W s (.close t) (s.close t who key l)
  | accept {t l requestedAddr p key remote f} : s.procs t = .accepting l requestedAddr p key →
      s.sockets[l]? = some f → f.isOpen = true →
      Step W s (.accept t remote) (s.relay l requestedAddr p remote)
  | acceptFail {t l requestedAddr p key} : s.procs t = .accepting l requestedAddr p key →
      Step W s (.acceptFail t) (s.goto t (.cleaning l key))
  | cleanup {t l key} : s.procs t = .cleaning l key →
      Step W s (.cleanup t) (s.cleanup t l key)

theorem step_cases {W : World} {s s' : State} {a : Act} (h : step W s a = some s') :
    Step W s a s' := by
  cases a with
  | request t ctx req =>
    simp only [step] at h
    split at h
    · cases h; exact .request ‹_›
    · cases h
  | listen t port =>
    simp only [step] at h
    split at h
    · cases h; exact .listenFail ‹_›
    · split at h
      · cases h
      · split at h
        · rename_i hc
          cases h; exact .listen ‹_› ‹_› hc.1 hc.2
        · cases h
    · cases h
  | record t =>
    simp only [step] at h
    split at h
    · cases h; exact .record ‹_›
    · cases h
  | spawn t tw ta =>
    simp only [step] at h
    split at h
    · split at h
      · rename_i hc
        cases h; exact .spawn ‹_› hc.1 hc.2.1 hc.2.2.1 hc.2.2.2
      · cases h
    · cases h
  | abort t =>
    simp only [step] at h
    split at h
    · split at h
      · cases h; exact .abort ‹_› ‹_›
      · cases h
    · cases h
  | endCtx c => cases h; exact .endCtx
  | wake t =>
    simp only [step] at h
    split at h
    · split at h
      · cases h; exact .wake ‹_› ‹_›
      · cases h
    · cases h
  | remove t =>
    simp only [step] at h
    split at h
    · split at h
      · cases h; exact .removeNone ‹_› ‹_›
      · cases h; exact .remove ‹_› ‹_›
    · cases h
  | close t =>
    simp only [step] at h
    split at h
    · cases h; exact .close ‹_›
    · cases h
  | accept t remote =>
    simp only [step] at h
    split at h
    · split at h
      · rename_i ho
        obtain ⟨f, hf, ho⟩ := Option.map_eq_some_iff.mp ho
        cases h; exact .accept ‹_› hf ho
      · cases h
    · cases h
  | acceptFail t =>
    simp only [step] at h
    split at h
    · cases h; exact .acceptFail ‹_›
    · cases h
  | cleanup t =>
    simp only [step] at h
    split at h
    · cases h; exact .cleanup ‹_›
    · cases h

end WorkspaceProxy.SshServer.Forward
