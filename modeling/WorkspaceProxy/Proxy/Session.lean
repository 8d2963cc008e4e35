import WorkspaceProxy.Conc.System

/-! # A proxied session

`Session.Run` with the goroutines it runs: `pingLoop`, the bridge and its two
pumps, the callback of the duration timer and the timer it starts. Each is a
program counter with one step function; the connections, the context, the two
channels and the write mutex are shared. The peers are two streams: what comes
out of the connections is theirs, in any portions, and every read or write may
fail at any time. -/
namespace WorkspaceProxy.Proxy.Session
open WorkspaceProxy.Conc

/-! ## The peers -/

/-- The message types that `ReadMessage` returns. -/
inductive MessageType
  | text
  | binary
deriving DecidableEq

structure Message where
  messageType : MessageType
  data : List UInt8
deriving DecidableEq

/-- The streams of the two peers: the client's messages, and the code of the
close frame that ends them, if one does; the target's bytes, and whether they
end with EOF. -/
structure Peers where
  messages : List Message
  closeCode : Option Nat
  bytes : List UInt8
  eof : Bool

/-- The errors that end a pump or the session. `io` is an error of a connection
other than a close frame. -/
inductive Err
  | close (code : Nat)
  | io
  | dial
  | canceled
deriving DecidableEq

def closeNormalClosure : Nat := 1000

def closeGoingAway : Nat := 1001

/-- `websocket.IsCloseError`. -/
def isCloseError : Err → List Nat → Bool
  | .close code, codes => codes.contains code
  | _, _ => false

def tcpReadBufferSize : Nat := 32 * 1024

/-! ## The goroutines -/

/-- Where `Session.Run` is. From `stoppingTimer` on it has its result and runs
its deferred calls; at `leaving` it has returned, and its caller is before its
own deferred `ws.Close`. -/
inductive Caller
  | settingDeadline
  | dialing
  | spawningPing
  | armingTimer
  | spawningBridge
  | selecting
  | closingWs
  | closingTcp
  | stoppingTimer (err : Option Err)
  | cancelling (err : Option Err)
  | joiningPing (err : Option Err)
  | closingDeferred (err : Option Err)
  | observing (err : Option Err)
  | leaving (err : Option Err)
  | returned (err : Option Err)
deriving DecidableEq

/-- Where `pingLoop` is. `closing` is the deferred `close(done)`. -/
inductive Ping
  | unborn
  | selecting
  | locking
  | writing
  | unlocking (ok : Bool)
  | failing
  | closing
  | finished
deriving DecidableEq

/-- Where `Bridge.Run` is, with the send of its result. -/
inductive Bridge
  | unborn
  | spawningRead
  | spawningWrite
  | receiving
  | closingWs (err : Option Err)
  | closingTcp (err : Option Err)
  | sending (err : Option Err)
  | finished
deriving DecidableEq

/-- Where `copyWSToTCP` is, with the send of its result. -/
inductive ReadPump
  | unborn
  | reading
  | writing (data : List UInt8)
  | counting (n : Nat)
  | sending (err : Option Err)
  | finished (err : Option Err)
deriving DecidableEq

/-- Where `copyTCPToWS` is, with the send of its result; `locking` to
`unlocking` is `WriteMessage`. -/
inductive WritePump
  | unborn
  | reading
  | locking (buf : List UInt8)
  | writing (buf : List UInt8)
  | unlocking (buf : List UInt8) (ok : Bool)
  | counting (n : Nat)
  | sending (err : Option Err)
  | finished (err : Option Err)
deriving DecidableEq

/-- Where the timer of the maximal duration and its callback are. -/
inductive Timer
  | unarmed
  | armed
  | stopped
  | locking
  | writing
  | unlocking
  | arming
  | finished
deriving DecidableEq

inductive Grace
  | unarmed
  | armed
  | fired
deriving DecidableEq

/-- Who may hold `writeMu`. -/
inductive Holder
  | ping
  | pump
  | timer
deriving DecidableEq

inductive Conn
  | unopened
  | opened
  | closed
deriving DecidableEq

/-- The labels of `ConnectionErrors` that a session counts. -/
inductive ConnError
  | tcpDialFailed
  | pingFailed
  | maxDuration
deriving DecidableEq

/-- A write that returned: what the peer got of it, and whether it returned no
error. -/
structure Write where
  data : List UInt8
  ok : Bool
deriving DecidableEq

/-- The pump from the client to the target: what the client has still to say,
the writes to the target, and `BytesTransferred` with the label `ws_to_tcp`. -/
structure WsToTcp where
  phase : ReadPump
  unread : List Message
  writes : List Write
  counter : Nat

/-- The pump from the target to the client, with the frames that were written,
and `BytesTransferred` with the label `tcp_to_ws`. -/
structure TcpToWs where
  phase : WritePump
  unread : List UInt8
  writes : List Write
  counter : Nat

/-- `pingDone` is closed where `ping` is finished. -/
structure State where
  caller : Caller
  ping : Ping
  bridge : Bridge
  wsToTcp : WsToTcp
  tcpToWs : TcpToWs
  timer : Timer
  grace : Grace
  ctxDone : Bool
  wsClosed : Bool
  tcp : Conn
  writeMu : Option Holder
  errChan : List (Option Err)
  bridgeErr : Option (Option Err)
  connectionErrors : List ConnError
  durations : Nat

/-- What a call to a connection comes to: it returns, with `n` bytes where it
reads bytes; it reports the end of the stream; or it fails, after `n` bytes
went out where it writes. -/
inductive Outcome
  | ok (n : Nat)
  | ended
  | fail (n : Nat)
deriving DecidableEq

/-- The next step of `Session.Run`. `ok` is the outcome of a call that may fail;
at the select it is the case that is taken, the bridge's result or the end of
the context. -/
def run (s : State) (ok : Bool) : Option State :=
  match s.caller with
  | .settingDeadline =>
    some { s with caller := if ok = true then .dialing else .observing (some .io) }
  | .dialing =>
    if ok = true then some { s with caller := .spawningPing, tcp := .opened }
    else some { s with
      caller := .observing (some .dial)
      connectionErrors := s.connectionErrors ++ [.tcpDialFailed] }
  | .spawningPing => some { s with caller := .armingTimer, ping := .selecting }
  | .armingTimer => some { s with caller := .spawningBridge, timer := .armed }
  | .spawningBridge => some { s with caller := .selecting, bridge := .spawningRead }
  | .selecting =>
    if ok = true then
      match s.bridgeErr with
      | some err => some { s with caller := .stoppingTimer err, bridgeErr := none }
      | none => none
    else if s.ctxDone = true then some { s with caller := .closingWs } else none
  | .closingWs => some { s with caller := .closingTcp, wsClosed := true }
  | .closingTcp => some { s with caller := .stoppingTimer (some .canceled), tcp := .closed }
  | .stoppingTimer err =>
    some { s with
      caller := .cancelling err
      timer := if s.timer = .armed then .stopped else s.timer }
  | .cancelling err => some { s with caller := .joiningPing err, ctxDone := true }
  | .joiningPing err =>
    if s.ping = .finished then some { s with caller := .closingDeferred err } else none
  | .closingDeferred err => some { s with caller := .observing err, tcp := .closed }
  | .observing err => some { s with caller := .leaving err, durations := s.durations + 1 }
  | .leaving err => some { s with caller := .returned err, wsClosed := true }
  | .returned _ => none

/-- The next step of `pingLoop`. At the select `ok` is the case that is taken,
the tick or the end of the context. -/
def pingLoop (s : State) (ok : Bool) : Option State :=
  match s.ping with
  | .selecting =>
    if ok = true then some { s with ping := .locking }
    else if s.ctxDone = true then some { s with ping := .closing } else none
  | .locking =>
    if s.writeMu = none then some { s with ping := .writing, writeMu := some .ping } else none
  | .writing => some { s with ping := .unlocking ok }
  | .unlocking ok =>
    some { s with ping := if ok = true then .selecting else .failing, writeMu := none }
  | .failing =>
    some { s with
      ping := .closing
      ctxDone := true
      connectionErrors := s.connectionErrors ++ [.pingFailed] }
  | .closing => some { s with ping := .finished }
  | .unborn | .finished => none

/-- The next step of `Bridge.Run` and of the goroutine that sends its result. -/
def bridgeRun (s : State) : Option State :=
  match s.bridge with
  | .spawningRead => some { s with bridge := .spawningWrite, wsToTcp.phase := .reading }
  | .spawningWrite => some { s with bridge := .receiving, tcpToWs.phase := .reading }
  | .receiving =>
    match s.errChan with
    | err :: rest => some { s with bridge := .closingWs err, errChan := rest }
    | [] => none
  | .closingWs err => some { s with bridge := .closingTcp err, wsClosed := true }
  | .closingTcp err => some { s with bridge := .sending err, tcp := .closed }
  | .sending err =>
    if s.bridgeErr = none then some { s with bridge := .finished, bridgeErr := some err } else none
  | .unborn | .finished => none

/-- How `copyWSToTCP` ends after an error of `ReadMessage`. -/
def readResult (err : Err) : Option Err :=
  if isCloseError err [closeNormalClosure, closeGoingAway] = true then none else some err

/-- The next step of `copyWSToTCP` and of the goroutine that sends its result. A
message that was received before a failure may still be read after it. -/
def copyWSToTCP (p : Peers) (s : State) (o : Outcome) : Option State :=
  match s.wsToTcp.phase with
  | .reading =>
    match o with
    | .ok _ =>
      match s.wsToTcp.unread with
      | m :: rest => some { s with
          wsToTcp.phase := if m.messageType = .binary then .writing m.data else .reading
          wsToTcp.unread := rest }
      | [] => none
    | .ended =>
      match s.wsToTcp.unread, p.closeCode with
      | [], some code => some { s with wsToTcp.phase := .sending (readResult (.close code)) }
      | _, _ => none
    | .fail _ => some { s with wsToTcp.phase := .sending (readResult .io) }
  | .writing data =>
    match o with
    | .ok _ => some { s with
        wsToTcp.phase := .counting data.length
        wsToTcp.writes := s.wsToTcp.writes ++ [⟨data, true⟩] }
    | .fail n => some { s with
        wsToTcp.phase := .sending (some .io)
        wsToTcp.writes := s.wsToTcp.writes ++ [⟨data.take n, false⟩] }
    | .ended => none
  | .counting n => some { s with
      wsToTcp.phase := .reading
      wsToTcp.counter := s.wsToTcp.counter + n }
  | .sending err =>
    if s.errChan.length < 2 then
      some { s with wsToTcp.phase := .finished err, errChan := s.errChan ++ [err] }
    else none
  | .unborn | .finished _ => none

/-- The next step of `copyTCPToWS` and of the goroutine that sends its result. A
frame of which the last byte did not go out is not one that the client gets. -/
def copyTCPToWS (p : Peers) (s : State) (o : Outcome) : Option State :=
  match s.tcpToWs.phase with
  | .reading =>
    match o with
    | .ok n =>
      if 0 < n ∧ n ≤ tcpReadBufferSize ∧ n ≤ s.tcpToWs.unread.length then
        some { s with
          tcpToWs.phase := .locking (s.tcpToWs.unread.take n)
          tcpToWs.unread := s.tcpToWs.unread.drop n }
      else none
    | .ended =>
      if s.tcpToWs.unread = [] ∧ p.eof = true then
        some { s with tcpToWs.phase := .sending none }
      else none
    | .fail _ => some { s with tcpToWs.phase := .sending (some .io) }
  | .locking buf =>
    if s.writeMu = none then
      some { s with tcpToWs.phase := .writing buf, writeMu := some .pump }
    else none
  | .writing buf =>
    match o with
    | .ok _ => some { s with
        tcpToWs.phase := .unlocking buf true
        tcpToWs.writes := s.tcpToWs.writes ++ [⟨buf, true⟩] }
    | .fail n => some { s with
        tcpToWs.phase := .unlocking buf false
        tcpToWs.writes := s.tcpToWs.writes ++ [⟨if buf.length ≤ n then buf else [], false⟩] }
    | .ended => none
  | .unlocking buf ok => some { s with
      tcpToWs.phase := if ok = true then .counting buf.length else .sending (some .io)
      writeMu := none }
  | .counting n => some { s with
      tcpToWs.phase := .reading
      tcpToWs.counter := s.tcpToWs.counter + n }
  | .sending err =>
    if s.errChan.length < 2 then
      some { s with tcpToWs.phase := .finished err, errChan := s.errChan ++ [err] }
    else none
  | .unborn | .finished _ => none

/-- The next step of the timer of the maximal duration: it fires, and its
callback writes the close frame, whatever comes of it, and starts the timer of
the grace period. -/
def maxDurationTimer (s : State) : Option State :=
  match s.timer with
  | .armed =>
    some { s with timer := .locking, connectionErrors := s.connectionErrors ++ [.maxDuration] }
  | .locking =>
    if s.writeMu = none then some { s with timer := .writing, writeMu := some .timer } else none
  | .writing => some { s with timer := .unlocking }
  | .unlocking => some { s with timer := .arming, writeMu := none }
  | .arming => some { s with timer := .finished, grace := .armed }
  | .unarmed | .stopped | .finished => none

inductive Act
  | caller (ok : Bool)
  | ping (ok : Bool)
  | bridge
  | readPump (o : Outcome)
  | writePump (o : Outcome)
  | timer
  | grace
  | endCtx
deriving DecidableEq

def step (p : Peers) (s : State) : Act → Option State
  | .caller ok => run s ok
  | .ping ok => pingLoop s ok
  | .bridge => bridgeRun s
  | .readPump o => copyWSToTCP p s o
  | .writePump o => copyTCPToWS p s o
  | .timer => maxDurationTimer s
  | .grace => if s.grace = .armed then some { s with grace := .fired, ctxDone := true } else none
  | .endCtx => some { s with ctxDone := true }

/-- Before `Run`, with the upgraded connection. -/
def initial (p : Peers) : State where
  caller := .settingDeadline
  ping := .unborn
  bridge := .unborn
  wsToTcp := ⟨.unborn, p.messages, [], 0⟩
  tcpToWs := ⟨.unborn, p.bytes, [], 0⟩
  timer := .unarmed
  grace := .unarmed
  ctxDone := false
  wsClosed := false
  tcp := .unopened
  writeMu := none
  errChan := []
  bridgeErr := none
  connectionErrors := []
  durations := 0

def system (p : Peers) : System State Act where
  init := (· = initial p)
  step := step p

/-! ## The steps, one constructor for each -/

inductive RunStep (s : State) : State → Prop
  | setDeadline : s.caller = .settingDeadline → RunStep s { s with caller := .dialing }
  | setDeadlineFails : s.caller = .settingDeadline →
      RunStep s { s with caller := .observing (some .io) }
  | dial : s.caller = .dialing → RunStep s { s with caller := .spawningPing, tcp := .opened }
  | dialFails : s.caller = .dialing → RunStep s { s with
      caller := .observing (some .dial)
      connectionErrors := s.connectionErrors ++ [.tcpDialFailed] }
  | spawnPing : s.caller = .spawningPing →
      RunStep s { s with caller := .armingTimer, ping := .selecting }
  | armTimer : s.caller = .armingTimer →
      RunStep s { s with caller := .spawningBridge, timer := .armed }
  | spawnBridge : s.caller = .spawningBridge →
      RunStep s { s with caller := .selecting, bridge := .spawningRead }
  | seeBridge {err} : s.caller = .selecting → s.bridgeErr = some err →
      RunStep s { s with caller := .stoppingTimer err, bridgeErr := none }
  | seeCtx : s.caller = .selecting → s.ctxDone = true → RunStep s { s with caller := .closingWs }
  | closeWs : s.caller = .closingWs → RunStep s { s with caller := .closingTcp, wsClosed := true }
  | closeTcp : s.caller = .closingTcp →
      RunStep s { s with caller := .stoppingTimer (some .canceled), tcp := .closed }
  | stopTimer {err} : s.caller = .stoppingTimer err → RunStep s { s with
      caller := .cancelling err
      timer := if s.timer = .armed then .stopped else s.timer }
  | cancel {err} : s.caller = .cancelling err →
      RunStep s { s with caller := .joiningPing err, ctxDone := true }
  | joinPing {err} : s.caller = .joiningPing err → s.ping = .finished →
      RunStep s { s with caller := .closingDeferred err }
  | closeDeferred {err} : s.caller = .closingDeferred err →
      RunStep s { s with caller := .observing err, tcp := .closed }
  | observe {err} : s.caller = .observing err →
      RunStep s { s with caller := .leaving err, durations := s.durations + 1 }
  | leave {err} : s.caller = .leaving err →
      RunStep s { s with caller := .returned err, wsClosed := true }

theorem run_cases {s s' : State} {ok : Bool} (h : run s ok = some s') : RunStep s s' := by
  unfold run at h
  split at h
  · cases h
    split
    · exact .setDeadline ‹_›
    · exact .setDeadlineFails ‹_›
  · split at h
    · cases h; exact .dial ‹_›
    · cases h; exact .dialFails ‹_›
  · cases h; exact .spawnPing ‹_›
  · cases h; exact .armTimer ‹_›
  · cases h; exact .spawnBridge ‹_›
  · split at h
    · split at h
      · cases h; exact .seeBridge ‹_› ‹_›
      · cases h
    · split at h
      · cases h; exact .seeCtx ‹_› ‹_›
      · cases h
  · cases h; exact .closeWs ‹_›
  · cases h; exact .closeTcp ‹_›
  · cases h; exact .stopTimer ‹_›
  · cases h; exact .cancel ‹_›
  · split at h
    · cases h; exact .joinPing ‹_› ‹_›
    · cases h
  · cases h; exact .closeDeferred ‹_›
  · cases h; exact .observe ‹_›
  · cases h; exact .leave ‹_›
  · cases h

inductive PingStep (s : State) : State → Prop
  | tick : s.ping = .selecting → PingStep s { s with ping := .locking }
  | seeCtx : s.ping = .selecting → s.ctxDone = true → PingStep s { s with ping := .closing }
  | lock : s.ping = .locking → s.writeMu = none →
      PingStep s { s with ping := .writing, writeMu := some .ping }
  | write {ok} : s.ping = .writing → PingStep s { s with ping := .unlocking ok }
  | unlock : s.ping = .unlocking true → PingStep s { s with ping := .selecting, writeMu := none }
  | unlockFailed : s.ping = .unlocking false →
      PingStep s { s with ping := .failing, writeMu := none }
  | fail : s.ping = .failing → PingStep s { s with
      ping := .closing
      ctxDone := true
      connectionErrors := s.connectionErrors ++ [.pingFailed] }
  | close : s.ping = .closing → PingStep s { s with ping := .finished }

theorem ping_cases {s s' : State} {ok : Bool} (h : pingLoop s ok = some s') : PingStep s s' := by
  unfold pingLoop at h
  split at h
  · split at h
    · cases h; exact .tick ‹_›
    · split at h
      · cases h; exact .seeCtx ‹_› ‹_›
      · cases h
  · split at h
    · cases h; exact .lock ‹_› ‹_›
    · cases h
  · cases h; exact .write ‹_›
  · rename_i ok hp
    cases h
    cases ok with
    | true => exact .unlock hp
    | false => exact .unlockFailed hp
  · cases h; exact .fail ‹_›
  · cases h; exact .close ‹_›
  all_goals cases h

inductive BridgeStep (s : State) : State → Prop
  | spawnRead : s.bridge = .spawningRead →
      BridgeStep s { s with bridge := .spawningWrite, wsToTcp.phase := .reading }
  | spawnWrite : s.bridge = .spawningWrite →
      BridgeStep s { s with bridge := .receiving, tcpToWs.phase := .reading }
  | receive {err rest} : s.bridge = .receiving → s.errChan = err :: rest →
      BridgeStep s { s with bridge := .closingWs err, errChan := rest }
  | closeWs {err} : s.bridge = .closingWs err →
      BridgeStep s { s with bridge := .closingTcp err, wsClosed := true }
  | closeTcp {err} : s.bridge = .closingTcp err →
      BridgeStep s { s with bridge := .sending err, tcp := .closed }
  | send {err} : s.bridge = .sending err → s.bridgeErr = none →
      BridgeStep s { s with bridge := .finished, bridgeErr := some err }

theorem bridge_cases {s s' : State} (h : bridgeRun s = some s') : BridgeStep s s' := by
  unfold bridgeRun at h
  split at h
  · cases h; exact .spawnRead ‹_›
  · cases h; exact .spawnWrite ‹_›
  · split at h
    · cases h; exact .receive ‹_› ‹_›
    · cases h
  · cases h; exact .closeWs ‹_›
  · cases h; exact .closeTcp ‹_›
  · split at h
    · cases h; exact .send ‹_› ‹_›
    · cases h
  all_goals cases h

inductive ReadStep (p : Peers) (s : State) : State → Prop
  | message {m rest} : s.wsToTcp.phase = .reading → s.wsToTcp.unread = m :: rest →
      m.messageType = .binary →
      ReadStep p s { s with wsToTcp.phase := .writing m.data, wsToTcp.unread := rest }
  | ignore {m rest} : s.wsToTcp.phase = .reading → s.wsToTcp.unread = m :: rest →
      m.messageType ≠ .binary →
      ReadStep p s { s with wsToTcp.phase := .reading, wsToTcp.unread := rest }
  | closed {code} : s.wsToTcp.phase = .reading → s.wsToTcp.unread = [] →
      p.closeCode = some code →
      ReadStep p s { s with wsToTcp.phase := .sending (readResult (.close code)) }
  | readFails : s.wsToTcp.phase = .reading →
      ReadStep p s { s with wsToTcp.phase := .sending (some .io) }
  | write {data} : s.wsToTcp.phase = .writing data → ReadStep p s { s with
      wsToTcp.phase := .counting data.length
      wsToTcp.writes := s.wsToTcp.writes ++ [⟨data, true⟩] }
  | writeFails {data n} : s.wsToTcp.phase = .writing data → ReadStep p s { s with
      wsToTcp.phase := .sending (some .io)
      wsToTcp.writes := s.wsToTcp.writes ++ [⟨data.take n, false⟩] }
  | count {n} : s.wsToTcp.phase = .counting n → ReadStep p s { s with
      wsToTcp.phase := .reading
      wsToTcp.counter := s.wsToTcp.counter + n }
  | send {err} : s.wsToTcp.phase = .sending err → s.errChan.length < 2 →
      ReadStep p s { s with wsToTcp.phase := .finished err, errChan := s.errChan ++ [err] }

theorem read_cases {p : Peers} {s s' : State} {o : Outcome} (h : copyWSToTCP p s o = some s') :
    ReadStep p s s' := by
  unfold copyWSToTCP at h
  split at h
  · split at h
    · split at h
      · cases h
        split
        · exact .message ‹_› ‹_› ‹_›
        · exact .ignore ‹_› ‹_› ‹_›
      · cases h
    · split at h
      · cases h; exact .closed ‹_› ‹_› ‹_›
      · cases h
    · cases h; exact .readFails ‹_›
  · split at h
    · cases h; exact .write ‹_›
    · cases h; exact .writeFails ‹_›
    · cases h
  · cases h; exact .count ‹_›
  · split at h
    · cases h; exact .send ‹_› ‹_›
    · cases h
  all_goals cases h

inductive WriteStep (p : Peers) (s : State) : State → Prop
  | read {n} : s.tcpToWs.phase = .reading → 0 < n → n ≤ tcpReadBufferSize →
      n ≤ s.tcpToWs.unread.length → WriteStep p s { s with
        tcpToWs.phase := .locking (s.tcpToWs.unread.take n)
        tcpToWs.unread := s.tcpToWs.unread.drop n }
  | eof : s.tcpToWs.phase = .reading → s.tcpToWs.unread = [] → p.eof = true →
      WriteStep p s { s with tcpToWs.phase := .sending none }
  | readFails : s.tcpToWs.phase = .reading →
      WriteStep p s { s with tcpToWs.phase := .sending (some .io) }
  | lock {buf} : s.tcpToWs.phase = .locking buf → s.writeMu = none →
      WriteStep p s { s with tcpToWs.phase := .writing buf, writeMu := some .pump }
  | write {buf} : s.tcpToWs.phase = .writing buf → WriteStep p s { s with
      tcpToWs.phase := .unlocking buf true
      tcpToWs.writes := s.tcpToWs.writes ++ [⟨buf, true⟩] }
  | writeFails {buf n} : s.tcpToWs.phase = .writing buf → WriteStep p s { s with
      tcpToWs.phase := .unlocking buf false
      tcpToWs.writes := s.tcpToWs.writes ++ [⟨if buf.length ≤ n then buf else [], false⟩] }
  | unlock {buf} : s.tcpToWs.phase = .unlocking buf true →
      WriteStep p s { s with tcpToWs.phase := .counting buf.length, writeMu := none }
  | unlockFailed {buf} : s.tcpToWs.phase = .unlocking buf false →
      WriteStep p s { s with tcpToWs.phase := .sending (some .io), writeMu := none }
  | count {n} : s.tcpToWs.phase = .counting n → WriteStep p s { s with
      tcpToWs.phase := .reading
      tcpToWs.counter := s.tcpToWs.counter + n }
  | send {err} : s.tcpToWs.phase = .sending err → s.errChan.length < 2 →
      WriteStep p s { s with tcpToWs.phase := .finished err, errChan := s.errChan ++ [err] }

theorem write_cases {p : Peers} {s s' : State} {o : Outcome} (h : copyTCPToWS p s o = some s') :
    WriteStep p s s' := by
  unfold copyTCPToWS at h
  split at h
  · split at h
    · split at h
      · rename_i hn
        cases h
        exact .read ‹_› hn.1 hn.2.1 hn.2.2
      · cases h
    · split at h
      · rename_i he
        cases h
        exact .eof ‹_› he.1 he.2
      · cases h
    · cases h; exact .readFails ‹_›
  · split at h
    · cases h; exact .lock ‹_› ‹_›
    · cases h
  · split at h
    · cases h; exact .write ‹_›
    · cases h; exact .writeFails ‹_›
    · cases h
  · rename_i buf ok hp
    cases h
    cases ok with
    | true => exact .unlock hp
    | false => exact .unlockFailed hp
  · cases h; exact .count ‹_›
  · split at h
    · cases h; exact .send ‹_› ‹_›
    · cases h
  all_goals cases h

inductive TimerStep (s : State) : State → Prop
  | fire : s.timer = .armed → TimerStep s { s with
      timer := .locking
      connectionErrors := s.connectionErrors ++ [.maxDuration] }
  | lock : s.timer = .locking → s.writeMu = none →
      TimerStep s { s with timer := .writing, writeMu := some .timer }
  | write : s.timer = .writing → TimerStep s { s with timer := .unlocking }
  | unlock : s.timer = .unlocking → TimerStep s { s with timer := .arming, writeMu := none }
  | arm : s.timer = .arming → TimerStep s { s with timer := .finished, grace := .armed }

theorem timer_cases {s s' : State} (h : maxDurationTimer s = some s') : TimerStep s s' := by
  unfold maxDurationTimer at h
  split at h
  · cases h; exact .fire ‹_›
  · split at h
    · cases h; exact .lock ‹_› ‹_›
    · cases h
  · cases h; exact .write ‹_›
  · cases h; exact .unlock ‹_›
  · cases h; exact .arm ‹_›
  all_goals cases h

/-- The steps of `step`, by who takes them. -/
inductive Step (p : Peers) (s : State) : Act → State → Prop
  | caller {ok s'} : RunStep s s' → Step p s (.caller ok) s'
  | ping {ok s'} : PingStep s s' → Step p s (.ping ok) s'
  | bridge {s'} : BridgeStep s s' → Step p s .bridge s'
  | readPump {o s'} : ReadStep p s s' → Step p s (.readPump o) s'
  | writePump {o s'} : WriteStep p s s' → Step p s (.writePump o) s'
  | timer {s'} : TimerStep s s' → Step p s .timer s'
  | grace : s.grace = .armed → Step p s .grace { s with grace := .fired, ctxDone := true }
  | endCtx : Step p s .endCtx { s with ctxDone := true }

theorem step_cases {p : Peers} {s s' : State} {a : Act} (h : step p s a = some s') :
    Step p s a s' := by
  cases a with
  | caller ok => exact .caller (run_cases h)
  | ping ok => exact .ping (ping_cases h)
  | bridge => exact .bridge (bridge_cases h)
  | readPump o => exact .readPump (read_cases h)
  | writePump o => exact .writePump (write_cases h)
  | timer => exact .timer (timer_cases h)
  | grace =>
    simp only [step] at h
    split at h
    · cases h; exact .grace ‹_›
    · cases h
  | endCtx => cases h; exact .endCtx

end WorkspaceProxy.Proxy.Session
