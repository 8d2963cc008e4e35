import WorkspaceProxy.SshServer.SessionCmd

/-! # A shell or exec session

`handleSession` with the goroutines it runs: the watcher that
`terminateOnDisconnect` starts, the window-size goroutine of `runWithPty` and
the process, whose `wait` and `signalGroup` are the steps of `SessionCmd`. The
handler is one goroutine with the early returns and the deferred calls of the
source in the order in which they run. The environment ends the client's
context, lets the process exit, changes the window and moves the counter of
the other sessions, all at any time; a timer fires at any time. -/
namespace WorkspaceProxy.SshServer.Session
open WorkspaceProxy.Conc SessionCmd

/-- `ssh.Window`. -/
structure Window where
  width : Int
  height : Int
deriving DecidableEq

/-- `pty.Winsize`, without the sizes in pixels. -/
structure Winsize where
  rows : UInt16
  cols : UInt16
deriving DecidableEq

/-- The conversion of `setWinsize`, which keeps the low 16 bits. -/
def winsize (win : Window) : Winsize := ⟨.ofInt win.height, .ofInt win.width⟩

/-- What a run of `handleSession` is given: the limit, and what `session.Pty`
answers. -/
structure Config where
  maxSessions : Int
  isPty : Bool
  window : Window

/-- Where the handler is. `exiting`, `failing` and `refusing` are before their
call of `session.Exit`; `stopping` and `joining` are the deferred `stopWatch`,
and `releasing` is the deferred `releaseSession`. -/
inductive Handler
  | acquiring
  | undoing
  | refusing
  | preparing
  | piping
  | starting
  | failing (code : Int)
  | spawning
  | sizing
  | watchingSize
  | copying
  | stoppingResize
  | joiningResize
  | closingMaster
  | finishing
  | waiting
  | exiting (code : Int)
  | stopping
  | joining
  | releasing
  | returned
deriving DecidableEq

/-- Where the watcher is: `selecting` and `grace` are its two selects, and
`closing` is the deferred `close(finished)`. -/
inductive Watcher
  | unborn
  | selecting
  | attempting (sig : Signal)
  | signalling (sig : Signal)
  | grace
  | closing
  | finished
deriving DecidableEq

/-- Where the goroutine of `watchWindowSize` is. -/
inductive Resizer
  | unborn
  | selecting
  | applying (win : Window)
  | closing
  | finished
deriving DecidableEq

/-- `done` and `stopResize` are the channels the handler closes; `finished` and
`resizeDone` are closed where their goroutine is finished. `slot` is what this
session has added to `sessions`, `windows` is what is in the window channel,
and `resizes` notes whether the master was closed. -/
structure State where
  handler : Handler
  watcher : Watcher
  resizer : Resizer
  cmd : SessionCmd.State
  sessions : Int
  slot : Int
  admitted : Bool
  releases : Nat
  ctxDone : Bool
  done : Bool
  stopResize : Bool
  windows : List Window
  winClosed : Bool
  masterClosed : Bool
  resizes : List (Winsize × Bool)
  exits : List Int
  attempts : List Signal

namespace State

/-- `setWinsize` on the pty master. -/
def setWinsize (s : State) (win : Window) : State :=
  { s with resizes := s.resizes ++ [(winsize win, s.masterClosed)] }

/-- `sessions.Add`. -/
def add (s : State) (n : Int) : State :=
  { s with sessions := s.sessions + n, slot := s.slot + n }

/-- `session.Exit`. -/
def exit (s : State) (code : Int) : State := { s with exits := s.exits ++ [code] }

def goto (s : State) (h : Handler) : State := { s with handler := h }

end State

/-! ## The handler -/

/-- The next step of the handler; `ok` is the outcome of a call that may fail.
A start that succeeds and the call of `wait` are steps of the process. -/
def handlerStep (cfg : Config) (s : State) (ok : Bool) : Option State :=
  match s.handler with
  | .acquiring =>
    if cfg.maxSessions ≤ 0 then some { s with handler := .preparing, admitted := true }
    else if s.sessions + 1 > cfg.maxSessions then some ((s.add 1).goto .undoing)
    else some { s.add 1 with handler := .preparing, admitted := true }
  | .undoing => some ((s.add (-1)).goto .refusing)
  | .refusing => some ((s.exit exitCodeGeneralError).goto .returned)
  | .preparing => some (s.goto (if cfg.isPty = true then .starting else .piping))
  | .piping => some (s.goto (if ok = true then .starting else .failing exitCodeGeneralError))
  | .starting =>
    if ok = true then none
    else some (s.goto (.failing
      (if cfg.isPty = true then exitCodeGeneralError else exitCodeCommandNotExecutable)))
  | .failing code => some ((s.exit code).goto .releasing)
  | .spawning =>
    some { s with
      handler := if cfg.isPty = true then .sizing else .finishing
      watcher := .selecting }
  | .sizing => some ((s.setWinsize cfg.window).goto .watchingSize)
  | .watchingSize => some { s with handler := .copying, resizer := .selecting }
  | .copying => some (s.goto .stoppingResize)
  | .stoppingResize => some { s with handler := .joiningResize, stopResize := true }
  | .joiningResize => if s.resizer = .finished then some (s.goto .closingMaster) else none
  | .closingMaster => some { s with handler := .finishing, masterClosed := true }
  | .finishing => none
  | .waiting =>
    match s.cmd.waiter with
    | .returned r => some (s.goto (.exiting (exitCode r)))
    | _ => none
  | .exiting code => some ((s.exit code).goto .stopping)
  | .stopping => some { s with handler := .joining, done := true }
  | .joining => if s.watcher = .finished then some (s.goto .releasing) else none
  | .releasing =>
    if cfg.maxSessions ≤ 0 then some { s with handler := .returned, releases := s.releases + 1 }
    else some { s.add (-1) with handler := .returned, releases := s.releases + 1 }
  | .returned => none

/-- The steps of `handlerStep`, one constructor for each. -/
inductive HandlerStep (cfg : Config) (s : State) : State → Prop
  | unlimited : s.handler = .acquiring → cfg.maxSessions ≤ 0 →
      HandlerStep cfg s { s with handler := .preparing, admitted := true }
  | overLimit : s.handler = .acquiring → 0 < cfg.maxSessions → s.sessions + 1 > cfg.maxSessions →
      HandlerStep cfg s ((s.add 1).goto .undoing)
  | acquire : s.handler = .acquiring → 0 < cfg.maxSessions → s.sessions + 1 ≤ cfg.maxSessions →
      HandlerStep cfg s { s.add 1 with handler := .preparing, admitted := true }
  | undo : s.handler = .undoing → HandlerStep cfg s ((s.add (-1)).goto .refusing)
  | refuse : s.handler = .refusing →
      HandlerStep cfg s ((s.exit exitCodeGeneralError).goto .returned)
  | prepare : s.handler = .preparing →
      HandlerStep cfg s (s.goto (if cfg.isPty = true then .starting else .piping))
  | stdinPipe : s.handler = .piping → HandlerStep cfg s (s.goto .starting)
  | stdinPipeFails : s.handler = .piping →
      HandlerStep cfg s (s.goto (.failing exitCodeGeneralError))
  | startFails : s.handler = .starting → HandlerStep cfg s (s.goto (.failing
      (if cfg.isPty = true then exitCodeGeneralError else exitCodeCommandNotExecutable)))
  | fail {code} : s.handler = .failing code → HandlerStep cfg s ((s.exit code).goto .releasing)
  | spawn : s.handler = .spawning → HandlerStep cfg s { s with
      handler := if cfg.isPty = true then .sizing else .finishing
      watcher := .selecting }
  | size : s.handler = .sizing →
      HandlerStep cfg s ((s.setWinsize cfg.window).goto .watchingSize)
  | watchSize : s.handler = .watchingSize →
      HandlerStep cfg s { s with handler := .copying, resizer := .selecting }
  | copied : s.handler = .copying → HandlerStep cfg s (s.goto .stoppingResize)
  | stopResize : s.handler = .stoppingResize →
      HandlerStep cfg s { s with handler := .joiningResize, stopResize := true }
  | joinResize : s.handler = .joiningResize → s.resizer = .finished →
      HandlerStep cfg s (s.goto .closingMaster)
  | closeMaster : s.handler = .closingMaster →
      HandlerStep cfg s { s with handler := .finishing, masterClosed := true }
  | waited {r} : s.handler = .waiting → s.cmd.waiter = .returned r →
      HandlerStep cfg s (s.goto (.exiting (exitCode r)))
  | exit {code} : s.handler = .exiting code → HandlerStep cfg s ((s.exit code).goto .stopping)
  | stop : s.handler = .stopping → HandlerStep cfg s { s with handler := .joining, done := true }
  | join : s.handler = .joining → s.watcher = .finished → HandlerStep cfg s (s.goto .releasing)
  | releaseUnlimited : s.handler = .releasing → cfg.maxSessions ≤ 0 →
      HandlerStep cfg s { s with handler := .returned, releases := s.releases + 1 }
  | release : s.handler = .releasing → 0 < cfg.maxSessions →
      HandlerStep cfg s { s.add (-1) with handler := .returned, releases := s.releases + 1 }

theorem handler_cases {cfg : Config} {s s' : State} {ok : Bool}
    (h : handlerStep cfg s ok = some s') : HandlerStep cfg s s' := by
  unfold handlerStep at h
  split at h
  · rename_i hh
    split at h
    · cases h; exact .unlimited hh ‹_›
    · split at h
      · cases h; exact .overLimit hh (by omega) ‹_›
      · cases h; exact .acquire hh (by omega) (by omega)
  · cases h; exact .undo ‹_›
  · cases h; exact .refuse ‹_›
  · cases h; exact .prepare ‹_›
  · cases h
    split
    · exact .stdinPipe ‹_›
    · exact .stdinPipeFails ‹_›
  · split at h
    · cases h
    · cases h; exact .startFails ‹_›
  · cases h; exact .fail ‹_›
  · cases h; exact .spawn ‹_›
  · cases h; exact .size ‹_›
  · cases h; exact .watchSize ‹_›
  · cases h; exact .copied ‹_›
  · cases h; exact .stopResize ‹_›
  · split at h
    · cases h; exact .joinResize ‹_› ‹_›
    · cases h
  · cases h; exact .closeMaster ‹_›
  · cases h
  · split at h
    · cases h; exact .waited ‹_› ‹_›
    · cases h
  · cases h; exact .exit ‹_›
  · cases h; exact .stop ‹_›
  · split at h
    · cases h; exact .join ‹_› ‹_›
    · cases h
  · rename_i hh
    split at h
    · cases h; exact .releaseUnlimited hh ‹_›
    · cases h; exact .release hh (by omega)
  · cases h

/-! ## The watcher and the window -/

/-- The number of the watcher's call of `signalGroup`. -/
def callNumber : Signal → Nat
  | .hup => 0
  | .kill => 1

/-- The next step of the watcher; `seesDone` is the case that a select takes. -/
def watcherStep (s : State) (seesDone : Bool) : Option State :=
  match s.watcher with
  | .selecting =>
    if seesDone = true then if s.done = true then some { s with watcher := .closing } else none
    else if s.ctxDone = true then some { s with watcher := .attempting .hup } else none
  | .signalling sig =>
    if s.cmd.calls (callNumber sig) = .returned sig then
      some { s with watcher := match sig with
        | .hup => .grace
        | .kill => .closing }
    else none
  | .grace =>
    if seesDone = true then if s.done = true then some { s with watcher := .closing } else none
    else some { s with watcher := .attempting .kill }
  | .closing => some { s with watcher := .finished }
  | .unborn | .attempting _ | .finished => none

inductive WatcherStep (s : State) : State → Prop
  | seeDone : (s.watcher = .selecting ∨ s.watcher = .grace) → s.done = true →
      WatcherStep s { s with watcher := .closing }
  | seeCtx : s.watcher = .selecting → s.ctxDone = true →
      WatcherStep s { s with watcher := .attempting .hup }
  | hungUp : s.watcher = .signalling .hup → s.cmd.calls (callNumber .hup) = .returned .hup →
      WatcherStep s { s with watcher := .grace }
  | killed : s.watcher = .signalling .kill → s.cmd.calls (callNumber .kill) = .returned .kill →
      WatcherStep s { s with watcher := .closing }
  | timer : s.watcher = .grace → WatcherStep s { s with watcher := .attempting .kill }
  | close : s.watcher = .closing → WatcherStep s { s with watcher := .finished }

theorem watcher_cases {s s' : State} {seesDone : Bool} (h : watcherStep s seesDone = some s') :
    WatcherStep s s' := by
  unfold watcherStep at h
  split at h
  · split at h
    · split at h
      · cases h; exact .seeDone (.inl ‹_›) ‹_›
      · cases h
    · split at h
      · cases h; exact .seeCtx ‹_› ‹_›
      · cases h
  · rename_i sig hw
    split at h
    · cases h
      cases sig with
      | hup => exact .hungUp hw ‹_›
      | kill => exact .killed hw ‹_›
    · cases h
  · split at h
    · split at h
      · cases h; exact .seeDone (.inr ‹_›) ‹_›
      · cases h
    · cases h; exact .timer ‹_›
  · cases h; exact .close ‹_›
  all_goals cases h

/-- The next step of the window-size goroutine; `seesStop` is the case that its
select takes. The window channel gives what is in it even when it is closed. -/
def resizerStep (s : State) (seesStop : Bool) : Option State :=
  match s.resizer with
  | .selecting =>
    if seesStop = true then
      if s.stopResize = true then some { s with resizer := .closing } else none
    else match s.windows with
      | win :: rest => some { s with resizer := .applying win, windows := rest }
      | [] => if s.winClosed = true then some { s with resizer := .closing } else none
  | .applying win => some { s.setWinsize win with resizer := .selecting }
  | .closing => some { s with resizer := .finished }
  | .unborn | .finished => none

inductive ResizerStep (s : State) : State → Prop
  | seeStop : s.resizer = .selecting → s.stopResize = true →
      ResizerStep s { s with resizer := .closing }
  | receive {win rest} : s.resizer = .selecting → s.windows = win :: rest →
      ResizerStep s { s with resizer := .applying win, windows := rest }
  | seeClosed : s.resizer = .selecting → s.windows = [] → s.winClosed = true →
      ResizerStep s { s with resizer := .closing }
  | apply {win} : s.resizer = .applying win →
      ResizerStep s { s.setWinsize win with resizer := .selecting }
  | close : s.resizer = .closing → ResizerStep s { s with resizer := .finished }

theorem resizer_cases {s s' : State} {seesStop : Bool} (h : resizerStep s seesStop = some s') :
    ResizerStep s s' := by
  unfold resizerStep at h
  split at h
  · split at h
    · split at h
      · cases h; exact .seeStop ‹_› ‹_›
      · cases h
    · split at h
      · cases h; exact .receive ‹_› ‹_›
      · split at h
        · cases h; exact .seeClosed ‹_› ‹_› ‹_›
        · cases h
  · cases h; exact .apply ‹_›
  · cases h; exact .close ‹_›
  all_goals cases h

/-- Who takes the steps of `SessionCmd`: the handler starts the process and is
inside `wait`, the watcher is inside `signalGroup`, and the exit is the
process's own. -/
def control (s : State) : SessionCmd.Act → Option State
  | .start => if s.handler = .starting then some (s.goto .spawning) else none
  | .exit _ => some s
  | .wait => if s.handler = .finishing then some (s.goto .waiting) else none
  | .reap | .waited _ | .waitLock | .mark | .waitUnlock =>
    if s.handler = .waiting then some s else none
  | .call i sig =>
    if s.watcher = .attempting sig ∧ i = callNumber sig then
      some { s with watcher := .signalling sig, attempts := s.attempts ++ [sig] }
    else none
  | .lock i | .check i | .kill i | .unlock i =>
    match s.watcher with
    | .signalling sig => if i = callNumber sig then some s else none
    | _ => none

/-- A step inside the call of `wait`. -/
def InWait : SessionCmd.Act → Prop
  | .reap | .waited _ | .waitLock | .mark | .waitUnlock => True
  | _ => False

/-- A step inside the `i`-th call of `signalGroup`. -/
def InCall (i : Nat) : SessionCmd.Act → Prop
  | .lock j | .check j | .kill j | .unlock j => j = i
  | _ => False

inductive Control (s : State) : SessionCmd.Act → State → Prop
  | start : s.handler = .starting → Control s .start (s.goto .spawning)
  | exit {status} : Control s (.exit status) s
  | wait : s.handler = .finishing → Control s .wait (s.goto .waiting)
  | inWait {a} : s.handler = .waiting → InWait a → Control s a s
  | call {sig} : s.watcher = .attempting sig → Control s (.call (callNumber sig) sig)
      { s with watcher := .signalling sig, attempts := s.attempts ++ [sig] }
  | inCall {a sig} : s.watcher = .signalling sig → InCall (callNumber sig) a → Control s a s

theorem control_cases {s s' : State} {a : SessionCmd.Act} (h : control s a = some s') :
    Control s a s' := by
  unfold control at h
  split at h
  · split at h
    · cases h; exact .start ‹_›
    · cases h
  · cases h; exact .exit
  · split at h
    · cases h; exact .wait ‹_›
    · cases h
  iterate 5
    · split at h
      · cases h; exact .inWait ‹_› trivial
      · cases h
  · split at h
    · rename_i hc
      cases h
      rw [hc.2]
      exact .call hc.1
    · cases h
  iterate 4
    · split at h
      · split at h
        · cases h; exact .inCall ‹_› ‹_›
        · cases h
      · cases h

/-! ## The session -/

inductive Act
  | handler (ok : Bool)
  | watcher (seesDone : Bool)
  | resizer (seesStop : Bool)
  | cmd (a : SessionCmd.Act)
  | endCtx
  | others (n : Int)
  | window (win : Window)
  | closeWindows
deriving DecidableEq

def step (cfg : Config) (s : State) : Act → Option State
  | .handler ok => handlerStep cfg s ok
  | .watcher seesDone => watcherStep s seesDone
  | .resizer seesStop => resizerStep s seesStop
  | .cmd a =>
    match control s a, SessionCmd.step (!cfg.isPty) s.cmd a with
    | some s', some c => some { s' with cmd := c }
    | _, _ => none
  | .endCtx => some { s with ctxDone := true }
  | .others n => some { s with sessions := s.sessions + n }
  | .window win =>
    if s.winClosed = true then none else some { s with windows := s.windows ++ [win] }
  | .closeWindows => some { s with winClosed := true }

/-- The steps of `step`, by who takes them. -/
inductive Step (cfg : Config) (s : State) : Act → State → Prop
  | handler {ok s'} : HandlerStep cfg s s' → Step cfg s (.handler ok) s'
  | watcher {seesDone s'} : WatcherStep s s' → Step cfg s (.watcher seesDone) s'
  | resizer {seesStop s'} : ResizerStep s s' → Step cfg s (.resizer seesStop) s'
  | cmd {a s' c} : Control s a s' → (SessionCmd.system (!cfg.isPty)).step s.cmd a = some c →
      Step cfg s (.cmd a) { s' with cmd := c }
  | endCtx : Step cfg s .endCtx { s with ctxDone := true }
  | others {n} : Step cfg s (.others n) { s with sessions := s.sessions + n }
  | window {win} : Step cfg s (.window win) { s with windows := s.windows ++ [win] }
  | closeWindows : Step cfg s .closeWindows { s with winClosed := true }

theorem step_cases {cfg : Config} {s s' : State} {a : Act} (h : step cfg s a = some s') :
    Step cfg s a s' := by
  cases a with
  | handler ok => exact .handler (handler_cases h)
  | watcher seesDone => exact .watcher (watcher_cases h)
  | resizer seesStop => exact .resizer (resizer_cases h)
  | cmd a =>
    simp only [step] at h
    split at h
    · cases h; exact .cmd (control_cases ‹_›) ‹_›
    · cases h
  | endCtx => cases h; exact .endCtx
  | others n => cases h; exact .others
  | window win =>
    simp only [step] at h
    split at h
    · cases h
    · cases h; exact .window
  | closeWindows => cases h; exact .closeWindows

/-- Before `handleSession`, with other sessions in the counter. The context may
have ended already. -/
structure Initial (s : State) : Prop where
  handler : s.handler = .acquiring
  watcher : s.watcher = .unborn
  resizer : s.resizer = .unborn
  cmd : s.cmd = SessionCmd.initial
  slot : s.slot = 0
  admitted : s.admitted = false
  releases : s.releases = 0
  done : s.done = false
  stopResize : s.stopResize = false
  masterClosed : s.masterClosed = false
  resizes : s.resizes = []
  exits : s.exits = []
  attempts : s.attempts = []

/-- One run of `handleSession`. -/
def system (cfg : Config) : System State Act where
  init := Initial
  step := step cfg

end WorkspaceProxy.SshServer.Session
