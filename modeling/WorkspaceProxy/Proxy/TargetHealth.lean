import WorkspaceProxy.Conc.Mutex
import WorkspaceProxy.Conc.System
import WorkspaceProxy.Go.Strings

/-! # The target prober

`startTargetProber` makes a done channel under `proberMu` and starts a goroutine
that probes the target again and again; `stopTargetProber` sets a flag under the
same mutex, cancels the context of the goroutine and waits for the channel. Any
number of callers do so, one step at a time. The goroutine and the channel that
a call of `startTargetProber` makes have the number of the caller. -/
namespace WorkspaceProxy.Proxy.TargetHealth
open WorkspaceProxy.Conc WorkspaceProxy.Go

/-- `ctx.Err()` of a context that is done. -/
inductive CtxErr
  | canceled
  | deadlineExceeded
  deriving DecidableEq

/-- `targetHealth`. -/
structure Health where
  checked : Bool
  reachable : Bool
  time : Nat
  err : GoString
  deriving DecidableEq

/-- Where a call of `startTargetProber` or `stopTargetProber` is. From `flagged`
on a stop has what it read from `proberDone`; `stopLeaving` and `startLeaving` are
the early returns. -/
inductive Caller
  | idle
  | startLocking
  | startChecking
  | startLeaving
  | publishing
  | published
  | spawning
  | startReturned
  | stopLocking
  | stopChecking
  | stopLeaving
  | flagging
  | flagged (done : Option Nat)
  | cancelling (done : Option Nat)
  | propagating (done : Option Nat)
  | joining (done : Option Nat)
  | stopReturned
  deriving DecidableEq

/-- Where a prober goroutine is. From `checking` to `gauging` it has the error of
`probeTarget`. -/
inductive Prober
  | unborn
  | preparing
  | probing
  | checking (err : Option GoString)
  | recording (err : Option GoString)
  | gauging (err : Option GoString)
  | selecting
  | closing
  | finished
  deriving DecidableEq

/-- `proberCtx` is whether the context is cancelled, `closed` which done channels
are closed, and `probeCtx` has the error of each goroutine's current probe
context. -/
structure State where
  proberMu : Option Nat
  proberStopped : Bool
  proberDone : Option Nat
  proberCtx : Bool
  closed : Nat → Bool
  probeCtx : Nat → Option CtxErr
  targetHealth : Health
  targetReachable : Nat
  callers : Nat → Caller
  probers : Nat → Prober

namespace State

def goto (s : State) (i : Nat) (c : Caller) : State :=
  { s with callers := Function.update s.callers i c }

def run (s : State) (i : Nat) (p : Prober) : State :=
  { s with probers := Function.update s.probers i p }

end State

inductive CallerOp
  | startTargetProber
  | stopTargetProber
  | lock
  | check
  | write
  | unlock
  | spawn
  | proberCancel
  | propagate
  | join
  deriving DecidableEq

inductive ProberOp
  | withTimeout
  | probeTarget (err : Option GoString)
  | timeout
  | ctxErr
  | record (now : Nat)
  | setGauge
  | ctxDone
  | tick
  | close
  deriving DecidableEq

inductive Act
  | caller (i : Nat) (op : CallerOp)
  | prober (i : Nat) (op : ProberOp)
  deriving DecidableEq

def callerStep (s : State) (i : Nat) (op : CallerOp) : Option State :=
  match s.callers i, op with
  | .idle, .startTargetProber => some (s.goto i .startLocking)
  | .startLocking, .lock =>
    if s.proberMu = none then some { s.goto i .startChecking with proberMu := some i } else none
  | .startChecking, .check =>
    if s.proberStopped = true ∨ s.proberDone ≠ none then some (s.goto i .startLeaving)
    else some (s.goto i .publishing)
  | .startLeaving, .unlock => some { s.goto i .startReturned with proberMu := none }
  | .publishing, .write => some { s.goto i .published with proberDone := some i }
  | .published, .unlock => some { s.goto i .spawning with proberMu := none }
  | .spawning, .spawn => some ((s.goto i .startReturned).run i .preparing)
  | .idle, .stopTargetProber => some (s.goto i .stopLocking)
  | .stopLocking, .lock =>
    if s.proberMu = none then some { s.goto i .stopChecking with proberMu := some i } else none
  | .stopChecking, .check =>
    if s.proberStopped = true then some (s.goto i .stopLeaving) else some (s.goto i .flagging)
  | .stopLeaving, .unlock => some { s.goto i .stopReturned with proberMu := none }
  | .flagging, .write => some { s.goto i (.flagged s.proberDone) with proberStopped := true }
  | .flagged done, .unlock => some { s.goto i (.cancelling done) with proberMu := none }
  -- the context is cancelled before those derived from it
  | .cancelling done, .proberCancel => some { s.goto i (.propagating done) with proberCtx := true }
  | .propagating done, .propagate =>
    some { s.goto i (.joining done) with probeCtx := fun j => (s.probeCtx j).or (some .canceled) }
  | .joining done, .join =>
    if ∀ c ∈ done, s.closed c = true then some (s.goto i .stopReturned) else none
  | _, _ => none

def proberStep (s : State) (i : Nat) (op : ProberOp) : Option State :=
  match s.probers i, op with
  | .preparing, .withTimeout =>
    some { s.run i .probing with
      probeCtx := Function.update s.probeCtx i (if s.proberCtx then some .canceled else none) }
  | .probing, .probeTarget err => some (s.run i (.checking err))
  -- the two seconds of the probe are over
  | .probing, .timeout | .checking _, .timeout =>
    some { s with
      probeCtx := Function.update s.probeCtx i ((s.probeCtx i).or (some .deadlineExceeded)) }
  | .checking err, .ctxErr =>
    if s.probeCtx i = some .canceled then some (s.run i .selecting)
    else some (s.run i (.recording err))
  | .recording err, .record now =>
    some { s.run i (.gauging err) with targetHealth := ⟨true, err.isNone, now, err.getD []⟩ }
  | .gauging err, .setGauge =>
    some { s.run i .selecting with targetReachable := if err.isSome then 0 else 1 }
  | .selecting, .ctxDone => if s.proberCtx then some (s.run i .closing) else none
  | .selecting, .tick => some (s.run i .preparing)
  | .closing, .close =>
    some { s.run i .finished with closed := Function.update s.closed i true }
  | _, _ => none

def step (s : State) : Act → Option State
  | .caller i op => callerStep s i op
  | .prober i op => proberStep s i op

def initial : State where
  proberMu := none
  proberStopped := false
  proberDone := none
  proberCtx := false
  closed _ := false
  probeCtx _ := none
  targetHealth := ⟨false, false, 0, []⟩
  targetReachable := 0
  callers _ := .idle
  probers _ := .unborn

def system : System State Act where
  init := (· = initial)
  step := step

/-! ## The steps -/

inductive CallerStep (s : State) (i : Nat) : CallerOp → State → Prop
  | startTargetProber (h : s.callers i = .idle) :
      CallerStep s i .startTargetProber (s.goto i .startLocking)
  | startLock (h : s.callers i = .startLocking) (hmu : s.proberMu = none) :
      CallerStep s i .lock { s.goto i .startChecking with proberMu := some i }
  | startNoOp (h : s.callers i = .startChecking)
      (hno : s.proberStopped = true ∨ s.proberDone ≠ none) :
      CallerStep s i .check (s.goto i .startLeaving)
  | startCheck (h : s.callers i = .startChecking) (hstop : s.proberStopped = false)
      (hdone : s.proberDone = none) : CallerStep s i .check (s.goto i .publishing)
  | startLeave (h : s.callers i = .startLeaving) :
      CallerStep s i .unlock { s.goto i .startReturned with proberMu := none }
  | publish (h : s.callers i = .publishing) :
      CallerStep s i .write { s.goto i .published with proberDone := some i }
  | startUnlock (h : s.callers i = .published) :
      CallerStep s i .unlock { s.goto i .spawning with proberMu := none }
  | spawn (h : s.callers i = .spawning) :
      CallerStep s i .spawn ((s.goto i .startReturned).run i .preparing)
  | stopTargetProber (h : s.callers i = .idle) :
      CallerStep s i .stopTargetProber (s.goto i .stopLocking)
  | stopLock (h : s.callers i = .stopLocking) (hmu : s.proberMu = none) :
      CallerStep s i .lock { s.goto i .stopChecking with proberMu := some i }
  | stopNoOp (h : s.callers i = .stopChecking) (hstop : s.proberStopped = true) :
      CallerStep s i .check (s.goto i .stopLeaving)
  | stopCheck (h : s.callers i = .stopChecking) (hstop : s.proberStopped = false) :
      CallerStep s i .check (s.goto i .flagging)
  | stopLeave (h : s.callers i = .stopLeaving) :
      CallerStep s i .unlock { s.goto i .stopReturned with proberMu := none }
  | flag (h : s.callers i = .flagging) :
      CallerStep s i .write { s.goto i (.flagged s.proberDone) with proberStopped := true }
  | stopUnlock {done : Option Nat} (h : s.callers i = .flagged done) :
      CallerStep s i .unlock { s.goto i (.cancelling done) with proberMu := none }
  | proberCancel {done : Option Nat} (h : s.callers i = .cancelling done) :
      CallerStep s i .proberCancel { s.goto i (.propagating done) with proberCtx := true }
  | propagate {done : Option Nat} (h : s.callers i = .propagating done) :
      CallerStep s i .propagate { s.goto i (.joining done) with
        probeCtx := fun j => (s.probeCtx j).or (some .canceled) }
  | join {done : Option Nat} (h : s.callers i = .joining done)
      (hdone : ∀ c ∈ done, s.closed c = true) : CallerStep s i .join (s.goto i .stopReturned)

theorem caller_cases {s s' : State} {i : Nat} {op : CallerOp} (h : callerStep s i op = some s') :
    CallerStep s i op s' := by
  unfold callerStep at h
  split at h
  case h_2 => split at h <;> cases h; exact .startLock ‹_› ‹_›
  case h_3 =>
    split at h <;> cases h
    · exact .startNoOp ‹_› ‹_›
    · rename_i hno
      simp only [not_or, Bool.not_eq_true, not_not] at hno
      exact .startCheck ‹_› hno.1 hno.2
  case h_9 => split at h <;> cases h; exact .stopLock ‹_› ‹_›
  case h_10 =>
    split at h <;> cases h
    · exact .stopNoOp ‹_› ‹_›
    · exact .stopCheck ‹_› (Bool.eq_false_iff.mpr ‹_›)
  case h_16 => split at h <;> cases h; exact .join ‹_› ‹_›
  case h_17 => cases h
  all_goals
    cases h
    constructor
    assumption

inductive ProberStep (s : State) (i : Nat) : ProberOp → State → Prop
  | withTimeout (h : s.probers i = .preparing) :
      ProberStep s i .withTimeout { s.run i .probing with
        probeCtx := Function.update s.probeCtx i (if s.proberCtx then some .canceled else none) }
  | probeTarget {err : Option GoString} (h : s.probers i = .probing) :
      ProberStep s i (.probeTarget err) (s.run i (.checking err))
  | timeout (h : s.probers i = .probing ∨ ∃ err, s.probers i = .checking err) :
      ProberStep s i .timeout { s with
        probeCtx := Function.update s.probeCtx i ((s.probeCtx i).or (some .deadlineExceeded)) }
  | canceled {err : Option GoString} (h : s.probers i = .checking err)
      (hctx : s.probeCtx i = some .canceled) : ProberStep s i .ctxErr (s.run i .selecting)
  | notCanceled {err : Option GoString} (h : s.probers i = .checking err)
      (hctx : s.probeCtx i ≠ some .canceled) : ProberStep s i .ctxErr (s.run i (.recording err))
  | record {err : Option GoString} {now : Nat} (h : s.probers i = .recording err) :
      ProberStep s i (.record now) { s.run i (.gauging err) with
        targetHealth := ⟨true, err.isNone, now, err.getD []⟩ }
  | setGauge {err : Option GoString} (h : s.probers i = .gauging err) :
      ProberStep s i .setGauge { s.run i .selecting with
        targetReachable := if err.isSome then 0 else 1 }
  | ctxDone (h : s.probers i = .selecting) (hctx : s.proberCtx = true) :
      ProberStep s i .ctxDone (s.run i .closing)
  | tick (h : s.probers i = .selecting) : ProberStep s i .tick (s.run i .preparing)
  | close (h : s.probers i = .closing) :
      ProberStep s i .close { s.run i .finished with closed := Function.update s.closed i true }

theorem prober_cases {s s' : State} {i : Nat} {op : ProberOp} (h : proberStep s i op = some s') :
    ProberStep s i op s' := by
  unfold proberStep at h
  split at h
  case h_3 => cases h; exact .timeout (.inl ‹_›)
  case h_4 => cases h; exact .timeout (.inr ⟨_, ‹_›⟩)
  case h_5 =>
    split at h <;> cases h
    · exact .canceled ‹_› ‹_›
    · exact .notCanceled ‹_› ‹_›
  case h_8 => split at h <;> cases h; exact .ctxDone ‹_› ‹_›
  case h_11 => cases h
  all_goals
    cases h
    constructor
    assumption

end WorkspaceProxy.Proxy.TargetHealth
