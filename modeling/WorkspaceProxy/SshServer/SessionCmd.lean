import WorkspaceProxy.Conc.System
import Mathlib.Tactic.Simps.Basic

/-! # The process of a session

`sessionCmd` owns the process of a session. `wait` reaps it and then sets the
flag `reaped` under the mutex; `signalGroup` reads the flag under the same
mutex and then signals the process group. The kernel's reap happens inside
`cmd.Wait`, before the mutex is taken, so the mutex orders the signals against
the flag and not against the reap. The last section says exactly which
interleavings keep every signal before the reap. -/
namespace WorkspaceProxy.SshServer.SessionCmd
open WorkspaceProxy.Conc

/-! ## Exit statuses -/

/-- The signals of the package. -/
inductive Signal
  | hup
  | kill
deriving DecidableEq

/-- What `syscall.WaitStatus` says of a process that ended; `other` is a status
that is neither an exit nor a signal. -/
inductive WaitStatus
  | exited (code : UInt8)
  | signaled (signal : Nat)
  | other
deriving DecidableEq

/-- An error of `exec.Cmd.Wait`: an `exec.ExitError` with its status, or an
error of the goroutines that copy the output. -/
inductive WaitError
  | exitError (status : WaitStatus)
  | copyError
deriving DecidableEq

/-- The result of `exec.Cmd.Wait`: a failure of the process comes first, and
the outcome of the output copies counts only after a success. -/
def waitResult (status : WaitStatus) (copyFailed : Bool) : Option WaitError :=
  if status = .exited 0 then if copyFailed then some .copyError else none
  else some (.exitError status)

def exitCodeGeneralError : Int := 1
def exitCodeCommandNotExecutable : Int := 127
def signalExitCodeBase : Int := 128

/-- `exec.ExitError.ExitCode`: -1 for a process that did not exit by itself. -/
def WaitStatus.exitCode : WaitStatus → Int
  | .exited code => code.toNat
  | _ => -1

def exitCode : Option WaitError → Int
  | none => 0
  | some .copyError => exitCodeGeneralError
  | some (.exitError status) =>
    if status.exitCode ≥ 0 then status.exitCode
    else match status with
      | .signaled signal => signalExitCodeBase + signal
      | _ => exitCodeGeneralError

/-! ## Calls and steps -/

/-- The process; `absent` is a `cmd.Process` that is still nil. -/
inductive Child
  | absent
  | running
  | zombie (status : WaitStatus)
  | reaped (status : WaitStatus)
deriving DecidableEq

/-- Where the call of `wait` is. `waiting` and `copying` are inside `cmd.Wait`,
before the kernel's reap and after it. -/
inductive Waiter
  | idle
  | waiting
  | copying (status : WaitStatus)
  | locking (result : Option WaitError)
  | marking (result : Option WaitError)
  | unlocking (result : Option WaitError)
  | returned (result : Option WaitError)
deriving DecidableEq

/-- Where a call of `signalGroup` is. -/
inductive Call
  | idle
  | locking (sig : Signal)
  | checking (sig : Signal)
  | killing (sig : Signal)
  | unlocking (sig : Signal)
  | returned (sig : Signal)
deriving DecidableEq

/-- Who holds the mutex. -/
inductive Holder
  | waiter
  | call (i : Nat)
deriving DecidableEq

/-- A `kill(-pid, sig)` that was issued, by which call, and whether the kernel
had reaped the child at that point. -/
structure Kill where
  call : Nat
  sig : Signal
  afterReap : Bool
deriving DecidableEq

structure State where
  child : Child
  mu : Option Holder
  reaped : Bool
  waiter : Waiter
  calls : Nat → Call
  kills : List Kill

def Child.isReaped : Child → Bool
  | .reaped _ => true
  | _ => false

namespace State

@[simps]
def setChild (s : State) (c : Child) : State := { s with child := c }

@[simps]
def setWaiter (s : State) (w : Waiter) : State := { s with waiter := w }

@[simps]
def setCall (s : State) (i : Nat) (c : Call) : State :=
  { s with calls := Function.update s.calls i c }

/-- Take or release the mutex. -/
@[simps]
def setMu (s : State) (h : Option Holder) : State := { s with mu := h }

/-- The kernel reaps the child inside `cmd.Wait`. -/
@[simps]
def reap (s : State) (status : WaitStatus) : State :=
  { s with child := .reaped status, waiter := .copying status }

/-- `wait` sets the flag. -/
@[simps]
def mark (s : State) (result : Option WaitError) : State :=
  { s with reaped := true, waiter := .unlocking result }

/-- `signalGroup` issues its signal. -/
@[simps]
def kill (s : State) (i : Nat) (sig : Signal) : State :=
  { s with
    calls := Function.update s.calls i (.unlocking sig)
    kills := s.kills ++ [⟨i, sig, s.child.isReaped⟩] }

end State

inductive Act
  | start
  | exit (status : WaitStatus)
  | wait
  | reap
  | waited (copyFailed : Bool)
  | waitLock
  | mark
  | waitUnlock
  | call (i : Nat) (sig : Signal)
  | lock (i : Nat)
  | check (i : Nat)
  | kill (i : Nat)
  | unlock (i : Nat)
deriving DecidableEq

/-- One step of the process, of `wait` or of a call of `signalGroup`. `copies`
says whether `cmd.Wait` has output copies to wait for, which may then fail. -/
def step (copies : Bool) (s : State) : Act → Option State
  | .start => if s.child = .absent then some (s.setChild .running) else none
  | .exit status => if s.child = .running then some (s.setChild (.zombie status)) else none
  | .wait =>
    if s.waiter = .idle ∧ s.child ≠ .absent then some (s.setWaiter .waiting) else none
  | .reap =>
    match s.waiter, s.child with
    | .waiting, .zombie status => some (s.reap status)
    | _, _ => none
  | .waited copyFailed =>
    match s.waiter with
    | .copying status =>
      if copyFailed = true → copies = true then
        some (s.setWaiter (.locking (waitResult status copyFailed)))
      else none
    | _ => none
  | .waitLock =>
    match s.waiter, s.mu with
    | .locking r, none => some ((s.setMu (some .waiter)).setWaiter (.marking r))
    | _, _ => none
  | .mark =>
    match s.waiter with
    | .marking r => some (s.mark r)
    | _ => none
  | .waitUnlock =>
    match s.waiter with
    | .unlocking r => some ((s.setMu none).setWaiter (.returned r))
    | _ => none
  | .call i sig => if s.calls i = .idle then some (s.setCall i (.locking sig)) else none
  | .lock i =>
    match s.calls i, s.mu with
    | .locking sig, none => some ((s.setMu (some (.call i))).setCall i (.checking sig))
    | _, _ => none
  | .check i =>
    match s.calls i with
    | .checking sig =>
      if s.reaped = true ∨ s.child = .absent then some (s.setCall i (.unlocking sig))
      else some (s.setCall i (.killing sig))
    | _ => none
  | .kill i =>
    match s.calls i with
    | .killing sig => some (s.kill i sig)
    | _ => none
  | .unlock i =>
    match s.calls i with
    | .unlocking sig => some ((s.setMu none).setCall i (.returned sig))
    | _ => none

def initial : State where
  child := .absent
  mu := none
  reaped := false
  waiter := .idle
  calls := fun _ => .idle
  kills := []

/-- `wait` and any number of calls of `signalGroup`, in any order. -/
def system (copies : Bool) : System State Act where
  init := (· = initial)
  step := step copies

/-- The steps of `step`, one constructor for each. -/
inductive Step (copies : Bool) (s : State) : Act → State → Prop
  | start : s.child = .absent → Step copies s .start (s.setChild .running)
  | exit {status} : s.child = .running →
      Step copies s (.exit status) (s.setChild (.zombie status))
  | wait : s.waiter = .idle → s.child ≠ .absent → Step copies s .wait (s.setWaiter .waiting)
  | reap {status} : s.waiter = .waiting → s.child = .zombie status →
      Step copies s .reap (s.reap status)
  | waited {status copyFailed} : s.waiter = .copying status →
      (copyFailed = true → copies = true) → Step copies s (.waited copyFailed)
        (s.setWaiter (.locking (waitResult status copyFailed)))
  | waitLock {r} : s.waiter = .locking r → s.mu = none →
      Step copies s .waitLock ((s.setMu (some .waiter)).setWaiter (.marking r))
  | mark {r} : s.waiter = .marking r → Step copies s .mark (s.mark r)
  | waitUnlock {r} : s.waiter = .unlocking r →
      Step copies s .waitUnlock ((s.setMu none).setWaiter (.returned r))
  | call {i sig} : s.calls i = .idle → Step copies s (.call i sig) (s.setCall i (.locking sig))
  | lock {i sig} : s.calls i = .locking sig → s.mu = none →
      Step copies s (.lock i) ((s.setMu (some (.call i))).setCall i (.checking sig))
  | skip {i sig} : s.calls i = .checking sig → (s.reaped = true ∨ s.child = .absent) →
      Step copies s (.check i) (s.setCall i (.unlocking sig))
  | pass {i sig} : s.calls i = .checking sig → s.reaped = false → s.child ≠ .absent →
      Step copies s (.check i) (s.setCall i (.killing sig))
  | kill {i sig} : s.calls i = .killing sig → Step copies s (.kill i) (s.kill i sig)
  | unlock {i sig} : s.calls i = .unlocking sig →
      Step copies s (.unlock i) ((s.setMu none).setCall i (.returned sig))

theorem step_cases {copies : Bool} {s s' : State} {a : Act} (h : step copies s a = some s') :
    Step copies s a s' := by
  cases a with
  | start | exit | wait | call =>
    simp only [step] at h
    split at h
    · rename_i hc
      cases h
      first
        | exact .start hc
        | exact .exit hc
        | exact .wait hc.1 hc.2
        | exact .call hc
    · cases h
  | reap | waitLock | mark | waitUnlock | lock | kill | unlock =>
    simp only [step] at h
    split at h
    all_goals cases h
    all_goals first
      | exact .reap ‹_› ‹_›
      | exact .waitLock ‹_› ‹_›
      | exact .mark ‹_›
      | exact .waitUnlock ‹_›
      | exact .lock ‹_› ‹_›
      | exact .kill ‹_›
      | exact .unlock ‹_›
  | waited copyFailed =>
    simp only [step] at h
    split at h
    · rename_i hw
      split at h
      · cases h; exact .waited hw ‹_›
      · cases h
    · cases h
  | check i =>
    simp only [step] at h
    split at h
    · rename_i hc
      split at h
      · cases h; exact .skip hc ‹_›
      · rename_i hn
        cases h
        rw [not_or] at hn
        exact .pass hc (Bool.eq_false_iff.mpr hn.1) hn.2
    · cases h

/-! ## The invariant of the mutex and the flag -/

/-- `wait` is inside its critical section. -/
def Waiter.Holds : Waiter → Prop
  | .marking _ | .unlocking _ => True
  | _ => False

/-- The call is inside its critical section. -/
def Call.Holds : Call → Prop
  | .checking _ | .killing _ | .unlocking _ => True
  | _ => False

/-- What the state says where `wait` is. -/
def WaiterOk (copies : Bool) (s : State) : Waiter → Prop
  | .idle => s.reaped = false ∧ s.child.isReaped = false
  | .waiting => s.reaped = false ∧ s.child.isReaped = false ∧ s.child ≠ .absent
  | .copying status => s.reaped = false ∧ s.child = .reaped status
  | .locking r | .marking r => s.reaped = false ∧
      ∃ status copyFailed, s.child = .reaped status ∧ (copyFailed = true → copies = true) ∧
        r = waitResult status copyFailed
  | .unlocking r | .returned r => s.reaped = true ∧
      ∃ status copyFailed, s.child = .reaped status ∧ (copyFailed = true → copies = true) ∧
        r = waitResult status copyFailed

/-- The call may issue its signal: the flag is not set. -/
def CallOk (s : State) : Call → Prop
  | .killing _ => s.reaped = false ∧ s.child ≠ .absent
  | _ => True

structure Inv (copies : Bool) (s : State) : Prop where
  waiter : WaiterOk copies s s.waiter
  call : ∀ i, CallOk s (s.calls i)
  waiterHolds : s.waiter.Holds ↔ s.mu = some .waiter
  callHolds : ∀ i, (s.calls i).Holds ↔ s.mu = some (.call i)

variable {copies : Bool} {s s' : State}

theorem Inv.at_waiter {w : Waiter} (h : Inv copies s) (hw : s.waiter = w) :
    WaiterOk copies s w := hw ▸ h.waiter

theorem Inv.at_call {i : Nat} {c : Call} (h : Inv copies s) (hc : s.calls i = c) : CallOk s c :=
  hc ▸ h.call i

/-- A step that neither moves a call nor touches the mutex. -/
theorem Inv.frame (h : Inv copies s) (hcalls : s'.calls = s.calls) (hmu : s'.mu = s.mu)
    (hw : WaiterOk copies s' s'.waiter) (hh : s'.waiter.Holds ↔ s.waiter.Holds)
    (hk : ∀ i sig, s.calls i = .killing sig → s'.reaped = false ∧ s'.child ≠ .absent) :
    Inv copies s' where
  waiter := hw
  call i := by
    rw [hcalls]
    cases hc : s.calls i with
    | killing sig => exact hk i sig hc
    | _ => trivial
  waiterHolds := by rw [hh, hmu]; exact h.waiterHolds
  callHolds i := by rw [hcalls, hmu]; exact h.callHolds i

/-- `wait` takes or releases the mutex. -/
theorem Inv.moveWaiter (h : Inv copies s) {w : Waiter} {m : Option Holder}
    (hmu : s.mu = none ∨ s.mu = some .waiter) (hm : m = none ∨ m = some .waiter)
    (hw : WaiterOk copies s w) (hh : w.Holds ↔ m = some .waiter) :
    Inv copies ((s.setMu m).setWaiter w) where
  waiter := by cases w <;> exact hw
  call i := by
    have := h.call i
    simp only [State.setWaiter_calls, State.setMu_calls]
    cases hc : s.calls i <;> simp only [hc] at this <;> exact this
  waiterHolds := hh
  callHolds i := by
    have hi := h.callHolds i
    simp only [State.setWaiter_calls, State.setMu_calls, State.setWaiter_mu, State.setMu_mu, hi]
    rcases hmu with hmu | hmu <;> rcases hm with hm | hm <;> rw [hmu, hm] <;> simp

/-- A call moves on, and takes or releases the mutex where it does. -/
theorem Inv.moveCall (h : Inv copies s) {i : Nat} {c : Call} {m : Option Holder}
    (hmu : m = s.mu ∨ (s.mu = none ∨ s.mu = some (.call i)) ∧ (m = none ∨ m = some (.call i)))
    (hok : CallOk s c) (hh : c.Holds ↔ m = some (.call i)) :
    Inv copies ((s.setMu m).setCall i c) := by
  have hother : ∀ holder, holder ≠ .call i → (s.mu = some holder ↔ m = some holder) := by
    intro holder hne
    have hne' : some (Holder.call i) ≠ some holder := fun he => hne (Option.some.inj he).symm
    rcases hmu with rfl | ⟨hs | hs, hm | hm⟩
    · exact Iff.rfl
    all_goals rw [hs, hm]
    all_goals simp [hne']
  refine ⟨?_, fun j => ?_, ?_, fun j => ?_⟩
  · have := h.waiter
    simp only [State.setCall_waiter, State.setMu_waiter]
    cases hw : s.waiter <;> simp only [hw] at this <;> exact this
  · rw [State.setCall_calls]
    by_cases hj : j = i
    · subst hj
      rw [Function.update_self]
      cases c <;> exact hok
    · rw [Function.update_of_ne hj]
      have := h.call j
      simp only [State.setMu_calls]
      cases hc : s.calls j <;> simp only [hc] at this <;> exact this
  · exact h.waiterHolds.trans (hother _ nofun)
  · rw [State.setCall_calls]
    by_cases hj : j = i
    · subst hj
      rw [Function.update_self]
      exact hh
    · rw [Function.update_of_ne hj]
      exact (h.callHolds j).trans (hother _ fun he => hj (Holder.call.inj he))

theorem Inv.mu_of_call {i : Nat} {c : Call} (h : Inv copies s) (hc : s.calls i = c)
    (hh : c.Holds) : s.mu = some (.call i) := (h.callHolds i).mp (hc ▸ hh)

/-- While `wait` is inside its critical section, no call is about to signal. -/
theorem Inv.not_killing (h : Inv copies s) (hw : s.waiter.Holds) {i : Nat} {sig : Signal} :
    s.calls i ≠ .killing sig := by
  intro hc
  have hmu := h.mu_of_call hc trivial
  rw [h.waiterHolds.mp hw] at hmu
  cases hmu

theorem Inv.step {a : Act} (h : Inv copies s) (hst : Step copies s a s') : Inv copies s' := by
  cases hst with
  | start hc =>
    refine h.frame rfl rfl ?_ Iff.rfl fun i sig hk => ?_
    · have hw := h.waiter
      rw [State.setChild_waiter]
      cases hw' : s.waiter <;> simp_all [WaiterOk, Child.isReaped]
    · exact absurd hc (h.at_call hk).2
  | exit hc =>
    refine h.frame rfl rfl ?_ Iff.rfl fun i sig hk => ⟨(h.at_call hk).1, nofun⟩
    have hw := h.waiter
    rw [State.setChild_waiter]
    cases hw' : s.waiter <;> simp_all [WaiterOk, Child.isReaped]
  | wait hw hc =>
    obtain ⟨hr, hn⟩ := h.at_waiter hw
    exact h.frame rfl rfl ⟨hr, hn, hc⟩ (by rw [hw]; exact Iff.rfl) fun i sig hk => h.at_call hk
  | reap hw hc =>
    obtain ⟨hr, -, -⟩ := h.at_waiter hw
    exact h.frame rfl rfl ⟨hr, rfl⟩ (by rw [hw]; exact Iff.rfl) fun i sig hk => ⟨hr, nofun⟩
  | waited hw hcopy =>
    obtain ⟨hr, hchild⟩ := h.at_waiter hw
    exact h.frame rfl rfl ⟨hr, _, _, hchild, hcopy, rfl⟩ (by rw [hw]; exact Iff.rfl)
      fun i sig hk => h.at_call hk
  | waitLock hw hmu =>
    have hok := h.at_waiter hw
    exact h.moveWaiter (.inl hmu) (.inr rfl) hok (by simp [Waiter.Holds])
  | mark hw =>
    obtain ⟨-, hres⟩ := h.at_waiter hw
    exact h.frame rfl rfl ⟨rfl, hres⟩ (by rw [hw]; exact Iff.rfl)
      fun i sig hk => absurd hk (h.not_killing (by rw [hw]; trivial))
  | waitUnlock hw =>
    have hok := h.at_waiter hw
    exact h.moveWaiter (.inr (h.waiterHolds.mp (by rw [hw]; trivial))) (.inl rfl) hok
      (by simp [Waiter.Holds])
  | @call i sig hc =>
    have hn := h.callHolds i
    rw [hc] at hn
    exact h.moveCall (.inl rfl) trivial hn
  | lock hc hmu =>
    exact h.moveCall (.inr ⟨.inl hmu, .inr rfl⟩) trivial (by simp [Call.Holds])
  | skip hc hr =>
    exact h.moveCall (.inl rfl) trivial (iff_of_true trivial (h.mu_of_call hc trivial))
  | pass hc hr hn =>
    exact h.moveCall (.inl rfl) ⟨hr, hn⟩ (iff_of_true trivial (h.mu_of_call hc trivial))
  | @kill i sig hc =>
    have := h.moveCall (c := .unlocking sig) (.inl rfl) trivial
      (iff_of_true trivial (h.mu_of_call hc trivial))
    exact ⟨this.waiter, this.call, this.waiterHolds, this.callHolds⟩
  | unlock hc =>
    exact h.moveCall (.inr ⟨.inr (h.mu_of_call hc trivial), .inl rfl⟩) trivial
      (by simp [Call.Holds])

theorem inv_initial : Inv copies initial where
  waiter := ⟨rfl, rfl⟩
  call _ := trivial
  waiterHolds := by simp [initial, Waiter.Holds]
  callHolds _ := by simp [initial, Call.Holds]

theorem inv_stable (copies : Bool) : (system copies).Stable (Inv copies) where
  init := by rintro s rfl; exact inv_initial
  step _ _ _ h hst := h.step (step_cases hst)

/-! ## Signals and the reap -/

/-- No `kill` was issued after the kernel had reaped the child. -/
def NoSignalAfterReap (s : State) : Prop := ∀ k ∈ s.kills, k.afterReap = false

/-- The call is inside its critical section, and its signal is still to come. -/
def Call.beforeKill : Call → Bool
  | .checking _ | .killing _ => true
  | _ => false

/-- The reap does not come while a call holds the mutex with its signal to
come, and no call takes the mutex between the reap and the flag. -/
def Serialised (s : State) : Act → Prop
  | .reap => match s.mu with
    | some (.call i) => (s.calls i).beforeKill = false
    | _ => True
  | .lock _ => s.child.isReaped = true → s.reaped = true
  | _ => True

instance : ∀ s a, Decidable (Serialised s a)
  | s, .reap => match h : s.mu with
    | some (.call i) => decidable_of_iff ((s.calls i).beforeKill = false) (by simp [Serialised, h])
    | some .waiter | none => .isTrue (by simp [Serialised, h])
  | s, .lock _ => inferInstanceAs (Decidable (s.child.isReaped = true → s.reaped = true))
  | _, .start | _, .exit _ | _, .wait | _, .waited _ | _, .waitLock | _, .mark | _, .waitUnlock
  | _, .call _ _ | _, .check _ | _, .kill _ | _, .unlock _ => .isTrue trivial

theorem Call.holds_of_beforeKill {c : Call} (h : c.beforeKill = true) : c.Holds := by
  cases c <;> trivial

/-- A call that holds the mutex over a flag that is not set goes on to its
signal: nobody else can set the flag. -/
theorem Inv.beforeKill_step {i : Nat} {a : Act} (h : Inv copies s) (hst : Step copies s a s')
    (hb : (s.calls i).beforeKill = true) (hr : s.reaped = false) (hc : s.child ≠ .absent) :
    a = .kill i ∨ ((s'.calls i).beforeKill = true ∧ s'.reaped = false) := by
  have hmu := (h.callHolds i).mp (Call.holds_of_beforeKill hb)
  have hother : ∀ {j : Nat} {k : Call}, j ≠ i →
      (Function.update s.calls j k i).beforeKill = true := by
    intro j k hj
    rw [Function.update_of_ne hj.symm]
    exact hb
  cases hst with
  | start | exit | wait | reap | waited | waitLock | waitUnlock => exact .inr ⟨hb, hr⟩
  | mark hw =>
    rw [h.waiterHolds.mp (by rw [hw]; trivial)] at hmu
    cases hmu
  | @call j sig hj | @lock j sig hj | @unlock j sig hj =>
    refine .inr ⟨hother ?_, hr⟩
    rintro rfl
    rw [hj] at hb
    cases hb
  | @skip j sig hj hs =>
    refine .inr ⟨hother ?_, hr⟩
    rintro rfl
    rw [hr] at hs
    exact hs.elim nofun hc
  | @pass j sig hj hn =>
    by_cases he : j = i
    · subst he
      exact .inr ⟨by simp [Call.beforeKill], hr⟩
    · exact .inr ⟨hother he, hr⟩
  | @kill j sig hj =>
    by_cases he : j = i
    · exact .inl (by rw [he])
    · exact .inr ⟨hother he, hr⟩

/-- Where the flag is not set, no call is inside its critical section with its
signal to come and the child reaped. -/
def Ordered (s : State) : Prop :=
  ∀ i, (s.calls i).beforeKill = true → s.child.isReaped = true → s.reaped = true

theorem Ordered.setCall {i : Nat} {c : Call} {m : Option Holder} (h : Ordered s)
    (hc : c.beforeKill = true → s.child.isReaped = true → s.reaped = true) :
    Ordered ((s.setMu m).setCall i c) := by
  intro j hj
  rw [State.setCall_calls] at hj
  by_cases hji : j = i
  · subst hji
    rw [Function.update_self] at hj
    exact hc hj
  · rw [Function.update_of_ne hji] at hj
    exact h j hj

theorem Ordered.step {a : Act} (hi : Inv copies s) (h : Ordered s) (hc : Serialised s a)
    (hst : Step copies s a s') : Ordered s' := by
  cases hst with
  | start hch => exact fun i hb hr => by cases hr
  | exit hch => exact fun i hb hr => by cases hr
  | wait hw hch => exact h
  | reap hw hch =>
    intro i hb
    have hmu := (hi.callHolds i).mp (Call.holds_of_beforeKill hb)
    simp only [Serialised, hmu] at hc
    rw [State.reap_calls, hc] at hb
    cases hb
  | waited hw hcopy => exact h
  | waitLock hw hmu => exact h
  | mark hw => exact fun _ _ _ => rfl
  | waitUnlock hw => exact h
  | call hcall => exact h.setCall nofun
  | lock hcall hmu => exact h.setCall fun _ hr => hc hr
  | skip hcall hr => exact h.setCall nofun
  | @pass i sig hcall hr hn => exact h.setCall fun _ => h i (by rw [hcall]; rfl)
  | @kill i sig hcall =>
    exact Ordered.setCall (s := s) (i := i) (c := .unlocking sig) (m := s.mu) h nofun
  | unlock hcall => exact h.setCall nofun

theorem kills_cases {a : Act} (hst : Step copies s a s') : s'.kills = s.kills ∨
    ∃ i sig, a = .kill i ∧ s.calls i = .killing sig ∧
      s'.kills = s.kills ++ [⟨i, sig, s.child.isReaped⟩] := by
  cases hst with
  | @kill i sig hc => exact .inr ⟨i, sig, rfl, hc, rfl⟩
  | _ => exact .inl rfl

/-- A call that passed its check issues its signal before the reap. -/
theorem Ordered.not_reaped {i : Nat} {sig : Signal} (hi : Inv copies s) (h : Ordered s)
    (hc : s.calls i = .killing sig) : s.child.isReaped = false := by
  by_contra hr
  rw [Bool.not_eq_false] at hr
  have hf := h i (by rw [hc]; rfl) hr
  rw [(hi.at_call hc).1] at hf
  cases hf

theorem NoSignalAfterReap.step {a : Act} (hi : Inv copies s) (ho : Ordered s)
    (h : NoSignalAfterReap s) (hst : Step copies s a s') : NoSignalAfterReap s' := by
  intro k hk
  rcases kills_cases hst with he | ⟨i, sig, -, hc, he⟩
  · exact h k (he ▸ hk)
  · rw [he, List.mem_append, List.mem_singleton] at hk
    rcases hk with hk | rfl
    · exact h k hk
    · exact ho.not_reaped hi hc

/-- A call that holds the mutex over a reaped child, with the flag not yet set,
goes on to signal. -/
theorem signals_after_reap {i : Nat} (hb : (s.calls i).beforeKill = true)
    (hr : s.child.isReaped = true) (hf : s.reaped = false) :
    ∃ as s', (system copies).exec s as = some s' ∧ ¬ NoSignalAfterReap s' := by
  have hch : s.child ≠ .absent := by intro he; rw [he] at hr; cases hr
  have hkill : ∀ (v : State) (sig : Signal), v.calls i = .killing sig → v.child = s.child →
      ∃ s', (system copies).exec v [.kill i] = some s' ∧ ¬ NoSignalAfterReap s' := by
    intro v sig hv hc
    refine ⟨v.kill i sig, by simp [System.exec, system, SessionCmd.step, hv], fun h => ?_⟩
    have := h ⟨i, sig, v.child.isReaped⟩ (by simp)
    rw [hc, hr] at this
    cases this
  cases hc : s.calls i with
  | checking sig =>
    obtain ⟨s', he, hn⟩ := hkill (s.setCall i (.killing sig)) sig (by simp) rfl
    refine ⟨[.check i, .kill i], s', ?_, hn⟩
    rw [← he]
    simp [System.exec, system, SessionCmd.step, hc, hf, hch]
  | killing sig =>
    obtain ⟨s', he, hn⟩ := hkill s sig hc rfl
    exact ⟨_, s', he, hn⟩
  | _ => rw [hc] at hb; cases hb

/-- The child exits and is reaped; the client goes away while `cmd.Wait` still
waits for the output, and the hang-up goes to a process id that is free. -/
theorem hangup_after_reap :
    ¬ ∀ s, (system true).Reach s → NoSignalAfterReap s := by
  intro h
  have hr := System.reach_get (system true) [.start, .wait, .exit (.exited 0), .reap,
    .call 0 .hup, .lock 0, .check 0, .kill 0] rfl (by decide)
  exact absurd (h _ hr ⟨0, .hup, true⟩ (by decide)) (by decide)

/-- **Every signal is before the reap as long as the reap is serialised with
the critical sections of the calls.** In every run whose steps all meet this,
no signal is issued after the reap; and after the first step that does not
meet it, some continuation issues one. -/
theorem no_signal_after_reap_of_serialised (copies : Bool) :
    (∀ s, (system copies).ReachOn Serialised s → NoSignalAfterReap s) ∧
    (∀ s a s', (system copies).Reach s → (system copies).step s a = some s' →
      ¬ Serialised s a →
      ∃ as s'', (system copies).exec s' as = some s'' ∧ ¬ NoSignalAfterReap s'') := by
  constructor
  · intro s hs
    have hboth : Ordered s ∧ NoSignalAfterReap s := by
      refine hs.invariant (I := fun s => Ordered s ∧ NoSignalAfterReap s)
        (fun _ => (inv_stable copies).reach) ?_ ?_
      · rintro s rfl
        exact ⟨fun i hb => (by cases hb), nofun⟩
      · intro s a t hi h hc hst
        have hst := step_cases hst
        exact ⟨h.1.step hi hc hst, h.2.step hi h.1 hst⟩
    exact hboth.2
  · intro s a s' hs hst hc
    have hi := (inv_stable copies).reach hs
    cases step_cases hst with
    | reap hw hch =>
      simp only [Serialised] at hc
      split at hc
      · rename_i i _
        exact signals_after_reap (i := i) (Bool.not_eq_false _ ▸ hc) rfl (hi.at_waiter hw).1
      · exact absurd trivial hc
    | @lock i sig hcall hmu =>
      simp only [Serialised, Classical.not_imp, Bool.not_eq_true] at hc
      exact signals_after_reap (i := i) (by simp [Call.beforeKill]) hc.1 hc.2
    | _ => exact absurd trivial hc

/-- A session that is hung up, killed and then reaped. -/
theorem no_signal_after_reap_killed : ∃ s, (system true).ReachOn Serialised s ∧
    s.kills = [⟨0, .hup, false⟩, ⟨1, .kill, false⟩] ∧ s.waiter = .returned
      (some (.exitError (.signaled 9))) ∧ NoSignalAfterReap s := by
  have hon := System.reachOn_get (system true) (C := Serialised)
    [.start, .wait, .call 0 .hup, .lock 0, .check 0, .kill 0, .unlock 0, .call 1 .kill, .lock 1,
      .check 1, .kill 1, .unlock 1, .exit (.signaled 9), .reap, .waited false, .waitLock, .mark,
      .waitUnlock] rfl (by decide) (by decide)
  exact ⟨_, hon, by decide, by decide, (no_signal_after_reap_of_serialised true).1 _ hon⟩

end WorkspaceProxy.SshServer.SessionCmd
