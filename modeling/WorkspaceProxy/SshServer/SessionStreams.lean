import WorkspaceProxy.Go.Copy
import WorkspaceProxy.SshServer.SessionEnd

/-! # The streams of a session

`runWithoutPty` gives the command the session as its standard output and error, which
`exec.Cmd` copies from pipes in goroutines of its own and `cmd.Wait` waits for; a
goroutine copies the client's input and then closes the pipe. `runWithPty` copies the
output of the master itself, before it calls `finish`. The streams move along with the
session of `Session`: the joint system takes a step of the session only where the copies
that it waits for have returned, so that each session of it is one of `Session`.

A read of a pipe ends when its writers are gone and the pipe is empty; a read of the
master then fails. A write to the client may fail at any time. -/
namespace WorkspaceProxy.SshServer.SessionStreams
open WorkspaceProxy.Conc WorkspaceProxy.Go SessionCmd
open Session (Config)

/-- `master` is the output side of the pty, `stdin` the input of either path. -/
inductive Stream
  | stdin
  | stdout
  | stderr
  | master
deriving DecidableEq

/-- The streams that carry the output of the command. -/
def outputs (cfg : Config) : List Stream :=
  if cfg.isPty = true then [.master] else [.stdout, .stderr]

/-- Where the goroutine that copies the input is. -/
inductive Input
  | unborn
  | copying
  | closing
  | finished
deriving DecidableEq

structure State where
  session : Session.State
  piped : Stream → Piped UInt8
  input : Input
  stdinClosed : Bool

/-- All of the output copies have returned. -/
def State.drained (cfg : Config) (s : State) : Bool :=
  (outputs cfg).all fun d => decide (s.piped d).copy.Ended

def State.failed (s : State) (d : Stream) : Bool :=
  match (s.piped d).copy.phase with
  | .returned .eof => false
  | .returned _ => true
  | _ => false

/-- What `cmd.Wait` hears of its copies; a command on a pty has none. -/
def State.copyFailed (cfg : Config) (s : State) : Bool :=
  !cfg.isPty && (outputs cfg).any s.failed

/-- Whether the session can take this step as far as the streams are concerned. The
goroutine for the input is started before `finish`. -/
def State.permits (cfg : Config) (s : State) : Session.Act → Bool
  | .handler _ => s.session.handler != .copying || s.drained cfg
  | .cmd .wait => s.input != .unborn
  | .cmd (.waited failed) => (cfg.isPty || s.drained cfg) && failed == s.copyFailed cfg
  | _ => true

/-- `cmd.Wait` closes the pipe to the command in the end. -/
def closesStdin (cfg : Config) : Session.Act → Bool
  | .cmd (.waited _) => !cfg.isPty
  | _ => false

/-- Whether somebody can take this step of a stream: the client feeds the input, the
command's processes feed the output, and the copies run in their goroutines. -/
def State.runs (cfg : Config) (s : State) : Stream → PipedAct UInt8 → Bool
  | .stdin, .copy a => s.input == .copying &&
      (a != .write || !(if cfg.isPty then s.session.masterClosed else s.stdinClosed))
  | .stdin, _ => true
  | .master, .copy _ => cfg.isPty && s.session.handler == .copying && s.input != .unborn
  | .stdout, .copy _ | .stderr, .copy _ => !cfg.isPty && s.session.cmd.child != .absent
  | _, _ => s.session.cmd.child != .absent

/-- Where the handler starts the goroutine for the input. -/
def inputPlace (cfg : Config) : Session.Handler := if cfg.isPty then .copying else .finishing

inductive Act
  | session (a : Session.Act)
  | stream (d : Stream) (a : PipedAct UInt8)
  | spawnInput
  | inputReturns
  | closeStdin
deriving DecidableEq

def step (cfg : Config) (s : State) : Act → Option State
  | .session a =>
    if s.permits cfg a then
      (Session.step cfg s.session a).map fun t =>
        { s with session := t, stdinClosed := s.stdinClosed || closesStdin cfg a }
    else none
  | .stream d a =>
    if s.runs cfg d a then
      ((s.piped d).step a).map fun q => { s with piped := Function.update s.piped d q }
    else none
  | .spawnInput =>
    if s.input = .unborn ∧ s.session.handler = inputPlace cfg then
      some { s with input := .copying }
    else none
  | .inputReturns =>
    if s.input = .copying ∧ (s.piped .stdin).copy.Ended then
      some { s with input := if cfg.isPty then .finished else .closing }
    else none
  | .closeStdin =>
    if s.input = .closing then some { s with input := .finished, stdinClosed := true } else none

/-- Nothing was sent in either direction. -/
structure Initial (s : State) : Prop where
  session : Session.Initial s.session
  piped : s.piped = fun _ => Piped.start
  input : s.input = .unborn
  stdinClosed : s.stdinClosed = false

def system (cfg : Config) : System State Act := ⟨Initial, step cfg⟩

/-- The steps of `step`, one constructor for each. -/
inductive Step (cfg : Config) (s : State) : Act → State → Prop
  | session {a t} : s.permits cfg a = true → Session.Step cfg s.session a t →
      (Session.system cfg).step s.session a = some t → Step cfg s (.session a)
        { s with session := t, stdinClosed := s.stdinClosed || closesStdin cfg a }
  | stream {d a q} : s.runs cfg d a = true → Piped.Step (s.piped d) a q →
      Step cfg s (.stream d a) { s with piped := Function.update s.piped d q }
  | spawnInput : s.input = .unborn → Step cfg s .spawnInput { s with input := .copying }
  | inputReturns : s.input = .copying → (s.piped .stdin).copy.Ended → Step cfg s .inputReturns
      { s with input := if cfg.isPty then .finished else .closing }
  | closeStdin : s.input = .closing →
      Step cfg s .closeStdin { s with input := .finished, stdinClosed := true }

variable {cfg : Config} {s t : State} {a : Act}

theorem step_cases (h : step cfg s a = some t) : Step cfg s a t := by
  cases a with
  | session a =>
    simp only [step] at h
    split at h
    · obtain ⟨t, ht, rfl⟩ := Option.map_eq_some_iff.mp h
      exact .session ‹_› (Session.step_cases ht) ht
    · cases h
  | stream d a =>
    simp only [step] at h
    split at h
    · obtain ⟨q, hq, rfl⟩ := Option.map_eq_some_iff.mp h
      exact .stream ‹_› (Piped.step_cases hq)
    · cases h
  | spawnInput =>
    simp only [step] at h
    split at h
    · rename_i hc
      cases h; exact .spawnInput hc.1
    · cases h
  | inputReturns =>
    simp only [step] at h
    split at h
    · rename_i hc
      cases h; exact .inputReturns hc.1 hc.2
    · cases h
  | closeStdin =>
    simp only [step] at h
    split at h
    · cases h; exact .closeStdin ‹_›
    · cases h

/-! ## Each session of it is one of `Session` -/

theorem session_reach (hs : (system cfg).Reach s) : (Session.system cfg).Reach s.session := by
  refine System.Reach.map (T := Session.system cfg) State.session ?_ ?_ hs
  · intro s h
    exact h.session
  · intro s a t hst
    cases step_cases hst with
    | session _ _ ht => exact .inr ⟨_, ht⟩
    | stream _ _ | spawnInput _ | inputReturns _ _ | closeStdin _ => exact .inl rfl

theorem session_inv (hs : (system cfg).Reach s) : Session.Inv cfg s.session :=
  (Session.inv_stable cfg).reach (session_reach hs)

/-! ## What holds at each step -/

/-- The result that `wait` has from `cmd.Wait`. -/
def result : Waiter → Option (Option WaitError)
  | .locking r | .marking r | .unlocking r | .returned r => some r
  | _ => none

/-- `wait` gets its result once, when the copies have returned. -/
theorem result_step {copies : Bool} {m c : SessionCmd.State} {b : SessionCmd.Act}
    (hst : SessionCmd.Step copies m b c) : result c.waiter = result m.waiter ∨
      ∃ status failed, b = .waited failed ∧ result c.waiter = some (waitResult status failed) := by
  cases hst with
  | start _ | exit _ | call _ | lock _ _ | skip _ _ | pass _ _ _ | kill _ | unlock _ => exact .inl rfl
  | wait hw _ | reap hw _ | waitLock hw _ | mark hw | waitUnlock hw =>
    refine .inl ?_
    rw [hw]
    rfl
  | waited _ _ => exact .inr ⟨_, _, rfl, rfl⟩

/-- The handler of a session on a pty is past its copy, and not yet in `wait`. -/
def AfterCopy : Session.Handler → Prop
  | .stoppingResize | .joiningResize | .closingMaster | .finishing => True
  | _ => False

structure Inv (cfg : Config) (s : State) : Prop where
  ok : ∀ d, (s.piped d).Ok
  result : ∀ r, result s.session.cmd.waiter = some r →
    (cfg.isPty = false → s.drained cfg = true) ∧ ∃ status, r = waitResult status (s.copyFailed cfg)
  pty : cfg.isPty = true → AfterCopy s.session.handler ∨ s.session.cmd.waiter ≠ .idle →
    s.drained cfg = true
  input : s.input = .closing ∨ s.input = .finished → (s.piped .stdin).copy.Ended
  stdin : s.stdinClosed = true → s.input = .finished ∨ s.session.cmd.child.isReaped = true
  finished : cfg.isPty = false → s.input = .finished → s.stdinClosed = true

theorem drained_iff : s.drained cfg = true ↔ ∀ d ∈ outputs cfg, (s.piped d).copy.Ended := by
  simp [State.drained]

/-- Copies that have returned stay so, with the outcome they had. -/
theorem phase_update {d e : Stream} {b : PipedAct UInt8} {q : Piped UInt8} {how : CopyEnd}
    (hst : Piped.Step (s.piped d) b q) (he : (s.piped e).copy.phase = .returned how) :
    (Function.update s.piped d q e).copy.phase = .returned how := by
  by_cases hed : e = d
  · subst hed
    rw [Function.update_self]
    exact hst.phase he
  · rwa [Function.update_of_ne hed]

theorem ended_update {d e : Stream} {b : PipedAct UInt8} {q : Piped UInt8}
    (hst : Piped.Step (s.piped d) b q) (he : (s.piped e).copy.Ended) :
    (Function.update s.piped d q e).copy.Ended := by
  obtain ⟨how, hphase⟩ := he
  exact ⟨how, phase_update hst hphase⟩

theorem drained_update {d : Stream} {b : PipedAct UInt8} {q : Piped UInt8}
    (hst : Piped.Step (s.piped d) b q) (h : s.drained cfg = true) :
    State.drained cfg { s with piped := Function.update s.piped d q } = true := by
  rw [drained_iff] at h ⊢
  intro e he
  exact ended_update hst (h e he)

theorem failed_update {d e : Stream} {b : PipedAct UInt8} {q : Piped UInt8}
    (hst : Piped.Step (s.piped d) b q) (he : (s.piped e).copy.Ended) :
    State.failed { s with piped := Function.update s.piped d q } e = s.failed e := by
  obtain ⟨how, hphase⟩ := he
  unfold State.failed
  rw [hphase, show (Function.update s.piped d q e).copy.phase = _ from phase_update hst hphase]

theorem copyFailed_update {d : Stream} {b : PipedAct UInt8} {q : Piped UInt8}
    (hst : Piped.Step (s.piped d) b q) (h : cfg.isPty = false → s.drained cfg = true) :
    State.copyFailed cfg { s with piped := Function.update s.piped d q } = s.copyFailed cfg := by
  unfold State.copyFailed
  cases hpty : cfg.isPty with
  | true => rfl
  | false =>
    have hdrained := drained_iff.mp (h hpty)
    rw [Bool.eq_iff_iff]
    simp only [Bool.not_false, Bool.true_and, List.any_eq_true]
    refine exists_congr fun e => and_congr_right fun he => ?_
    rw [failed_update hst (hdrained e he)]

/-! ### The session moves -/

/-- The waiter leaves `idle` only by the call of `wait`. -/
theorem waiter_idle {copies : Bool} {m c : SessionCmd.State} {b : SessionCmd.Act}
    (hst : SessionCmd.Step copies m b c) (hb : b ≠ .wait) (hc : c.waiter ≠ .idle) :
    m.waiter ≠ .idle := by
  cases hst with
  | wait _ _ => exact absurd rfl hb
  | start _ | exit _ | call _ | lock _ _ | skip _ _ | pass _ _ _ | kill _ | unlock _ => exact hc
  | reap hw _ | waited hw _ | waitLock hw _ | mark hw | waitUnlock hw => simp [hw]

theorem isReaped_step {copies : Bool} {m c : SessionCmd.State} {b : SessionCmd.Act}
    (hst : SessionCmd.Step copies m b c) (h : m.child.isReaped = true) :
    c.child.isReaped = true := by
  cases hst with
  | start hc | exit hc => simp [hc, Child.isReaped] at h
  | reap _ _ => rfl
  | wait _ _ | waited _ _ | waitLock _ _ | mark _ | waitUnlock _ | call _ | lock _ _ | skip _ _
  | pass _ _ _ | kill _ | unlock _ => exact h

/-- On a pty the handler gets past its copy by returning from it. -/
theorem afterCopy_step {u v : Session.State} {b : Session.Act} (hpty : cfg.isPty = true)
    (hst : Session.Step cfg u b v) (h : AfterCopy v.handler) :
    AfterCopy u.handler ∨ u.handler = .copying ∧ ∃ ok, b = .handler ok := by
  cases hst with
  | @handler ok v hh =>
    cases hh with
    | copied hc => exact .inr ⟨hc, ok, rfl⟩
    | stopResize hc | joinResize hc _ | closeMaster hc =>
      rw [hc]
      exact .inl trivial
    | prepare _ | spawn _ => simp [Session.State.goto, hpty, AfterCopy] at h
    | _ => exact h.elim
  | watcher hw =>
    rw [hw.frame.handler] at h
    exact .inl h
  | resizer hr => cases hr <;> exact .inl h
  | cmd hc _ =>
    cases hc with
    | start _ | wait _ => exact h.elim
    | exit | inWait _ _ | call _ | inCall _ _ => exact .inl h
  | endCtx | others | window | closeWindows => exact .inl h

/-- `cmd.Wait` closes the pipe after the reap. -/
theorem closesStdin_reaped {u v : Session.State} {b : Session.Act} (hinv : Session.Inv cfg u)
    (hst : Session.Step cfg u b v) (hb : closesStdin cfg b = true) :
    v.cmd.child.isReaped = true := by
  unfold closesStdin at hb
  split at hb
  · cases hst with
    | @cmd _ _ c _ hc =>
      have hc : SessionCmd.Step (!cfg.isPty) u.cmd (.waited _) c := SessionCmd.step_cases hc
      cases hc with
      | waited hw _ =>
        obtain ⟨-, hchild⟩ := hinv.cmdInv.at_waiter hw
        simp [hchild, Child.isReaped]
  · cases hb

theorem isReaped_session {u v : Session.State} {b : Session.Act} (hst : Session.Step cfg u b v)
    (h : u.cmd.child.isReaped = true) : v.cmd.child.isReaped = true := by
  obtain ⟨-, heq | ⟨c, -, hc⟩⟩ := Session.step_cmd hst
  · rwa [heq]
  · exact isReaped_step hc h

theorem Inv.session_result {b : Session.Act} {v : Session.State} (h : Inv cfg s)
    (hp : s.permits cfg b = true) (hst : Session.Step cfg s.session b v) (r : Option WaitError)
    (hr : SessionStreams.result v.cmd.waiter = some r) :
    (cfg.isPty = false → s.drained cfg = true) ∧
      ∃ status, r = waitResult status (s.copyFailed cfg) := by
  obtain ⟨-, heq | ⟨c, rfl, hc⟩⟩ := Session.step_cmd hst
  · rw [heq] at hr
    exact h.result r hr
  · obtain hsame | ⟨status, failed, rfl, hnew⟩ := result_step hc
    · rw [hsame] at hr
      exact h.result r hr
    · simp only [State.permits, Bool.and_eq_true, Bool.or_eq_true, beq_iff_eq] at hp
      obtain ⟨hdrained, rfl⟩ := hp
      rw [hnew, Option.some.injEq] at hr
      refine ⟨fun hpty => hdrained.resolve_left (by simp [hpty]), status, hr.symm⟩

theorem Inv.session_pty {b : Session.Act} {v : Session.State} (h : Inv cfg s)
    (hp : s.permits cfg b = true) (hst : Session.Step cfg s.session b v)
    (hpty : cfg.isPty = true) (hv : AfterCopy v.handler ∨ v.cmd.waiter ≠ .idle) :
    s.drained cfg = true := by
  obtain hafter | hwait := hv
  · obtain hu | ⟨hcopying, ok, rfl⟩ := afterCopy_step hpty hst hafter
    · exact h.pty hpty (.inl hu)
    · simpa [State.permits, hcopying] using hp
  · obtain ⟨-, heq | ⟨c, rfl, hc⟩⟩ := Session.step_cmd hst
    · rw [heq] at hwait
      exact h.pty hpty (.inr hwait)
    · by_cases hcw : c = .wait
      · -- The call of `wait` is made where the copy is behind the handler.
        subst hcw
        refine h.pty hpty (.inl ?_)
        cases hst with
        | cmd hctl _ =>
          cases hctl with
          | wait hfin => rw [hfin]; exact trivial
          | inWait _ hin | inCall _ hin => exact hin.elim
      · exact h.pty hpty (.inr (waiter_idle hc hcw hwait))

theorem Inv.session {b : Session.Act} {v : Session.State} (h : Inv cfg s)
    (hinv : Session.Inv cfg s.session) (hp : s.permits cfg b = true)
    (hst : Session.Step cfg s.session b v) :
    Inv cfg { s with session := v, stdinClosed := s.stdinClosed || closesStdin cfg b } := by
  refine ⟨h.ok, h.session_result hp hst, h.session_pty hp hst, h.input, ?_, ?_⟩
  · intro hclosed
    obtain hold | hnow := Bool.or_eq_true_iff.mp hclosed
    · exact (h.stdin hold).imp_right (isReaped_session hst)
    · exact .inr (closesStdin_reaped hinv hst hnow)
  · intro hpty hfin
    exact Bool.or_eq_true_iff.mpr (.inl (h.finished hpty hfin))

theorem Inv.stream {d : Stream} {b : PipedAct UInt8} {q : Piped UInt8} (h : Inv cfg s)
    (hst : Piped.Step (s.piped d) b q) :
    Inv cfg { s with piped := Function.update s.piped d q } := by
  refine ⟨?_, ?_, fun hpty hv => drained_update hst (h.pty hpty hv),
    fun hi => ended_update hst (h.input hi), h.stdin, h.finished⟩
  · intro e
    by_cases he : e = d
    · subst he
      simpa only [Function.update_self] using (h.ok e).step hst
    · simpa only [Function.update_of_ne he] using h.ok e
  · intro r hr
    obtain ⟨hdrained, status, rfl⟩ := h.result r hr
    refine ⟨fun hpty => drained_update hst (hdrained hpty), status, ?_⟩
    rw [copyFailed_update hst hdrained]

theorem Inv.step (h : Inv cfg s) (hinv : Session.Inv cfg s.session) (hst : Step cfg s a t) :
    Inv cfg t := by
  cases hst with
  | session hp hst _ => exact h.session hinv hp hst
  | stream _ hst => exact h.stream hst
  | spawnInput hi =>
    refine ⟨h.ok, h.result, h.pty, by simp, ?_, by simp⟩
    intro hclosed
    exact (h.stdin hclosed).imp_left fun hf => by rw [hi] at hf; cases hf
  | inputReturns hi hended =>
    refine ⟨h.ok, h.result, h.pty, fun _ => hended, ?_, ?_⟩
    · intro hclosed
      exact (h.stdin hclosed).imp_left fun hf => by rw [hi] at hf; cases hf
    · intro hpty hfin
      simp [hpty] at hfin
  | closeStdin hi =>
    exact ⟨h.ok, h.result, h.pty, fun _ => h.input (.inl hi), fun _ => .inl rfl, fun _ _ => rfl⟩

theorem Inv.initial (h : Initial s) : Inv cfg s where
  ok d := by rw [h.piped]; exact .start
  result r hr := by simp [h.session.cmd, SessionCmd.initial, SessionStreams.result] at hr
  pty _ hv := by simp [h.session.handler, h.session.cmd, SessionCmd.initial, AfterCopy] at hv
  input hi := by simp [h.input] at hi
  stdin hc := by simp [h.stdinClosed] at hc
  finished _ hi := by simp [h.input] at hi

theorem inv_reach (hs : (system cfg).Reach s) : Inv cfg s := by
  induction hs with
  | init hi => exact .initial hi
  | step hr hst ih => exact ih.step (session_inv hr) (step_cases hst)

/-! ## What the client has when it is told the status -/

/-- The output of one stream at the end: all of it, or what went out before a write to
the client failed. -/
def Settled (q : Piped UInt8) : Prop :=
  (q.copy.out = q.sent ∧ q.closed = true) ∨ q.copy.phase = .returned .writeError

theorem settled_of_ended {q : Piped UInt8} (h : q.Ok) (he : q.copy.Ended) : Settled q := by
  obtain ⟨how, hphase⟩ := he
  by_cases hhow : how = .writeError
  · subst hhow
    exact .inr hphase
  · exact .inl (h.result hphase hhow)

/-- The session of a command that was started has told its status with `wait`'s result. -/
theorem reported_of_exits (hinv : Session.Inv cfg s.session) (hexits : s.session.exits ≠ [])
    (hstarted : s.session.cmd.child ≠ .absent) : Session.Reported s.session := by
  obtain he | ⟨hu, -⟩ | hr := hinv.handler.exits
  · exact absurd he hexits
  · exact absurd hu.child hstarted
  · exact hr

theorem drained_of_reported (h : Inv cfg s) (hr : Session.Reported s.session) :
    s.drained cfg = true := by
  obtain ⟨r, hw, -⟩ := hr
  cases hpty : cfg.isPty with
  | true => exact h.pty hpty (.inr (by simp [hw]))
  | false => exact (h.result r (by simp [SessionStreams.result, hw])).1 hpty

/-- **Output before the status.** In every run, what the client got of an output stream
is the beginning of what was written to it. When the status of a started command has
been sent, every copy of its output has returned: the client has all of it, or a write
to the client failed. -/
theorem status_after_output (hs : (system cfg).Reach s) :
    (∀ d, (s.piped d).copy.out <+: (s.piped d).sent) ∧
      (s.session.exits ≠ [] → s.session.cmd.child ≠ .absent →
        ∀ d ∈ outputs cfg, Settled (s.piped d)) := by
  have h := inv_reach hs
  refine ⟨fun d => (h.ok d).copy.isPrefix, ?_⟩
  intro hexits hstarted d hd
  have hr := reported_of_exits (session_inv hs) hexits hstarted
  exact settled_of_ended (h.ok d) (drained_iff.mp (drained_of_reported h hr) d hd)

/-- A session without a pty before it begins. -/
def execBegin : State := ⟨Session.execStart, fun _ => Piped.start, .unborn, false⟩

theorem initial_execBegin : Initial execBegin := ⟨Session.initial_execStart, rfl, rfl, rfl⟩

/-- The client sends one byte and ends its input, which the command gets; `stdin` is
closed before the command exits. -/
def inputRun : List Act :=
  [.session (.handler true), .session (.handler true), .session (.handler true),
    .session (.cmd .start), .session (.handler true), .spawnInput, .stream .stdin (.feed [7]),
    .stream .stdin .close, .stream .stdin (.copy (.read 1)), .stream .stdin (.copy .write),
    .stream .stdin (.copy .eof), .inputReturns, .closeStdin]

/-- The command writes two bytes and exits, and the client is told. -/
def echoRun : List Act :=
  inputRun ++ [.stream .stdout (.feed [104, 105]), .stream .stdout .close, .stream .stderr .close,
    .session (.cmd (.exit (.exited 0))), .session (.cmd .wait), .session (.cmd .reap),
    .stream .stdout (.copy (.read 2)), .stream .stdout (.copy .write),
    .stream .stdout (.copy .eof), .stream .stderr (.copy .eof), .session (.cmd (.waited false)),
    .session (.cmd .waitLock), .session (.cmd .mark), .session (.cmd .waitUnlock),
    .session (.handler true), .session (.handler true)]

theorem status_after_output_echo : ∃ s, (system Session.execConfig).Reach s ∧
    s.session.exits = [0] ∧ Settled (s.piped .stdout) := by
  obtain ⟨s, hs, hexits, hchild⟩ : ∃ s, (system Session.execConfig).Reach s ∧
      s.session.exits = [0] ∧ s.session.cmd.child = .reaped (.exited 0) :=
    ⟨_, System.reach_get (system Session.execConfig) echoRun initial_execBegin rfl, rfl, rfl⟩
  exact ⟨s, hs, hexits, (status_after_output hs).2 (by simp [hexits]) (by simp [hchild]) .stdout
    (by simp [outputs, Session.execConfig])⟩

theorem not_failed {d : Stream} (hended : (s.piped d).copy.Ended) (hf : s.failed d = false) :
    (s.piped d).copy.phase = .returned .eof := by
  obtain ⟨how, hphase⟩ := hended
  unfold State.failed at hf
  rw [hphase] at hf ⊢
  cases how with
  | eof => rfl
  | readError | writeError => cases hf

/-- Status zero stands for a command that exited with zero and whose output was copied. -/
theorem exitCode_eq_zero {status : WaitStatus} {failed : Bool}
    (h : SessionCmd.exitCode (waitResult status failed) = 0) :
    status = .exited 0 ∧ failed = false := by
  by_cases hstatus : status = .exited 0
  · subst hstatus
    cases failed with
    | false => exact ⟨rfl, rfl⟩
    | true => simp [waitResult, SessionCmd.exitCode, exitCodeGeneralError] at h
  · rw [waitResult, if_neg hstatus] at h
    cases status with
    | exited code =>
      have hcode : SessionCmd.exitCode (some (.exitError (.exited code))) = (code.toNat : Int) := by
        have hpos : (WaitStatus.exited code).exitCode ≥ 0 := Int.natCast_nonneg code.toNat
        unfold SessionCmd.exitCode
        simp only [if_pos hpos]
        rfl
      rw [hcode, Int.natCast_eq_zero] at h
      refine absurd ?_ hstatus
      rw [UInt8.toNat_inj.mp (h.trans UInt8.toNat_zero.symm)]
    | signaled signal =>
      simp only [SessionCmd.exitCode, WaitStatus.exitCode, signalExitCodeBase] at h
      omega
    | other => simp [SessionCmd.exitCode, WaitStatus.exitCode, exitCodeGeneralError] at h

/-- **Status zero means complete output.** A command without a pty whose client is told
status zero has exited with zero, and the client has every byte that was written to its
standard output and error. -/
theorem status_zero_complete (hpty : cfg.isPty = false) (hs : (system cfg).Reach s)
    (hstarted : s.session.cmd.child ≠ .absent) (hzero : 0 ∈ s.session.exits) :
    s.session.cmd.child = .reaped (.exited 0) ∧ ∀ d ∈ outputs cfg,
      (s.piped d).copy.out = (s.piped d).sent ∧ (s.piped d).closed = true := by
  have h := inv_reach hs
  have hinv := session_inv hs
  have hreported := reported_of_exits hinv (List.ne_nil_of_mem hzero) hstarted
  have hdrained := drained_iff.mp (drained_of_reported h hreported)
  obtain ⟨r, hw, hexits⟩ := hreported
  rw [hexits, List.mem_singleton] at hzero
  obtain ⟨-, status, hr⟩ := h.result r (by simp [SessionStreams.result, hw])
  obtain ⟨-, status', failed', hreaped, -, hr'⟩ := hinv.cmdInv.at_waiter hw
  have hstatus := (exitCode_eq_zero (by rw [← hr']; exact hzero.symm)).1
  have hfailed := (exitCode_eq_zero (by rw [← hr]; exact hzero.symm)).2
  refine ⟨by rw [hreaped, hstatus], ?_⟩
  intro d hd
  simp only [State.copyFailed, hpty, Bool.not_false, Bool.true_and, List.any_eq_false] at hfailed
  have hphase := not_failed (hdrained d hd) (by simpa using hfailed d hd)
  exact (h.ok d).result hphase (by simp)

theorem status_zero_complete_echo : ∃ s, (system Session.execConfig).Reach s ∧
    s.session.exits = [0] ∧ (s.piped .stdout).sent = [104, 105] ∧
    (s.piped .stdout).copy.out = [104, 105] := by
  obtain ⟨s, hs, hexits, hchild, hsent⟩ : ∃ s, (system Session.execConfig).Reach s ∧
      s.session.exits = [0] ∧ s.session.cmd.child = .reaped (.exited 0) ∧
      (s.piped .stdout).sent = [104, 105] :=
    ⟨_, System.reach_get (system Session.execConfig) echoRun initial_execBegin rfl, rfl, rfl, rfl⟩
  have hall := (status_zero_complete rfl hs (by simp [hchild]) (by simp [hexits])).2 .stdout
    (by simp [outputs, Session.execConfig])
  exact ⟨s, hs, hexits, hsent, hall.1.trans hsent⟩

/-- **End of input.** While a command without a pty has not been reaped, its standard
input is closed exactly when the goroutine that copies the client's input is at its end,
and then the command got all of the input before the client's end of it, or a write to
the command failed. -/
theorem stdin_closed_after_input (hpty : cfg.isPty = false) (hs : (system cfg).Reach s)
    (hreap : s.session.cmd.child.isReaped = false) :
    (s.stdinClosed = true ↔ s.input = .finished) ∧
      (s.stdinClosed = true → Settled (s.piped .stdin)) := by
  have h := inv_reach hs
  have hfin : s.stdinClosed = true → s.input = .finished := fun hclosed =>
    (h.stdin hclosed).resolve_right (by simp [hreap])
  exact ⟨⟨hfin, h.finished hpty⟩,
    fun hclosed => settled_of_ended (h.ok .stdin) (h.input (.inr (hfin hclosed)))⟩

theorem stdin_closed_after_input_one : ∃ s, (system Session.execConfig).Reach s ∧
    s.stdinClosed = true ∧ s.session.cmd.child = .running ∧ Settled (s.piped .stdin) := by
  obtain ⟨s, hs, hclosed, hchild⟩ : ∃ s, (system Session.execConfig).Reach s ∧
      s.stdinClosed = true ∧ s.session.cmd.child = .running :=
    ⟨_, System.reach_get (system Session.execConfig) inputRun initial_execBegin rfl, rfl, rfl⟩
  exact ⟨s, hs, hclosed, hchild,
    (stdin_closed_after_input rfl hs (by rw [hchild]; rfl)).2 hclosed⟩

end WorkspaceProxy.SshServer.SessionStreams
