import WorkspaceProxy.SshServer.Session
import WorkspaceProxy.SshServer.SessionLimit

/-! # All sessions of a server

Any number of runs of `handleSession`, each with its goroutines and its process
as in `Session`, on one counter. What a session takes for moves of the others
are here the moves of the others. With respect to the counter a run of all of
them is a run of the limiter of `SessionLimit`. -/
namespace WorkspaceProxy.SshServer.SessionFleet
open WorkspaceProxy.Conc
open SessionLimit (Run SlotsExact)

/-- The limit, and what `session.Pty` answers in each session. -/
structure Server where
  maxSessions : Int
  isPty : Nat → Bool
  window : Nat → Session.Window

def Server.config (srv : Server) (i : Nat) : Session.Config :=
  ⟨srv.maxSessions, srv.isPty i, srv.window i⟩

/-- The counter, and the sessions; a session reads and writes this counter. -/
structure State where
  sessions : Int
  members : Nat → Session.State

def State.member (s : State) (i : Nat) : Session.State :=
  { s.members i with sessions := s.sessions }

/-- One step of the session `i`. -/
def step (srv : Server) (s : State) (act : Nat × Session.Act) : Option State :=
  match act.2 with
  | .others _ => none
  | a => (Session.step (srv.config act.1) (s.member act.1) a).map fun t =>
      ⟨t.sessions, Function.update s.members act.1 t⟩

structure Initial (s : State) : Prop where
  sessions : s.sessions = 0
  members : ∀ i, Session.Initial (s.members i)

def system (srv : Server) : System State (Nat × Session.Act) where
  init := Initial
  step := step srv

theorem step_cases {srv : Server} {s s' : State} {i : Nat} {a : Session.Act}
    (h : step srv s (i, a) = some s') :
    ∃ t, Session.Step (srv.config i) (s.member i) a t ∧ (∀ n, a ≠ .others n) ∧
      s' = ⟨t.sessions, Function.update s.members i t⟩ := by
  unfold step at h
  split at h
  · cases h
  · rename_i hothers
    obtain ⟨t, ht, hs⟩ := Option.map_eq_some_iff.mp h
    exact ⟨t, Session.step_cases ht, fun n hn => hothers n hn, hs.symm⟩

/-! ## The limiter -/

/-- Where a handler is with its slot. -/
def phase : Session.Handler → Run
  | .acquiring | .returned => .idle
  | .undoing => .undoing
  | .refusing => .refused
  | .releasing => .releasing
  | _ => .running

/-- The counter and the phases. -/
def limiter (s : State) : SessionLimit.State := ⟨s.sessions, fun i => phase (s.members i).handler⟩

variable {maxSessions : Int} {l : SessionLimit.State} {i : Nat}

/-- The limiter pauses. -/
theorem limiter_pauses {n : Int} {r : Run} (hr : l.runs i = r) (hn : l.sessions = n) :
    (SessionLimit.system maxSessions).exec l [] = some ⟨n, Function.update l.runs i r⟩ := by
  rw [← hr, ← hn, Function.update_eq_self]; rfl

/-- A step of a handler is a run of the limiter. -/
theorem handler_limiter {cfg : Session.Config} {m m' : Session.State}
    (hst : Session.HandlerStep cfg m m') (hr : l.runs i = phase m.handler)
    (hn : l.sessions = m.sessions) :
    ∃ bs, (SessionLimit.system cfg.maxSessions).exec l bs =
      some ⟨m'.sessions, Function.update l.runs i (phase m'.handler)⟩ := by
  cases hst with
  | unlimited hh hle =>
    rw [hh] at hr
    refine ⟨[.acquireSession i, .acquireReturns i true], ?_⟩
    simp [System.exec, SessionLimit.system, SessionLimit.step, hr, phase, hle,
      SessionLimit.State.goto, hn]
  | overLimit hh hpos hlt =>
    rw [hh] at hr
    refine ⟨[.acquireSession i, .add i, .compare i], ?_⟩
    simp [System.exec, SessionLimit.system, SessionLimit.step, hr, phase, not_le.mpr hpos,
      SessionLimit.State.goto, SessionLimit.State.add, hn, hlt, Session.State.add,
      Session.State.goto]
  | acquire hh hpos hle =>
    rw [hh] at hr
    refine ⟨[.acquireSession i, .add i, .compare i, .acquireReturns i true], ?_⟩
    simp [System.exec, SessionLimit.system, SessionLimit.step, hr, phase, not_le.mpr hpos,
      SessionLimit.State.goto, SessionLimit.State.add, hn, not_lt.mpr hle, Session.State.add]
  | undo hh =>
    rw [hh] at hr
    refine ⟨[.undo i], ?_⟩
    simp [System.exec, SessionLimit.system, SessionLimit.step, hr, phase,
      SessionLimit.State.goto, SessionLimit.State.add, hn, Session.State.add, Session.State.goto]
  | refuse hh =>
    rw [hh] at hr
    refine ⟨[.acquireReturns i false], ?_⟩
    simp [System.exec, SessionLimit.system, SessionLimit.step, hr, phase,
      SessionLimit.State.goto, hn, Session.State.exit, Session.State.goto]
  | fail hh | join hh =>
    rw [hh] at hr
    refine ⟨[.releaseSession i], ?_⟩
    simp [System.exec, SessionLimit.system, SessionLimit.step, hr, phase,
      SessionLimit.State.goto, hn, Session.State.exit, Session.State.goto]
  | releaseUnlimited hh hle =>
    rw [hh] at hr
    refine ⟨[.subtract i], ?_⟩
    simp [System.exec, SessionLimit.system, SessionLimit.step, hr, phase, hle,
      SessionLimit.State.goto, hn]
  | release hh hpos =>
    rw [hh] at hr
    refine ⟨[.subtract i], ?_⟩
    simp [System.exec, SessionLimit.system, SessionLimit.step, hr, phase, not_le.mpr hpos,
      SessionLimit.State.goto, SessionLimit.State.add, hn, Session.State.add]
  | prepare hh | spawn hh =>
    rw [hh] at hr
    refine ⟨[], limiter_pauses ?_ hn⟩
    simp only [Session.State.goto]
    split <;> exact hr
  | stdinPipe hh | stdinPipeFails hh | startFails hh | size hh | watchSize hh | copied hh
  | stopResize hh | joinResize hh | closeMaster hh | waited hh | exit hh | stop hh =>
    rw [hh] at hr
    exact ⟨[], limiter_pauses hr hn⟩

/-- The other goroutines leave the counter and the phase alone. -/
theorem watcher_keeps {m m' : Session.State} (hst : Session.WatcherStep m m') :
    m'.handler = m.handler ∧ m'.sessions = m.sessions := by
  cases hst <;> exact ⟨rfl, rfl⟩

theorem resizer_keeps {m m' : Session.State} (hst : Session.ResizerStep m m') :
    m'.handler = m.handler ∧ m'.sessions = m.sessions := by
  cases hst <;> exact ⟨rfl, rfl⟩

theorem control_keeps {m m' : Session.State} {a : SessionCmd.Act} (hst : Session.Control m a m') :
    phase m'.handler = phase m.handler ∧ m'.sessions = m.sessions := by
  cases hst with
  | start hh | wait hh => exact ⟨by rw [hh]; rfl, rfl⟩
  | exit | inWait | call | inCall => exact ⟨rfl, rfl⟩

/-- A step of a session is a run of the limiter. -/
theorem member_limiter {cfg : Session.Config} {m m' : Session.State} {a : Session.Act}
    (hst : Session.Step cfg m a m') (ha : ∀ n, a ≠ .others n) (hr : l.runs i = phase m.handler)
    (hn : l.sessions = m.sessions) :
    ∃ bs, (SessionLimit.system cfg.maxSessions).exec l bs =
      some ⟨m'.sessions, Function.update l.runs i (phase m'.handler)⟩ := by
  cases hst with
  | handler h => exact handler_limiter h hr hn
  | watcher h =>
    obtain ⟨hh, hs⟩ := watcher_keeps h
    exact ⟨[], limiter_pauses (by rw [hh]; exact hr) (by rw [hs]; exact hn)⟩
  | resizer h =>
    obtain ⟨hh, hs⟩ := resizer_keeps h
    exact ⟨[], limiter_pauses (by rw [hh]; exact hr) (by rw [hs]; exact hn)⟩
  | cmd h =>
    obtain ⟨hh, hs⟩ := control_keeps h
    exact ⟨[], limiter_pauses (hr.trans hh.symm) (hn.trans hs.symm)⟩
  | others => exact absurd rfl (ha _)
  | endCtx | window | closeWindows => exact ⟨[], limiter_pauses hr hn⟩

/-- **The sessions of a server run the limiter.** -/
theorem limiter_reach {srv : Server} {s : State} (hs : (system srv).Reach s) :
    (SessionLimit.system srv.maxSessions).Reach (limiter s) := by
  refine hs.map_runs limiter ?_ ?_
  · intro s hi
    show limiter s = SessionLimit.initial
    simp only [limiter, SessionLimit.initial, hi.sessions, (hi.members _).handler, phase]
  · rintro s ⟨i, a⟩ t hst
    obtain ⟨m, hm, ha, rfl⟩ := step_cases hst
    obtain ⟨bs, hb⟩ := member_limiter (l := limiter s) (i := i) hm ha rfl rfl
    refine ⟨bs, hb.trans ?_⟩
    simp only [limiter, Option.some.injEq, SessionLimit.State.mk.injEq, true_and]
    funext j
    by_cases hj : j = i
    · subst hj; simp
    · simp [hj]

/-- **The session limit is never exceeded.** The counter is the held slots and
the increments of refused calls that are to be undone, with `acquireSession` in
its single steps and with whole sessions. -/
theorem sessions_within_limit {maxSessions : Int} (hpos : 0 < maxSessions) :
    (∀ s, (SessionLimit.system maxSessions).Reach s → SlotsExact maxSessions s) ∧
    (∀ isPty window s, (system ⟨maxSessions, isPty, window⟩).Reach s →
      SlotsExact maxSessions (limiter s)) :=
  ⟨fun _ hs => SessionLimit.slotsExact_of_reach hpos hs,
    fun _ _ _ hs => SessionLimit.slotsExact_of_reach hpos (limiter_reach hs)⟩

/-- With a limit of one: the run `1` has added while the run `0` has the slot. -/
theorem sessions_within_limit_overshoot : ∃ s, (SessionLimit.system 1).Reach s ∧ s.sessions = 2 ∧
    s.runs 0 = .running ∧ s.runs 1 = .comparing 2 ∧ SlotsExact 1 s := by
  obtain ⟨s, hs, hn, h0, h1⟩ : ∃ s, (SessionLimit.system 1).Reach s ∧ s.sessions = 2 ∧
      s.runs 0 = .running ∧ s.runs 1 = .comparing 2 :=
    ⟨_, System.reach_get (SessionLimit.system 1) SessionLimit.overshootRun rfl rfl,
      by decide, by decide, by decide⟩
  exact ⟨s, hs, hn, h0, h1, (sessions_within_limit (by decide)).1 s hs⟩

end WorkspaceProxy.SshServer.SessionFleet
