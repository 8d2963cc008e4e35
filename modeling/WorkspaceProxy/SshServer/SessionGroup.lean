import WorkspaceProxy.SshServer.SessionEnd

/-! # The process group of a session

A session's process leads a group, and may have any number of other processes
in it. Each may fork, ignore a hang-up and exit at any time; a SIGKILL reaches
every process that is in the group when it is sent, and a process that was
sent one forks no more. `terminateOnDisconnect` sends its SIGKILL only while
the session waits for the leader, so the group is gone with the session exactly
as long as the leader is not the first to go. -/
namespace WorkspaceProxy.SshServer.SessionGroup
open WorkspaceProxy.Conc SessionCmd Session

/-- A process of the group other than the leader; `killed` says that it was
sent a SIGKILL. -/
inductive Member
  | absent
  | alive (killed : Bool)
  | gone
deriving DecidableEq

def Member.kill : Member → Member
  | .alive _ => .alive true
  | m => m

/-- A session with the group of its process. `exitedFirst` says that the leader
exited before the client's context ended. -/
structure State where
  session : Session.State
  members : Nat → Member
  leaderKilled : Bool
  exitedFirst : Bool

inductive Act
  | session (a : Session.Act)
  | fork (parent : Option Nat) (n : Nat)
  | die (n : Nat)

/-- The step sends the group a SIGKILL. -/
def sendsKill (s : Session.State) : Session.Act → Bool
  | .cmd (.kill i) => s.cmd.calls i = .killing .kill
  | _ => false

/-- The leader exits. -/
def leaderExits : Session.Act → Bool
  | .cmd (.exit _) => true
  | _ => false

/-- The group of `s` after the session's step `a`, which leads to `t`. -/
def State.after (s : State) (a : Session.Act) (t : Session.State) : State where
  session := t
  members := if sendsKill s.session a = true then fun n => (s.members n).kill else s.members
  leaderKilled := s.leaderKilled || sendsKill s.session a
  exitedFirst := if leaderExits a = true then !s.session.ctxDone else s.exitedFirst

def State.setMember (s : State) (n : Nat) (m : Member) : State :=
  { s with members := Function.update s.members n m }

/-- The process can fork: it runs, and was not sent a SIGKILL. `none` is the
leader. -/
def State.canFork (s : State) : Option Nat → Prop
  | none => s.session.cmd.child = .running ∧ s.leaderKilled = false
  | some m => s.members m = .alive false

instance (s : State) : ∀ parent, Decidable (s.canFork parent)
  | none => inferInstanceAs (Decidable (_ ∧ _))
  | some m => inferInstanceAs (Decidable (s.members m = .alive false))

def step (cfg : Config) (s : State) : Act → Option State
  | .session a => (Session.step cfg s.session a).map (s.after a)
  | .fork parent n =>
    if s.canFork parent ∧ s.members n = .absent then some (s.setMember n (.alive false)) else none
  | .die n =>
    match s.members n with
    | .alive _ => some (s.setMember n .gone)
    | _ => none

structure Start (s : State) : Prop where
  session : Session.Initial s.session
  members : ∀ n, s.members n = .absent
  leaderKilled : s.leaderKilled = false
  exitedFirst : s.exitedFirst = false

def system (cfg : Config) : System State Act where
  init := Start
  step := step cfg

inductive Step (cfg : Config) (s : State) : Act → State → Prop
  | session {a t} : Session.Step cfg s.session a t → Step cfg s (.session a) (s.after a t)
  | fork {parent n} : s.canFork parent → s.members n = .absent →
      Step cfg s (.fork parent n) (s.setMember n (.alive false))
  | die {n killed} : s.members n = .alive killed → Step cfg s (.die n) (s.setMember n .gone)

theorem step_cases {cfg : Config} {s s' : State} {a : Act} (h : step cfg s a = some s') :
    Step cfg s a s' := by
  cases a with
  | session a =>
    obtain ⟨t, ht, rfl⟩ := Option.map_eq_some_iff.mp h
    exact .session (Session.step_cases ht)
  | fork parent n =>
    simp only [step] at h
    split at h
    · rename_i hc
      cases h
      exact .fork hc.1 hc.2
    · cases h
  | die n =>
    simp only [step] at h
    split at h
    · cases h; exact .die ‹_›
    · cases h

/-- A run of the group is a run of the session. -/
theorem session_reach {cfg : Config} {s : State} (hs : (system cfg).Reach s) :
    (Session.system cfg).Reach s.session := by
  refine System.Reach.map (S := system cfg) (fun s => s.session) (fun s h => h.session)
    (fun s a t hst => ?_) hs
  have hcases := step_cases hst
  cases a with
  | session a =>
    obtain ⟨u, hu, rfl⟩ := Option.map_eq_some_iff.mp hst
    exact .inr ⟨a, hu⟩
  | fork | die => cases hcases; exact .inl rfl

/-! ## Survivors -/

/-- A process of the group is alive and was never sent a SIGKILL. -/
def Survivor (s : State) : Prop :=
  (s.session.cmd.child = .running ∧ s.leaderKilled = false) ∨ ∃ n, s.members n = .alive false

/-- If the client's context ended before the leader exited, nobody survives the
session: the handler has returned and the watcher is finished. -/
def GroupKilled (s : State) : Prop :=
  s.session.ctxDone = true → s.exitedFirst = false → s.session.handler = .returned →
    s.session.watcher = .finished → ¬ Survivor s

/-- Where the leader exits after the client is gone, every other process of the
group was sent a SIGKILL, or is about to be. -/
def LeaderLast (s : State) : Act → Prop
  | .session (.cmd (.exit _)) => s.session.ctxDone = true →
      (∀ n, s.members n ≠ .alive false) ∨ KillUnderway s.session
  | _ => True

/-! ## The leader exits last -/

/-- After a leader that outlived the connection, nobody is left who was not sent
a SIGKILL, or the SIGKILL is underway. -/
structure Doomed (s : State) : Prop where
  first : exited s.session.cmd.child = true → s.session.ctxDone = false → s.exitedFirst = true
  dead : exited s.session.cmd.child = true → s.session.ctxDone = true → s.exitedFirst = false →
    (∀ n, s.members n ≠ .alive false) ∨
      (KillUnderway s.session ∧ s.session.cmd.reaped = false)

theorem Member.kill_ne (m : Member) : m.kill ≠ .alive false := by
  cases m <;> nofun

variable {cfg : Config} {s s' : State}

/-- Only its own exit makes the leader exit. -/
theorem exited_step {s t : Session.State} {a : Session.Act} (hst : Session.Step cfg s a t)
    (ha : leaderExits a = false) : exited t.cmd.child = exited s.cmd.child := by
  rcases (step_cmd hst).2 with hc | ⟨b, rfl, hc⟩
  · rw [hc]
  · generalize t.cmd = c at hc
    cases hc with
    | start hch => simp [exited, hch]
    | reap hw hch => simp [exited, hch]
    | exit => cases ha
    | _ => rfl

/-- The watcher's second call is the one that sends the SIGKILL. -/
theorem sendsKill_of_kill {s t : Session.State} (hi : Session.Inv cfg s)
    (hst : Session.Step cfg s (.cmd (.kill (callNumber .kill))) t) :
    sendsKill s (.cmd (.kill (callNumber .kill))) = true := by
  cases hst with
  | cmd hctl hst =>
    have hstep : SessionCmd.Step (!cfg.isPty) s.cmd (.kill (callNumber .kill)) _ :=
      SessionCmd.step_cases hst
    cases hstep with
    | kill hc =>
      have hsig := hi.killing_sig hc
      subst hsig
      simp [sendsKill, hc]

/-- A leader that still runs was not reaped by `wait`. -/
theorem reaped_of_running {copies : Bool} {m : SessionCmd.State} (h : SessionCmd.Inv copies m)
    (hr : m.child = .running) : m.reaped = false := by
  have hw := h.waiter
  cases hwait : m.waiter with
  | idle | waiting => rw [hwait] at hw; exact hw.1
  | copying => rw [hwait] at hw; rw [hw.2] at hr; cases hr
  | locking | marking | unlocking | returned =>
    rw [hwait] at hw
    obtain ⟨-, status, copyFailed, hch, -⟩ := hw
    rw [hch] at hr
    cases hr

theorem Doomed.exit {status : WaitStatus} {t : Session.State} (hi : Session.Inv cfg s.session)
    (hc : LeaderLast s (.session (.cmd (.exit status))))
    (hst : Session.Step cfg s.session (.cmd (.exit status)) t) :
    Doomed (s.after (.cmd (.exit status)) t) := by
  obtain ⟨hr, rfl⟩ := step_exit hst
  have hf := reaped_of_running hi.cmdInv hr
  refine ⟨fun _ hd => ?_, fun _ hd _ => ?_⟩
  · show (!s.session.ctxDone) = true
    rw [show s.session.ctxDone = false from hd]; rfl
  · rcases hc hd with hn | hk
    · exact .inl hn
    · exact .inr ⟨hk, hf⟩

theorem Doomed.session {a : Session.Act} {t : Session.State} (h : Doomed s)
    (hi : Session.Inv cfg s.session) (hc : LeaderLast s (.session a))
    (hst : Session.Step cfg s.session a t) : Doomed (s.after a t) := by
  by_cases hexit : leaderExits a = true
  · cases a with
    | cmd b =>
      cases b with
      | exit status => exact Doomed.exit hi hc hst
      | _ => cases hexit
    | _ => cases hexit
  rw [Bool.not_eq_true] at hexit
  obtain ⟨hmono, hcmd⟩ := step_cmd hst
  have hex := exited_step hst hexit
  have hfirst : (s.after a t).exitedFirst = s.exitedFirst := by simp [State.after, hexit]
  have hold : t.ctxDone = false → s.session.ctxDone = false := by
    intro hd
    cases hs : s.session.ctxDone with
    | false => rfl
    | true => rw [hmono hs] at hd; cases hd
  refine ⟨fun he hd => ?_, fun he hd hn => ?_⟩
  · rw [hfirst]
    exact h.first (hex ▸ he) (hold hd)
  · rw [hfirst] at hn
    have he' : exited s.session.cmd.child = true := hex ▸ he
    by_cases hsend : sendsKill s.session a = true
    · refine .inl fun n => ?_
      simp only [State.after, hsend, if_true]
      exact Member.kill_ne _
    · have hmem : (s.after a t).members = s.members := by simp [State.after, hsend]
      have hd' : s.session.ctxDone = true := by
        by_contra hd'
        rw [h.first he' (Bool.not_eq_true _ ▸ hd')] at hn
        cases hn
      rcases h.dead he' hd' hn with hdead | ⟨hk, hf⟩
      · exact .inl (by rw [hmem]; exact hdead)
      · refine .inr ?_
        rcases hcmd with hcmd | ⟨b, rfl, hcmd⟩
        · exact ⟨by rw [KillUnderway, show (s.after a t).session.cmd = _ from hcmd]; exact hk,
            by rw [show (s.after a t).session.cmd = _ from hcmd]; exact hf⟩
        · have habs : s.session.cmd.child ≠ .absent := by
            intro ha; rw [ha] at he'; cases he'
          rcases hi.cmdInv.beforeKill_step hcmd hk hf habs with rfl | hnext
          · exact absurd (sendsKill_of_kill hi hst) hsend
          · exact hnext

theorem Doomed.step {a : Act} (h : Doomed s) (hi : Session.Inv cfg s.session)
    (hc : LeaderLast s a) (hst : Step cfg s a s') : Doomed s' := by
  cases hst with
  | session hst => exact h.session hi hc hst
  | @fork parent n hp hn =>
    refine ⟨h.first, fun he hd hx => ?_⟩
    rcases h.dead he hd hx with hdead | hk
    · -- nobody is left to fork
      cases parent with
      | none =>
        have he : exited s.session.cmd.child = true := he
        rw [hp.1] at he
        cases he
      | some m => exact absurd hp (hdead m)
    · exact .inr hk
  | @die n killed hn =>
    refine ⟨h.first, fun he hd hx => ?_⟩
    rcases h.dead he hd hx with hdead | hk
    · refine .inl fun m => ?_
      by_cases hm : m = n
      · subst hm; simp [State.setMember]
      · simp only [State.setMember, Function.update_of_ne hm]; exact hdead m
    · exact .inr hk

/-- At the end of a session that was started, the leader is reaped and no call
of the watcher is underway. -/
theorem ended_session {s : Session.State} (hi : Session.Inv cfg s) (hh : s.handler = .returned)
    (hw : s.watcher = .finished) : (∃ status, s.cmd.child = .reaped status) ∧ ¬ KillUnderway s := by
  constructor
  · obtain ⟨-, ⟨-, -, hend⟩ | ⟨-, -, hu, -⟩⟩ := hi.at_handler hh
    · rcases hend with ⟨hu, -⟩ | ⟨⟨r, hr, -⟩, -⟩
      · have := hu.watcher; rw [hw] at this; cases this
      · obtain ⟨-, status, copyFailed, hch, -⟩ := hi.cmdInv.at_waiter hr
        exact ⟨status, hch⟩
    · have := hu.watcher; rw [hw] at this; cases this
  · intro hk
    obtain ⟨hs, -⟩ := hi.active_of_holds (Call.holds_of_beforeKill hk)
    rw [hw] at hs
    cases hs

theorem GroupKilled.of_doomed (hi : Session.Inv cfg s.session) (h : Doomed s) : GroupKilled s := by
  intro hd hx hh hw hsurv
  obtain ⟨⟨status, hch⟩, hno⟩ := ended_session hi hh hw
  rcases h.dead (by rw [hch]; rfl) hd hx with hdead | ⟨hk, -⟩
  · rcases hsurv with ⟨hr, -⟩ | ⟨n, hn⟩
    · rw [hch] at hr; cases hr
    · exact hdead n hn
  · exact hno hk

theorem inv_of_reach (hs : (system cfg).Reach s) : Session.Inv cfg s.session :=
  (Session.inv_stable cfg).reach (session_reach hs)

theorem doomed_of_leaderLast (hs : (system cfg).ReachOn LeaderLast s) : Doomed s := by
  refine hs.invariant (fun _ => inv_of_reach) ?_ fun s a t hi h hc hst =>
    h.step hi hc (step_cases hst)
  intro s h
  have hch : exited s.session.cmd.child = false := by rw [h.session.cmd]; rfl
  refine ⟨fun he => ?_, fun he => ?_⟩
  · rw [hch] at he; cases he
  · rw [hch] at he; cases he

/-! ## A leader that goes first -/

/-- A member that outlives its leader, which outlived the connection, with no
SIGKILL to come. -/
structure Spared (cfg : Config) (n : Nat) (s : State) : Prop where
  inv : Session.Inv cfg s.session
  resizer : ResizerOk s.session s.session.handler
  ended : s.session.ctxDone = true
  late : s.exitedFirst = false
  exited : exited s.session.cmd.child = true
  harmless : Harmless s.session
  member : s.members n = .alive false

theorem not_sendsKill {s : Session.State} (hi : Session.Inv cfg s) (h : Harmless s)
    (a : Session.Act) : sendsKill s a = false := by
  cases a with
  | cmd b =>
    cases b with
    | kill i =>
      refine decide_eq_false fun hc => ?_
      obtain ⟨sig, rfl⟩ := hi.calls i (by rw [hc]; nofun)
      have hsig := hi.killing_sig hc
      subst hsig
      have hreaped := h (by rw [KillUnderway, hc]; rfl)
      rw [(hi.cmdInv.at_call hc).1] at hreaped
      cases hreaped
    | _ => rfl
  | _ => rfl

theorem Spared.step {n : Nat} {a : Session.Act} {t : Session.State} (h : Spared cfg n s)
    (hk : KillWaits s.session a) (hst : Session.Step cfg s.session a t) :
    Spared cfg n (s.after a t) := by
  have hexit : leaderExits a = false := by
    cases a with
    | cmd b =>
      cases b with
      | exit status =>
        have hex := h.exited
        rw [(step_exit hst).1] at hex
        cases hex
      | _ => rfl
    | _ => rfl
  have hsend := not_sendsKill h.inv h.harmless a
  exact {
    inv := h.inv.step hst
    resizer := h.resizer.step hst
    ended := (step_cmd hst).1 h.ended
    late := by simp only [State.after, hexit]; exact h.late
    exited := (exited_step hst hexit).trans h.exited
    harmless := h.harmless.step hk hst
    member := by simp only [State.after, hsend]; exact h.member }

/-- The session can end without it. -/
theorem Spared.survives {n : Nat} (h : Spared cfg n s) :
    ∃ as t, (system cfg).exec s as = some t ∧ ¬ GroupKilled t := by
  refine System.exec_of_rank (P := Spared cfg n) (fun s => remaining s.session) ?_ h
  intro s h
  rcases h.inv.advances h.resizer h.exited with ⟨hh, hw⟩ | ⟨a, t, ht, hk, hlt⟩
  · exact .inl fun hg => hg h.ended h.late hh hw (.inr ⟨n, h.member⟩)
  · exact .inr ⟨.session a, s.after a t, by simp [system, SessionGroup.step, ht],
      h.step hk (Session.step_cases ht), hlt⟩

/-- Where the leader exits too early, a member is spared. -/
theorem spared_of_not_leaderLast {a : Act} (hs : (system cfg).Reach s)
    (hst : (system cfg).step s a = some s') (hc : ¬ LeaderLast s a) : ∃ n, Spared cfg n s' := by
  obtain ⟨status, rfl⟩ : ∃ status, a = .session (.cmd (.exit status)) := by
    unfold LeaderLast at hc
    split at hc
    · exact ⟨_, rfl⟩
    · exact absurd trivial hc
  simp only [LeaderLast, Classical.not_imp, not_or, not_forall, not_not] at hc
  obtain ⟨hd, ⟨n, hn⟩, hk⟩ := hc
  obtain ⟨t, ht, rfl⟩ := Option.map_eq_some_iff.mp hst
  have hstep := Session.step_cases ht
  have hi := inv_of_reach hs
  have hr := (resizerOk_stable cfg).reach (session_reach hs)
  obtain ⟨-, rfl⟩ := step_exit hstep
  exact ⟨n, hi.step hstep, hr.step hstep, hd, by simp [State.after, leaderExits, hd], rfl,
    fun h => absurd h hk, hn⟩

/-- **A disconnected group is killed exactly as long as the leader is the last
to go.** In every run in which the leader, once the client is gone, exits only
after every other process was sent a SIGKILL or is about to be, nobody survives
the session; and after the first exit that does not meet this, somebody
can. -/
theorem group_killed_of_leaderLast (cfg : Config) :
    (∀ s, (system cfg).ReachOn LeaderLast s → GroupKilled s) ∧
    (∀ s a s', (system cfg).Reach s → (system cfg).step s a = some s' → ¬ LeaderLast s a →
      ∃ as s'', (system cfg).exec s' as = some s'' ∧ ¬ GroupKilled s'') := by
  constructor
  · intro s hs
    exact .of_doomed (inv_of_reach hs.reach) (doomed_of_leaderLast hs)
  · intro s a s' hs hst hc
    obtain ⟨n, hn⟩ := spared_of_not_leaderLast hs hst hc
    exact hn.survives

/-- An exec session, and no other process yet. -/
def execGroup : State := ⟨execStart, fun _ => .absent, false, false⟩

theorem start_execGroup : Start execGroup := ⟨initial_execStart, fun _ => rfl, rfl, rfl⟩

/-- The session starts a shell, which runs a background process; then the client
goes away and the group is hung up. -/
def hangupRun : List Act :=
  [.session (.handler true), .session (.handler true), .session (.handler true),
    .session (.cmd .start), .session (.handler true), .fork none 0, .session .endCtx,
    .session (.watcher false)] ++ (callRun 0 .hup).map .session ++
  [.session (.watcher true), .session (.cmd .wait)]

/-- The shell exits with `status`, is reaped, and the session ends. -/
def endRun (status : WaitStatus) : List Act :=
  [.session (.cmd (.exit status)), .session (.cmd .reap), .session (.cmd (.waited false)),
    .session (.cmd .waitLock), .session (.cmd .mark), .session (.cmd .waitUnlock),
    .session (.handler true), .session (.handler true), .session (.handler true),
    .session (.watcher true), .session (.watcher true), .session (.handler true),
    .session (.handler true)]

/-- The shell exits on the hang-up and the background process does not: it
survives the session, and was never sent a SIGKILL. -/
theorem background_process_survives :
    ¬ ∀ s, (system execConfig).Reach s → GroupKilled s := by
  intro h
  have hr := System.reach_get (system execConfig) (hangupRun ++ endRun (.signaled 1))
    start_execGroup (by decide)
  exact h _ hr (by decide) (by decide) (by decide) (by decide) (.inr ⟨0, by decide⟩)

/-- Shell and background process ignore the hang-up, and are killed after the
grace period. -/
def killRun : List Act :=
  hangupRun ++ [.session (.watcher false)] ++ (callRun 1 .kill).map .session

theorem exec_killRun : ((system execConfig).exec execGroup killRun).isSome = true := by decide

theorem group_killed_after_grace : ∃ s, (system execConfig).ReachOn LeaderLast s ∧
    s.session.ctxDone = true ∧ s.exitedFirst = false ∧ s.session.handler = .returned ∧
    s.session.watcher = .finished ∧ s.members 0 = .alive true ∧ GroupKilled s := by
  have halong : (system execConfig).Along LeaderLast execGroup
      (killRun ++ endRun (.signaled 9)) := by
    refine System.Along.append (.of_forall (by
      simp [killRun, hangupRun, callRun, LeaderLast]) _) fun t ht => ⟨fun _ => .inl fun n => ?_, ?_⟩
    · rw [← Option.some_get exec_killRun] at ht
      rw [← Option.some.inj ht]
      exact Member.kill_ne _
    · split
      · exact .of_forall (by simp [LeaderLast]) _
      · trivial
  have hon := System.reachOn_get (system execConfig) _ start_execGroup halong (by decide)
  exact ⟨_, hon, by decide, by decide, by decide, by decide, by decide,
    (group_killed_of_leaderLast execConfig).1 _ hon⟩

end WorkspaceProxy.SshServer.SessionGroup
