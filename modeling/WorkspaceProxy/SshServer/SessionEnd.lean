import WorkspaceProxy.SshServer.SessionLifecycle

/-! # The end of a session

Once its process has exited, a session can always be brought to its end: the
handler comes to `wait`, `wait` sets the flag and returns, and `stopWatch`
joins the watcher. The run that does it never lets the second `signalGroup`
call of the watcher take the mutex before the flag is set, so no SIGKILL is
sent in it. -/
namespace WorkspaceProxy.SshServer.Session
open WorkspaceProxy.Conc SessionCmd

variable {cfg : Config} {s s' : State} {a : Act}

/-! ## The window-size goroutine -/

/-- What the handler relies on where it waits for the window-size goroutine. -/
def ResizerOk (s : State) : Handler → Prop
  | .copying | .stoppingResize => s.resizer ≠ .unborn
  | .joiningResize => s.resizer ≠ .unborn ∧ s.stopResize = true
  | _ => True

theorem ResizerOk.frame {h : Handler} (hok : ResizerOk s h)
    (hr : s.resizer ≠ .unborn → s'.resizer ≠ .unborn) (hs : s'.stopResize = s.stopResize) :
    ResizerOk s' h := by
  cases h with
  | copying | stoppingResize => exact hr hok
  | joiningResize => exact ⟨hr hok.1, hs.trans hok.2⟩
  | _ => trivial

theorem ResizerOk.handlerStep (h : ResizerOk s s.handler) (hst : HandlerStep cfg s s') :
    ResizerOk s' s'.handler := by
  cases hst with
  | prepare hh =>
    show ResizerOk _ (if cfg.isPty = true then .starting else .piping)
    split <;> trivial
  | spawn hh =>
    show ResizerOk _ (if cfg.isPty = true then .sizing else .finishing)
    split <;> trivial
  | watchSize hh => exact nofun
  | copied hh => rw [hh] at h; exact h
  | stopResize hh => rw [hh] at h; exact ⟨h, rfl⟩
  | _ => trivial

theorem ResizerOk.step (h : ResizerOk s s.handler) (hst : Step cfg s a s') :
    ResizerOk s' s'.handler := by
  cases hst with
  | handler hst => exact h.handlerStep hst
  | watcher hst => cases hst <;> exact h.frame id rfl
  | resizer hst => cases hst <;> exact h.frame (fun _ => nofun) rfl
  | cmd hctl hst =>
    cases hctl with
    | start | wait => trivial
    | exit | inWait | call | inCall => exact h.frame id rfl
  | endCtx | others | window | closeWindows => exact h.frame id rfl

theorem resizerOk_stable (cfg : Config) : (system cfg).Stable fun s => ResizerOk s s.handler where
  init s h := by rw [h.handler]; trivial
  step _ _ _ h hst := h.step (step_cases hst)

/-! ## What is left to do -/

def handlerRank : Handler → Nat
  | .acquiring => 20
  | .undoing => 19
  | .refusing => 18
  | .preparing => 17
  | .piping => 16
  | .starting => 15
  | .failing _ => 14
  | .spawning => 13
  | .sizing => 12
  | .watchingSize => 11
  | .copying => 10
  | .stoppingResize => 9
  | .joiningResize => 8
  | .closingMaster => 7
  | .finishing => 6
  | .waiting => 5
  | .exiting _ => 4
  | .stopping => 3
  | .joining => 2
  | .releasing => 1
  | .returned => 0

def waiterRank : Waiter → Nat
  | .idle => 6
  | .waiting => 5
  | .copying _ => 4
  | .locking _ => 3
  | .marking _ => 2
  | .unlocking _ => 1
  | .returned _ => 0

def resizerRank : Resizer → Nat
  | .unborn => 4
  | .applying _ => 3
  | .selecting => 2
  | .closing => 1
  | .finished => 0

/-- A step of the handler counts for more than the goroutines that it starts. -/
def remaining (s : State) : Nat :=
  100 * handlerRank s.handler + 20 * waiterRank s.cmd.waiter + rank s + resizerRank s.resizer

theorem HandlerStep.handlerRank_lt (hst : HandlerStep cfg s s') :
    handlerRank s'.handler < handlerRank s.handler := by
  cases hst with
  | prepare hh | spawn hh =>
    simp only [State.goto, hh]
    split <;> decide
  | _ hh => simp [State.goto, hh, handlerRank]

theorem HandlerStep.remaining_lt (hst : HandlerStep cfg s s') : remaining s' < remaining s := by
  have hh := hst.handlerRank_lt
  obtain ⟨-, -, hc, hw⟩ := hst.keeps
  have hrank : rank s' ≤ rank s + 16 := by
    rcases hw with hw | ⟨-, hw⟩
    · simp only [rank, hw, hc]; omega
    · simp only [rank, hw, watcherRank]; omega
  have hres : resizerRank s'.resizer ≤ 4 := by cases s'.resizer <;> simp [resizerRank]
  simp only [remaining, hc]
  omega

theorem ofWatcher_remaining_lt (hst : Step cfg s a s') (ha : OfWatcher a) :
    remaining s' < remaining s := by
  have hlt := rank_lt hst ha
  obtain ⟨hh, hw, hr, -⟩ := ofWatcher_keeps hst ha
  simp only [remaining, hh, hw, hr]
  omega

theorem inWait_remaining_lt {b : SessionCmd.Act} {c : SessionCmd.State} (hb : InWait b)
    (hst : SessionCmd.Step (!cfg.isPty) s.cmd b c) :
    remaining { s with cmd := c } < remaining s := by
  have hlt : waiterRank c.waiter < waiterRank s.cmd.waiter ∧ c.calls = s.cmd.calls := by
    cases hst with
    | reap hw | waited hw | waitLock hw | mark hw | waitUnlock hw =>
      rw [hw]; exact ⟨by simp [waiterRank], rfl⟩
    | _ => exact hb.elim
  obtain ⟨hlt, hcalls⟩ := hlt
  simp only [remaining, rank, hcalls]
  omega

/-! ## The end can be reached -/

/-- The process has exited. -/
def exited : Child → Bool
  | .zombie _ | .reaped _ => true
  | _ => false

/-- The watcher is inside its second `signalGroup` call, past the lock and
before its signal. -/
def KillUnderway (s : State) : Prop := (s.cmd.calls (callNumber .kill)).beforeKill = true

/-- The second `signalGroup` call does not take the mutex before the flag. -/
def KillWaits (s : State) (a : Act) : Prop :=
  a = .cmd (.lock (callNumber .kill)) → s.cmd.reaped = true

/-- A step that brings the session nearer to its end, without a SIGKILL. -/
def Advances (cfg : Config) (s : State) : Prop :=
  ∃ a t, Session.step cfg s a = some t ∧ KillWaits s a ∧ remaining t < remaining s

theorem advances_handler (h : (handlerStep cfg s true).isSome = true) : Advances cfg s := by
  obtain ⟨t, ht⟩ := Option.isSome_iff_exists.mp h
  exact ⟨.handler true, t, ht, nofun, (handler_cases ht).remaining_lt⟩

theorem advances_inWait {b : SessionCmd.Act} (hh : s.handler = .waiting) (hb : InWait b)
    (h : (SessionCmd.step (!cfg.isPty) s.cmd b).isSome = true) : Advances cfg s := by
  obtain ⟨c, hc⟩ := Option.isSome_iff_exists.mp h
  have hctl : control s b = some s := by
    cases b with
    | reap | waited | waitLock | mark | waitUnlock => exact if_pos hh
    | _ => exact hb.elim
  refine ⟨.cmd b, { s with cmd := c }, by simp only [Session.step, hctl, hc], fun he => ?_,
    inWait_remaining_lt hb (SessionCmd.step_cases hc)⟩
  cases he
  exact hb.elim

/-- Once `stopResize` is closed the window-size goroutine goes to its end. -/
theorem advances_resizer (hborn : s.resizer ≠ .unborn) (hstop : s.stopResize = true)
    (hlive : s.resizer ≠ .finished) : Advances cfg s := by
  obtain ⟨t, ht, hlt⟩ : ∃ t, resizerStep s true = some t ∧
      resizerRank t.resizer < resizerRank s.resizer := by
    unfold resizerStep
    cases hres : s.resizer with
    | unborn => exact absurd hres hborn
    | selecting => exact ⟨_, by rw [if_pos rfl, if_pos hstop], by simp [resizerRank]⟩
    | applying win => exact ⟨_, rfl, by simp [resizerRank]⟩
    | closing => exact ⟨_, rfl, by simp [resizerRank]⟩
    | finished => exact absurd hres hlive
  refine ⟨.resizer true, t, ht, nofun, ?_⟩
  cases resizer_cases ht <;> exact Nat.add_lt_add_left hlt _

/-- A call that is inside its critical section is the watcher's. -/
theorem Inv.active_of_holds {sig : Signal} (h : Inv cfg s)
    (hh : (s.cmd.calls (callNumber sig)).Holds) :
    s.watcher = .signalling sig ∧ ∃ l, Active s l sig := by
  have hpast : ∀ {l}, ¬ Past s l := by
    intro l hp
    by_cases hl : sig ∈ l
    · rw [hp.returned sig hl] at hh; exact hh
    · rw [hp.idle sig hl] at hh; exact hh
  have hactive : ∀ {l sig'}, Active s l sig' → sig' = sig := by
    intro l sig' ha
    by_contra hne
    by_cases hl : sig ∈ l
    · rw [ha.returned sig hl] at hh; exact hh
    · rw [ha.idle sig hl (Ne.symm hne)] at hh; exact hh
  have hok := h.watcher
  cases hw : s.watcher with
  | unborn | selecting | grace => rw [hw] at hok; exact (hpast hok).elim
  | attempting sig' =>
    rw [hw] at hok
    cases sig' with
    | hup => exact (hpast hok.2).elim
    | kill => exact (hpast hok).elim
  | signalling sig' =>
    rw [hw] at hok
    cases sig' with
    | hup => exact hactive hok ▸ ⟨rfl, _, hok⟩
    | kill => exact hactive hok ▸ ⟨rfl, _, hok⟩
  | closing | finished =>
    rw [hw] at hok
    obtain ⟨l, hp, -⟩ := hok
    exact (hpast hp).elim

theorem Inv.killing_sig {sig sig' : Signal} (h : Inv cfg s)
    (hc : s.cmd.calls (callNumber sig) = .killing sig') : sig' = sig := by
  have hholds : (s.cmd.calls (callNumber sig)).Holds := by rw [hc]; trivial
  obtain ⟨-, l, hact⟩ := h.active_of_holds hholds
  have hcall := hact.call
  rw [hc] at hcall
  exact hcall

/-- A call that holds the mutex goes on to release it. -/
theorem Inv.advances_holder {i : Nat} (h : Inv cfg s) (hmu : s.cmd.mu = some (.call i)) :
    Advances cfg s := by
  have hh := (h.cmdInv.callHolds i).mpr hmu
  obtain ⟨sig, rfl⟩ := h.calls i (by intro hi; rw [hi] at hh; exact hh)
  obtain ⟨hw, l, hact⟩ := h.active_of_holds hh
  obtain ⟨a, ha, hen⟩ : ∃ a, OfWatcher a ∧ (Session.step cfg s a).isSome = true :=
    hact.enabled hw fun hc => by rw [hc] at hh; exact hh.elim
  obtain ⟨t, ht⟩ := Option.isSome_iff_exists.mp hen
  refine ⟨a, t, ht, fun he => ?_, ofWatcher_remaining_lt (step_cases ht) ha⟩
  -- the mutex is taken, so the step is not a lock
  subst he
  cases step_cases ht with
  | cmd hctl hst =>
    have hstep : SessionCmd.Step (!cfg.isPty) s.cmd (.lock (callNumber .kill)) _ :=
      SessionCmd.step_cases hst
    cases hstep with
    | lock hc hfree => rw [hmu] at hfree; cases hfree

/-- Inside `wait`, over a process that has exited. -/
theorem Inv.advances_waiting (h : Inv cfg s) (hh : s.handler = .waiting)
    (hex : exited s.cmd.child = true) : Advances cfg s := by
  obtain ⟨-, -, hne, -⟩ := h.at_handler hh
  have hcmd := h.cmdInv
  cases hw : s.cmd.waiter with
  | idle => exact absurd hw hne
  | waiting =>
    obtain ⟨-, hnot, -⟩ := hcmd.at_waiter hw
    cases hc : s.cmd.child with
    | zombie status => exact advances_inWait hh (b := .reap) trivial (by simp [SessionCmd.step, hw, hc])
    | reaped => rw [hc] at hnot; cases hnot
    | absent | running => rw [hc] at hex; cases hex
  | copying => exact advances_inWait hh (b := .waited false) trivial (by simp [SessionCmd.step, hw])
  | locking =>
    cases hmu : s.cmd.mu with
    | none => exact advances_inWait hh (b := .waitLock) trivial (by simp [SessionCmd.step, hw, hmu])
    | some holder =>
      cases holder with
      | waiter =>
        have := hcmd.waiterHolds.mpr hmu
        rw [hw] at this
        exact this.elim
      | call i => exact h.advances_holder hmu
  | marking => exact advances_inWait hh (b := .mark) trivial (by simp [SessionCmd.step, hw])
  | unlocking => exact advances_inWait hh (b := .waitUnlock) trivial (by simp [SessionCmd.step, hw])
  | returned r => exact advances_handler (by simp [Session.handlerStep, hh, hw])

/-- **A session whose process has exited can be ended** without a SIGKILL. -/
theorem Inv.advances (h : Inv cfg s) (hr : ResizerOk s s.handler)
    (hex : exited s.cmd.child = true) :
    (s.handler = .returned ∧ s.watcher = .finished) ∨ Advances cfg s := by
  have hchild : s.cmd.child ≠ .absent := by intro hc; rw [hc] at hex; cases hex
  cases hh : s.handler with
  | acquiring | undoing | refusing => exact absurd (h.at_handler hh).2.2.2.1.child hchild
  | preparing | piping | starting | failing => exact absurd (h.at_handler hh).2.1.child hchild
  | spawning | sizing | watchingSize | copying | stoppingResize | closingMaster | exiting
  | stopping => exact .inr (advances_handler (by simp [Session.handlerStep, hh]))
  | joiningResize =>
    rw [hh] at hr
    refine .inr ?_
    by_cases hres : s.resizer = .finished
    · exact advances_handler (by simp [Session.handlerStep, hh, hres])
    · exact advances_resizer hr.1 hr.2 hres
  | finishing =>
    obtain ⟨-, -, hidle, -⟩ := h.at_handler hh
    refine .inr ⟨.cmd .wait, { s.goto .waiting with cmd := s.cmd.setWaiter .waiting },
      by simp [Session.step, control, hh, SessionCmd.step, hidle, hchild],
      (fun he => by cases he), ?_⟩
    show 100 * 5 + 20 * 5 + rank s + resizerRank s.resizer < remaining s
    simp only [remaining, hh, hidle, handlerRank, waiterRank]
    omega
  | waiting => exact .inr (h.advances_waiting hh hex)
  | joining =>
    obtain ⟨-, -, -, -, r, hret, -⟩ := h.at_handler hh
    refine .inr ?_
    rcases h.watcher_enabled hh with hw | ⟨a, ha, hen⟩
    · exact advances_handler (by simp [Session.handlerStep, hh, hw])
    · obtain ⟨t, ht⟩ := Option.isSome_iff_exists.mp hen
      exact ⟨a, t, ht, fun _ => (h.cmdInv.at_waiter hret).1,
        ofWatcher_remaining_lt (step_cases ht) ha⟩
  | releasing =>
    refine .inr (advances_handler ?_)
    simp only [Session.handlerStep, hh]
    split <;> rfl
  | returned =>
    obtain ⟨-, ⟨-, -, hend⟩ | ⟨-, -, hu, -⟩⟩ := h.at_handler hh
    · rcases hend with ⟨hu, -⟩ | ⟨-, hw⟩
      · exact absurd hu.child hchild
      · exact .inl ⟨rfl, hw⟩
    · exact absurd hu.child hchild

/-! ## The second signal comes to nothing -/

/-- A step of the session is a step of its process, or leaves it alone; the
context stays ended. -/
theorem step_cmd (hst : Step cfg s a s') :
    (s.ctxDone = true → s'.ctxDone = true) ∧ (s'.cmd = s.cmd ∨
      ∃ b, a = .cmd b ∧ SessionCmd.Step (!cfg.isPty) s.cmd b s'.cmd) := by
  cases hst with
  | handler hst =>
    obtain ⟨-, hd, hc, -⟩ := hst.keeps
    exact ⟨by rw [hd]; exact id, .inl hc⟩
  | watcher hst => cases hst <;> exact ⟨id, .inl rfl⟩
  | resizer hst => cases hst <;> exact ⟨id, .inl rfl⟩
  | cmd hctl hst =>
    refine ⟨?_, .inr ⟨_, rfl, SessionCmd.step_cases hst⟩⟩
    cases hctl <;> exact id
  | endCtx => exact ⟨fun _ => rfl, .inl rfl⟩
  | others | window | closeWindows => exact ⟨id, .inl rfl⟩

theorem step_exit {status : WaitStatus} (hst : Step cfg s (.cmd (.exit status)) s') :
    s.cmd.child = .running ∧ s' = { s with cmd := s.cmd.setChild (.zombie status) } := by
  cases hst with
  | cmd hctl hst =>
    have hstep : SessionCmd.Step (!cfg.isPty) s.cmd (.exit status) _ := SessionCmd.step_cases hst
    cases hctl with
    | inWait hh ha => exact ha.elim
    | inCall hh ha => exact ha.elim
    | exit => cases hstep with | exit hr => exact ⟨hr, rfl⟩

/-- The SIGKILL of the watcher is not underway, or the flag will stop it. -/
def Harmless (s : State) : Prop := KillUnderway s → s.cmd.reaped = true

theorem Harmless.step (h : Harmless s) (hk : KillWaits s a) (hst : Step cfg s a s') :
    Harmless s' := by
  rcases (step_cmd hst).2 with hc | ⟨b, rfl, hc⟩
  · unfold Harmless KillUnderway
    rw [hc]
    exact h
  · -- a call that moves is the second one, or leaves it alone
    have hmove : ∀ {j : Nat} {k : Call}, (k.beforeKill = true → j = callNumber .kill →
        s.cmd.reaped = true) →
        (Function.update s.cmd.calls j k (callNumber .kill)).beforeKill = true →
        s.cmd.reaped = true := by
      intro j k hj hu
      by_cases he : callNumber .kill = j
      · rw [← he, Function.update_self] at hu
        exact hj hu he.symm
      · rw [Function.update_of_ne he] at hu
        exact h hu
    unfold Harmless KillUnderway
    generalize s'.cmd = c at hc
    cases hc with
    | start | exit | wait | reap | waited | waitLock | waitUnlock => exact h
    | mark => exact fun _ => rfl
    | call | skip | kill | unlock => exact hmove nofun
    | lock => exact hmove fun _ hj => hk (by rw [hj])
    | @pass j sig hj hr hn => exact hmove fun _ he => h (by rw [KillUnderway, ← he, hj]; rfl)

end WorkspaceProxy.SshServer.Session
