import WorkspaceProxy.Proxy.Config
import WorkspaceProxy.Proxy.SessionTeardown

/-! # How long a session lasts

`Run` arms a timer with `MaxSessionDuration`. Its callback sends a close frame, for which
it waits for `writeMu`, and arms a second timer with `closeGracePeriod`, which cancels the
context. Here the session of `Session` runs with a clock: a timer does not fire before its
time, and fires at most `lag` after it; nothing is assumed of how long the callback waits.
Each run with a clock is a run of `Session`, so what holds there holds here; what the clock
adds is when the limit cancels a session. -/
namespace WorkspaceProxy.Proxy.SessionClock
open WorkspaceProxy.Conc
open Session (Peers)

/-- The periods of the two timers, and how late a timer fires at most. -/
structure Limits where
  duration : Nat
  grace : Nat
  lag : Nat

def closeGracePeriod : Int := 5 * second

/-- What `Run` arms its timers with. A timer with a negative period fires at once. -/
def limits (c : Config) (lag : Nat) : Limits :=
  ⟨c.maxSessionDuration.toNat, closeGracePeriod.toNat, lag⟩

/-- How far the limit has come. -/
inductive Stage
  | unarmed
  | armed
  | stopped
  | calling
  | grace
  | expired
deriving DecidableEq

def stage (s : Session.State) : Stage :=
  match s.timer with
  | .unarmed => .unarmed
  | .armed => .armed
  | .stopped => .stopped
  | .locking | .writing | .unlocking | .arming => .calling
  | .finished => if s.grace = .armed then .grace else .expired

/-- `since` is when the limit came to its stage, `established` when the first timer was
armed, and `waited` how long its callback has run. -/
structure State where
  session : Session.State
  now : Nat
  since : Nat
  established : Option Nat
  waited : Nat

inductive Act
  | delay (n : Nat)
  | session (a : Session.Act)

/-- After `n` more no timer is overdue. -/
def State.mayWait (k : Limits) (s : State) (n : Nat) : Bool :=
  match stage s.session with
  | .armed => decide (s.now + n ≤ s.since + k.duration + k.lag)
  | .grace => decide (s.now + n ≤ s.since + k.grace + k.lag)
  | .unarmed | .stopped | .calling | .expired => true

/-- A timer fires when its period is over. -/
def State.mayAct (k : Limits) (s : State) (a : Session.Act) : Bool :=
  match a, stage s.session with
  | .timer, .armed => decide (s.since + k.duration ≤ s.now)
  | .grace, .grace => decide (s.since + k.grace ≤ s.now)
  | _, _ => true

def State.wait (s : State) (n : Nat) : State :=
  { s with
    now := s.now + n
    waited := if stage s.session = .calling then s.waited + n else s.waited }

/-- The session comes to `u`. -/
def State.to (s : State) (u : Session.State) : State :=
  { s with
    session := u
    since := if stage u = stage s.session then s.since else s.now
    established :=
      if stage s.session = .unarmed ∧ stage u = .armed then some s.now else s.established }

def step (k : Limits) (p : Peers) (s : State) : Act → Option State
  | .delay n => if s.mayWait k n then some (s.wait n) else none
  | .session a => if s.mayAct k a then (Session.step p s.session a).map s.to else none

def initial (p : Peers) : State := ⟨Session.initial p, 0, 0, none, 0⟩

def system (k : Limits) (p : Peers) : System State Act := ⟨(· = initial p), step k p⟩

variable {k : Limits} {p : Peers} {s t : State} {a : Act}

/-- The steps of `step`, one constructor for each. -/
inductive Step (k : Limits) (p : Peers) (s : State) : Act → State → Prop
  | delay {n} : s.mayWait k n = true → Step k p s (.delay n) (s.wait n)
  | session {a u} : s.mayAct k a = true → (Session.system p).step s.session a = some u →
      Step k p s (.session a) (s.to u)

theorem step_cases (h : step k p s a = some t) : Step k p s a t := by
  cases a with
  | delay n =>
    simp only [step] at h
    split at h
    · cases h; exact .delay ‹_›
    · cases h
  | session a =>
    simp only [step] at h
    split at h
    · obtain ⟨u, hu, rfl⟩ := Option.map_eq_some_iff.mp h
      exact .session ‹_› hu
    · cases h

/-- **A session with a clock is a session.** -/
theorem session_reach (hs : (system k p).Reach s) : (Session.system p).Reach s.session := by
  refine System.Reach.map (T := Session.system p) State.session ?_ ?_ hs
  · intro s hi
    rw [show s = initial p from hi]
    rfl
  · intro s a t hst
    cases step_cases hst with
    | delay _ => exact .inl rfl
    | session _ hu => exact .inr ⟨_, hu⟩

/-! ## The stages -/

/-- What a step of the session does to the stage. -/
inductive Advance (u v : Session.State) (b : Session.Act) : Prop
  | stay : stage v = stage u → Advance u v b
  | arm : stage u = .unarmed → stage v = .armed → Advance u v b
  | stop : stage u = .armed → stage v = .stopped → Advance u v b
  | fire : b = .timer → stage u = .armed → stage v = .calling → Advance u v b
  | callback : stage u = .calling → stage v = .grace → Advance u v b
  | cancel : b = .grace → stage u = .grace → stage v = .expired → Advance u v b

variable {u v : Session.State} {b : Session.Act}

theorem stage_congr (ht : v.timer = u.timer) (hg : v.grace = u.grace) : stage v = stage u := by
  unfold stage
  rw [ht, hg]

theorem advance_run (hinv : Session.Inv u) (hst : Session.RunStep u v) : Advance u v b := by
  cases hst with
  | armTimer hc =>
    have hcaller := hinv.caller
    rw [hc] at hcaller
    exact .arm (by simp [stage, hcaller.2.1]) rfl
  | stopTimer _ =>
    by_cases harmed : u.timer = .armed
    · exact .stop (by simp [stage, harmed]) (by simp [stage, harmed])
    · exact .stay (stage_congr (if_neg harmed) rfl)
  | _ => exact .stay (stage_congr rfl rfl)

theorem advance_timer (hst : Session.TimerStep u v) : Advance u v .timer := by
  cases hst with
  | fire ht => exact .fire rfl (by simp [stage, ht]) rfl
  | lock ht _ | write ht | unlock ht => exact .stay (by simp [stage, ht])
  | arm ht => exact .callback (by simp [stage, ht]) rfl

theorem advance (hinv : Session.Inv u) (hst : Session.Step p u b v) : Advance u v b := by
  cases hst with
  | caller h => exact advance_run hinv h
  | ping h => cases h <;> exact .stay (stage_congr rfl rfl)
  | bridge h => cases h <;> exact .stay (stage_congr rfl rfl)
  | readPump h => cases h <;> exact .stay (stage_congr rfl rfl)
  | writePump h => cases h <;> exact .stay (stage_congr rfl rfl)
  | timer h => exact advance_timer h
  | grace hg =>
    by_cases ht : u.timer = .finished
    · exact .cancel rfl (by simp [stage, ht, hg]) (by simp [stage, ht])
    · refine .stay ?_
      unfold stage
      cases htimer : u.timer with
      | finished => exact absurd htimer ht
      | _ => rfl
  | endCtx => exact .stay (stage_congr rfl rfl)

/-! ## The limit in the session

What the stages say of the session itself: the second timer is armed by the callback's last
step, and a timer that was stopped was stopped by the deferred call of `Run`. -/

/-- `Run` is past `maxDurationTimer.Stop`. -/
def Returning : Session.Caller → Prop
  | .cancelling _ | .joiningPing _ | .closingDeferred _ | .observing _ | .leaving _
  | .returned _ => True
  | _ => False

structure LimitOk (u : Session.State) : Prop where
  grace : u.grace = .unarmed ↔ u.timer ≠ .finished
  stopped : u.timer = .stopped → Returning u.caller
  cancelled : u.grace = .fired → u.ctxDone = true

/-- What the steps of the pumps, of `pingLoop` and of `Bridge.Run` leave alone. -/
theorem LimitOk.frame (h : LimitOk u) (hc : v.caller = u.caller) (ht : v.timer = u.timer)
    (hg : v.grace = u.grace) (hd : u.ctxDone = true → v.ctxDone = true) : LimitOk v where
  grace := by rw [hg, ht]; exact h.grace
  stopped := by rw [ht, hc]; exact h.stopped
  cancelled := by rw [hg]; exact fun hf => hd (h.cancelled hf)

theorem LimitOk.run (h : LimitOk u) (hinv : Session.Inv u) (hst : Session.RunStep u v) :
    LimitOk v := by
  have hcaller := hinv.caller
  cases hst with
  | armTimer hc =>
    rw [hc] at hcaller
    have hunarmed := h.grace.mpr (by rw [hcaller.2.1]; nofun)
    exact ⟨iff_of_true hunarmed nofun, nofun, h.cancelled⟩
  | stopTimer hc =>
    by_cases harmed : u.timer = .armed
    · have hunarmed := h.grace.mpr (by rw [harmed]; nofun)
      refine ⟨iff_of_true hunarmed ?_, fun _ => trivial, h.cancelled⟩
      simp [harmed]
    · refine ⟨?_, fun _ => trivial, h.cancelled⟩
      simpa [harmed] using h.grace
  | cancel _ => exact ⟨h.grace, fun _ => trivial, fun _ => rfl⟩
  | joinPing _ _ | closeDeferred _ | observe _ | leave _ =>
    exact ⟨h.grace, fun _ => trivial, h.cancelled⟩
  | setDeadline hc | setDeadlineFails hc | dial hc | dialFails hc | spawnPing hc
  | spawnBridge hc | seeBridge hc _ | seeCtx hc _ | closeWs hc | closeTcp hc =>
    -- before `Stop` no timer was stopped
    refine ⟨h.grace, fun hstopped => ?_, h.cancelled⟩
    have hreturning := h.stopped hstopped
    rw [hc] at hreturning
    exact hreturning.elim

theorem LimitOk.timer (h : LimitOk u) (hst : Session.TimerStep u v) : LimitOk v := by
  cases hst with
  | fire ht | lock ht _ | write ht | unlock ht =>
    have hunarmed := h.grace.mpr (by rw [ht]; nofun)
    exact ⟨iff_of_true hunarmed nofun, nofun, h.cancelled⟩
  | arm _ => exact ⟨iff_of_false nofun (fun hne => hne rfl), nofun, nofun⟩

theorem LimitOk.step (h : LimitOk u) (hinv : Session.Inv u) (hst : Session.Step p u b v) :
    LimitOk v := by
  cases hst with
  | caller hr => exact h.run hinv hr
  | ping hr => cases hr <;> exact h.frame rfl rfl rfl (by simp)
  | bridge hr => cases hr <;> exact h.frame rfl rfl rfl id
  | readPump hr => cases hr <;> exact h.frame rfl rfl rfl id
  | writePump hr => cases hr <;> exact h.frame rfl rfl rfl id
  | timer hr => exact h.timer hr
  | grace hg =>
    refine ⟨?_, h.stopped, fun _ => rfl⟩
    have hfinished : ¬ u.timer ≠ .finished := fun hne => by
      rw [h.grace.mpr hne] at hg
      cases hg
    exact iff_of_false nofun hfinished
  | endCtx => exact h.frame rfl rfl rfl fun _ => rfl

theorem LimitOk.stage_of_fired (h : LimitOk u) (hf : u.grace = .fired) : stage u = .expired := by
  have hfinished : u.timer = .finished := by
    by_contra hne
    rw [h.grace.mpr hne] at hf
    cases hf
  simp [stage, hfinished, hf]

theorem LimitOk.ctxDone_of_expired (h : LimitOk u) (hs : stage u = .expired) : u.ctxDone = true := by
  unfold stage at hs
  split at hs
  all_goals try cases hs
  rename_i hfinished
  cases hg : u.grace with
  | unarmed => exact absurd hfinished (h.grace.mp hg)
  | armed => simp [hg] at hs
  | fired => exact h.cancelled hg

theorem LimitOk.returning_of_stopped (h : LimitOk u) (hs : stage u = .stopped) :
    Returning u.caller := by
  refine h.stopped ?_
  unfold stage at hs
  split at hs
  case h_3 ht => exact ht
  case h_8 => split at hs <;> cases hs
  all_goals cases hs

theorem limitOk_stable (p : Peers) :
    (Session.system p).Stable fun u => Session.Inv u ∧ LimitOk u where
  init u hu := by
    refine ⟨(Session.inv_stable p).init u hu, ?_⟩
    rw [show u = Session.initial p from hu]
    exact ⟨iff_of_true rfl nofun, nofun, nofun⟩
  step u a v h hst :=
    ⟨h.1.step (Session.step_cases hst), h.2.step h.1 (Session.step_cases hst)⟩

/-! ## The limit on the clock -/

/-- When the limit came to its stage, from when the session was established. -/
def Timely (k : Limits) (s : State) : Prop :=
  match stage s.session with
  | .unarmed => s.established = none ∧ s.waited = 0
  | .armed => s.established = some s.since ∧ s.waited = 0 ∧
      s.since ≤ s.now ∧ s.now ≤ s.since + k.duration + k.lag
  | .stopped => True
  | .calling => ∃ e, s.established = some e ∧ e + k.duration ≤ s.since ∧
      s.since ≤ e + k.duration + k.lag ∧ s.now = s.since + s.waited
  | .grace => ∃ e, s.established = some e ∧ e + k.duration + s.waited ≤ s.since ∧
      s.since ≤ e + k.duration + k.lag + s.waited ∧
      s.since ≤ s.now ∧ s.now ≤ s.since + k.grace + k.lag
  | .expired => ∃ e, s.established = some e ∧
      e + k.duration + s.waited + k.grace ≤ s.since ∧ s.since ≤ s.now

theorem Timely.wait {n : Nat} (h : Timely k s) (hn : s.mayWait k n = true) :
    Timely k (s.wait n) := by
  cases hstage : stage s.session with
  | unarmed => simpa [Timely, State.wait, hstage] using h
  | stopped => simp [Timely, State.wait, hstage]
  | armed =>
    simp only [Timely, State.mayWait, State.wait, hstage, decide_eq_true_eq] at h hn ⊢
    obtain ⟨he, hw, hle, -⟩ := h
    exact ⟨he, hw, Nat.le_add_right_of_le hle, hn⟩
  | calling =>
    simp only [Timely, State.wait, hstage, if_true] at h ⊢
    obtain ⟨e, he, hlo, hhi, hnow⟩ := h
    exact ⟨e, he, hlo, hhi, by omega⟩
  | grace =>
    simp only [Timely, State.mayWait, State.wait, hstage, decide_eq_true_eq] at h hn ⊢
    obtain ⟨e, he, hlo, hhi, hle, -⟩ := h
    exact ⟨e, he, hlo, hhi, Nat.le_add_right_of_le hle, hn⟩
  | expired =>
    simp only [Timely, State.wait, hstage] at h ⊢
    obtain ⟨e, he, hlo, hle⟩ := h
    exact ⟨e, he, hlo, Nat.le_add_right_of_le hle⟩

theorem to_of_stay (h : stage u = stage s.session) : s.to u = { s with session := u } := by
  have hne : ¬ (stage s.session = .unarmed ∧ stage u = .armed) := fun hboth =>
    Stage.noConfusion (hboth.1.symm.trans (h.symm.trans hboth.2))
  unfold State.to
  rw [if_pos h, if_neg hne]

theorem Timely.to (h : Timely k s) (hb : s.mayAct k b = true) (ha : Advance s.session u b) :
    Timely k (s.to u) := by
  cases ha with
  | stay hstage =>
    rw [to_of_stay hstage]
    simpa only [Timely, hstage] using h
  | arm hu hv =>
    simp only [Timely, State.to, hu, hv] at h ⊢
    exact ⟨rfl, h.2, Nat.le_refl _, by simp only [reduceCtorEq, if_false]; omega⟩
  | stop hu hv => simp only [Timely, State.to, hv]
  | fire hb' hu hv =>
    subst hb'
    simp only [Timely, State.mayAct, State.to, hu, hv, decide_eq_true_eq] at h hb ⊢
    obtain ⟨he, hw, -, hle⟩ := h
    exact ⟨s.since, by simpa using he, by simpa using hb, by simpa using hle, by simp [hw]⟩
  | callback hu hv =>
    simp only [Timely, State.to, hu, hv] at h ⊢
    obtain ⟨e, he, hlo, hhi, hnow⟩ := h
    refine ⟨e, by simpa using he, ?_⟩
    simp only [reduceCtorEq, if_false]
    omega
  | cancel hb' hu hv =>
    subst hb'
    simp only [Timely, State.mayAct, State.to, hu, hv, decide_eq_true_eq] at h hb ⊢
    obtain ⟨e, he, hlo, -, -, -⟩ := h
    refine ⟨e, by simpa using he, ?_⟩
    simp only [reduceCtorEq, if_false]
    omega

theorem timely (hs : (system k p).Reach s) : Timely k s := by
  induction hs with
  | init hi =>
    rename_i s
    rw [show s = initial p from hi]
    exact ⟨rfl, rfl⟩
  | step hs hst ih =>
    cases step_cases hst with
    | delay hn => exact ih.wait hn
    | session hb hu =>
      have hinv := (Session.inv_stable p).reach (session_reach hs)
      exact ih.to hb (advance hinv (Session.step_cases hu))

/-- The limit does not cancel a session before its time. -/
theorem Timely.not_early {e : Nat} (h : Timely k s) (hstage : stage s.session = .expired)
    (he : s.established = some e) : e + k.duration + s.waited + k.grace ≤ s.now := by
  simp only [Timely, hstage] at h
  obtain ⟨e', he', hlo, hle⟩ := h
  cases he.symm.trans he'
  omega

/-- Where the limit has not cancelled the session nor was stopped, it is not overdue. -/
theorem Timely.not_late {e : Nat} (h : Timely k s) (he : s.established = some e)
    (hstopped : stage s.session ≠ .stopped) (hexpired : stage s.session ≠ .expired) :
    s.now ≤ e + k.duration + s.waited + k.grace + 2 * k.lag := by
  cases hstage : stage s.session with
  | stopped => exact absurd hstage hstopped
  | expired => exact absurd hstage hexpired
  | unarmed =>
    simp only [Timely, hstage] at h
    cases he.symm.trans h.1
  | armed =>
    simp only [Timely, hstage] at h
    obtain ⟨he', -, -, hle⟩ := h
    cases he.symm.trans he'
    omega
  | calling | grace =>
    simp only [Timely, hstage] at h
    obtain ⟨e', he', h⟩ := h
    cases he.symm.trans he'
    omega

/-- **When the limit ends a session.** The second timer cancels the context of a session
no earlier than `MaxSessionDuration` and `closeGracePeriod` after it was established. That
is the timer's own cancel: once the first timer has sent the close frame, a ping that
fails or the client's answer may end the session before it. And past that time, with
what the two timers were late and the time for which the callback ran, the context is
done or `Run` returns: only a callback that waits for `writeMu` keeps a session beyond
its limit. -/
theorem session_limit_kept {c : Config} {lag e : Nat} (hs : (system (limits c lag) p).Reach s)
    (he : s.established = some e) :
    (s.session.grace = .fired →
      e + c.maxSessionDuration.toNat + s.waited + closeGracePeriod.toNat ≤ s.now) ∧
    (e + c.maxSessionDuration.toNat + s.waited + closeGracePeriod.toNat + 2 * lag < s.now →
      s.session.ctxDone = true ∨ Returning s.session.caller) := by
  have htimely := timely hs
  have hok := ((limitOk_stable p).reach (session_reach hs)).2
  refine ⟨fun hf => htimely.not_early (hok.stage_of_fired hf) he, fun hpast => ?_⟩
  by_cases hexpired : stage s.session = .expired
  · exact .inl (hok.ctxDone_of_expired hexpired)
  by_cases hstopped : stage s.session = .stopped
  · exact .inr (hok.returning_of_stopped hstopped)
  have hle := htimely.not_late he hstopped hexpired
  exact absurd hpast (Nat.not_lt.mpr hle)

/-- An idle session with the default limit, whose callback runs for `3`. -/
def idleRun : List Act :=
  List.replicate 4 (.session (.caller true)) ++ [.delay 43200000000000, .session .timer, .delay 3] ++
    List.replicate 4 (.session .timer) ++ [.delay 5000000000, .session .grace, .delay 1]

theorem session_limit_kept_idle :
    ∃ s, (system (limits (readConfig fun _ => none) 0) ⟨[], none, [], false⟩).Reach s ∧
      s.established = some 0 ∧ s.session.grace = .fired ∧ 43205000000003 ≤ s.now ∧
      (s.session.ctxDone = true ∨ Returning s.session.caller) := by
  obtain ⟨s, hs, he, hf, hnow, hw⟩ :
      ∃ s, (system (limits (readConfig fun _ => none) 0) ⟨[], none, [], false⟩).Reach s ∧
        s.established = some 0 ∧ s.session.grace = .fired ∧ s.now = 43205000000004 ∧
        s.waited = 3 :=
    ⟨_, System.reach_get (system (limits (readConfig fun _ => none) 0) ⟨[], none, [], false⟩)
      idleRun rfl rfl, rfl, rfl, rfl, rfl⟩
  obtain ⟨hearly, hlate⟩ := session_limit_kept hs he
  rw [hw] at hearly hlate
  exact ⟨s, hs, he, hf, hearly hf, hlate (by rw [hnow]; decide)⟩

end WorkspaceProxy.Proxy.SessionClock
