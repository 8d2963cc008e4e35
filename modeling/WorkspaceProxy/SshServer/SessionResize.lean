import WorkspaceProxy.SshServer.SessionEnd

/-! # The window size and the end of a terminal

The goroutine of `watchWindowSize` resizes the pty master whenever the client
changes its window, and `runWithPty` stops it, waits for it and closes the
master, in this order. So no resize comes after the close. The wait ends: the
stop case of the goroutine's select is ready from the close of `stopResize` on,
and the run-time system chooses among ready cases at random, which is the
fairness that `stopResize_taken` asks for. -/
namespace WorkspaceProxy.SshServer.Session
open WorkspaceProxy.Conc SessionCmd

variable {cfg : Config} {s s' : State} {a : Act}

/-! ## No resize after the close -/

/-- The handler has not closed the pty master. -/
def Handler.BeforeClose : Handler → Prop
  | .acquiring | .undoing | .preparing | .piping | .starting | .spawning | .sizing
  | .watchingSize | .copying | .stoppingResize | .joiningResize | .closingMaster => True
  | _ => False

structure MasterOk (s : State) : Prop where
  shut : s.masterClosed = true → s.resizer = .finished
  early : s.handler.BeforeClose → s.masterClosed = false
  joined : s.handler = .closingMaster → s.resizer = .finished
  applied : ∀ r ∈ s.resizes, r.2 = false

/-- A step that does not concern the terminal. -/
theorem MasterOk.frame (h : MasterOk s) (hc : s'.masterClosed = s.masterClosed)
    (hr : s'.resizer = s.resizer) (hz : s'.resizes = s.resizes)
    (he : s'.handler.BeforeClose → s.handler.BeforeClose)
    (hj : s'.handler = .closingMaster → s.handler = .closingMaster) : MasterOk s' where
  shut hs := hr.trans (h.shut (hc ▸ hs))
  early hb := hc.trans (h.early (he hb))
  joined hh := hr.trans (h.joined (hj hh))
  applied := hz ▸ h.applied

theorem applied_snoc {l : List (Winsize × Bool)} (h : ∀ r ∈ l, r.2 = false) {w : Winsize}
    {b : Bool} (hb : b = false) : ∀ r ∈ l ++ [(w, b)], r.2 = false := by
  intro r hr
  rcases List.mem_append.mp hr with hr | hr
  · exact h r hr
  · rw [List.mem_singleton.mp hr]
    exact hb

theorem MasterOk.handlerStep (h : MasterOk s) (hst : HandlerStep cfg s s') : MasterOk s' := by
  cases hst with
  | prepare hh | spawn hh =>
    refine h.frame rfl rfl rfl (fun _ => by rw [hh]; trivial) fun hj => ?_
    simp only [State.goto] at hj
    split at hj <;> cases hj
  | size hh =>
    have hopen := h.early (by rw [hh]; trivial)
    exact ⟨h.shut, fun _ => hopen, (fun hj => by cases hj), applied_snoc h.applied hopen⟩
  | watchSize hh =>
    have hopen := h.early (by rw [hh]; trivial)
    refine ⟨fun hs => ?_, fun _ => hopen, (fun hj => by cases hj), h.applied⟩
    rw [hopen] at hs
    cases hs
  | joinResize hh hres =>
    exact ⟨h.shut, fun _ => h.early (by rw [hh]; trivial), fun _ => hres, h.applied⟩
  | closeMaster hh =>
    exact ⟨fun _ => h.joined hh, fun hb => hb.elim, (fun hj => by cases hj), h.applied⟩
  | _ hh =>
    refine h.frame rfl rfl rfl (fun hb => ?_) fun hj => by cases hj
    first | exact hb.elim | (rw [hh]; trivial)

theorem ResizerStep.live (hst : ResizerStep s s') : s.resizer ≠ .finished := by
  cases hst with
  | seeStop hr | receive hr | seeClosed hr | apply hr | close hr => rw [hr]; nofun

/-- A goroutine that is not finished has the master open. -/
theorem MasterOk.resizerStep (h : MasterOk s) (hst : ResizerStep s s') : MasterOk s' := by
  have hlive := hst.live
  have hopen : s.masterClosed = false := Bool.eq_false_iff.mpr fun hc => hlive (h.shut hc)
  have hnot : s.handler ≠ .closingMaster := fun hh => hlive (h.joined hh)
  have hshut {q : Resizer} : s.masterClosed = true → q = .finished := fun hc => by
    rw [hopen] at hc
    cases hc
  cases hst with
  | apply hr => exact ⟨hshut, fun _ => hopen, fun hh => absurd hh hnot, applied_snoc h.applied hopen⟩
  | _ => exact ⟨hshut, fun _ => hopen, fun hh => absurd hh hnot, h.applied⟩

theorem MasterOk.step (h : MasterOk s) (hst : Step cfg s a s') : MasterOk s' := by
  cases hst with
  | handler hst => exact h.handlerStep hst
  | resizer hst => exact h.resizerStep hst
  | watcher hst => cases hst <;> exact h.frame rfl rfl rfl id id
  | cmd hctl hst =>
    cases hctl with
    | start hh => exact h.frame rfl rfl rfl (fun _ => by rw [hh]; trivial) nofun
    | wait hh => exact h.frame rfl rfl rfl (fun hb => hb.elim) nofun
    | exit | inWait | call | inCall => exact h.frame rfl rfl rfl id id
  | endCtx | others | window | closeWindows => exact h.frame rfl rfl rfl id id

theorem masterOk_stable (cfg : Config) : (system cfg).Stable MasterOk where
  init s h := by
    refine ⟨fun hs => ?_, fun _ => h.masterClosed, fun hh => ?_, by rw [h.resizes]; nofun⟩
    · rw [h.masterClosed] at hs
      cases hs
    · rw [h.handler] at hh
      cases hh
  step _ _ _ h hst := h.step (step_cases hst)

/-! ## The wait for the goroutine -/

/-- The steps of the goroutine of `watchWindowSize`. -/
def OfResizer : Act → Prop
  | .resizer _ => True
  | _ => False

/-- The goroutine's select takes the stop case. -/
def TakesStop (s : State) (a : Act) : Prop := s.resizer = .selecting ∧ a = .resizer true

/-- The handler waits on `resizeDone`. -/
structure Joining (s : State) : Prop where
  handler : s.handler = .joiningResize
  born : s.resizer ≠ .unborn
  stop : s.stopResize = true

theorem joining_of_reach (hs : (system cfg).Reach s) (hh : s.handler = .joiningResize) :
    Joining s := by
  have hok := (resizerOk_stable cfg).reach hs
  rw [hh] at hok
  exact ⟨hh, hok.1, hok.2⟩

/-- While the handler waits, only the goroutine changes where the goroutine is. -/
inductive JoiningStep (s : State) (a : Act) (s' : State) : Prop
  | join : OfHandler a → s.resizer = .finished → s'.handler = .closingMaster → JoiningStep s a s'
  | resizer : OfResizer a → ResizerStep s s' → Joining s' → JoiningStep s a s'
  | other : ¬ OfHandler a → ¬ OfResizer a → s'.resizer = s.resizer → Joining s' → JoiningStep s a s'

theorem Joining.step (h : Joining s) (hst : Step cfg s a s') : JoiningStep s a s' := by
  have keep (hr : s'.resizer = s.resizer) (hh : s'.handler = s.handler)
      (hstop : s'.stopResize = s.stopResize) : Joining s' :=
    ⟨hh.trans h.handler, hr ▸ h.born, hstop.trans h.stop⟩
  cases hst with
  | handler hst =>
    cases hst with
    | joinResize hh hres => exact .join trivial hres rfl
    | _ hh => rw [h.handler] at hh; cases hh
  | resizer hst =>
    refine .resizer trivial hst ?_
    cases hst with
    | seeStop hr | receive hr | seeClosed hr | apply hr | close hr =>
      exact ⟨h.handler, nofun, h.stop⟩
  | watcher hst => cases hst <;> exact .other id id rfl (keep rfl rfl rfl)
  | cmd hctl hst =>
    cases hctl with
    | start hh | wait hh | inWait hh => rw [h.handler] at hh; cases hh
    | exit | call => exact .other id id rfl (keep rfl rfl rfl)
    | inCall hw hin =>
      refine .other (fun ha => ?_) id rfl (keep rfl rfl rfl)
      cases SessionCmd.step_cases hst <;> first | exact ha | exact hin
  | endCtx | others | window | closeWindows => exact .other id id rfl (keep rfl rfl rfl)

/-- The goroutine alone comes to its end in at most three steps. -/
theorem Joining.ends (cfg : Config) (h : Joining s) : ∃ n ≤ 3, ∃ t,
    (system cfg).exec s (List.replicate n (.resizer true)) = some t ∧
    t.handler = .joiningResize ∧ t.resizer = .finished := by
  have hstop := h.stop
  cases hr : s.resizer with
  | unborn => exact absurd hr h.born
  | finished => exact ⟨0, by omega, s, rfl, h.handler, hr⟩
  | closing =>
    refine ⟨1, by omega, { s with resizer := .finished }, ?_, h.handler, rfl⟩
    simp [System.exec, system, Session.step, Session.resizerStep, hr]
  | selecting =>
    refine ⟨2, by omega, { s with resizer := .finished }, ?_, h.handler, rfl⟩
    simp [System.exec, system, Session.step, Session.resizerStep, hr, hstop]
  | applying win =>
    -- one more resize, while the master is still open
    refine ⟨3, by omega, { s.setWinsize win with resizer := .finished }, ?_, h.handler, rfl⟩
    simp [System.exec, system, Session.step, Session.resizerStep, hr, hstop, State.setWinsize]

theorem step_joinResize (hh : s.handler = .joiningResize) (hr : s.resizer = .finished) :
    (system cfg).step s (.handler true) = some (s.goto .closingMaster) := by
  simp [system, Session.step, Session.handlerStep, hh, hr]

theorem Joining.resizer_enabled (cfg : Config) (h : Joining s) :
    s.resizer = .finished ∨ ((system cfg).step s (.resizer true)).isSome = true := by
  have hstop := h.stop
  cases hr : s.resizer with
  | unborn => exact absurd hr h.born
  | finished => exact .inl rfl
  | selecting | applying | closing =>
    exact .inr (by simp [system, Session.step, Session.resizerStep, hr, hstop])

/-! ## Fair runs -/

/-- The goroutine has left its loop. -/
def Leaving (s : State) : Prop := s.resizer = .closing ∨ s.resizer = .finished

/-- A goroutine in its loop comes to its select. -/
theorem selecting_recurs (r : (system cfg).Run) (hfr : r.Fair OfResizer) {n : Nat}
    (h : Joining (r.state n)) (hloop : ¬ Leaving (r.state n)) :
    ∃ k, n ≤ k ∧ Joining (r.state k) ∧ (r.state k).resizer = .selecting := by
  let Applying (s : State) : Prop := Joining s ∧ ∃ win, s.resizer = .applying win
  cases hr : (r.state n).resizer with
  | unborn => exact absurd hr h.born
  | closing => exact absurd (.inl hr) hloop
  | finished => exact absurd (.inr hr) hloop
  | selecting => exact ⟨n, Nat.le_refl _, h, hr⟩
  | applying win =>
    refine r.leadsTo_next hfr (P := Applying)
      (Q := fun s => Joining s ∧ s.resizer = .selecting) ?_ ?_ ⟨h, win, hr⟩
    · intro s ⟨hj, win, hw⟩
      refine .inr ⟨.resizer true, trivial, (hj.resizer_enabled cfg).resolve_left ?_⟩
      rw [hw]
      nofun
    · intro s a t ⟨hj, win, hw⟩ hst
      cases hj.step (step_cases hst) with
      | join _ hfin => rw [hw] at hfin; cases hfin
      | other _ hno heq hj' => exact .inr ⟨⟨hj', win, heq.trans hw⟩, hno⟩
      | resizer _ hres hj' =>
        cases hres with
        | apply => exact .inl ⟨hj', rfl⟩
        | seeStop h0 | receive h0 | seeClosed h0 | close h0 => rw [hw] at h0; cases h0

/-- The stop case is ready whenever the goroutine comes to its select, so it is
taken at some time, however many windows the client sends. -/
theorem stopResize_taken (r : (system cfg).Run) (hfr : r.Fair OfResizer)
    (hsel : r.StronglyFair TakesStop) {n : Nat} (h : Joining (r.state n)) :
    ∃ k, n ≤ k ∧ Joining (r.state k) ∧ Leaving (r.state k) := by
  by_cases hloop : Leaving (r.state n)
  · exact ⟨n, Nat.le_refl _, h, hloop⟩
  · refine r.leadsTo_recurring hsel (P := fun s => Joining s ∧ ¬ Leaving s)
      (Q := fun s => Joining s ∧ Leaving s) ?_ ?_ ?_ ⟨h, hloop⟩
    · rintro s a t ⟨hj, hl⟩ hst
      have hj' : Joining t := by
        cases hj.step (step_cases hst) with
        | join _ hfin => exact absurd (.inr hfin) hl
        | resizer _ _ hj' | other _ _ _ hj' => exact hj'
      by_cases hlt : Leaving t
      · exact .inl ⟨hj', hlt⟩
      · exact .inr ⟨hj', hlt⟩
    · rintro s a t ⟨hj, -⟩ ⟨hw, rfl⟩ hst
      have hst : Session.resizerStep s true = some t := hst
      rw [Session.resizerStep, hw] at hst
      dsimp only at hst
      rw [if_pos rfl, if_pos hj.stop] at hst
      cases hst
      exact ⟨⟨hj.handler, nofun, hj.stop⟩, .inl rfl⟩
    · rintro m ⟨hj, hl⟩
      obtain ⟨k, hk, hjk, hw⟩ := selecting_recurs r hfr hj hl
      refine ⟨k, hk, .inr ⟨.resizer true, ⟨hw, rfl⟩, (hjk.resizer_enabled cfg).resolve_left ?_⟩⟩
      rw [hw]
      nofun

/-- A goroutine that has left its loop only closes its channel. -/
theorem Joining.leaving_step (h : Joining s) (hl : Leaving s) (hst : Step cfg s a s') :
    OfHandler a ∧ s'.handler = .closingMaster ∨
    OfResizer a ∧ s.resizer = .closing ∧ Joining s' ∧ s'.resizer = .finished ∨
    ¬ OfHandler a ∧ ¬ OfResizer a ∧ Joining s' ∧ s'.resizer = s.resizer := by
  cases h.step hst with
  | join ha _ hh => exact .inl ⟨ha, hh⟩
  | other hnh hnr heq hj => exact .inr (.inr ⟨hnh, hnr, hj, heq⟩)
  | resizer ha hres hj =>
    cases hres with
    | close h0 => exact .inr (.inl ⟨ha, h0, hj, rfl⟩)
    | seeStop h0 | receive h0 | seeClosed h0 | apply h0 =>
      rcases hl with hl | hl <;> (rw [hl] at h0; cases h0)

/-- The receive from `resizeDone` returns. -/
theorem resizeDone_returns (r : (system cfg).Run) (hfh : r.Fair OfHandler)
    (hfr : r.Fair OfResizer) (hsel : r.StronglyFair TakesStop) {n : Nat}
    (hn : (r.state n).handler = .joiningResize) :
    ∃ k, n ≤ k ∧ (r.state k).handler = .closingMaster := by
  obtain ⟨m, hm, hj, hl⟩ := stopResize_taken r hfr hsel (joining_of_reach (r.reach n) hn)
  -- the goroutine closes its channel, then the handler takes its step
  obtain ⟨k, hk, hq⟩ := r.leadsTo_next hfr (P := fun s => Joining s ∧ Leaving s)
    (Q := fun s => s.handler = .closingMaster ∨ Joining s ∧ s.resizer = .finished)
    (by
      intro s ⟨hj, hl⟩
      rcases hj.resizer_enabled cfg with hfin | hen
      · exact .inl (.inr ⟨hj, hfin⟩)
      · exact .inr ⟨.resizer true, trivial, hen⟩)
    (by
      intro s a t ⟨hj, hl⟩ hst
      rcases hj.leaving_step hl (step_cases hst) with ⟨-, hh⟩ | ⟨-, -, hfin⟩ | ⟨-, hno, hj', heq⟩
      · exact .inl (.inl hh)
      · exact .inl (.inr hfin)
      · exact .inr ⟨⟨hj', hl.imp heq.trans heq.trans⟩, hno⟩)
    ⟨hj, hl⟩
  rcases hq with hq | hq
  · exact ⟨k, by omega, hq⟩
  · obtain ⟨l, hkl, hh⟩ := r.leadsTo_next hfh (P := fun s => Joining s ∧ s.resizer = .finished)
      (Q := fun s => s.handler = .closingMaster)
      (fun s ⟨hj, hfin⟩ => .inr ⟨.handler true, trivial, by
        rw [step_joinResize hj.handler hfin]; rfl⟩)
      (by
        intro s a t ⟨hj, hfin⟩ hst
        rcases hj.leaving_step (.inr hfin) (step_cases hst) with ⟨-, hh⟩ | ⟨-, h0, -⟩ |
          ⟨hno, -, hj', heq⟩
        · exact .inl hh
        · rw [hfin] at h0; cases h0
        · exact .inr ⟨⟨hj', heq.trans hfin⟩, hno⟩)
      hq
    exact ⟨l, by omega, hh⟩

/-! ## The terminal of a session -/

/-- What holds of the pty master in every state: it was never resized after its
close, and a handler that waits on `resizeDone` is three steps of the goroutine
away from going on. -/
structure ResizeSafe (cfg : Config) (s : State) : Prop where
  applied : ∀ r ∈ s.resizes, r.2 = false
  unblocked : s.handler = .joiningResize → ∃ n ≤ 3, ∃ t u,
    (system cfg).exec s (List.replicate n (.resizer true)) = some t ∧
    (system cfg).step t (.handler true) = some u ∧ u.handler = .closingMaster

/-- **No resize after the close, and no wait for ever.** For every run of a
session, whatever the client and the process do and whichever case each select
takes. -/
theorem no_resize_after_close (cfg : Config) :
    (∀ s, (system cfg).Reach s → ResizeSafe cfg s) ∧
    ∀ r : (system cfg).Run, r.Fair OfHandler → r.Fair OfResizer → r.StronglyFair TakesStop →
      ∀ n, (r.state n).handler = .joiningResize →
        ∃ k, n ≤ k ∧ (r.state k).handler = .closingMaster := by
  refine ⟨fun s hs => ⟨((masterOk_stable cfg).reach hs).applied, fun hh => ?_⟩,
    fun r hfh hfr hsel n hn => resizeDone_returns r hfh hfr hsel hn⟩
  obtain ⟨n, hn, t, ht, hth, htr⟩ := (joining_of_reach hs hh).ends cfg
  exact ⟨n, hn, t, _, ht, step_joinResize hth htr, rfl⟩

/-- A session with a terminal. -/
def ptyConfig : Config := ⟨10, true, ⟨80, 24⟩⟩

/-- The client changes its window at the end of the output, and the goroutine
takes the window although `stopResize` is closed. -/
def resizeRun : List Act :=
  [.handler true, .handler true, .cmd .start, .handler true, .handler true, .handler true,
    .window ⟨100, 30⟩, .handler true, .handler true, .resizer false, .resizer true,
    .resizer true, .resizer true, .handler true, .handler true, .cmd .wait,
    .cmd (.exit (.exited 0)), .cmd .reap, .cmd (.waited false), .cmd .waitLock, .cmd .mark,
    .cmd .waitUnlock, .handler true, .handler true, .handler true, .watcher true, .watcher true,
    .handler true, .handler true]

theorem exec_resizeRun : ((system ptyConfig).exec execStart resizeRun).isSome = true := rfl

/-- That session, and then nothing. -/
def resizedSession : (system ptyConfig).Run :=
  .ofList _ execStart resizeRun initial_execStart exec_resizeRun

theorem no_resize_after_close_window : (resizedSession.state 9).handler = .joiningResize ∧
    (resizedSession.state 10).resizer = .applying ⟨100, 30⟩ ∧
    (∃ k, 9 ≤ k ∧ (resizedSession.state k).handler = .closingMaster) ∧
    (resizedSession.state 29).resizes = [(⟨24, 80⟩, false), (⟨30, 100⟩, false)] ∧
    ResizeSafe ptyConfig (resizedSession.state 29) := by
  obtain ⟨t, ht, hquiet, hfin⟩ : ∃ t, (system ptyConfig).exec execStart resizeRun = some t ∧
      Quiet t ∧ t.resizer = .finished :=
    ⟨_, (Option.some_get exec_resizeRun).symm, ⟨rfl, .inr rfl⟩, rfl⟩
  have hfh : resizedSession.Fair OfHandler := System.Run.fair_ofList ht fun a u ha hst =>
    (hquiet.step (step_cases hst)).2.1 ha
  have hfr : resizedSession.Fair OfResizer := System.Run.fair_ofList ht fun a u ha hst => by
    cases step_cases hst with
    | resizer hst => exact hst.live hfin
    | _ => exact ha
  have hsel : resizedSession.StronglyFair TakesStop :=
    System.Run.stronglyFair_ofList ht fun a u ha hst => by
      have h0 := ha.1
      rw [hfin] at h0
      cases h0
  have hn : (resizedSession.state 9).handler = .joiningResize := rfl
  exact ⟨hn, rfl, (no_resize_after_close ptyConfig).2 resizedSession hfh hfr hsel 9 hn, rfl,
    (no_resize_after_close ptyConfig).1 _ (resizedSession.reach 29)⟩

end WorkspaceProxy.SshServer.Session
