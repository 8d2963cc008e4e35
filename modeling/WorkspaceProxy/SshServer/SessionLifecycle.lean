import WorkspaceProxy.SshServer.SessionInvariant
import WorkspaceProxy.Conc.Fair

/-! # The lifecycle of a session

What a run of `handleSession` guarantees: the order of the signals, the single
exit status, the single release of the slot, and that nothing is signalled
once it has returned. That the deferred `stopWatch` returns is a property of
fair runs: the steps of the watcher lower a rank, and while the handler waits
for it the watcher always has a step. -/
namespace WorkspaceProxy.SshServer.Session
open WorkspaceProxy.Conc SessionCmd

variable {cfg : Config} {s s' : State}

/-! ## The handshake of `stopWatch` -/

/-- The steps of the goroutine that runs `handleSession`. -/
def OfHandler : Act → Prop
  | .handler _ | .cmd .start | .cmd .wait | .cmd .reap | .cmd (.waited _) | .cmd .waitLock
  | .cmd .mark | .cmd .waitUnlock => True
  | _ => False

/-- The steps of the goroutine that `terminateOnDisconnect` starts. -/
def OfWatcher : Act → Prop
  | .watcher _ | .cmd (.call _ _) | .cmd (.lock _) | .cmd (.check _) | .cmd (.kill _)
  | .cmd (.unlock _) => True
  | _ => False

def callRank : Call → Nat
  | .idle | .locking _ => 5
  | .checking _ => 4
  | .killing _ => 3
  | .unlocking _ => 2
  | .returned _ => 1

/-- How far the watcher is from its end. -/
def watcherRank (w : Watcher) (calls : Nat → Call) : Nat :=
  match w with
  | .unborn => 17
  | .selecting => 16
  | .attempting .hup => 15
  | .signalling .hup => 9 + callRank (calls (callNumber .hup))
  | .grace => 9
  | .attempting .kill => 8
  | .signalling .kill => 2 + callRank (calls (callNumber .kill))
  | .closing => 1
  | .finished => 0

def rank (s : State) : Nat := watcherRank s.watcher s.cmd.calls

theorem callRank_lt {copies : Bool} {i : Nat} {m c : SessionCmd.State} {a : SessionCmd.Act}
    (ha : InCall i a) (hst : SessionCmd.Step copies m a c) :
    callRank (c.calls i) < callRank (m.calls i) := by
  cases hst with
  | lock hc | skip hc | pass hc | kill hc | unlock hc =>
    cases ha
    simp [hc, callRank]
  | _ => exact ha.elim

/-- Every step of the watcher lowers the rank. -/
theorem rank_lt {a : Act} (hst : Step cfg s a s') (ha : OfWatcher a) : rank s' < rank s := by
  cases hst with
  | watcher hst =>
    cases hst with
    | seeDone hw hd => rcases hw with hw | hw <;> simp [rank, watcherRank, hw]
    | seeCtx hw hd => simp [rank, watcherRank, hw]
    | hungUp hw hr => simp [rank, watcherRank, hw, hr, callRank]
    | killed hw hr => simp [rank, watcherRank, hw, hr, callRank]
    | timer hw => simp [rank, watcherRank, hw]
    | close hw => simp [rank, watcherRank, hw]
  | cmd hctl hst =>
    have hstep := SessionCmd.step_cases hst
    cases hctl with
    | @call sig hw =>
      cases hstep
      cases sig <;> simp [rank, watcherRank, hw, callRank]
    | @inCall _ sig hw hin =>
      have hlt := callRank_lt hin hstep
      cases sig <;> simpa [rank, watcherRank, hw] using hlt
    | start | exit | wait => exact ha.elim
    | inWait hh hin => cases hstep <;> first | exact ha.elim | exact hin.elim
  | _ => exact ha.elim

theorem rank_eq_zero : rank s = 0 ↔ s.watcher = .finished := by
  unfold rank
  cases s.watcher with
  | attempting sig | signalling sig => cases sig <;> simp [watcherRank]
  | _ => simp [watcherRank]

/-- The watcher leaves the handler, `wait` and the window-size goroutine alone. -/
theorem ofWatcher_keeps {a : Act} (hst : Step cfg s a s') (ha : OfWatcher a) :
    s'.handler = s.handler ∧ s'.cmd.waiter = s.cmd.waiter ∧ s'.resizer = s.resizer ∧
      ¬ OfHandler a := by
  cases hst with
  | watcher hst => cases hst <;> exact ⟨rfl, rfl, rfl, id⟩
  | cmd hctl hst =>
    have hstep := SessionCmd.step_cases hst
    cases hctl with
    | start | exit | wait => exact ha.elim
    | inWait hh hin => cases hstep <;> first | exact ha.elim | exact hin.elim
    | call => cases hstep; exact ⟨rfl, rfl, rfl, id⟩
    | inCall hw hin => cases hstep <;> first | exact ⟨rfl, rfl, rfl, id⟩ | exact hin.elim
  | _ => exact ha.elim

/-- While the handler waits for the watcher, no step raises the rank, and the
handler leaves only when the watcher is finished. -/
theorem joining_step {a : Act} (hh : s.handler = .joining) (hst : Step cfg s a s') :
    (s.watcher = .finished ∧ s'.handler = .releasing) ∨
      (s'.handler = .joining ∧ rank s' ≤ rank s ∧ ¬ OfHandler a) := by
  by_cases ha : OfWatcher a
  · obtain ⟨hkeep, -, -, hno⟩ := ofWatcher_keeps hst ha
    exact .inr ⟨hkeep.trans hh, Nat.le_of_lt (rank_lt hst ha), hno⟩
  · cases hst with
    | handler hst =>
      cases hst with
      | join _ hw => exact .inl ⟨hw, rfl⟩
      | _ h0 => rw [hh] at h0; cases h0
    | watcher hst => exact absurd trivial ha
    | resizer hst => cases hst <;> exact .inr ⟨hh, Nat.le_refl _, id⟩
    | cmd hctl hst =>
      have hstep := SessionCmd.step_cases hst
      cases hctl with
      | start h0 | wait h0 | inWait h0 => rw [hh] at h0; cases h0
      | exit => cases hstep; exact .inr ⟨hh, Nat.le_refl _, id⟩
      | call => exact absurd trivial ha
      | inCall hw hin => cases hstep <;> first | exact absurd trivial ha | exact hin.elim
    | _ => exact .inr ⟨hh, Nat.le_refl _, id⟩

/-- Once `wait` has returned, only a call of the watcher can hold the mutex. -/
theorem Inv.mu_free {l : List Signal} {sig : Signal} {r : Option WaitError} (h : Inv cfg s)
    (hr : s.cmd.waiter = .returned r) (hact : Active s l sig)
    (hc : s.cmd.calls (callNumber sig) = .locking sig) : s.cmd.mu = none := by
  have hinv := h.cmdInv
  cases hmu : s.cmd.mu with
  | none => rfl
  | some holder =>
    cases holder with
    | waiter =>
      have := hinv.waiterHolds.mpr hmu
      rw [hr] at this
      exact this.elim
    | call i =>
      have hh := (hinv.callHolds i).mpr hmu
      obtain ⟨sig', rfl⟩ := h.calls i (by intro hi; rw [hi] at hh; exact hh)
      by_cases hs : sig' = sig
      · rw [hs, hc] at hh; exact hh.elim
      · by_cases hl : sig' ∈ l
        · rw [hact.returned sig' hl] at hh; exact hh.elim
        · rw [hact.idle sig' hl hs] at hh; exact hh.elim

/-- Inside its call the watcher has a step, unless it waits for the mutex. -/
theorem Active.enabled {l : List Signal} {sig : Signal} (hact : Active s l sig)
    (hw : s.watcher = .signalling sig)
    (hfree : s.cmd.calls (callNumber sig) = .locking sig → s.cmd.mu = none) :
    ∃ a, OfWatcher a ∧ (Session.step cfg s a).isSome = true := by
  have hcall := hact.call
  cases hc : s.cmd.calls (callNumber sig) with
  | idle => rw [hc] at hcall; exact hcall.elim
  | locking sig' =>
    rw [hc] at hcall
    cases hcall
    have hmu := hfree hc
    exact ⟨.cmd (.lock (callNumber sig)), trivial, by
      simp [Session.step, control, hw, SessionCmd.step, hc, hmu]⟩
  | checking sig' =>
    refine ⟨.cmd (.check (callNumber sig)), trivial, ?_⟩
    by_cases hf : s.cmd.reaped = true ∨ s.cmd.child = .absent
    · simp [Session.step, control, hw, SessionCmd.step, hc, hf]
    · simp [Session.step, control, hw, SessionCmd.step, hc, hf]
  | killing sig' =>
    exact ⟨.cmd (.kill (callNumber sig)), trivial, by
      simp [Session.step, control, hw, SessionCmd.step, hc]⟩
  | unlocking sig' =>
    exact ⟨.cmd (.unlock (callNumber sig)), trivial, by
      simp [Session.step, control, hw, SessionCmd.step, hc]⟩
  | returned sig' =>
    rw [hc] at hcall
    cases hcall
    exact ⟨.watcher true, trivial, by simp [Session.step, watcherStep, hw, hc]⟩

/-- While the handler waits for the watcher, the watcher is finished or has a
step. -/
theorem Inv.watcher_enabled (h : Inv cfg s) (hh : s.handler = .joining) :
    s.watcher = .finished ∨ ∃ a, OfWatcher a ∧ (Session.step cfg s a).isSome = true := by
  obtain ⟨-, -, hborn, hdone, r, hr, -⟩ := h.at_handler hh
  cases hw : s.watcher with
  | unborn => exact absurd hw hborn
  | selecting | grace =>
    exact .inr ⟨.watcher true, trivial, by simp [Session.step, watcherStep, hw, hdone]⟩
  | attempting sig =>
    have hidle : s.cmd.calls (callNumber sig) = .idle := by
      have hok := h.at_watcher hw
      cases sig with
      | hup => exact hok.2.idle .hup List.not_mem_nil
      | kill => exact Past.idle hok .kill (by decide)
    exact .inr ⟨.cmd (.call (callNumber sig) sig), trivial, by
      simp [Session.step, control, hw, SessionCmd.step, hidle]⟩
  | signalling sig =>
    have hok := h.at_watcher hw
    cases sig with
    | hup => exact .inr (Active.enabled hok hw (h.mu_free hr hok))
    | kill => exact .inr (Active.enabled hok hw (h.mu_free hr hok))
  | closing => exact .inr ⟨.watcher true, trivial, by simp [Session.step, watcherStep, hw]⟩
  | finished => exact .inl rfl

/-- The handler closes `done` and goes on to wait. -/
theorem stopping_step {a : Act} (hh : s.handler = .stopping) (hst : Step cfg s a s') :
    s'.handler = .joining ∨ (s'.handler = .stopping ∧ ¬ OfHandler a) := by
  cases hst with
  | handler hst =>
    cases hst with
    | stop => exact .inl rfl
    | _ h0 => rw [hh] at h0; cases h0
  | watcher hst => exact .inr ⟨by rw [hst.frame.handler]; exact hh, id⟩
  | resizer hst => cases hst <;> exact .inr ⟨hh, id⟩
  | cmd hctl hst =>
    have hstep := SessionCmd.step_cases hst
    cases hctl with
    | start h0 | wait h0 | inWait h0 => rw [hh] at h0; cases h0
    | exit => exact .inr ⟨hh, id⟩
    | call => exact .inr ⟨hh, id⟩
    | inCall hw hin => cases hstep <;> first | exact .inr ⟨hh, id⟩ | exact hin.elim
  | _ => exact .inr ⟨hh, id⟩

/-- The receive from `finished` returns. -/
theorem join_returns (r : (system cfg).Run) (hfh : r.Fair OfHandler) (hfw : r.Fair OfWatcher)
    {n : Nat} (hn : (r.state n).handler = .joining) :
    ∃ k, n ≤ k ∧ (r.state k).handler = .releasing := by
  have hinv := fun k => (inv_stable cfg).reach (r.reach k)
  -- first the watcher runs to its end, then the handler takes its step
  obtain ⟨k, hk, hq⟩ := r.leadsTo hfw (P := fun s => Inv cfg s ∧ s.handler = .joining)
    (Q := fun s => s.handler = .releasing ∨ (s.handler = .joining ∧ rank s = 0)) rank
    (by
      intro s ⟨hi, hh⟩
      rcases hi.watcher_enabled hh with hw | hen
      · exact .inl (.inr ⟨hh, rank_eq_zero.mpr hw⟩)
      · exact .inr hen)
    (fun s a t _ ha hst => .inr (rank_lt (step_cases hst) ha))
    (by
      intro s a t ⟨hi, hh⟩ hst
      have hst := step_cases hst
      rcases joining_step hh hst with ⟨-, hr⟩ | ⟨hj, hle, -⟩
      · exact .inl (.inl hr)
      · exact .inr ⟨⟨hi.step hst, hj⟩, hle⟩)
    ⟨hinv n, hn⟩
  rcases hq with hq | hq
  · exact ⟨k, hk, hq⟩
  · obtain ⟨m, hm, hr⟩ := r.leadsTo_next hfh (P := fun s => s.handler = .joining ∧ rank s = 0)
      (Q := fun s => s.handler = .releasing)
      (by
        intro s ⟨hh, hz⟩
        exact .inr ⟨.handler true, trivial, by
          simp [system, step, handlerStep, hh, rank_eq_zero.mp hz]⟩)
      (by
        intro s a t ⟨hh, hz⟩ hst
        rcases joining_step hh (step_cases hst) with ⟨-, hr⟩ | ⟨hj, hle, hno⟩
        · exact .inl hr
        · exact .inr ⟨⟨hj, by omega⟩, hno⟩)
      hq
    exact ⟨m, by omega, hr⟩

/-- The deferred `stopWatch` returns. -/
theorem stopWatch_returns (r : (system cfg).Run) (hfh : r.Fair OfHandler)
    (hfw : r.Fair OfWatcher) {n : Nat}
    (hn : (r.state n).handler = .stopping ∨ (r.state n).handler = .joining) :
    ∃ k, n ≤ k ∧ (r.state k).handler = .releasing := by
  rcases hn with hn | hn
  · obtain ⟨k, hk, hj⟩ := r.leadsTo_next hfh (P := fun s => s.handler = .stopping)
      (Q := fun s => s.handler = .joining)
      (fun s hh => .inr ⟨.handler true, trivial, by simp [system, step, handlerStep, hh]⟩)
      (fun s a t hh hst => stopping_step hh (step_cases hst)) hn
    obtain ⟨m, hm, hr⟩ := join_returns r hfh hfw hj
    exact ⟨m, by omega, hr⟩
  · exact join_returns r hfh hfw hn

/-! ## The lifecycle -/

/-- What holds of a session in every state. `order` says that each signal is
attempted at most once and in which order; `status` that a started process was
reaped before the client was told, and that it was told the result of that
`wait`; `unclosed` that `stopWatch` closes an open channel; `unblocked` that
its two steps never leave both goroutines without a step. -/
structure Lifecycle (cfg : Config) (s : State) : Prop where
  ended : s.attempts ≠ [] ∨ s.cmd.kills ≠ [] → s.ctxDone = true
  order : s.attempts = [] ∨ s.attempts = [.hup] ∨ s.attempts = [.hup, .kill]
  sent : (s.cmd.kills.map Kill.sig).Sublist s.attempts
  exitOnce : s.exits.length ≤ 1
  status : s.cmd.child ≠ .absent → ∀ code ∈ s.exits, ∃ status copyFailed,
    s.cmd.child = .reaped status ∧
    s.cmd.waiter = .returned (waitResult status copyFailed) ∧
    code = exitCode (waitResult status copyFailed)
  unclosed : s.handler = .stopping → s.done = false
  unblocked : s.handler = .stopping ∨ s.handler = .joining →
    ∃ a, (OfHandler a ∨ OfWatcher a) ∧ (Session.step cfg s a).isSome = true
  releaseOnce : s.releases ≤ 1
  returned : s.handler = .returned → s.exits.length = 1 ∧
    (s.watcher = .unborn ∨ s.watcher = .finished) ∧ s.slot = 0 ∧
    (s.admitted = true → s.releases = 1)

/-- The calls of the watcher, wherever it is. -/
theorem WatcherOk.attempts {w : Watcher} (h : WatcherOk s w) :
    (s.attempts ≠ [] → s.ctxDone = true) ∧
    (s.attempts = [] ∨ s.attempts = [.hup] ∨ s.attempts = [.hup, .kill]) ∧
    (s.cmd.kills.map Kill.sig).Sublist s.attempts := by
  have hpast : ∀ {l}, Past s l → (s.attempts ≠ [] → s.ctxDone = true) ∧
      (s.cmd.kills.map Kill.sig).Sublist s.attempts := by
    intro l hp
    rw [hp.attempts]
    exact ⟨hp.ended, hp.kills⟩
  have hactive : ∀ {l sig}, Active s l sig → (s.attempts ≠ [] → s.ctxDone = true) ∧
      (s.cmd.kills.map Kill.sig).Sublist s.attempts := by
    intro l sig ha
    rw [ha.attempts]
    refine ⟨fun _ => ha.ended, ha.kills.trans ?_⟩
    split
    · exact List.Sublist.refl _
    · exact List.sublist_append_left _ _
  cases w with
  | unborn | selecting =>
    exact ⟨(hpast h).1, .inl (Past.attempts h), (hpast h).2⟩
  | grace => exact ⟨(hpast h).1, .inr (.inl (Past.attempts h)), (hpast h).2⟩
  | attempting sig =>
    cases sig with
    | hup => exact ⟨(hpast h.2).1, .inl h.2.attempts, (hpast h.2).2⟩
    | kill => exact ⟨(hpast h).1, .inr (.inl (Past.attempts h)), (hpast h).2⟩
  | signalling sig =>
    cases sig with
    | hup => exact ⟨(hactive h).1, .inr (.inl (Active.attempts h)), (hactive h).2⟩
    | kill => exact ⟨(hactive h).1, .inr (.inr (Active.attempts h)), (hactive h).2⟩
  | closing | finished =>
    obtain ⟨l, hp, hl⟩ := h
    refine ⟨(hpast hp).1, ?_, (hpast hp).2⟩
    rw [hp.attempts]
    exact hl

theorem HandlerOk.exits {p : Handler} (h : HandlerOk cfg s p) :
    s.exits = [] ∨ (Unstarted s ∧ ∃ code, s.exits = [code]) ∨ Reported s := by
  have hended : Ended s → (Unstarted s ∧ ∃ code, s.exits = [code]) ∨ Reported s := by
    intro he
    rcases he with he | ⟨he, -⟩
    · exact .inl he
    · exact .inr he
  cases p with
  | acquiring | refusing | undoing => exact .inl h.2.2.2.2
  | preparing | piping | starting | failing => exact .inl h.2.2
  | spawning => exact .inl h.2.2.2.2.2
  | sizing | watchingSize | copying | stoppingResize | joiningResize | closingMaster | finishing
  | waiting => exact .inl h.2.2.2
  | exiting => exact .inl h.2.2.1
  | stopping => exact .inr (.inr h.2.2)
  | joining => exact .inr (.inr h.2.2.2.2)
  | releasing => exact .inr (hended h.2)
  | returned =>
    rcases h.2 with ⟨-, -, he⟩ | ⟨-, -, hu, he⟩
    · exact .inr (hended he)
    · exact .inr (.inl ⟨hu, _, he⟩)

theorem HandlerOk.releases {p : Handler} (h : HandlerOk cfg s p) : s.releases ≤ 1 := by
  cases p with
  | acquiring | refusing | undoing => rw [h.2.2.1]; omega
  | returned => rcases h.2 with ⟨-, hr, -⟩ | ⟨-, hr, -⟩ <;> omega
  | _ => rw [h.1.releases]; omega

theorem Inv.lifecycle (h : Inv cfg s) : Lifecycle cfg s := by
  obtain ⟨hend, horder, hsent⟩ := h.watcher.attempts
  refine ⟨?_, horder, hsent, ?_, ?_, fun hh => (h.at_handler hh).2.1.done, ?_,
    h.handler.releases, ?_⟩
  · intro hs
    rcases hs with hs | hs
    · exact hend hs
    · refine hend fun he => hs ?_
      rw [he, List.sublist_nil, List.map_eq_nil_iff] at hsent
      exact hsent
  · rcases h.handler.exits with he | ⟨-, code, he⟩ | ⟨r, -, he⟩ <;> rw [he] <;> simp
  · intro hch code hcode
    rcases h.handler.exits with he | ⟨hu, -⟩ | ⟨r, hr, he⟩
    · rw [he] at hcode; cases hcode
    · exact absurd hu.child hch
    · obtain ⟨-, status, copyFailed, hreap, -, rfl⟩ := h.cmdInv.at_waiter hr
      rw [he, List.mem_singleton] at hcode
      exact ⟨status, copyFailed, hreap, hr, hcode⟩
  · intro hh
    rcases hh with hh | hh
    · exact ⟨.handler true, .inl trivial, by simp [Session.step, Session.handlerStep, hh]⟩
    · rcases h.watcher_enabled hh with hw | ⟨a, ha, hen⟩
      · exact ⟨.handler true, .inl trivial, by simp [Session.step, Session.handlerStep, hh, hw]⟩
      · exact ⟨a, .inr ha, hen⟩
  · intro hh
    obtain ⟨hslot, ⟨hadm, hrel, hend⟩ | ⟨hadm, -, hu, he⟩⟩ := h.at_handler hh
    · rcases hend with ⟨hu, code, he⟩ | ⟨⟨r, -, he⟩, hw⟩
      · exact ⟨by rw [he]; rfl, .inl hu.watcher, hslot, fun _ => hrel⟩
      · exact ⟨by rw [he]; rfl, .inr hw, hslot, fun _ => hrel⟩
    · exact ⟨by rw [he]; rfl, .inl hu.watcher, hslot, fun hc => by rw [hadm] at hc; cases hc⟩

/-- Nothing is left that could signal. -/
structure Quiet (s : State) : Prop where
  handler : s.handler = .returned
  watcher : s.watcher = .unborn ∨ s.watcher = .finished

theorem Quiet.step {a : Act} (h : Quiet s) (hst : Step cfg s a s') :
    Quiet s' ∧ ¬ OfHandler a ∧ ¬ OfWatcher a ∧
      s'.attempts = s.attempts ∧ s'.cmd.kills = s.cmd.kills ∧ s'.exits = s.exits := by
  obtain ⟨hh, hw⟩ := h
  have hno : ∀ {w : Watcher}, s.watcher = w → w ≠ .unborn → w ≠ .finished → False := by
    intro w he hu hf
    rw [he] at hw
    exact hw.elim hu hf
  cases hst with
  | handler hst => cases hst with | _ h0 => rw [hh] at h0; cases h0
  | watcher hst =>
    cases hst with
    | seeDone h0 =>
      rcases h0 with h0 | h0
      · exact (hno h0 nofun nofun).elim
      · exact (hno h0 nofun nofun).elim
    | _ h0 => exact (hno h0 nofun nofun).elim
  | resizer hst => cases hst <;> exact ⟨⟨hh, hw⟩, id, id, rfl, rfl, rfl⟩
  | cmd hctl hst =>
    have hstep := SessionCmd.step_cases hst
    cases hctl with
    | start h0 | wait h0 | inWait h0 => rw [hh] at h0; cases h0
    | exit => cases hstep; exact ⟨⟨hh, hw⟩, id, id, rfl, rfl, rfl⟩
    | call h0 | inCall h0 => exact (hno h0 nofun nofun).elim
  | _ => exact ⟨⟨hh, hw⟩, id, id, rfl, rfl, rfl⟩

/-- **The lifecycle of a session.** Its properties hold in every state; the
deferred `stopWatch` returns in every run that is fair to the two goroutines;
and after `handleSession` has returned, whatever else happens, nothing more is
signalled and no further status is sent. -/
theorem session_lifecycle (cfg : Config) :
    (∀ s, (system cfg).Reach s → Lifecycle cfg s) ∧
    (∀ r : (system cfg).Run, r.Fair OfHandler → r.Fair OfWatcher → ∀ n,
      ((r.state n).handler = .stopping ∨ (r.state n).handler = .joining) →
      ∃ k, n ≤ k ∧ (r.state k).handler = .releasing) ∧
    (∀ s as s', (system cfg).Reach s → s.handler = .returned →
      (system cfg).exec s as = some s' →
      s'.attempts = s.attempts ∧ s'.cmd.kills = s.cmd.kills ∧ s'.exits = s.exits) := by
  refine ⟨fun s hs => ((inv_stable cfg).reach hs).lifecycle,
    fun r hfh hfw n hn => stopWatch_returns r hfh hfw hn, ?_⟩
  intro s as s' hs hh he
  have hquiet : Quiet s := ⟨hh, (((inv_stable cfg).reach hs).lifecycle.returned hh).2.1⟩
  have hkeep := System.exec_keeps (S := system cfg) (P := fun t => Quiet t ∧
    t.attempts = s.attempts ∧ t.cmd.kills = s.cmd.kills ∧ t.exits = s.exits) (by
      intro t a u ⟨hq, ha, hk, hx⟩ hst
      obtain ⟨hq', -, -, ha', hk', hx'⟩ := hq.step (step_cases hst)
      exact ⟨hq', ha'.trans ha, hk'.trans hk, hx'.trans hx⟩) ⟨hquiet, rfl, rfl, rfl⟩ he
  exact hkeep.2

/-- A session with a limit of 10, without a terminal. -/
def execConfig : Config := ⟨10, false, ⟨80, 24⟩⟩

/-- Before `handleSession`, with three other sessions. -/
def execStart : State where
  handler := .acquiring
  watcher := .unborn
  resizer := .unborn
  cmd := SessionCmd.initial
  sessions := 3
  slot := 0
  admitted := false
  releases := 0
  ctxDone := false
  done := false
  stopResize := false
  windows := []
  winClosed := false
  masterClosed := false
  resizes := []
  exits := []
  attempts := []

theorem initial_execStart : Initial execStart :=
  ⟨rfl, rfl, rfl, rfl, rfl, rfl, rfl, rfl, rfl, rfl, rfl, rfl, rfl⟩

/-- The `i`-th call of `signalGroup` up to its return. -/
def callRun (i : Nat) (sig : Signal) : List Act :=
  [.cmd (.call i sig), .cmd (.lock i), .cmd (.check i), .cmd (.kill i), .cmd (.unlock i)]

/-- The client goes away, the process ignores the hang-up, and is killed. -/
def killedRun : List Act :=
  [.handler true, .handler true, .handler true, .cmd .start, .handler true, .endCtx,
    .watcher false] ++ callRun 0 .hup ++ [.watcher true, .cmd .wait, .watcher false] ++
  callRun 1 .kill ++ [.cmd (.exit (.signaled 9)), .cmd .reap, .cmd (.waited false),
    .cmd .waitLock, .cmd .mark, .cmd .waitUnlock, .handler true, .handler true, .handler true,
    .watcher true, .watcher true, .handler true, .handler true]

theorem exec_killedRun : ((system execConfig).exec execStart killedRun).isSome = true := by
  decide

/-- The killed session, and then nothing. -/
def killedSession : (system execConfig).Run :=
  .ofList _ execStart killedRun initial_execStart exec_killedRun

/-- Its `stopWatch` returns, and the client is told 137. -/
theorem session_lifecycle_killed : killedSession.Fair OfHandler ∧
    killedSession.Fair OfWatcher ∧ (killedSession.state 28).handler = .stopping ∧
    (∃ k, 28 ≤ k ∧ (killedSession.state k).handler = .releasing) ∧
    (killedSession.state 33).handler = .returned ∧
    (killedSession.state 33).attempts = [.hup, .kill] ∧
    (killedSession.state 33).exits = [137] ∧ Lifecycle execConfig (killedSession.state 33) := by
  obtain ⟨t, ht, hquiet⟩ : ∃ t, (system execConfig).exec execStart killedRun = some t ∧ Quiet t :=
    ⟨_, (Option.some_get exec_killedRun).symm, by decide, by decide⟩
  have hfh : killedSession.Fair OfHandler := System.Run.fair_ofList ht fun a u ha hst =>
    (hquiet.step (step_cases hst)).2.1 ha
  have hfw : killedSession.Fair OfWatcher := System.Run.fair_ofList ht fun a u ha hst =>
    (hquiet.step (step_cases hst)).2.2.1 ha
  have hstop : (killedSession.state 28).handler = .stopping := by decide
  exact ⟨hfh, hfw, hstop,
    (session_lifecycle execConfig).2.1 killedSession hfh hfw 28 (.inl hstop),
    by decide, by decide, by decide,
    (session_lifecycle execConfig).1 _ (killedSession.reach 33)⟩

end WorkspaceProxy.SshServer.Session
