import WorkspaceProxy.SshServer.Session

/-! # The invariant of a session

One invariant for the handler, which says at each of its steps what has been
acquired, started and reported, and one for the watcher, which says at each of
its steps which signals were attempted. A step of one goroutine leaves alone
what the invariant of the other speaks of. -/
namespace WorkspaceProxy.SshServer.Session
open WorkspaceProxy.Conc SessionCmd

variable {cfg : Config} {s s' : State}

/-! ## What the handler has done -/

/-- What an admitted session adds to `sessions`. -/
def share (cfg : Config) : Int := if cfg.maxSessions ≤ 0 then 0 else 1

/-- The session has a slot, and has not released it. -/
structure Held (cfg : Config) (s : State) : Prop where
  slot : s.slot = share cfg
  admitted : s.admitted = true
  releases : s.releases = 0

/-- No process was started, and no watcher. -/
structure Unstarted (s : State) : Prop where
  child : s.cmd.child = .absent
  waiter : s.cmd.waiter = .idle
  watcher : s.watcher = .unborn
  done : s.done = false

/-- The process was started and has a watcher, which was not told to stop. -/
structure Watched (s : State) : Prop where
  child : s.cmd.child ≠ .absent
  watcher : s.watcher ≠ .unborn
  done : s.done = false

/-- The client was told the result of `wait`. -/
def Reported (s : State) : Prop := ∃ r, s.cmd.waiter = .returned r ∧ s.exits = [exitCode r]

/-- The client was told a status, and no watcher is left. -/
def Ended (s : State) : Prop :=
  (Unstarted s ∧ ∃ code, s.exits = [code]) ∨ (Reported s ∧ s.watcher = .finished)

def HandlerOk (cfg : Config) (s : State) : Handler → Prop
  | .acquiring | .refusing =>
      s.slot = 0 ∧ s.admitted = false ∧ s.releases = 0 ∧ Unstarted s ∧ s.exits = []
  | .undoing => s.slot = 1 ∧ s.admitted = false ∧ s.releases = 0 ∧ Unstarted s ∧ s.exits = []
  | .preparing | .piping | .starting | .failing _ => Held cfg s ∧ Unstarted s ∧ s.exits = []
  | .spawning => Held cfg s ∧ s.cmd.child ≠ .absent ∧ s.cmd.waiter = .idle ∧
      s.watcher = .unborn ∧ s.done = false ∧ s.exits = []
  | .sizing | .watchingSize | .copying | .stoppingResize | .joiningResize | .closingMaster
  | .finishing => Held cfg s ∧ Watched s ∧ s.cmd.waiter = .idle ∧ s.exits = []
  | .waiting => Held cfg s ∧ Watched s ∧ s.cmd.waiter ≠ .idle ∧ s.exits = []
  | .exiting code => Held cfg s ∧ Watched s ∧ s.exits = [] ∧
      ∃ r, s.cmd.waiter = .returned r ∧ code = exitCode r
  | .stopping => Held cfg s ∧ Watched s ∧ Reported s
  | .joining => Held cfg s ∧ s.cmd.child ≠ .absent ∧ s.watcher ≠ .unborn ∧ s.done = true ∧
      Reported s
  | .releasing => Held cfg s ∧ Ended s
  | .returned => s.slot = 0 ∧ ((s.admitted = true ∧ s.releases = 1 ∧ Ended s) ∨
      (s.admitted = false ∧ s.releases = 0 ∧ Unstarted s ∧ s.exits = [exitCodeGeneralError]))

/-- What the other goroutines and the environment leave alone. -/
structure Frame (s s' : State) : Prop where
  handler : s'.handler = s.handler
  slot : s'.slot = s.slot
  admitted : s'.admitted = s.admitted
  releases : s'.releases = s.releases
  done : s'.done = s.done
  exits : s'.exits = s.exits
  child : s'.cmd.child = .absent ↔ s.cmd.child = .absent
  waiter : s'.cmd.waiter = s.cmd.waiter
  unborn : s'.watcher = .unborn ↔ s.watcher = .unborn
  finished : s.watcher = .finished → s'.watcher = .finished

theorem Held.frame (h : Held cfg s) (hf : Frame s s') : Held cfg s' :=
  ⟨hf.slot.trans h.slot, hf.admitted.trans h.admitted, hf.releases.trans h.releases⟩

theorem Unstarted.frame (h : Unstarted s) (hf : Frame s s') : Unstarted s' :=
  ⟨hf.child.mpr h.child, hf.waiter.trans h.waiter, hf.unborn.mpr h.watcher,
    hf.done.trans h.done⟩

theorem Watched.frame (h : Watched s) (hf : Frame s s') : Watched s' :=
  ⟨fun hc => h.child (hf.child.mp hc), fun hw => h.watcher (hf.unborn.mp hw),
    hf.done.trans h.done⟩

theorem Reported.frame (h : Reported s) (hf : Frame s s') : Reported s' := by
  obtain ⟨r, hw, he⟩ := h
  exact ⟨r, hf.waiter.trans hw, hf.exits.trans he⟩

theorem Ended.frame (h : Ended s) (hf : Frame s s') : Ended s' := by
  rcases h with ⟨hu, code, he⟩ | ⟨hr, hw⟩
  · exact .inl ⟨hu.frame hf, code, hf.exits.trans he⟩
  · exact .inr ⟨hr.frame hf, hf.finished hw⟩

/-- What the handler does to the slot does not matter. -/
theorem Ended.keep (h : Ended s) (hc : s'.cmd = s.cmd) (hw : s'.watcher = s.watcher)
    (hd : s'.done = s.done) (he : s'.exits = s.exits) : Ended s' := by
  rcases h with ⟨hu, code, hx⟩ | ⟨⟨r, hr, hx⟩, hf⟩
  · exact .inl ⟨⟨by rw [hc]; exact hu.child, by rw [hc]; exact hu.waiter, hw.trans hu.watcher,
      hd.trans hu.done⟩, code, he.trans hx⟩
  · exact .inr ⟨⟨r, by rw [hc]; exact hr, he.trans hx⟩, hw.trans hf⟩

theorem HandlerOk.frame {h : Handler} (hok : HandlerOk cfg s h) (hf : Frame s s') :
    HandlerOk cfg s' h := by
  have hslot := hf.slot
  have hadm := hf.admitted
  have hrel := hf.releases
  have hex := hf.exits
  cases h with
  | acquiring | refusing | undoing =>
    obtain ⟨h1, h2, h3, h4, h5⟩ := hok
    exact ⟨hslot.trans h1, hadm.trans h2, hrel.trans h3, h4.frame hf, hex.trans h5⟩
  | preparing | piping | starting | failing =>
    obtain ⟨h1, h2, h3⟩ := hok
    exact ⟨h1.frame hf, h2.frame hf, hex.trans h3⟩
  | spawning =>
    obtain ⟨h1, h2, h3, h4, h5, h6⟩ := hok
    exact ⟨h1.frame hf, fun hc => h2 (hf.child.mp hc), hf.waiter.trans h3, hf.unborn.mpr h4,
      hf.done.trans h5, hex.trans h6⟩
  | sizing | watchingSize | copying | stoppingResize | joiningResize | closingMaster
  | finishing =>
    obtain ⟨h1, h2, h3, h4⟩ := hok
    exact ⟨h1.frame hf, h2.frame hf, hf.waiter.trans h3, hex.trans h4⟩
  | waiting =>
    obtain ⟨h1, h2, h3, h4⟩ := hok
    exact ⟨h1.frame hf, h2.frame hf, fun hw => h3 (hf.waiter ▸ hw), hex.trans h4⟩
  | exiting code =>
    obtain ⟨h1, h2, h3, r, h4, h5⟩ := hok
    exact ⟨h1.frame hf, h2.frame hf, hex.trans h3, r, hf.waiter.trans h4, h5⟩
  | stopping =>
    obtain ⟨h1, h2, h3⟩ := hok
    exact ⟨h1.frame hf, h2.frame hf, h3.frame hf⟩
  | joining =>
    obtain ⟨h1, h2, h3, h4, h5⟩ := hok
    exact ⟨h1.frame hf, fun hc => h2 (hf.child.mp hc), fun hw => h3 (hf.unborn.mp hw),
      hf.done.trans h4, h5.frame hf⟩
  | releasing => exact ⟨hok.1.frame hf, hok.2.frame hf⟩
  | returned =>
    refine ⟨hslot.trans hok.1, ?_⟩
    rcases hok.2 with ⟨h1, h2, h3⟩ | ⟨h1, h2, h3, h4⟩
    · exact .inl ⟨hadm.trans h1, hrel.trans h2, h3.frame hf⟩
    · exact .inr ⟨hadm.trans h1, hrel.trans h2, h3.frame hf, hex.trans h4⟩

theorem HandlerOk.step (h : HandlerOk cfg s s.handler) (hst : HandlerStep cfg s s') :
    HandlerOk cfg s' s'.handler := by
  have hat : ∀ {p : Handler}, s.handler = p → HandlerOk cfg s p := fun hp => hp ▸ h
  cases hst with
  | unlimited hh hm =>
    obtain ⟨h1, -, h3, ⟨h4, h5, h6, h7⟩, h8⟩ := hat hh
    have hs : share cfg = 0 := if_pos hm
    exact ⟨⟨h1.trans hs.symm, rfl, h3⟩, ⟨h4, h5, h6, h7⟩, h8⟩
  | overLimit hh hm ho =>
    obtain ⟨h1, h2, h3, ⟨h4, h5, h6, h7⟩, h8⟩ := hat hh
    refine ⟨?_, h2, h3, ⟨h4, h5, h6, h7⟩, h8⟩
    show s.slot + 1 = 1
    rw [h1]; rfl
  | acquire hh hm ho =>
    obtain ⟨h1, -, h3, ⟨h4, h5, h6, h7⟩, h8⟩ := hat hh
    have hs : share cfg = 1 := if_neg (by omega)
    refine ⟨⟨?_, rfl, h3⟩, ⟨h4, h5, h6, h7⟩, h8⟩
    show s.slot + 1 = share cfg
    rw [h1, hs]; rfl
  | undo hh =>
    obtain ⟨h1, h2, h3, ⟨h4, h5, h6, h7⟩, h8⟩ := hat hh
    refine ⟨?_, h2, h3, ⟨h4, h5, h6, h7⟩, h8⟩
    show s.slot + -1 = 0
    rw [h1]; rfl
  | refuse hh =>
    obtain ⟨h1, h2, h3, ⟨h4, h5, h6, h7⟩, h8⟩ := hat hh
    refine ⟨h1, .inr ⟨h2, h3, ⟨h4, h5, h6, h7⟩, ?_⟩⟩
    show s.exits ++ [_] = _
    rw [h8]; rfl
  | prepare hh =>
    obtain ⟨⟨h1, h2, h3⟩, ⟨h4, h5, h6, h7⟩, h8⟩ := hat hh
    simp only [State.goto]
    split <;> exact ⟨⟨h1, h2, h3⟩, ⟨h4, h5, h6, h7⟩, h8⟩
  | stdinPipe hh | stdinPipeFails hh | startFails hh =>
    obtain ⟨⟨h1, h2, h3⟩, ⟨h4, h5, h6, h7⟩, h8⟩ := hat hh
    exact ⟨⟨h1, h2, h3⟩, ⟨h4, h5, h6, h7⟩, h8⟩
  | @fail code hh =>
    obtain ⟨⟨h1, h2, h3⟩, ⟨h4, h5, h6, h7⟩, h8⟩ := hat hh
    refine ⟨⟨h1, h2, h3⟩, .inl ⟨⟨h4, h5, h6, h7⟩, code, ?_⟩⟩
    show s.exits ++ [_] = _
    rw [h8]; rfl
  | spawn hh =>
    obtain ⟨⟨h1, h2, h3⟩, h4, h5, -, h7, h8⟩ := hat hh
    show HandlerOk cfg _ (if cfg.isPty = true then .sizing else .finishing)
    split <;> exact ⟨⟨h1, h2, h3⟩, ⟨h4, nofun, h7⟩, h5, h8⟩
  | size hh | watchSize hh | copied hh | stopResize hh | joinResize hh hr | closeMaster hh =>
    obtain ⟨⟨h1, h2, h3⟩, ⟨h4, h5, h6⟩, h7, h8⟩ := hat hh
    exact ⟨⟨h1, h2, h3⟩, ⟨h4, h5, h6⟩, h7, h8⟩
  | @waited r hh hr =>
    obtain ⟨⟨h1, h2, h3⟩, ⟨h4, h5, h6⟩, -, h8⟩ := hat hh
    exact ⟨⟨h1, h2, h3⟩, ⟨h4, h5, h6⟩, h8, r, hr, rfl⟩
  | exit hh =>
    obtain ⟨⟨h1, h2, h3⟩, ⟨h4, h5, h6⟩, h7, r, h8, rfl⟩ := hat hh
    refine ⟨⟨h1, h2, h3⟩, ⟨h4, h5, h6⟩, r, h8, ?_⟩
    show s.exits ++ [_] = _
    rw [h7]; rfl
  | stop hh =>
    obtain ⟨⟨h1, h2, h3⟩, ⟨h4, h5, -⟩, r, h7, h8⟩ := hat hh
    exact ⟨⟨h1, h2, h3⟩, h4, h5, rfl, r, h7, h8⟩
  | join hh hw =>
    obtain ⟨⟨h1, h2, h3⟩, -, -, -, r, h7, h8⟩ := hat hh
    exact ⟨⟨h1, h2, h3⟩, .inr ⟨⟨r, h7, h8⟩, hw⟩⟩
  | releaseUnlimited hh hm =>
    obtain ⟨⟨h1, h2, h3⟩, hend⟩ := hat hh
    have hs : share cfg = 0 := if_pos hm
    exact ⟨h1.trans hs, .inl ⟨h2, congrArg (· + 1) h3, hend.keep rfl rfl rfl rfl⟩⟩
  | release hh hm =>
    obtain ⟨⟨h1, h2, h3⟩, hend⟩ := hat hh
    have hs : share cfg = 1 := if_neg (by omega)
    refine ⟨?_, .inl ⟨h2, congrArg (· + 1) h3, hend.keep rfl rfl rfl rfl⟩⟩
    show s.slot + -1 = 0
    rw [h1, hs]; rfl

/-! ## What the watcher has done -/

/-- The call was made for `sig`. -/
def InFlight (sig : Signal) : Call → Prop
  | .idle => False
  | .locking s | .checking s | .killing s | .unlocking s | .returned s => s = sig

/-- The call is past the point where it signals. -/
def sent : Call → Bool
  | .unlocking _ | .returned _ => true
  | _ => false

/-- The calls of the watcher so far, all returned, are those for `l`. -/
structure Past (s : State) (l : List Signal) : Prop where
  attempts : s.attempts = l
  ended : l ≠ [] → s.ctxDone = true
  returned : ∀ sig ∈ l, s.cmd.calls (callNumber sig) = .returned sig
  idle : ∀ sig, sig ∉ l → s.cmd.calls (callNumber sig) = .idle
  kills : (s.cmd.kills.map Kill.sig).Sublist l

/-- The watcher is inside the call for `sig`, after those for `l`. -/
structure Active (s : State) (l : List Signal) (sig : Signal) : Prop where
  attempts : s.attempts = l ++ [sig]
  ended : s.ctxDone = true
  fresh : sig ∉ l
  returned : ∀ sig' ∈ l, s.cmd.calls (callNumber sig') = .returned sig'
  idle : ∀ sig', sig' ∉ l → sig' ≠ sig → s.cmd.calls (callNumber sig') = .idle
  call : InFlight sig (s.cmd.calls (callNumber sig))
  kills : (s.cmd.kills.map Kill.sig).Sublist
    (if sent (s.cmd.calls (callNumber sig)) = true then l ++ [sig] else l)

def WatcherOk (s : State) : Watcher → Prop
  | .unborn | .selecting => Past s []
  | .attempting .hup => s.ctxDone = true ∧ Past s []
  | .signalling .hup => Active s [] .hup
  | .grace | .attempting .kill => Past s [.hup]
  | .signalling .kill => Active s [.hup] .kill
  | .closing | .finished => ∃ l, Past s l ∧ (l = [] ∨ l = [.hup] ∨ l = [.hup, .kill])

theorem callNumber_inj {a b : Signal} (h : callNumber a = callNumber b) : a = b := by
  cases a <;> cases b <;> first | rfl | cases h

theorem Past.frame {l : List Signal} (h : Past s l) (ha : s'.attempts = s.attempts)
    (hd : s.ctxDone = true → s'.ctxDone = true) (hc : s'.cmd.calls = s.cmd.calls)
    (hk : s'.cmd.kills = s.cmd.kills) : Past s' l :=
  ⟨ha.trans h.attempts, fun hl => hd (h.ended hl), by rw [hc]; exact h.returned,
    by rw [hc]; exact h.idle, by rw [hk]; exact h.kills⟩

theorem Active.frame {l : List Signal} {sig : Signal} (h : Active s l sig)
    (ha : s'.attempts = s.attempts) (hd : s.ctxDone = true → s'.ctxDone = true)
    (hc : s'.cmd.calls = s.cmd.calls) (hk : s'.cmd.kills = s.cmd.kills) : Active s' l sig :=
  ⟨ha.trans h.attempts, hd h.ended, h.fresh, by rw [hc]; exact h.returned,
    by rw [hc]; exact h.idle, by rw [hc]; exact h.call, by rw [hc, hk]; exact h.kills⟩

theorem WatcherOk.frame {w : Watcher} (h : WatcherOk s w) (ha : s'.attempts = s.attempts)
    (hd : s.ctxDone = true → s'.ctxDone = true) (hc : s'.cmd.calls = s.cmd.calls)
    (hk : s'.cmd.kills = s.cmd.kills) : WatcherOk s' w := by
  cases w with
  | unborn | selecting | grace => exact Past.frame h ha hd hc hk
  | attempting sig =>
    cases sig with
    | hup => exact ⟨hd h.1, h.2.frame ha hd hc hk⟩
    | kill => exact Past.frame h ha hd hc hk
  | signalling sig => cases sig <;> exact Active.frame h ha hd hc hk
  | closing | finished =>
    obtain ⟨l, hp, hl⟩ := h
    exact ⟨l, hp.frame ha hd hc hk, hl⟩

/-- The watcher makes its next call. -/
theorem Past.call {l : List Signal} {sig : Signal} {w : Watcher} (h : Past s l)
    (hd : s.ctxDone = true) (hn : sig ∉ l) :
    Active { s with
      watcher := w
      attempts := s.attempts ++ [sig]
      cmd := s.cmd.setCall (callNumber sig) (.locking sig) } l sig where
  attempts := by rw [h.attempts]
  ended := hd
  fresh := hn
  returned sig' hs := by
    have hne : callNumber sig' ≠ callNumber sig := fun he => hn (callNumber_inj he ▸ hs)
    exact (Function.update_of_ne hne _ _).trans (h.returned sig' hs)
  idle sig' hs hne :=
    (Function.update_of_ne (fun he => hne (callNumber_inj he)) _ _).trans (h.idle sig' hs)
  call := by
    show InFlight sig (Function.update s.cmd.calls (callNumber sig) (.locking sig) _)
    rw [Function.update_self]
    exact rfl
  kills := by
    simp only [SessionCmd.State.setCall_calls, Function.update_self]
    exact h.kills

/-- The call returns. -/
theorem Active.past {l : List Signal} {sig : Signal} (h : Active s l sig)
    (hr : s.cmd.calls (callNumber sig) = .returned sig) : Past s (l ++ [sig]) where
  attempts := h.attempts
  ended _ := h.ended
  returned sig' hs := by
    rcases List.mem_append.mp hs with hs | hs
    · exact h.returned sig' hs
    · rw [List.mem_singleton.mp hs]; exact hr
  idle sig' hs := by
    rw [List.mem_append, List.mem_singleton, not_or] at hs
    exact h.idle sig' hs.1 hs.2
  kills := by
    have := h.kills
    rw [hr] at this
    exact this

/-- The call moves on. -/
theorem Active.move {l : List Signal} {sig : Signal} {c : SessionCmd.State} {k : Call}
    (h : Active s l sig) (hc : c.calls = Function.update s.cmd.calls (callNumber sig) k)
    (hk : InFlight sig k)
    (hkills : (c.kills.map Kill.sig).Sublist (if sent k = true then l ++ [sig] else l)) :
    Active { s with cmd := c } l sig where
  attempts := h.attempts
  ended := h.ended
  fresh := h.fresh
  returned sig' hs := by
    have hne : callNumber sig' ≠ callNumber sig := fun he => h.fresh (callNumber_inj he ▸ hs)
    rw [hc, Function.update_of_ne hne]
    exact h.returned sig' hs
  idle sig' hs hne := by
    rw [hc, Function.update_of_ne fun he => hne (callNumber_inj he)]
    exact h.idle sig' hs hne
  call := by rw [hc, Function.update_self]; exact hk
  kills := by rw [hc, Function.update_self]; exact hkills

theorem Active.inCall {copies : Bool} {l : List Signal} {sig : Signal} {a : SessionCmd.Act}
    {c : SessionCmd.State} (h : Active s l sig) (ha : InCall (callNumber sig) a)
    (hst : SessionCmd.Step copies s.cmd a c) : Active { s with cmd := c } l sig := by
  have hcall := h.call
  have hkills := h.kills
  cases hst with
  | lock hc hm | pass hc hr hn =>
    cases ha
    rw [hc] at hcall hkills
    cases hcall
    exact h.move rfl rfl hkills
  | skip hc hr =>
    cases ha
    rw [hc] at hcall hkills
    cases hcall
    exact h.move rfl rfl (hkills.trans (List.sublist_append_left _ _))
  | kill hc =>
    cases ha
    rw [hc] at hcall hkills
    cases hcall
    refine h.move rfl rfl ?_
    rw [SessionCmd.State.kill_kills, List.map_append]
    exact hkills.append (List.Sublist.refl _)
  | unlock hc =>
    cases ha
    rw [hc] at hcall hkills
    cases hcall
    exact h.move rfl rfl hkills
  | _ => cases ha

theorem WatcherOk.step (h : WatcherOk s s.watcher) (hst : WatcherStep s s') :
    WatcherOk s' s'.watcher := by
  have hat : ∀ {w : Watcher}, s.watcher = w → WatcherOk s w := fun hw => hw ▸ h
  cases hst with
  | seeDone hw hd =>
    rcases hw with hw | hw
    · exact ⟨[], Past.frame (hat hw) rfl id rfl rfl, .inl rfl⟩
    · exact ⟨[.hup], Past.frame (hat hw) rfl id rfl rfl, .inr (.inl rfl)⟩
  | seeCtx hw hd => exact ⟨hd, Past.frame (hat hw) rfl id rfl rfl⟩
  | hungUp hw hr =>
    have hact : Active s [] .hup := hat hw
    exact (hact.past hr).frame rfl id rfl rfl
  | killed hw hr =>
    have hact : Active s [.hup] .kill := hat hw
    exact ⟨[.hup, .kill], (hact.past hr).frame rfl id rfl rfl, .inr (.inr rfl)⟩
  | timer hw => exact Past.frame (hat hw) rfl id rfl rfl
  | close hw =>
    obtain ⟨l, hp, hl⟩ := hat hw
    exact ⟨l, hp.frame rfl id rfl rfl, hl⟩

/-! ## The invariant of the session -/

structure Inv (cfg : Config) (s : State) : Prop where
  handler : HandlerOk cfg s s.handler
  watcher : WatcherOk s s.watcher
  cmd : (SessionCmd.system (!cfg.isPty)).Reach s.cmd
  calls : ∀ i, s.cmd.calls i ≠ .idle → ∃ sig, i = callNumber sig

theorem Inv.at_handler {p : Handler} (h : Inv cfg s) (hp : s.handler = p) : HandlerOk cfg s p :=
  hp ▸ h.handler

theorem Inv.at_watcher {w : Watcher} (h : Inv cfg s) (hw : s.watcher = w) : WatcherOk s w :=
  hw ▸ h.watcher

theorem Inv.cmdInv (h : Inv cfg s) : SessionCmd.Inv (!cfg.isPty) s.cmd :=
  (SessionCmd.inv_stable _).reach h.cmd

theorem HandlerStep.keeps (hst : HandlerStep cfg s s') : s'.attempts = s.attempts ∧
    s'.ctxDone = s.ctxDone ∧ s'.cmd = s.cmd ∧
    (s'.watcher = s.watcher ∨ s.handler = .spawning ∧ s'.watcher = .selecting) := by
  cases hst with
  | spawn hh => exact ⟨rfl, rfl, rfl, .inr ⟨hh, rfl⟩⟩
  | _ => exact ⟨rfl, rfl, rfl, .inl rfl⟩

theorem Inv.handlerStep (h : Inv cfg s) (hst : HandlerStep cfg s s') : Inv cfg s' := by
  obtain ⟨ha, hd, hc, hw⟩ := hst.keeps
  refine ⟨h.handler.step hst, ?_, by rw [hc]; exact h.cmd, by rw [hc]; exact h.calls⟩
  have hframe : ∀ {w : Watcher}, WatcherOk s w → WatcherOk s' w := fun hok =>
    hok.frame ha (by rw [hd]; exact id) (by rw [hc]) (by rw [hc])
  rcases hw with hw | ⟨hh, hw⟩
  · rw [hw]; exact hframe h.watcher
  · have hu := (h.at_handler hh).2.2.2.1
    have hpast : Past s [] := h.at_watcher hu
    rw [hw]; exact hframe (w := .selecting) hpast

theorem WatcherStep.frame (hst : WatcherStep s s') : Frame s s' := by
  have hmove : ∀ w w' : Watcher, s.watcher = w → w ≠ .unborn → w ≠ .finished → w' ≠ .unborn →
      Frame s { s with watcher := w' } := by
    intro w w' hw hu hf hu'
    exact ⟨rfl, rfl, rfl, rfl, rfl, rfl, Iff.rfl, rfl,
      iff_of_false hu' (by rw [hw]; exact hu), fun he => absurd (hw.symm.trans he) hf⟩
  cases hst with
  | seeDone hw hd => rcases hw with hw | hw <;> exact hmove _ _ hw nofun nofun nofun
  | seeCtx hw hd => exact hmove _ _ hw nofun nofun nofun
  | hungUp hw hr => exact hmove _ _ hw nofun nofun nofun
  | killed hw hr => exact hmove _ _ hw nofun nofun nofun
  | timer hw => exact hmove _ _ hw nofun nofun nofun
  | close hw => exact hmove _ _ hw nofun nofun nofun

theorem WatcherStep.keeps (hst : WatcherStep s s') : s'.cmd = s.cmd := by
  cases hst <;> rfl

/-- A step that only concerns the window or the environment. -/
theorem Inv.frame (h : Inv cfg s) (hh : s'.handler = s.handler) (hw : s'.watcher = s.watcher)
    (hc : s'.cmd = s.cmd) (hslot : s'.slot = s.slot) (hadm : s'.admitted = s.admitted)
    (hrel : s'.releases = s.releases) (hdone : s'.done = s.done) (hex : s'.exits = s.exits)
    (ha : s'.attempts = s.attempts) (hd : s.ctxDone = true → s'.ctxDone = true) : Inv cfg s' := by
  have hf : Frame s s' := ⟨hh, hslot, hadm, hrel, hdone, hex, by rw [hc], by rw [hc],
    by rw [hw], fun he => by rw [hw]; exact he⟩
  refine ⟨?_, ?_, by rw [hc]; exact h.cmd, by rw [hc]; exact h.calls⟩
  · rw [hh]; exact h.handler.frame hf
  · rw [hw]; exact h.watcher.frame ha hd (by rw [hc]) (by rw [hc])

theorem inWait_keeps {copies : Bool} {m c : SessionCmd.State} {a : SessionCmd.Act} (ha : InWait a)
    (hst : SessionCmd.Step copies m a c) : c.calls = m.calls ∧ c.kills = m.kills ∧
      (c.child = .absent → m.child = .absent) ∧ c.waiter ≠ .idle := by
  cases hst with
  | reap hw hch => exact ⟨rfl, rfl, nofun, nofun⟩
  | waited | waitLock | mark | waitUnlock => exact ⟨rfl, rfl, id, nofun⟩
  | _ => exact ha.elim

theorem inCall_keeps {copies : Bool} {i : Nat} {m c : SessionCmd.State} {a : SessionCmd.Act}
    (ha : InCall i a) (hst : SessionCmd.Step copies m a c) :
    c.child = m.child ∧ c.waiter = m.waiter := by
  cases hst with
  | lock | skip | pass | kill | unlock => exact ⟨rfl, rfl⟩
  | _ => exact ha.elim

/-- Only the watcher's calls are ever made. -/
theorem Inv.cmd_calls {a : SessionCmd.Act} {c : SessionCmd.State} (h : Inv cfg s)
    (hctl : Control s a s') (hst : SessionCmd.Step (!cfg.isPty) s.cmd a c) :
    ∀ i, c.calls i ≠ .idle → ∃ sig, i = callNumber sig := by
  have hupdate : ∀ (sig : Signal) (k : Call) (i : Nat),
      Function.update s.cmd.calls (callNumber sig) k i ≠ .idle → ∃ sig, i = callNumber sig := by
    intro sig k i hi
    by_cases he : i = callNumber sig
    · exact ⟨sig, he⟩
    · rw [Function.update_of_ne he] at hi
      exact h.calls i hi
  cases hctl with
  | start | exit | wait => cases hst; exact h.calls
  | inWait hh ha => rw [(inWait_keeps ha hst).1]; exact h.calls
  | call hw => cases hst; exact hupdate _ _
  | inCall hw ha =>
    cases hst with
    | lock | skip | pass | kill | unlock => cases ha; exact hupdate _ _
    | _ => exact ha.elim

theorem Inv.cmdStep {a : SessionCmd.Act} {c : SessionCmd.State} (h : Inv cfg s)
    (hctl : Control s a s') (hst : (SessionCmd.system (!cfg.isPty)).step s.cmd a = some c) :
    Inv cfg { s' with cmd := c } := by
  have hstep := SessionCmd.step_cases hst
  have hreach := h.cmd.step hst
  have hcalls := h.cmd_calls hctl hstep
  cases hctl with
  | start hh =>
    obtain ⟨⟨h1, h2, h3⟩, ⟨-, h5, h6, h7⟩, h8⟩ := h.at_handler hh
    cases hstep with
    | start hch =>
      exact ⟨⟨⟨h1, h2, h3⟩, nofun, h5, h6, h7, h8⟩, h.watcher.frame rfl id rfl rfl, hreach,
        hcalls⟩
  | exit =>
    cases hstep with
    | exit hch =>
      exact ⟨h.handler.frame ⟨rfl, rfl, rfl, rfl, rfl, rfl,
        iff_of_false nofun (by rw [hch]; nofun), rfl, Iff.rfl, id⟩,
        h.watcher.frame rfl id rfl rfl, hreach,
        hcalls⟩
  | wait hh =>
    obtain ⟨⟨h1, h2, h3⟩, ⟨h4, h5, h6⟩, h7, h8⟩ := h.at_handler hh
    cases hstep with
    | wait hw hch =>
      exact ⟨⟨⟨h1, h2, h3⟩, ⟨h4, h5, h6⟩, nofun, h8⟩, h.watcher.frame rfl id rfl rfl, hreach,
        hcalls⟩
  | inWait hh ha =>
    obtain ⟨⟨h1, h2, h3⟩, ⟨h4, h5, h6⟩, h7, h8⟩ := h.at_handler hh
    obtain ⟨hsame, hkills, hchild, hwaiter⟩ := inWait_keeps ha hstep
    refine ⟨?_, h.watcher.frame rfl id hsame hkills, hreach, hcalls⟩
    show HandlerOk cfg { s with cmd := c } s.handler
    rw [hh]
    exact ⟨⟨h1, h2, h3⟩, ⟨fun hc => h4 (hchild hc), h5, h6⟩, hwaiter, h8⟩
  | @call sig hw =>
    cases hstep with
    | call hc =>
      refine ⟨h.handler.frame ⟨rfl, rfl, rfl, rfl, rfl, rfl, Iff.rfl, rfl,
        iff_of_false nofun (by rw [hw]; nofun), fun he => ?_⟩, ?_, hreach, hcalls⟩
      · rw [hw] at he; cases he
      · cases sig with
        | hup =>
          obtain ⟨hd, hp⟩ := h.at_watcher hw
          exact hp.call hd nofun
        | kill =>
          have hp : Past s [.hup] := h.at_watcher hw
          exact hp.call (hp.ended nofun) (by decide)
  | @inCall _ sig hw ha =>
    obtain ⟨hchild, hwaiter⟩ := inCall_keeps ha hstep
    refine ⟨h.handler.frame ⟨rfl, rfl, rfl, rfl, rfl, rfl, by rw [hchild], hwaiter, Iff.rfl, id⟩,
      ?_, hreach, hcalls⟩
    have hok := h.at_watcher hw
    have hok' : WatcherOk { s with cmd := c } (.signalling sig) := by
      cases sig with
      | hup => exact Active.inCall hok ha hstep
      | kill => exact Active.inCall hok ha hstep
    rw [← hw] at hok'
    exact hok'

theorem Inv.step {a : Act} (h : Inv cfg s) (hst : Step cfg s a s') : Inv cfg s' := by
  cases hst with
  | handler hst => exact h.handlerStep hst
  | watcher hst =>
    have hf := hst.frame
    exact ⟨by rw [hf.handler]; exact h.handler.frame hf, h.watcher.step hst,
      by rw [hst.keeps]; exact h.cmd, by rw [hst.keeps]; exact h.calls⟩
  | resizer hst => cases hst <;> exact h.frame rfl rfl rfl rfl rfl rfl rfl rfl rfl id
  | cmd hctl hst => exact h.cmdStep hctl hst
  | endCtx => exact h.frame rfl rfl rfl rfl rfl rfl rfl rfl rfl fun _ => rfl
  | others | window | closeWindows => exact h.frame rfl rfl rfl rfl rfl rfl rfl rfl rfl id

theorem inv_initial (h : Initial s) : Inv cfg s := by
  have hcmd := h.cmd
  refine ⟨?_, ?_, ?_, fun i hi => ?_⟩
  · rw [h.handler]
    exact ⟨h.slot, h.admitted, h.releases, ⟨by rw [hcmd]; rfl, by rw [hcmd]; rfl, h.watcher,
      h.done⟩, h.exits⟩
  · rw [h.watcher]
    exact ⟨h.attempts, fun hn => absurd rfl hn, nofun, fun _ _ => by rw [hcmd]; rfl,
      by rw [hcmd]; exact List.Sublist.refl _⟩
  · rw [hcmd]; exact .init rfl
  · rw [hcmd] at hi; exact absurd rfl hi

theorem inv_stable (cfg : Config) : (system cfg).Stable (Inv cfg) where
  init _ h := inv_initial h
  step _ _ _ h hst := h.step (step_cases hst)

end WorkspaceProxy.SshServer.Session
