import WorkspaceProxy.Conc.Mutex
import WorkspaceProxy.Proxy.Session

/-! # The teardown of a proxied session

What holds at each step of `Session.Run` and of the bridge, with the write
mutex and the two channels. From it: once something ends the session, some
goroutine can go on without waiting for a peer or the clock until `Run` has
returned and all of them are gone. -/
namespace WorkspaceProxy.Proxy.Session
open WorkspaceProxy.Conc

variable {p : Peers} {s s' : State}

/-! ## The mutex and the channels -/

def Ping.Inside : Ping → Prop
  | .writing | .unlocking _ => True
  | _ => False

def WritePump.Inside : WritePump → Prop
  | .writing _ | .unlocking _ _ => True
  | _ => False

def Timer.Inside : Timer → Prop
  | .writing | .unlocking => True
  | _ => False

/-- Who is between the lock and the unlock of `writeMu`. -/
def inside (s : State) : Holder → Prop
  | .ping => s.ping.Inside
  | .pump => s.tcpToWs.phase.Inside
  | .timer => s.timer.Inside

/-- The results that the pumps have sent. -/
def ReadPump.sent : ReadPump → Nat
  | .finished _ => 1
  | _ => 0

def WritePump.sent : WritePump → Nat
  | .finished _ => 1
  | _ => 0

/-- The results that the bridge has received. -/
def Bridge.received : Bridge → Nat
  | .unborn | .spawningRead | .spawningWrite | .receiving => 0
  | _ => 1

/-- What was sent on `errChan` is in it or was received. -/
def Sent (s : State) : Prop :=
  s.errChan.length + s.bridge.received = s.wsToTcp.phase.sent + s.tcpToWs.phase.sent

/-! ## Where the bridge is -/

/-- Both pumps were started. -/
def Pumping (s : State) : Prop := s.wsToTcp.phase ≠ .unborn ∧ s.tcpToWs.phase ≠ .unborn

def Closed (s : State) : Prop := s.wsClosed = true ∧ s.tcp = .closed

def BridgeOk (s : State) : Bridge → Prop
  | .unborn | .spawningRead =>
      s.wsToTcp.phase = .unborn ∧ s.tcpToWs.phase = .unborn ∧ s.bridgeErr = none
  | .spawningWrite =>
      s.wsToTcp.phase ≠ .unborn ∧ s.tcpToWs.phase = .unborn ∧ s.bridgeErr = none
  | .receiving | .closingWs _ => Pumping s ∧ s.bridgeErr = none
  | .closingTcp _ => Pumping s ∧ s.wsClosed = true ∧ s.bridgeErr = none
  | .sending _ => Pumping s ∧ Closed s ∧ s.bridgeErr = none
  | .finished => Pumping s ∧ Closed s

/-! ## Where `Run` is -/

/-- Nothing was started. -/
def Fresh (s : State) : Prop := s.ping = .unborn ∧ s.timer = .unarmed ∧ s.bridge = .unborn

/-- Everything was started. -/
def Started (s : State) : Prop := s.ping ≠ .unborn ∧ s.bridge ≠ .unborn

/-- The deferred calls of an established session have run. -/
def Torn (s : State) : Prop :=
  s.ping = .finished ∧ s.bridge ≠ .unborn ∧ Closed s ∧ s.timer ≠ .armed ∧ s.ctxDone = true

def CallerOk (s : State) : Caller → Prop
  | .settingDeadline | .dialing => Fresh s ∧ s.tcp = .unopened
  | .spawningPing => Fresh s
  | .armingTimer => s.ping ≠ .unborn ∧ s.timer = .unarmed ∧ s.bridge = .unborn
  | .spawningBridge => s.ping ≠ .unborn ∧ s.bridge = .unborn
  | .selecting => Started s ∧ (s.bridge = .finished → s.bridgeErr ≠ none)
  | .closingWs => Started s
  | .closingTcp => Started s ∧ s.wsClosed = true
  | .stoppingTimer _ => Started s ∧ Closed s
  | .cancelling _ => Started s ∧ Closed s ∧ s.timer ≠ .armed
  | .joiningPing _ => Started s ∧ Closed s ∧ s.timer ≠ .armed ∧ s.ctxDone = true
  | .closingDeferred _ => Torn s
  | .observing _ | .leaving _ => (Fresh s ∧ s.tcp = .unopened) ∨ Torn s
  | .returned _ => s.wsClosed = true ∧ ((Fresh s ∧ s.tcp = .unopened) ∨ Torn s)

structure Inv (s : State) : Prop where
  mutex : Guards s.writeMu (inside s)
  sent : Sent s
  bridge : BridgeOk s s.bridge
  caller : CallerOk s s.caller

/-! ## What a step leaves alone -/

/-- What the steps of the others leave alone for `Run`. -/
structure RunFrame (s s' : State) : Prop where
  caller : s'.caller = s.caller
  unborn : s'.ping = .unborn ↔ s.ping = .unborn
  finished : s.ping = .finished → s'.ping = .finished
  unarmed : s'.timer = .unarmed ↔ s.timer = .unarmed
  armed : s.timer ≠ .armed → s'.timer ≠ .armed
  bridge : s'.bridge = .unborn ↔ s.bridge = .unborn
  handed : (s.bridge = .finished → s.bridgeErr ≠ none) → s'.bridge = .finished → s'.bridgeErr ≠ none
  wsClosed : s.wsClosed = true → s'.wsClosed = true
  unopened : s.bridge = .unborn → s'.tcp = s.tcp
  tcp : s.tcp = .closed → s'.tcp = .closed
  ctxDone : s.ctxDone = true → s'.ctxDone = true

theorem Fresh.frame (h : Fresh s) (hf : RunFrame s s') : Fresh s' :=
  ⟨hf.unborn.mpr h.1, hf.unarmed.mpr h.2.1, hf.bridge.mpr h.2.2⟩

theorem Started.frame (h : Started s) (hf : RunFrame s s') : Started s' :=
  ⟨fun hp => h.1 (hf.unborn.mp hp), fun hb => h.2 (hf.bridge.mp hb)⟩

theorem Closed.frame (h : Closed s) (hf : RunFrame s s') : Closed s' :=
  ⟨hf.wsClosed h.1, hf.tcp h.2⟩

theorem Torn.frame (h : Torn s) (hf : RunFrame s s') : Torn s' := by
  obtain ⟨hp, hb, hc, ht, hx⟩ := h
  exact ⟨hf.finished hp, fun h => hb (hf.bridge.mp h), hc.frame hf, hf.armed ht, hf.ctxDone hx⟩

theorem unopened_frame (h : Fresh s ∧ s.tcp = .unopened) (hf : RunFrame s s') :
    Fresh s' ∧ s'.tcp = .unopened :=
  ⟨h.1.frame hf, (hf.unopened h.1.2.2).trans h.2⟩

theorem CallerOk.frame {c : Caller} (h : CallerOk s c) (hf : RunFrame s s') : CallerOk s' c := by
  cases c with
  | settingDeadline | dialing => exact unopened_frame h hf
  | spawningPing => exact Fresh.frame h hf
  | armingTimer =>
    exact ⟨fun hp => h.1 (hf.unborn.mp hp), hf.unarmed.mpr h.2.1, hf.bridge.mpr h.2.2⟩
  | spawningBridge => exact ⟨fun hp => h.1 (hf.unborn.mp hp), hf.bridge.mpr h.2⟩
  | selecting => exact ⟨h.1.frame hf, hf.handed h.2⟩
  | closingWs => exact Started.frame h hf
  | closingTcp => exact ⟨h.1.frame hf, hf.wsClosed h.2⟩
  | stoppingTimer => exact ⟨h.1.frame hf, h.2.frame hf⟩
  | cancelling => exact ⟨h.1.frame hf, h.2.1.frame hf, hf.armed h.2.2⟩
  | joiningPing =>
    exact ⟨h.1.frame hf, h.2.1.frame hf, hf.armed h.2.2.1, hf.ctxDone h.2.2.2⟩
  | closingDeferred => exact Torn.frame h hf
  | observing | leaving =>
    exact h.imp (fun h => unopened_frame h hf) (fun h => Torn.frame h hf)
  | returned =>
    exact ⟨hf.wsClosed h.1, h.2.imp (fun h => unopened_frame h hf) (fun h => Torn.frame h hf)⟩

/-- What the steps of the others leave alone for the bridge. -/
structure BridgeFrame (s s' : State) : Prop where
  bridge : s'.bridge = s.bridge
  readPump : s'.wsToTcp.phase = .unborn ↔ s.wsToTcp.phase = .unborn
  writePump : s'.tcpToWs.phase = .unborn ↔ s.tcpToWs.phase = .unborn
  bridgeErr : s.bridgeErr = none → s'.bridgeErr = none
  wsClosed : s.wsClosed = true → s'.wsClosed = true
  tcp : s.bridge ≠ .unborn → s.tcp = .closed → s'.tcp = .closed

theorem Pumping.frame (h : Pumping s) (hf : BridgeFrame s s') : Pumping s' :=
  ⟨fun hp => h.1 (hf.readPump.mp hp), fun hp => h.2 (hf.writePump.mp hp)⟩

theorem BridgeOk.frame (h : BridgeOk s s.bridge) (hf : BridgeFrame s s') : BridgeOk s' s'.bridge := by
  rw [hf.bridge]
  have hclosed : s.bridge ≠ .unborn → Closed s → Closed s' :=
    fun hb hc => ⟨hf.wsClosed hc.1, hf.tcp hb hc.2⟩
  cases hb : s.bridge with
  | unborn | spawningRead =>
    rw [hb] at h
    exact ⟨hf.readPump.mpr h.1, hf.writePump.mpr h.2.1, hf.bridgeErr h.2.2⟩
  | spawningWrite =>
    rw [hb] at h
    exact ⟨fun hp => h.1 (hf.readPump.mp hp), hf.writePump.mpr h.2.1, hf.bridgeErr h.2.2⟩
  | receiving | closingWs =>
    rw [hb] at h
    exact ⟨h.1.frame hf, hf.bridgeErr h.2⟩
  | closingTcp =>
    rw [hb] at h
    exact ⟨h.1.frame hf, hf.wsClosed h.2.1, hf.bridgeErr h.2.2⟩
  | sending =>
    rw [hb] at h hclosed
    exact ⟨h.1.frame hf, hclosed nofun h.2.1, hf.bridgeErr h.2.2⟩
  | finished =>
    rw [hb] at h hclosed
    exact ⟨h.1.frame hf, hclosed nofun h.2⟩

/-! ## What each goroutine keeps -/

theorem PingStep.runFrame (h : PingStep s s') : RunFrame s s' := by
  cases h <;> constructor <;> simp_all

theorem PingStep.bridgeFrame (h : PingStep s s') : BridgeFrame s s' := by
  cases h <;> exact ⟨rfl, Iff.rfl, Iff.rfl, id, id, fun _ => id⟩

theorem TimerStep.runFrame (h : TimerStep s s') : RunFrame s s' := by
  cases h <;> constructor <;> simp_all

theorem TimerStep.bridgeFrame (h : TimerStep s s') : BridgeFrame s s' := by
  cases h <;> exact ⟨rfl, Iff.rfl, Iff.rfl, id, id, fun _ => id⟩

theorem ReadStep.runFrame (h : ReadStep p s s') : RunFrame s s' := by
  cases h <;> exact ⟨rfl, Iff.rfl, id, Iff.rfl, id, Iff.rfl, id, id, fun _ => rfl, id, id⟩

theorem ReadStep.bridgeFrame (h : ReadStep p s s') : BridgeFrame s s' := by
  cases h <;> refine ⟨rfl, ?_, Iff.rfl, id, id, fun _ => id⟩ <;> simp_all

theorem WriteStep.runFrame (h : WriteStep p s s') : RunFrame s s' := by
  cases h <;> exact ⟨rfl, Iff.rfl, id, Iff.rfl, id, Iff.rfl, id, id, fun _ => rfl, id, id⟩

theorem WriteStep.bridgeFrame (h : WriteStep p s s') : BridgeFrame s s' := by
  cases h <;> refine ⟨rfl, Iff.rfl, ?_, id, id, fun _ => id⟩ <;> simp_all

theorem BridgeStep.runFrame (h : BridgeStep s s') : RunFrame s s' := by
  cases h <;> constructor <;> simp_all

/-- The mutex, where one holder moves and the others stay. -/
theorem guards_ping (hg : Guards s.writeMu (inside s)) (h : PingStep s s') :
    Guards s'.writeMu (inside s') := by
  have hothers : ∀ k : Holder, k ≠ .ping → (inside s' k ↔ inside s k) := by
    intro k hk
    cases h <;> cases k <;> first | exact Iff.rfl | exact absurd rfl hk
  cases h with
  | tick hp | seeCtx hp | write hp | fail hp | close hp =>
    exact hg.keep .ping (by simp [inside, hp, Ping.Inside]) hothers
  | lock hp hmu =>
    rw [hmu] at hg
    exact hg.lock trivial hothers
  | unlock hp | unlockFailed hp =>
    exact hg.unlock .ping (by simp [inside, hp, Ping.Inside]) id hothers

theorem guards_timer (hg : Guards s.writeMu (inside s)) (h : TimerStep s s') :
    Guards s'.writeMu (inside s') := by
  have hothers : ∀ k : Holder, k ≠ .timer → (inside s' k ↔ inside s k) := by
    intro k hk
    cases h <;> cases k <;> first | exact Iff.rfl | exact absurd rfl hk
  cases h with
  | fire ht | write ht | arm ht =>
    exact hg.keep .timer (by simp [inside, ht, Timer.Inside]) hothers
  | lock ht hmu =>
    rw [hmu] at hg
    exact hg.lock trivial hothers
  | unlock ht => exact hg.unlock .timer (by simp [inside, ht, Timer.Inside]) id hothers

theorem guards_pump (hg : Guards s.writeMu (inside s)) (h : WriteStep p s s') :
    Guards s'.writeMu (inside s') := by
  have hothers : ∀ k : Holder, k ≠ .pump → (inside s' k ↔ inside s k) := by
    intro k hk
    cases h <;> cases k <;> first | exact Iff.rfl | exact absurd rfl hk
  cases h with
  | read hw | eof hw | readFails hw | write hw | writeFails hw | count hw | send hw =>
    exact hg.keep .pump (by simp [inside, hw, WritePump.Inside]) hothers
  | lock hw hmu =>
    rw [hmu] at hg
    exact hg.lock trivial hothers
  | unlock hw | unlockFailed hw =>
    exact hg.unlock .pump (by simp [inside, hw, WritePump.Inside]) id hothers

theorem guards_bridge (hg : Guards s.writeMu (inside s)) (hb : BridgeOk s s.bridge)
    (h : BridgeStep s s') : Guards s'.writeMu (inside s') := by
  cases h with
  | spawnWrite hbr =>
    rw [hbr] at hb
    refine hg.stay fun k => ?_
    cases k with
    | pump => simp [inside, hb.2.1, WritePump.Inside]
    | ping | timer => exact Iff.rfl
  | spawnRead | receive | closeWs | closeTcp | send => exact hg

theorem sent_readPump (hs : Sent s) (h : ReadStep p s s') : Sent s' := by
  unfold Sent at hs ⊢
  cases h <;> simp_all [ReadPump.sent]
  omega

theorem sent_writePump (hs : Sent s) (h : WriteStep p s s') : Sent s' := by
  unfold Sent at hs ⊢
  cases h <;> simp_all [WritePump.sent]
  omega

theorem sent_bridge (hs : Sent s) (hb : BridgeOk s s.bridge) (h : BridgeStep s s') : Sent s' := by
  unfold Sent at hs ⊢
  cases h with
  | spawnRead hbr => rw [hbr] at hb hs; rw [hb.1] at hs; exact hs
  | spawnWrite hbr => rw [hbr] at hb hs; rw [hb.2.1] at hs; exact hs
  | receive hbr hch => rw [hbr, hch] at hs; simpa [Bridge.received] using hs
  | closeWs hbr | closeTcp hbr | send hbr => rw [hbr] at hs; exact hs

theorem BridgeOk.step (hb : BridgeOk s s.bridge) (h : BridgeStep s s') : BridgeOk s' s'.bridge := by
  cases h with
  | spawnRead hbr => rw [hbr] at hb; exact ⟨nofun, hb.2.1, hb.2.2⟩
  | spawnWrite hbr => rw [hbr] at hb; exact ⟨⟨hb.1, nofun⟩, hb.2.2⟩
  | receive hbr => rw [hbr] at hb; exact hb
  | closeWs hbr => rw [hbr] at hb; exact ⟨hb.1, rfl, hb.2⟩
  | closeTcp hbr => rw [hbr] at hb; exact ⟨hb.1, ⟨hb.2.1, rfl⟩, hb.2.2⟩
  | send hbr => rw [hbr] at hb; exact ⟨hb.1, hb.2.1⟩

/-! ## The steps of `Run` -/

theorem CallerOk.step (hc : CallerOk s s.caller) (hb : BridgeOk s s.bridge) (h : RunStep s s') :
    CallerOk s' s'.caller := by
  cases h with
  | setDeadline hr => rw [hr] at hc; exact hc
  | setDeadlineFails hr | dialFails hr => rw [hr] at hc; exact .inl hc
  | dial hr => rw [hr] at hc; exact hc.1
  | spawnPing hr => rw [hr] at hc; exact ⟨nofun, hc.2.1, hc.2.2⟩
  | armTimer hr => rw [hr] at hc; exact ⟨hc.1, hc.2.2⟩
  | spawnBridge hr => rw [hr] at hc; exact ⟨⟨hc.1, nofun⟩, nofun⟩
  | seeBridge hr he =>
    -- the bridge closes both connections before it sends
    rw [hr] at hc
    refine ⟨hc.1, ?_⟩
    cases hbr : s.bridge with
    | finished => rw [hbr] at hb; exact hb.2
    | unborn => exact absurd hbr hc.1.2
    | spawningRead | spawningWrite | closingTcp | sending =>
      rw [hbr] at hb
      have hnone : s.bridgeErr = none := hb.2.2
      rw [he] at hnone
      cases hnone
    | receiving | closingWs =>
      rw [hbr] at hb
      have hnone : s.bridgeErr = none := hb.2
      rw [he] at hnone
      cases hnone
  | seeCtx hr => rw [hr] at hc; exact hc.1
  | closeWs hr => rw [hr] at hc; exact ⟨hc, rfl⟩
  | closeTcp hr => rw [hr] at hc; exact ⟨hc.1, hc.2, rfl⟩
  | stopTimer hr =>
    rw [hr] at hc
    refine ⟨hc.1, hc.2, ?_⟩
    show (if s.timer = .armed then Timer.stopped else s.timer) ≠ .armed
    split
    · nofun
    · assumption
  | cancel hr => rw [hr] at hc; exact ⟨hc.1, hc.2.1, hc.2.2, rfl⟩
  | joinPing hr hp =>
    rw [hr] at hc
    exact ⟨hp, hc.1.2, hc.2.1, hc.2.2⟩
  | closeDeferred hr =>
    rw [hr] at hc
    obtain ⟨hp, hbr, hcl, ht⟩ := hc
    exact .inr ⟨hp, hbr, ⟨hcl.1, rfl⟩, ht⟩
  | observe hr => rw [hr] at hc; exact hc
  | leave hr =>
    rw [hr] at hc
    refine ⟨rfl, hc.imp id fun h => ?_⟩
    obtain ⟨hp, hbr, hcl, ht⟩ := h
    exact ⟨hp, hbr, ⟨rfl, hcl.2⟩, ht⟩

/-- `Run` leaves the bridge alone, once it is started. -/
theorem BridgeOk.runStep (hb : BridgeOk s s.bridge) (hc : CallerOk s s.caller)
    (h : RunStep s s') : BridgeOk s' s'.bridge := by
  cases h with
  | spawnBridge hr =>
    rw [hr] at hc
    rw [hc.2] at hb
    exact hb
  | dial hr =>
    rw [hr] at hc
    have hun : s.bridge = .unborn := hc.1.2.2
    exact hb.frame ⟨rfl, Iff.rfl, Iff.rfl, id, id, fun hne => absurd hun hne⟩
  | seeBridge hr he =>
    exact hb.frame ⟨rfl, Iff.rfl, Iff.rfl, fun _ => rfl, id, fun _ => id⟩
  | closeTcp hr | closeDeferred hr =>
    exact hb.frame ⟨rfl, Iff.rfl, Iff.rfl, id, id, fun _ _ => rfl⟩
  | closeWs hr | leave hr =>
    exact hb.frame ⟨rfl, Iff.rfl, Iff.rfl, id, fun _ => rfl, fun _ => id⟩
  | setDeadline | setDeadlineFails | dialFails | spawnPing | armTimer | seeCtx | stopTimer
  | cancel | joinPing | observe =>
    exact hb.frame ⟨rfl, Iff.rfl, Iff.rfl, id, id, fun _ => id⟩

theorem guards_run (hg : Guards s.writeMu (inside s)) (hc : CallerOk s s.caller)
    (h : RunStep s s') : Guards s'.writeMu (inside s') := by
  cases h with
  | spawnPing hr =>
    rw [hr] at hc
    refine hg.stay fun k => ?_
    cases k with
    | ping => simp [inside, hc.1, Ping.Inside]
    | pump | timer => exact Iff.rfl
  | armTimer hr =>
    rw [hr] at hc
    refine hg.stay fun k => ?_
    cases k with
    | timer => simp [inside, hc.2.1, Timer.Inside]
    | pump | ping => exact Iff.rfl
  | stopTimer hr =>
    refine hg.stay fun k => ?_
    cases k with
    | timer =>
      show (if s.timer = .armed then Timer.stopped else s.timer).Inside ↔ s.timer.Inside
      split
      · rename_i ht; rw [ht]; exact Iff.rfl
      · exact Iff.rfl
    | pump | ping => exact Iff.rfl
  | setDeadline | setDeadlineFails | dial | dialFails | spawnBridge | seeBridge | seeCtx
  | closeWs | closeTcp | cancel | joinPing | closeDeferred | observe | leave => exact hg

theorem sent_run (hs : Sent s) (hc : CallerOk s s.caller) (h : RunStep s s') : Sent s' := by
  cases h with
  | spawnBridge hr =>
    rw [hr] at hc
    unfold Sent at hs ⊢
    rw [hc.2] at hs
    exact hs
  | _ => exact hs

theorem Inv.step {a : Act} (h : Inv s) (hst : Step p s a s') : Inv s' := by
  cases hst with
  | caller hr =>
    exact ⟨guards_run h.mutex h.caller hr, sent_run h.sent h.caller hr,
      h.bridge.runStep h.caller hr, h.caller.step h.bridge hr⟩
  | ping hp =>
    have hf := hp.runFrame
    refine ⟨guards_ping h.mutex hp, ?_, h.bridge.frame hp.bridgeFrame, ?_⟩
    · cases hp <;> exact h.sent
    · rw [hf.caller]; exact h.caller.frame hf
  | bridge hb =>
    have hf := hb.runFrame
    refine ⟨guards_bridge h.mutex h.bridge hb, sent_bridge h.sent h.bridge hb,
      h.bridge.step hb, ?_⟩
    rw [hf.caller]; exact h.caller.frame hf
  | readPump hr =>
    have hf := hr.runFrame
    refine ⟨?_, sent_readPump h.sent hr, h.bridge.frame hr.bridgeFrame, ?_⟩
    · cases hr <;> exact h.mutex
    · rw [hf.caller]; exact h.caller.frame hf
  | writePump hw =>
    have hf := hw.runFrame
    refine ⟨guards_pump h.mutex hw, sent_writePump h.sent hw, h.bridge.frame hw.bridgeFrame, ?_⟩
    rw [hf.caller]; exact h.caller.frame hf
  | timer ht =>
    have hf := ht.runFrame
    refine ⟨guards_timer h.mutex ht, ?_, h.bridge.frame ht.bridgeFrame, ?_⟩
    · cases ht <;> exact h.sent
    · rw [hf.caller]; exact h.caller.frame hf
  | grace | endCtx =>
    refine ⟨h.mutex, h.sent,
      h.bridge.frame ⟨rfl, Iff.rfl, Iff.rfl, id, id, fun _ => id⟩, h.caller.frame ?_⟩
    exact ⟨rfl, Iff.rfl, id, Iff.rfl, id, Iff.rfl, id, id, fun _ => rfl, id, fun _ => rfl⟩

theorem inv_stable (p : Peers) : (system p).Stable Inv where
  init := by
    rintro s rfl
    refine ⟨fun k => ?_, rfl, ⟨rfl, rfl, rfl⟩, ⟨rfl, rfl, rfl⟩, rfl⟩
    cases k <;> exact iff_of_false id nofun
  step _ _ _ h hst := h.step (step_cases hst)

/-! ## No teardown gets stuck -/

def ReadPump.Returned : ReadPump → Prop
  | .sending _ | .finished _ => True
  | _ => False

def WritePump.Returned : WritePump → Prop
  | .sending _ | .finished _ => True
  | _ => False

/-- Something ends the session: the context is done, a ping failed, or a pump
has returned. -/
def Cause (s : State) : Prop :=
  s.ctxDone = true ∨ s.ping = .unlocking false ∨ s.ping = .failing ∨
    s.wsToTcp.phase.Returned ∨ s.tcpToWs.phase.Returned

/-- The step needs no peer and no clock. A read or write is one only where its
connection is closed, and then as a failure, and the dial where the context is
done. -/
def Ready (s : State) : Act → Prop
  | .caller ok => s.caller = .dialing → ok = false ∧ s.ctxDone = true
  | .ping ok =>
    match s.ping with
    | .selecting => ok = false
    | .writing => ok = false ∧ s.wsClosed = true
    | _ => True
  | .bridge => True
  | .readPump o =>
    match s.wsToTcp.phase with
    | .reading => (∃ n, o = .fail n) ∧ s.wsClosed = true
    | .writing _ => (∃ n, o = .fail n) ∧ s.tcp = .closed
    | _ => True
  | .writePump o =>
    match s.tcpToWs.phase with
    | .reading => (∃ n, o = .fail n) ∧ s.tcp = .closed
    | .writing _ => (∃ n, o = .fail n) ∧ s.wsClosed = true
    | _ => True
  | .timer =>
    match s.timer with
    | .armed => False
    | .writing => s.wsClosed = true
    | _ => True
  | .grace | .endCtx => False

/-- No goroutine can go on by itself. -/
def Stuck (p : Peers) (s : State) : Prop := ∀ a, Ready s a → step p s a = none

/-- `Run` has returned, and nothing is left of the session. A goroutine may never
have been started, and a connection never opened. -/
structure Finished (s : State) : Prop where
  caller : ∃ err, s.caller = .returned err
  ping : s.ping = .unborn ∨ s.ping = .finished
  readPump : s.wsToTcp.phase = .unborn ∨ ∃ err, s.wsToTcp.phase = .finished err
  writePump : s.tcpToWs.phase = .unborn ∨ ∃ err, s.tcpToWs.phase = .finished err
  bridge : s.bridge = .unborn ∨ s.bridge = .finished
  timer : s.timer = .unarmed ∨ s.timer = .stopped ∨ s.timer = .finished
  wsClosed : s.wsClosed = true
  tcp : s.tcp ≠ .opened
  writeMu : s.writeMu = none

/-- A step that is ready and possible. -/
theorem Stuck.elim {a : Act} (h : Stuck p s) (hr : Ready s a) (he : step p s a ≠ none) : False :=
  he (h a hr)

theorem Stuck.mutex (h : Stuck p s) (hi : Inv s) (hws : s.wsClosed = true) : s.writeMu = none := by
  cases hmu : s.writeMu with
  | none => rfl
  | some k =>
    exfalso
    have hin := (hi.mutex k).mpr hmu
    cases k with
    | ping =>
      cases hp : s.ping with
      | writing =>
        exact h.elim (a := .ping false) (by simp [Ready, hp, hws]) (by simp [step, pingLoop, hp])
      | unlocking ok =>
        exact h.elim (a := .ping ok) (by simp [Ready, hp]) (by simp [step, pingLoop, hp])
      | _ => simp [inside, hp, Ping.Inside] at hin
    | pump =>
      cases hw : s.tcpToWs.phase with
      | writing buf =>
        exact h.elim (a := .writePump (.fail 0)) (by simp [Ready, hw, hws])
          (by simp [step, copyTCPToWS, hw])
      | unlocking buf ok =>
        exact h.elim (a := .writePump (.fail 0)) (by simp [Ready, hw])
          (by simp [step, copyTCPToWS, hw])
      | _ => simp [inside, hw, WritePump.Inside] at hin
    | timer =>
      cases ht : s.timer with
      | writing =>
        exact h.elim (a := .timer) (by simp [Ready, ht, hws]) (by simp [step, maxDurationTimer, ht])
      | unlocking =>
        exact h.elim (a := .timer) (by simp [Ready, ht]) (by simp [step, maxDurationTimer, ht])
      | _ => simp [inside, ht, Timer.Inside] at hin

theorem Stuck.ping (h : Stuck p s) (hi : Inv s) (hws : s.wsClosed = true)
    (hctx : s.ctxDone = true) : s.ping = .unborn ∨ s.ping = .finished := by
  have hmu := h.mutex hi hws
  cases hp : s.ping with
  | unborn => exact .inl rfl
  | finished => exact .inr rfl
  | _ =>
    exact (h.elim (a := .ping false) (by simp [Ready, hp, hws])
      (by simp [step, pingLoop, hp, hctx, hmu])).elim

theorem Stuck.timer (h : Stuck p s) (hi : Inv s) (hws : s.wsClosed = true)
    (harmed : s.timer ≠ .armed) :
    s.timer = .unarmed ∨ s.timer = .stopped ∨ s.timer = .finished := by
  have hmu := h.mutex hi hws
  cases ht : s.timer with
  | unarmed => exact .inl rfl
  | stopped => exact .inr (.inl rfl)
  | finished => exact .inr (.inr rfl)
  | armed => exact absurd ht harmed
  | _ =>
    exact (h.elim (a := .timer) (by simp [Ready, ht, hws])
      (by simp [step, maxDurationTimer, ht, hmu])).elim

/-- There is room in `errChan` for a pump that has not sent. -/
theorem Inv.room (hi : Inv s) (h : s.wsToTcp.phase.sent = 0 ∨ s.tcpToWs.phase.sent = 0) :
    s.errChan.length < 2 := by
  have hsent := hi.sent
  have hread : s.wsToTcp.phase.sent ≤ 1 := by cases s.wsToTcp.phase <;> simp [ReadPump.sent]
  have hwrite : s.tcpToWs.phase.sent ≤ 1 := by cases s.tcpToWs.phase <;> simp [WritePump.sent]
  unfold Sent at hsent
  omega

/-- A pump that has returned has sent its result. -/
theorem Stuck.read_sent (h : Stuck p s) (hi : Inv s) (hr : s.wsToTcp.phase.Returned) :
    ∃ err, s.wsToTcp.phase = .finished err := by
  cases hp : s.wsToTcp.phase with
  | finished err => exact ⟨err, rfl⟩
  | sending err =>
    exact (h.elim (a := .readPump (.fail 0)) (by simp [Ready, hp])
      (by simp [step, copyWSToTCP, hp, hi.room (.inl (by rw [hp]; rfl))])).elim
  | _ => rw [hp] at hr; exact hr.elim

theorem Stuck.write_sent (h : Stuck p s) (hi : Inv s) (hw : s.tcpToWs.phase.Returned) :
    ∃ err, s.tcpToWs.phase = .finished err := by
  cases hp : s.tcpToWs.phase with
  | finished err => exact ⟨err, rfl⟩
  | sending err =>
    exact (h.elim (a := .writePump (.fail 0)) (by simp [Ready, hp])
      (by simp [step, copyTCPToWS, hp, hi.room (.inr (by rw [hp]; rfl))])).elim
  | _ => rw [hp] at hw; exact hw.elim

theorem Stuck.bridge (h : Stuck p s) (hi : Inv s) : s.bridge = .unborn ∨ s.bridge = .finished ∨
    (s.bridge = .receiving ∧ s.errChan = []) := by
  have hb := hi.bridge
  cases hbr : s.bridge with
  | unborn => exact .inl rfl
  | finished => exact .inr (.inl rfl)
  | receiving =>
    refine .inr (.inr ⟨rfl, ?_⟩)
    cases hch : s.errChan with
    | nil => rfl
    | cons err rest =>
      exact (h.elim (a := .bridge) trivial (by simp [step, bridgeRun, hbr, hch])).elim
  | sending err =>
    rw [hbr] at hb
    exact (h.elim (a := .bridge) trivial (by simp [step, bridgeRun, hbr, hb.2.2])).elim
  | _ => exact (h.elim (a := .bridge) trivial (by simp [step, bridgeRun, hbr])).elim

/-- A bridge with a result to receive has handed it on. -/
theorem Stuck.bridge_finished (h : Stuck p s) (hi : Inv s) (hborn : s.bridge ≠ .unborn)
    (hsent : 0 < s.wsToTcp.phase.sent + s.tcpToWs.phase.sent) : s.bridge = .finished := by
  rcases h.bridge hi with hun | hfin | ⟨hrec, hch⟩
  · exact absurd hun hborn
  · exact hfin
  · have hs := hi.sent
    rw [Sent, hrec, hch] at hs
    simp only [List.length_nil, Bridge.received] at hs
    omega

theorem Stuck.readPump (h : Stuck p s) (hi : Inv s) (hc : Closed s)
    (hborn : s.wsToTcp.phase ≠ .unborn) : ∃ err, s.wsToTcp.phase = .finished err := by
  obtain ⟨hws, htcp⟩ := hc
  cases hp : s.wsToTcp.phase with
  | unborn => exact absurd hp hborn
  | finished err => exact ⟨err, rfl⟩
  | sending err => rw [← hp]; exact h.read_sent hi (by rw [hp]; trivial)
  | _ =>
    exact (h.elim (a := .readPump (.fail 0)) (by simp [Ready, hp, hws, htcp])
      (by simp [step, copyWSToTCP, hp])).elim

theorem Stuck.writePump (h : Stuck p s) (hi : Inv s) (hc : Closed s)
    (hborn : s.tcpToWs.phase ≠ .unborn) : ∃ err, s.tcpToWs.phase = .finished err := by
  have hmu := h.mutex hi hc.1
  obtain ⟨hws, htcp⟩ := hc
  cases hp : s.tcpToWs.phase with
  | unborn => exact absurd hp hborn
  | finished err => exact ⟨err, rfl⟩
  | sending err => rw [← hp]; exact h.write_sent hi (by rw [hp]; trivial)
  | _ =>
    exact (h.elim (a := .writePump (.fail 0)) (by simp [Ready, hp, hws, htcp])
      (by simp [step, copyTCPToWS, hp, hmu])).elim

/-- A session that was never established is finished where `Run` has returned. -/
theorem Inv.finished_of_fresh (hi : Inv s) {err : Option Err} (hc : s.caller = .returned err)
    (hf : Fresh s) (htcp : s.tcp = .unopened) : Finished s := by
  obtain ⟨hp, ht, hbr⟩ := hf
  have hcaller := hi.caller
  rw [hc] at hcaller
  obtain ⟨hr, hw, -⟩ : BridgeOk s .unborn := hbr ▸ hi.bridge
  refine ⟨⟨err, hc⟩, .inl hp, .inl hr, .inl hw, .inl hbr, .inl ht, hcaller.1, by rw [htcp]; nofun, ?_⟩
  cases hmu : s.writeMu with
  | none => rfl
  | some k =>
    exfalso
    have hin := (hi.mutex k).mpr hmu
    cases k with
    | ping => simp [inside, hp, Ping.Inside] at hin
    | pump => simp [inside, hw, WritePump.Inside] at hin
    | timer => simp [inside, ht, Timer.Inside] at hin

theorem Inv.pumping (hi : Inv s) (hfin : s.bridge = .finished ∨ s.bridge = .receiving) :
    Pumping s := by
  have hb := hi.bridge
  rcases hfin with h | h <;> rw [h] at hb <;> exact hb.1

/-- A session whose deferred calls have run is finished where nothing can go on. -/
theorem Stuck.finished_of_torn (h : Stuck p s) (hi : Inv s) {err : Option Err}
    (hc : s.caller = .returned err) (ht : Torn s) : Finished s := by
  obtain ⟨hp, hborn, hcl, harmed, -⟩ := ht
  have hpump : Pumping s := by
    rcases h.bridge hi with hun | hfin | ⟨hrec, -⟩
    · exact absurd hun hborn
    · exact hi.pumping (.inl hfin)
    · exact hi.pumping (.inr hrec)
  obtain ⟨e, hr⟩ := h.readPump hi hcl hpump.1
  have hbr := h.bridge_finished hi hborn (by rw [hr]; simp only [ReadPump.sent]; omega)
  exact ⟨⟨err, hc⟩, .inr hp, .inr ⟨e, hr⟩, .inr (h.writePump hi hcl hpump.2), .inr hbr,
    h.timer hi hcl.1 harmed, hcl.1, by rw [hcl.2]; nofun, h.mutex hi hcl.1⟩

/-- Before the bridge and the pings are started only the context can end the
session. -/
theorem Inv.ctxDone_of_fresh (hi : Inv s) (hf : Fresh s) (hc : Cause s) : s.ctxDone = true := by
  obtain ⟨hp, -, hbr⟩ := hf
  obtain ⟨hr, hw, -⟩ : BridgeOk s .unborn := hbr ▸ hi.bridge
  simpa [Cause, hp, hr, hw, ReadPump.Returned, WritePump.Returned] using hc

/-- `Run` does not wait at its select for ever. -/
theorem Stuck.not_selecting (h : Stuck p s) (hi : Inv s) (hcause : Cause s) :
    s.caller ≠ .selecting := by
  intro hc
  obtain ⟨hstarted, hhanded⟩ : CallerOk s .selecting := hc ▸ hi.caller
  have hready : ∀ ok, Ready s (.caller ok) := fun ok hd => by rw [hc] at hd; cases hd
  have hsent : ¬ 0 < s.wsToTcp.phase.sent + s.tcpToWs.phase.sent := by
    intro hpos
    obtain ⟨e, he⟩ := Option.ne_none_iff_exists'.mp (hhanded (h.bridge_finished hi hstarted.2 hpos))
    exact h.elim (hready true) (by simp [step, run, hc, he])
  rcases hcause with hctx | hp | hp | hr | hw
  · exact h.elim (hready false) (by simp [step, run, hc, hctx])
  · exact h.elim (a := .ping true) (by simp [Ready, hp]) (by simp [step, pingLoop, hp])
  · exact h.elim (a := .ping true) (by simp [Ready, hp]) (by simp [step, pingLoop, hp])
  · obtain ⟨e, he⟩ := h.read_sent hi hr
    exact hsent (by rw [he]; simp only [ReadPump.sent]; omega)
  · obtain ⟨e, he⟩ := h.write_sent hi hw
    exact hsent (by rw [he]; simp only [WritePump.sent]; omega)

theorem Stuck.finished (h : Stuck p s) (hi : Inv s) (hcause : Cause s) : Finished s := by
  have hcaller := hi.caller
  cases hc : s.caller with
  | returned err =>
    rw [hc] at hcaller
    rcases hcaller.2 with ⟨hf, htcp⟩ | ht
    · exact hi.finished_of_fresh hc hf htcp
    · exact h.finished_of_torn hi hc ht
  | selecting => exact absurd hc (h.not_selecting hi hcause)
  | dialing =>
    rw [hc] at hcaller
    have hctx := hi.ctxDone_of_fresh hcaller.1 hcause
    exact (h.elim (a := .caller false) (fun _ => ⟨rfl, hctx⟩) (by simp [step, run, hc])).elim
  | joiningPing err =>
    rw [hc] at hcaller
    obtain ⟨hst, hcl, -, hctx⟩ := hcaller
    rcases h.ping hi hcl.1 hctx with hp | hp
    · exact absurd hp hst.1
    · exact (h.elim (a := .caller true) (by simp [Ready, hc]) (by simp [step, run, hc, hp])).elim
  | _ => exact (h.elim (a := .caller true) (by simp [Ready, hc]) (by simp [step, run, hc])).elim

theorem Finished.stuck (h : Finished s) : Stuck p s := by
  intro a hr
  cases a with
  | caller ok => obtain ⟨err, hc⟩ := h.caller; simp [step, run, hc]
  | ping ok => rcases h.ping with hp | hp <;> simp [step, pingLoop, hp]
  | bridge => rcases h.bridge with hb | hb <;> simp [step, bridgeRun, hb]
  | readPump o => rcases h.readPump with hp | ⟨err, hp⟩ <;> simp [step, copyWSToTCP, hp]
  | writePump o => rcases h.writePump with hp | ⟨err, hp⟩ <;> simp [step, copyTCPToWS, hp]
  | timer => rcases h.timer with ht | ht | ht <;> simp [step, maxDurationTimer, ht]
  | grace | endCtx => exact hr.elim

/-- No goroutine has a step, not even with the help of a peer or the clock. -/
def Halted (p : Peers) (s : State) : Prop := ∀ a, a ≠ .endCtx → step p s a = none

theorem Halted.stuck (h : Halted p s) : Stuck p s :=
  fun a hr => h a fun ha => by rw [ha] at hr; exact hr

/-- Without a cause a pump that was started waits for its peer at most. -/
theorem Halted.cause (h : Halted p s) (hi : Inv s) (hc : s.caller = .selecting) : Cause s := by
  by_contra hno
  obtain ⟨hstarted, hhanded⟩ : CallerOk s .selecting := hc ▸ hi.caller
  rcases h.stuck.bridge hi with hun | hfin | ⟨hrec, -⟩
  · exact hstarted.2 hun
  · obtain ⟨e, he⟩ := Option.ne_none_iff_exists'.mp (hhanded hfin)
    have := h (.caller true) (fun he => by cases he)
    simp [step, run, hc, he] at this
  · have hr := h (.readPump (.fail 0)) (fun he => by cases he)
    cases hp : s.wsToTcp.phase with
    | unborn => exact (hi.pumping (.inr hrec)).1 hp
    | sending err | finished err => exact hno (by simp [Cause, hp, ReadPump.Returned])
    | _ => simp [step, copyWSToTCP, hp] at hr

theorem Halted.finished (h : Halted p s) (hi : Inv s) : Finished s := by
  by_cases hcause : Cause s
  · exact h.stuck.finished hi hcause
  · have hcaller := hi.caller
    have hstep := h (.caller true) nofun
    cases hc : s.caller with
    | returned err =>
      rw [hc] at hcaller
      rcases hcaller.2 with ⟨hf, htcp⟩ | ht
      · exact hi.finished_of_fresh hc hf htcp
      · exact absurd (.inl ht.2.2.2.2) hcause
    | selecting => exact absurd (h.cause hi hc) hcause
    | joiningPing err =>
      rw [hc] at hcaller
      exact absurd (.inl hcaller.2.2.2) hcause
    | _ => simp [step, run, hc] at hstep

/-- **The teardown of a session never gets stuck.** In every state with a cause
for it in which `Run` has not returned some goroutine can go on by itself; none
can exactly where `Run` has returned, the goroutines have ended and the
connections are closed; and a session in which nothing at all can happen has
ended so. -/
theorem teardown_never_stuck {p : Peers} {s : State} (hs : (system p).Reach s) :
    (Cause s → (∀ err, s.caller ≠ .leaving err ∧ s.caller ≠ .returned err) →
      ∃ a t, Ready s a ∧ step p s a = some t) ∧
    (Cause s → (Stuck p s ↔ Finished s)) ∧
    (Halted p s → Finished s) := by
  have hi := (inv_stable p).reach hs
  refine ⟨fun hcause hrun => ?_, fun hcause => ⟨fun h => h.finished hi hcause, Finished.stuck⟩,
    fun h => h.finished hi⟩
  by_contra hno
  have hstuck : Stuck p s := fun a hr => by
    cases ha : step p s a with
    | none => rfl
    | some t => exact absurd ⟨a, t, hr, ha⟩ hno
  obtain ⟨err, hc⟩ := (hstuck.finished hi hcause).caller
  exact (hrun err).2 hc

/-- A client that sends one message and closes, and a target that says nothing. -/
def oneMessage : Peers := ⟨[⟨.binary, [1, 2, 3]⟩], some closeNormalClosure, [], false⟩

/-- The session is established and the client's stream is at its end. -/
def closeRun : List Act :=
  [.caller true, .caller true, .caller true, .caller true, .caller true, .bridge, .bridge,
    .readPump (.ok 0), .readPump (.ok 0), .readPump (.ok 0), .readPump .ended]

/-- The bridge ends, `Run` returns, and the other pump ends. -/
def teardownRun : List Act :=
  [.readPump (.ok 0), .bridge, .bridge, .bridge, .bridge, .caller true, .caller true,
    .caller true, .ping false, .ping false, .caller true, .caller true, .caller true,
    .caller true, .writePump (.fail 0), .writePump (.ok 0)]

theorem teardown_never_stuck_close :
    (∃ s a t, (system oneMessage).Reach s ∧ Cause s ∧ s.caller = .selecting ∧ Ready s a ∧
      step oneMessage s a = some t) ∧
    ∃ s, (system oneMessage).Reach s ∧ Cause s ∧ Stuck oneMessage s ∧ Finished s := by
  obtain ⟨s, hs, hr, hc⟩ : ∃ s, (system oneMessage).Reach s ∧
      s.wsToTcp.phase = .sending none ∧ s.caller = .selecting :=
    ⟨_, System.reach_get (system oneMessage) closeRun rfl rfl, rfl, rfl⟩
  have hcause : Cause s := by simp [Cause, hr, ReadPump.Returned]
  obtain ⟨a, t, ha, ht⟩ := (teardown_never_stuck hs).1 hcause (by simp [hc])
  refine ⟨⟨s, a, t, hs, hcause, hc, ha, ht⟩, ?_⟩
  obtain ⟨u, hu, hctx, hfin⟩ : ∃ u, (system oneMessage).Reach u ∧ u.ctxDone = true ∧ Finished u :=
    ⟨_, System.reach_get (system oneMessage) (closeRun ++ teardownRun) rfl rfl, rfl,
      ⟨⟨none, rfl⟩, .inr rfl, .inr ⟨none, rfl⟩, .inr ⟨some .io, rfl⟩, .inr rfl,
        .inr (.inl rfl), rfl, nofun, rfl⟩⟩
  exact ⟨u, hu, .inl hctx, ((teardown_never_stuck hu).2.1 (.inl hctx)).mpr hfin, hfin⟩

end WorkspaceProxy.Proxy.Session
