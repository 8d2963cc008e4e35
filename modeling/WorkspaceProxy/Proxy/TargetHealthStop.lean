import WorkspaceProxy.Proxy.TargetHealth

/-! # A stopped prober is quiet

The first call of `stopTargetProber` waits until the goroutine has returned. A
later one returns at once, also while the first still waits: a returned stop
means a quiet prober as long as the calls do not overlap so. -/
namespace WorkspaceProxy.Proxy.TargetHealth
open WorkspaceProxy.Conc WorkspaceProxy.Go

variable {s s' : State} {i j : Nat} {op : CallerOp} {c : Caller} {a : Act}

/-- The caller holds `proberMu`. -/
def Caller.inside : Caller → Prop
  | .startChecking | .startLeaving | .publishing | .published | .stopChecking | .stopLeaving
  | .flagging | .flagged _ => True
  | _ => False

/-- The call of `startTargetProber` has made its channel and not its goroutine. -/
def Caller.owes : Caller → Prop
  | .published | .spawning => True
  | _ => False

/-- What a caller `i` that is at `c` relies on. -/
def CallerOk (s : State) (i : Nat) : Caller → Prop
  | .publishing => s.proberStopped = false ∧ s.proberDone = none
  | .published | .spawning => s.proberDone = some i ∧ s.probers i = .unborn
  | .stopLeaving | .stopReturned => s.proberStopped = true
  | .flagged done | .cancelling done | .propagating done | .joining done =>
    s.proberStopped = true ∧ s.proberDone = done
  | _ => True

structure Inv (s : State) : Prop where
  guards : Guards s.proberMu fun i => (s.callers i).inside
  callers : ∀ i, CallerOk s i (s.callers i)
  /-- Only the channel of `proberDone` has a goroutine. -/
  born : ∀ j, s.probers j ≠ .unborn → s.proberDone = some j
  owed : ∀ j, s.proberDone = some j → s.probers j = .unborn → (s.callers j).owes
  closed : ∀ j, s.closed j = true ↔ s.probers j = .finished

/-! ## The callers -/

theorem CallerOk.frame (h : CallerOk s i c) (hstop : s'.proberStopped = s.proberStopped)
    (hdone : s'.proberDone = s.proberDone)
    (hrun : s.probers i = .unborn → s'.probers i = .unborn) : CallerOk s' i c := by
  cases c with
  | published | spawning => exact ⟨hdone.trans h.1, hrun h.2⟩
  | publishing => exact ⟨hstop.trans h.1, hdone.trans h.2⟩
  | stopLeaving | stopReturned => exact hstop.trans h
  | flagged | cancelling | propagating | joining => exact ⟨hstop.trans h.1, hdone.trans h.2⟩
  | _ => trivial

/-- A caller moves and touches nothing that others rely on. -/
theorem Inv.move (hi : Inv s) (hc : CallerOk s i c) (howes : (s.callers i).owes → c.owes)
    {mu : Option Nat} (hg : Guards mu fun j => (Function.update s.callers i c j).inside) :
    Inv { s.goto i c with proberMu := mu } where
  guards := hg
  callers :=
    (Function.forall_update_iff s.callers (CallerOk s)).mpr ⟨hc, fun j _ => hi.callers j⟩
  born := hi.born
  owed j hdone hrun := by
    show (Function.update s.callers i c j).owes
    have hold := hi.owed j hdone hrun
    by_cases hj : j = i
    · subst hj
      rw [Function.update_self]
      exact howes hold
    · rwa [Function.update_of_ne hj]
  closed := hi.closed

/-- The context, the probe contexts and what the probes write are not part of the
invariant. -/
theorem Inv.unread (h : Inv s) (ctx : Bool) (probeCtx : Nat → Option CtxErr) (health : Health)
    (reachable : Nat) : Inv { s with
      proberCtx := ctx, probeCtx := probeCtx, targetHealth := health,
      targetReachable := reachable } :=
  ⟨h.guards, h.callers, h.born, h.owed, h.closed⟩

theorem inside_other (hj : j ≠ i) :
    (Function.update s.callers i c j).inside ↔ (s.callers j).inside := by
  rw [Function.update_of_ne hj]

theorem Inv.guards_stay (hi : Inv s) (hc : c.inside ↔ (s.callers i).inside) :
    Guards s.proberMu fun j => (Function.update s.callers i c j).inside :=
  hi.guards.keep i (by rwa [Function.update_self]) fun j hj => inside_other hj

theorem Inv.goto (hi : Inv s) (hc : CallerOk s i c) (howes : (s.callers i).owes → c.owes)
    (hin : c.inside ↔ (s.callers i).inside) : Inv (s.goto i c) :=
  hi.move hc howes (hi.guards_stay hin)

theorem Inv.lock (hi : Inv s) (hmu : s.proberMu = none) (hc : CallerOk s i c)
    (howes : (s.callers i).owes → c.owes) (hin : c.inside) :
    Inv { s.goto i c with proberMu := some i } := by
  have hg := hi.guards
  rw [hmu] at hg
  exact hi.move hc howes (hg.lock (by rwa [Function.update_self]) fun j hj => inside_other hj)

theorem Inv.unlock (hi : Inv s) (hc : CallerOk s i c) (howes : (s.callers i).owes → c.owes)
    (hin : (s.callers i).inside) (hout : ¬ c.inside) : Inv { s.goto i c with proberMu := none } :=
  hi.move hc howes
    (hi.guards.unlock i hin (by rwa [Function.update_self]) fun j hj => inside_other hj)

/-- Nobody else is in the critical section. -/
theorem Inv.alone (hi : Inv s) (hin : (s.callers i).inside) (hj : j ≠ i) :
    ¬ (s.callers j).inside := by
  intro hin'
  have hmu := (hi.guards i).mp hin
  rw [(hi.guards j).mp hin'] at hmu
  exact hj (Option.some.inj hmu)

theorem Inv.publish (hi : Inv s) (h : s.callers i = .publishing) :
    Inv { s.goto i .published with proberDone := some i } := by
  have hin : (s.callers i).inside := by rw [h]; trivial
  have hok : s.proberStopped = false ∧ s.proberDone = none := by
    have := hi.callers i
    rwa [h] at this
  have hunborn : ∀ j, s.probers j = .unborn := fun j => by
    by_contra hne
    have := hi.born j hne
    rw [hok.2] at this
    cases this
  refine ⟨hi.guards_stay (by rw [h]; exact Iff.rfl), (Function.forall_update_iff s.callers _).mpr
    ⟨⟨rfl, hunborn i⟩, fun j hj => ?_⟩, fun j hj => ?_, fun j hj _ => ?_, hi.closed⟩
  · have hother := hi.callers j
    have halone := hi.alone hin hj
    cases hcj : s.callers j with
    | publishing => rw [hcj] at halone; exact absurd trivial halone
    | published | spawning =>
      rw [hcj] at hother
      have hdone := hother.1
      rw [hok.2] at hdone
      cases hdone
    | stopLeaving | stopReturned => rw [hcj] at hother; exact hother
    | flagged | cancelling | propagating | joining =>
      rw [hcj] at hother
      have hstop := hother.1
      rw [hok.1] at hstop
      cases hstop
    | _ => trivial
  · exact absurd (hunborn j) hj
  · cases hj
    show (Function.update s.callers i .published i).owes
    rw [Function.update_self]
    trivial

theorem Inv.flag (hi : Inv s) (h : s.callers i = .flagging) :
    Inv { s.goto i (.flagged s.proberDone) with proberStopped := true } := by
  have hin : (s.callers i).inside := by rw [h]; trivial
  refine ⟨hi.guards_stay (by rw [h]; exact Iff.rfl), (Function.forall_update_iff s.callers _).mpr
    ⟨⟨rfl, rfl⟩, fun j hj => ?_⟩, hi.born, fun j hj hrun => ?_, hi.closed⟩
  · have hother := hi.callers j
    have halone := hi.alone hin hj
    cases hcj : s.callers j with
    | publishing => rw [hcj] at halone; exact absurd trivial halone
    | published | spawning => rw [hcj] at hother; exact hother
    | stopLeaving | stopReturned => rfl
    | flagged | cancelling | propagating | joining =>
      rw [hcj] at hother
      exact ⟨rfl, hother.2⟩
    | _ => trivial
  · have hold := hi.owed j hj hrun
    show (Function.update s.callers i _ j).owes
    by_cases hji : j = i
    · subst hji
      rw [h] at hold
      exact hold.elim
    · rwa [Function.update_of_ne hji]

theorem Inv.spawn (hi : Inv s) (h : s.callers i = .spawning) :
    Inv ((s.goto i .startReturned).run i .preparing) := by
  have hok : s.proberDone = some i ∧ s.probers i = .unborn := by
    have := hi.callers i
    rwa [h] at this
  refine ⟨hi.guards_stay (by rw [h]; exact Iff.rfl), (Function.forall_update_iff s.callers _).mpr
    ⟨trivial, fun j hj => ?_⟩, fun j hj => ?_, fun j hj hrun => ?_, fun j => ?_⟩
  · refine (hi.callers j).frame rfl rfl fun hrun => ?_
    exact (Function.update_of_ne hj _ _).trans hrun
  · by_cases hji : j = i
    · subst hji
      exact hok.1
    · refine hi.born j fun hrun => hj ?_
      show Function.update s.probers i .preparing j = _
      rwa [Function.update_of_ne hji]
  · -- the channel has its goroutine now
    have hji : i = j := Option.some.inj (hok.1.symm.trans hj)
    subst hji
    have hrun : Function.update s.probers i .preparing i = .unborn := hrun
    rw [Function.update_self] at hrun
    cases hrun
  · show s.closed j = true ↔ Function.update s.probers i .preparing j = .finished
    by_cases hji : j = i
    · subst hji
      rw [hi.closed, hok.2, Function.update_self]
      exact iff_of_false nofun nofun
    · rw [Function.update_of_ne hji]
      exact hi.closed j

theorem Inv.callerStep (hi : Inv s) (hst : CallerStep s i op s') : Inv s' := by
  have hok := hi.callers i
  cases hst with
  | startTargetProber h | startNoOp h | stopTargetProber h | stopCheck h =>
    exact hi.goto trivial (by rw [h]; exact id) (by rw [h]; exact Iff.rfl)
  | startLock h hmu | stopLock h hmu => exact hi.lock hmu trivial (by rw [h]; exact id) trivial
  | startCheck h hstop hdone =>
    exact hi.goto ⟨hstop, hdone⟩ (by rw [h]; exact id) (by rw [h]; exact Iff.rfl)
  | stopNoOp h hstop => exact hi.goto hstop (by rw [h]; exact id) (by rw [h]; exact Iff.rfl)
  | startLeave h => exact hi.unlock trivial (by rw [h]; exact id) (by rw [h]; trivial) id
  | startUnlock h | stopLeave h | stopUnlock h =>
    rw [h] at hok
    exact hi.unlock hok (by rw [h]; exact id) (by rw [h]; trivial) id
  | publish h => exact hi.publish h
  | spawn h => exact hi.spawn h
  | flag h => exact hi.flag h
  | proberCancel h | propagate h =>
    rw [h] at hok
    refine Inv.unread (s := s.goto i _) (hi.goto ?_ ?_ ?_) _ _ _ _
    · exact hok
    · rw [h]; exact id
    · rw [h]; exact Iff.rfl
  | join h hdone =>
    rw [h] at hok
    exact hi.goto hok.1 (by rw [h]; exact id) (by rw [h]; exact Iff.rfl)

/-! ## The goroutine -/

/-- The goroutine was started and has not returned. -/
def Prober.Running (p : Prober) : Prop := p ≠ .unborn ∧ p ≠ .finished

/-- A goroutine that runs moves on. -/
theorem Inv.moveProber (hi : Inv s) {p : Prober} (hrun : (s.probers i).Running)
    (hp : p ≠ .unborn) {closed : Nat → Bool}
    (hclosed : ∀ j, closed j = true ↔ Function.update s.probers i p j = .finished) :
    Inv { s.run i p with closed := closed } where
  guards := hi.guards
  callers j := by
    refine (hi.callers j).frame rfl rfl fun hunborn => ?_
    have hji : j ≠ i := by
      rintro rfl
      exact hrun.1 hunborn
    show Function.update s.probers i p j = _
    rwa [Function.update_of_ne hji]
  born j hj := by
    by_cases hji : j = i
    · subst hji
      exact hi.born j hrun.1
    · have hj : Function.update s.probers i p j ≠ .unborn := hj
      rw [Function.update_of_ne hji] at hj
      exact hi.born j hj
  owed j hdone hj := by
    have hj : Function.update s.probers i p j = .unborn := hj
    by_cases hji : j = i
    · subst hji
      rw [Function.update_self] at hj
      exact absurd hj hp
    · rw [Function.update_of_ne hji] at hj
      exact hi.owed j hdone hj
  closed := hclosed

theorem Inv.run (hi : Inv s) {p : Prober} (hrun : (s.probers i).Running) (hp : p.Running) :
    Inv (s.run i p) := by
  refine hi.moveProber hrun hp.1 fun j => ?_
  rw [hi.closed j]
  by_cases hji : j = i
  · subst hji
    rw [Function.update_self]
    exact iff_of_false hrun.2 hp.2
  · rw [Function.update_of_ne hji]

theorem Inv.close (hi : Inv s) (hrun : (s.probers i).Running) :
    Inv { s.run i .finished with closed := Function.update s.closed i true } := by
  have hne : Prober.finished ≠ .unborn := nofun
  refine hi.moveProber hrun hne fun j => ?_
  by_cases hji : j = i
  · subst hji
    simp only [Function.update_self]
  · simp only [Function.update_of_ne hji]
    exact hi.closed j

theorem ProberStep.running {op : ProberOp} (h : ProberStep s i op s') : (s.probers i).Running := by
  cases h with
  | timeout h =>
    rcases h with h | ⟨err, h⟩ <;>
    · rw [h]
      exact ⟨nofun, nofun⟩
  | withTimeout h | probeTarget h | canceled h | notCanceled h | record h | setGauge h | ctxDone h
  | tick h | close h =>
    rw [h]
    exact ⟨nofun, nofun⟩

theorem Inv.proberStep (hi : Inv s) {op : ProberOp} (hst : ProberStep s i op s') : Inv s' := by
  have hrun := hst.running
  cases hst with
  | timeout => exact hi.unread _ _ _ _
  | withTimeout | record | setGauge =>
    refine Inv.unread (s := s.run i _) (hi.run hrun ?_) _ _ _ _
    exact ⟨nofun, nofun⟩
  | probeTarget | canceled | notCanceled | ctxDone | tick => exact hi.run hrun ⟨nofun, nofun⟩
  | close => exact hi.close hrun

theorem Inv.step (hi : Inv s) (hst : TargetHealth.step s a = some s') : Inv s' := by
  cases a with
  | caller i op => exact hi.callerStep (caller_cases hst)
  | prober i op => exact hi.proberStep (prober_cases hst)

theorem inv_stable : system.Stable Inv where
  init := by
    rintro _ rfl
    refine ⟨fun i => iff_of_false id nofun, fun i => trivial, fun j hj => absurd rfl hj, nofun,
      fun j => iff_of_false nofun nofun⟩
  step _ _ _ hi hst := hi.step hst

/-! ## A returned stop -/

/-- No goroutine will be started, and the one there was has returned. -/
def Over (s : State) : Prop :=
  s.proberStopped = true ∧ ∀ c ∈ s.proberDone, s.closed c = true

theorem Over.step (h : Over s) (hi : Inv s) (hst : TargetHealth.step s a = some s') : Over s' := by
  cases a with
  | caller i op =>
    cases caller_cases hst with
    | publish hp =>
      -- nobody publishes a channel once the flag is set
      have hok := hi.callers i
      rw [hp] at hok
      have hstop := h.1
      rw [hok.1] at hstop
      cases hstop
    | flag => exact ⟨rfl, h.2⟩
    | _ => exact h
  | prober i op =>
    cases prober_cases hst with
    | close =>
      refine ⟨h.1, fun c hc => ?_⟩
      show Function.update s.closed i true c = true
      by_cases hci : c = i
      · subst hci
        exact Function.update_self ..
      · rw [Function.update_of_ne hci]
        exact h.2 c hc
    | _ => exact h

theorem Over.not_running (h : Over s) (hi : Inv s) (j : Nat) : ¬ (s.probers j).Running := by
  intro hrun
  have hclosed := h.2 j (hi.born j hrun.1)
  exact hrun.2 ((hi.closed j).mp hclosed)

theorem CallerStep.unwritten (h : CallerStep s i op s') :
    s'.targetHealth = s.targetHealth ∧ s'.targetReachable = s.targetReachable := by
  cases h <;> exact ⟨rfl, rfl⟩

/-- Once a call of `stopTargetProber` has returned, no goroutine runs, and no step
writes the health or the gauge. -/
def StopQuiet (s : State) : Prop :=
  (∃ i, s.callers i = .stopReturned) → (∀ j, ¬ (s.probers j).Running) ∧
    ∀ a t, system.step s a = some t →
      t.targetHealth = s.targetHealth ∧ t.targetReachable = s.targetReachable

theorem Over.quiet (h : Over s) (hi : Inv s) : StopQuiet s := by
  refine fun _ => ⟨h.not_running hi, fun a t hst => ?_⟩
  cases a with
  | caller i op => exact (caller_cases hst).unwritten
  | prober i op => exact absurd (prober_cases hst).running (h.not_running hi i)

theorem CallerStep.callers_other (h : CallerStep s i op s') (hj : j ≠ i) :
    s'.callers j = s.callers j := by
  cases h <;> exact Function.update_of_ne hj _ _

theorem ProberStep.callers {op : ProberOp} (h : ProberStep s i op s') : s'.callers = s.callers := by
  cases h <;> rfl

theorem ProberStep.proberStopped {op : ProberOp} (h : ProberStep s i op s') :
    s'.proberStopped = s.proberStopped := by
  cases h <;> rfl

/-- The call of `stopTargetProber` has set the flag, and has not seen the goroutine
return. -/
def Caller.stopping : Caller → Prop
  | .flagged _ | .cancelling _ | .propagating _ | .joining _ => True
  | _ => False

/-- A call of `stopTargetProber` that finds the flag set does so while no other is
between its flag and the end of its wait. -/
def StopsApart (s : State) : Act → Prop
  | .caller i .check => s.callers i = .stopChecking → s.proberStopped = true →
      ∀ j, ¬ (s.callers j).stopping
  | _ => True

theorem Inv.over_of_join (hi : Inv s) {done : Option Nat} (h : s.callers i = .joining done)
    (hdone : ∀ c ∈ done, s.closed c = true) : Over s := by
  have hok := hi.callers i
  rw [h] at hok
  exact ⟨hok.1, by rw [hok.2]; exact hdone⟩

/-- A stop goes on until the goroutine has returned. -/
theorem Inv.stopping_next (hi : Inv s) (hst : CallerStep s i op s')
    (hj : (s.callers j).stopping) : (s'.callers j).stopping ∨ Over s := by
  by_cases hji : j = i
  · subst hji
    cases hst with
    | join h hdone => exact .inr (hi.over_of_join h hdone)
    | stopUnlock | proberCancel | propagate =>
      left
      show (Function.update s.callers j _ j).stopping
      rw [Function.update_self]
      trivial
    | startTargetProber h | startLock h | startNoOp h | startCheck h | startLeave h | publish h
    | startUnlock h | spawn h | stopTargetProber h | stopLock h | stopNoOp h | stopCheck h
    | flag h | stopLeave h =>
      rw [h] at hj
      exact hj.elim
  · left
    rwa [hst.callers_other hji]

/-- The call of `stopTargetProber` returns, or has returned. -/
def Caller.stopped : Caller → Prop
  | .stopLeaving | .stopReturned => True
  | _ => False

/-- Where the stops do not overlap: behind the flag is a stop that goes on or a
prober that is done, and a stop has no prober behind it that is not done. -/
structure StopsWaited (s : State) : Prop where
  flag : s.proberStopped = true → (∃ j, (s.callers j).stopping) ∨ Over s
  stopped : ∀ j, (s.callers j).stopped → Over s

theorem StopsWaited.stopped_next (h : StopsWaited s) (hi : Inv s)
    (hc : StopsApart s (.caller i op)) (hst : CallerStep s i op s')
    (hj : (s'.callers j).stopped) : Over s := by
  by_cases hji : j = i
  · subst hji
    cases hst with
    | stopNoOp hcheck hstop =>
      refine (h.flag hstop).resolve_left ?_
      rintro ⟨k, hk⟩
      exact hc hcheck hstop k hk
    | stopLeave hleaving => exact h.stopped j (by rw [hleaving]; trivial)
    | join hjoin hdone => exact hi.over_of_join hjoin hdone
    | _ =>
      have hj : (Function.update s.callers j _ j).stopped := hj
      rw [Function.update_self] at hj
      exact hj.elim
  · rw [hst.callers_other hji] at hj
    exact h.stopped j hj

theorem StopsWaited.flag_next (h : StopsWaited s) (hi : Inv s) (hst : CallerStep s i op s')
    (hstop : s'.proberStopped = true) : (∃ j, (s'.callers j).stopping) ∨ Over s := by
  have hnext := fun j => hi.stopping_next (j := j) hst
  have hold : s.proberStopped = true → (∃ j, (s'.callers j).stopping) ∨ Over s := by
    intro hstop
    rcases h.flag hstop with ⟨j, hj⟩ | hover
    · exact (hnext j hj).imp_left fun hj => ⟨j, hj⟩
    · exact .inr hover
  cases hst with
  | flag =>
    refine .inl ⟨i, ?_⟩
    show (Function.update s.callers i _ i).stopping
    rw [Function.update_self]
    trivial
  | _ => exact hold hstop

theorem StopsWaited.step (h : StopsWaited s) (hi : Inv s) (hc : StopsApart s a)
    (hst : TargetHealth.step s a = some s') : StopsWaited s' := by
  have hkept : Over s → Over s' := fun hover => hover.step hi hst
  cases a with
  | caller i op =>
    have hcaller := caller_cases hst
    exact ⟨fun hstop => (h.flag_next hi hcaller hstop).imp_right hkept,
      fun j hj => hkept (h.stopped_next hi hc hcaller hj)⟩
  | prober i op =>
    have hprober := prober_cases hst
    refine ⟨fun hstop => ?_, fun j hj => ?_⟩
    · rw [hprober.proberStopped] at hstop
      rw [hprober.callers]
      exact (h.flag hstop).imp_right hkept
    · rw [hprober.callers] at hj
      exact hkept (h.stopped j hj)

theorem exec_spawn (h : s.callers i = .spawning) : system.exec s [.caller i .spawn] =
    some ((s.goto i .startReturned).run i .preparing) := by
  simp [System.exec, system, TargetHealth.step, TargetHealth.callerStep, h]

theorem step_leave (h : s.callers i = .stopLeaving) : system.step s (.caller i .unlock) =
    some { s.goto i .stopReturned with proberMu := none } := by
  simp [system, TargetHealth.step, TargetHealth.callerStep, h]

/-- An early return from a prober that is not done leaves a goroutine that runs,
or that is about to. -/
theorem running_of_early_return (hi : Inv s) (h : s.callers i = .stopLeaving) {k : Nat}
    (hdone : s.proberDone = some k) (hclosed : s.closed k ≠ true) :
    ∃ as u, system.exec s as = some u ∧ u.callers i = .stopReturned ∧ (u.probers k).Running := by
  have hleave := step_leave h
  have hret : Function.update s.callers i .stopReturned i = .stopReturned := Function.update_self ..
  by_cases hunborn : s.probers k = .unborn
  · have howes := hi.owed k hdone hunborn
    have hki : k ≠ i := by
      rintro rfl
      rw [h] at howes
      exact howes
    have hspawning : s.callers k = .spawning := by
      have hout := hi.alone (i := i) (by rw [h]; trivial) hki
      cases hk : s.callers k with
      | spawning => rfl
      | published => rw [hk] at hout; exact absurd trivial hout
      | _ => rw [hk] at howes; exact howes.elim
    refine ⟨_, _, System.exec_step hleave (exec_spawn (i := k) ?_), ?_, ?_⟩
    · exact (Function.update_of_ne hki _ _).trans hspawning
    · show Function.update (Function.update s.callers i .stopReturned) k .startReturned i = _
      rw [Function.update_of_ne hki.symm]
      exact hret
    · show (Function.update s.probers k .preparing k).Running
      rw [Function.update_self]
      exact ⟨nofun, nofun⟩
  · exact ⟨[_], _, System.exec_step hleave rfl, hret, hunborn,
      fun hfin => hclosed ((hi.closed k).mpr hfin)⟩

/-- As long as no stop finds the flag set while another is between its flag and
the end of its wait, a returned stop means a quiet prober. A stop that does so
while the prober is not done can break this. -/
theorem stop_quiet_of_stopsApart (s : State) :
    (system.ReachOn StopsApart s → StopQuiet s) ∧
    ∀ a t k, system.Reach s → ¬ StopsApart s a → s.proberDone = some k → s.closed k ≠ true →
      system.step s a = some t → ∃ as u, system.exec t as = some u ∧ ¬ StopQuiet u := by
  refine ⟨fun hs => ?_, fun a t k hs hc hdone hclosed hst => ?_⟩
  · have hi := inv_stable.reach hs.reach
    have hwaited : StopsWaited s := by
      refine hs.invariant (fun _ => inv_stable.reach) ?_ fun _ _ _ hi h hc hst => h.step hi hc hst
      rintro _ rfl
      exact ⟨nofun, fun j hj => hj.elim⟩
    rintro ⟨i, hret⟩
    exact (hwaited.stopped i (by rw [hret]; trivial)).quiet hi ⟨i, hret⟩
  · unfold StopsApart at hc
    split at hc
    · rename_i i
      simp only [Classical.not_imp] at hc
      obtain ⟨hcheck, hstop, -⟩ := hc
      have ht : t = s.goto i .stopLeaving := by
        have hst : callerStep s i .check = some t := hst
        simp only [TargetHealth.callerStep, hcheck, hstop, if_true] at hst
        exact (Option.some.inj hst).symm
      subst ht
      have hi := inv_stable.step _ _ _ (inv_stable.reach hs) hst
      obtain ⟨as, u, hexec, hret, hrun⟩ :=
        running_of_early_return hi (Function.update_self ..) hdone hclosed
      exact ⟨as, u, hexec, fun hquiet => (hquiet ⟨i, hret⟩).1 k hrun⟩
    · exact absurd trivial hc

/-- Caller 0 starts the prober, which is about to record that the target answers. -/
def probedRun : List Act :=
  [.startTargetProber, .lock, .check, .write, .unlock, .spawn].map (.caller 0) ++
    [.withTimeout, .probeTarget none, .ctxErr].map (.prober 0)

/-- A first stop comes to where it has given up the mutex. -/
def firstStop : List Act :=
  [.stopTargetProber, .lock, .check, .write, .unlock].map (.caller 1)

/-- A second stop finds the flag set. -/
def secondStop : List Act := [.stopTargetProber, .lock, .check, .unlock].map (.caller 2)

/-- The first stop waits until the goroutine has returned, and the second comes
after it. -/
def stoppedRun : List Act :=
  probedRun ++ firstStop ++ [.proberCancel, .propagate].map (.caller 1) ++
    [.record 5, .setGauge, .ctxDone, .close].map (.prober 0) ++ [.caller 1 .join] ++ secondStop

theorem along_stoppedRun : system.Along StopsApart initial stoppedRun := by
  -- the checks up to that of the second stop find the flag unset
  have hunset : ∀ s a, (match a with | .caller _ .check => !s.proberStopped | _ => true) = true →
      StopsApart s a := fun s a h => by
    unfold StopsApart
    split
    · intro _ hstop
      simp [hstop] at h
    · trivial
  have hfirst : system.Along StopsApart initial (stoppedRun.take 23) :=
    System.Along.mono (by decide) hunset
  show system.Along StopsApart initial
    (stoppedRun.take 23 ++ [.caller 2 .check, .caller 2 .unlock])
  refine hfirst.append fun s hs => ⟨fun _ _ j hj => ?_, ?_⟩
  · cases hs
    rcases j with _ | _ | _ | j <;> exact hj
  · split
    · exact ⟨trivial, by split <;> trivial⟩
    · trivial

theorem stop_quiet_second_stop : ∃ s, system.exec initial stoppedRun = some s ∧
    s.callers 1 = .stopReturned ∧ s.callers 2 = .stopReturned ∧ s.targetReachable = 1 ∧
    StopQuiet s := by
  have hquiet := (stop_quiet_of_stopsApart _).1
    (System.reachOn_get system _ rfl along_stoppedRun rfl)
  exact ⟨_, rfl, rfl, rfl, rfl, hquiet⟩

/-- The second stop returns before the first has cancelled the context, and the
goroutine writes the health after that. -/
theorem second_stop_returns_before_write : ¬ ∀ s, system.Reach s → StopQuiet s := by
  intro h
  have hreach := System.reach_get system (probedRun ++ firstStop ++ secondStop) rfl rfl
  obtain ⟨-, hunwritten⟩ := h _ hreach ⟨2, rfl⟩
  have hhealth := (hunwritten (.prober 0 (.record 5)) _ rfl).1
  cases congrArg Health.checked hhealth

end WorkspaceProxy.Proxy.TargetHealth
