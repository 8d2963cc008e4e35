import WorkspaceProxy.Proxy.TargetHealthStop

/-! # One prober, and no stop that waits in vain

Over a whole run at most one prober goroutine is started and at most one done
channel is closed. A call of `startTargetProber` makes its channel in the
critical section and its goroutine after it, so a goroutine may still be
started when a stop has left its own critical section: only the one whose
channel was published before, and the stop waits for it. -/
namespace WorkspaceProxy.Proxy.TargetHealth
open WorkspaceProxy.Conc WorkspaceProxy.Go

variable {s s' : State} {i j : Nat} {a : Act}

def Act.isSpawn : Act → Bool
  | .caller _ .spawn => true
  | _ => false

/-- The deferred `close(done)`. -/
def Act.isClose : Act → Bool
  | .prober _ .close => true
  | _ => false

/-- The call of `stopTargetProber` has left its critical section. -/
def Caller.LeftStop : Caller → Prop
  | .cancelling _ | .propagating _ | .joining _ | .stopReturned => True
  | _ => False

/-! ## At most one goroutine -/

def Born (s : State) : Prop := ∃ j, s.probers j ≠ .unborn

def Finished (s : State) : Prop := ∃ j, s.probers j = .finished

/-- A step of a caller touches no goroutine that was started. -/
theorem CallerStep.probers_of_born {op : CallerOp} (hi : Inv s) (h : CallerStep s i op s')
    (hj : s.probers j ≠ .unborn) : s'.probers j = s.probers j := by
  cases h with
  | spawn h =>
    have hok := hi.callers i
    rw [h] at hok
    have hji : j ≠ i := by
      rintro rfl
      exact hj hok.2
    exact Function.update_of_ne hji _ _
  | _ => rfl

/-- A goroutine that was started stays started. -/
theorem born_step (hi : Inv s) (hj : s.probers j ≠ .unborn)
    (hst : TargetHealth.step s a = some s') : s'.probers j ≠ .unborn := by
  cases a with
  | caller i op =>
    rw [(caller_cases hst).probers_of_born hi hj]
    exact hj
  | prober i op =>
    by_cases hji : j = i
    · subst hji
      cases prober_cases hst with
      | timeout => exact hj
      | _ =>
        show Function.update s.probers j _ j ≠ _
        rw [Function.update_self]
        nofun
    · cases prober_cases hst with
      | timeout => exact hj
      | _ =>
        show Function.update s.probers i _ j ≠ _
        rwa [Function.update_of_ne hji]

theorem finished_step (hi : Inv s) (hj : s.probers j = .finished)
    (hst : TargetHealth.step s a = some s') : s'.probers j = .finished := by
  cases a with
  | caller i op =>
    rw [(caller_cases hst).probers_of_born hi (by rw [hj]; nofun)]
    exact hj
  | prober i op =>
    have hcase := prober_cases hst
    have hji : j ≠ i := by
      rintro rfl
      exact hcase.running.2 hj
    cases hcase with
    | timeout => exact hj
    | _ => exact (Function.update_of_ne hji _ _).trans hj

/-- Only one channel is ever published. -/
theorem Inv.born_unique (hi : Inv s) (hborn : s.probers i ≠ .unborn)
    (hj : s.proberDone = some j) : i = j :=
  Option.some.inj ((hi.born i hborn).symm.trans hj)

theorem spawn_step (hst : TargetHealth.step s a = some s') (ha : a.isSpawn = true) :
    ∃ i, s.callers i = .spawning ∧ s' = (s.goto i .startReturned).run i .preparing := by
  cases a with
  | caller i op =>
    cases caller_cases hst with
    | spawn h => exact ⟨i, h, rfl⟩
    | _ => cases ha
  | prober i op => cases ha

theorem close_step (hst : TargetHealth.step s a = some s') (ha : a.isClose = true) :
    ∃ i, s.probers i = .closing ∧ s'.probers i = .finished := by
  cases a with
  | caller i op => cases ha
  | prober i op =>
    cases prober_cases hst with
    | close h => exact ⟨i, h, Function.update_self ..⟩
    | _ => cases ha

theorem inv_of_start : Inv initial := inv_stable.init _ rfl

theorem spawned_once {as : List Act} (he : system.exec initial as = some s) :
    as.countP Act.isSpawn ≤ 1 := by
  refine System.countP_le_one inv_stable (F := Born) ?_ ?_ ?_ inv_of_start he
  · rintro s a t hi ⟨j, hj⟩ hst
    exact ⟨j, born_step hi hj hst⟩
  · rintro s a t hi ha hst ⟨j, hj⟩
    obtain ⟨i, hc, -⟩ := spawn_step hst ha
    have hok := hi.callers i
    rw [hc] at hok
    have hji := hi.born_unique hj hok.1
    subst hji
    exact hj hok.2
  · rintro s a t hi ha hst
    obtain ⟨i, -, rfl⟩ := spawn_step hst ha
    refine ⟨i, ?_⟩
    show Function.update s.probers i .preparing i ≠ _
    rw [Function.update_self]
    nofun

theorem closed_once {as : List Act} (he : system.exec initial as = some s) :
    as.countP Act.isClose ≤ 1 := by
  refine System.countP_le_one inv_stable (F := Finished) ?_ ?_ ?_ inv_of_start he
  · rintro s a t hi ⟨j, hj⟩ hst
    exact ⟨j, finished_step hi hj hst⟩
  · rintro s a t hi ha hst ⟨j, hj⟩
    obtain ⟨i, hc, -⟩ := close_step hst ha
    have hdone := hi.born i (by rw [hc]; nofun)
    have hji := hi.born_unique (i := j) (by rw [hj]; nofun) hdone
    subst hji
    rw [hj] at hc
    cases hc
  · rintro s a t hi ha hst
    obtain ⟨i, -, hf⟩ := close_step hst ha
    exact ⟨i, hf⟩

/-! ## After a stop -/

/-- What the order of the critical sections gives a caller: a channel is
published before the flag is set, and who waits has cancelled the context. -/
def CallerOrdered (s : State) : Caller → Prop
  | .published => s.proberStopped = false
  | .propagating _ | .joining _ => s.proberCtx = true
  | _ => True

def Ordered (s : State) : Prop := ∀ j, CallerOrdered s (s.callers j)

theorem CallerOrdered.frame {c : Caller} (h : CallerOrdered s c)
    (hstop : c = .published → s'.proberStopped = s.proberStopped)
    (hctx : s.proberCtx = true → s'.proberCtx = true) : CallerOrdered s' c := by
  cases c with
  | published => exact (hstop rfl).trans h
  | propagating | joining => exact hctx h
  | _ => trivial

/-- A caller moves, and the flag stays as it is. -/
theorem Ordered.update {c : Caller} (h : Ordered s)
    (hcallers : s'.callers = Function.update s.callers i c) (hc : CallerOrdered s' c)
    (hstop : s'.proberStopped = s.proberStopped)
    (hctx : s.proberCtx = true → s'.proberCtx = true) : Ordered s' := by
  intro j
  rw [hcallers]
  by_cases hji : j = i
  · subst hji
    rwa [Function.update_self]
  · rw [Function.update_of_ne hji]
    exact (h j).frame (fun _ => hstop) hctx

theorem Ordered.flag (h : Ordered s) (hi : Inv s) (hc : s.callers i = .flagging) :
    Ordered { s.goto i (.flagged s.proberDone) with proberStopped := true } := by
  refine (Function.forall_update_iff s.callers fun _ => CallerOrdered _).mpr
    ⟨trivial, fun j hji => (h j).frame (fun hpub => ?_) id⟩
  -- who has published and not unlocked would be in the critical section too
  have halone := hi.alone (i := i) (by rw [hc]; trivial) hji
  rw [hpub] at halone
  exact absurd trivial halone

theorem Ordered.step (h : Ordered s) (hi : Inv s) (hst : TargetHealth.step s a = some s') :
    Ordered s' := by
  cases a with
  | caller i op =>
    cases caller_cases hst with
    | publish hc =>
      have hok := hi.callers i
      rw [hc] at hok
      exact h.update (c := .published) rfl hok.1 rfl id
    | flag hc => exact h.flag hi hc
    | @proberCancel done hc => exact h.update (c := .propagating done) rfl rfl rfl fun _ => rfl
    | @propagate done hc =>
      have hcancelled := h i
      rw [hc] at hcancelled
      exact h.update (c := .joining done) rfl hcancelled rfl id
    | _ => exact h.update rfl trivial rfl id
  | prober i op =>
    cases prober_cases hst <;> exact fun j => (h j).frame (fun _ => rfl) id

theorem ordered_of_reach (hs : system.Reach s) : Ordered s := by
  induction hs with
  | init hinit => subst hinit; exact fun j => trivial
  | step hr hst ih => exact ih.step (inv_stable.reach hr) hst

/-- A stop that has left its critical section has set the flag. -/
theorem Inv.stopped_of_left (hi : Inv s) (h : (s.callers i).LeftStop) :
    s.proberStopped = true := by
  have hok := hi.callers i
  cases hc : s.callers i with
  | cancelling | propagating | joining =>
    rw [hc] at hok
    exact hok.1
  | stopReturned =>
    rw [hc] at hok
    exact hok
  | _ => rw [hc] at h; exact h.elim

theorem stopped_step (h : s.proberStopped = true) (hst : TargetHealth.step s a = some s') :
    s'.proberStopped = true := by
  cases a with
  | caller i op =>
    cases caller_cases hst with
    | flag => rfl
    | _ => exact h
  | prober i op => cases prober_cases hst <;> exact h

/-- Once the flag is set, no call comes to where it starts a goroutine. -/
theorem not_spawning_step (ho : Ordered s) (hstop : s.proberStopped = true)
    (hj : s.callers j ≠ .spawning) (hst : TargetHealth.step s a = some s') :
    s'.callers j ≠ .spawning := by
  cases a with
  | caller i op =>
    have hcase := caller_cases hst
    by_cases hji : j = i
    · subst hji
      cases hcase with
      | startUnlock hc =>
        have hpub := ho j
        rw [hc] at hpub
        have hfalse : s.proberStopped = false := hpub
        rw [hstop] at hfalse
        cases hfalse
      | _ =>
        show Function.update s.callers j _ j ≠ _
        rw [Function.update_self]
        nofun
    · rwa [hcase.callers_other hji]
  | prober i op => rwa [(prober_cases hst).callers]

/-- A goroutine that is started after a stop has left its critical section has
its channel published already. -/
theorem late_spawn (hs : system.Reach s) (hstop : s.proberStopped = true) {as : List Act}
    {t : State} (he : system.exec s as = some t) (hmem : .caller j .spawn ∈ as) :
    s.callers j = .spawning := by
  by_contra hj
  induction as generalizing s with
  | nil => cases hmem
  | cons a as ih =>
    obtain ⟨u, hu, hr⟩ := System.exec_cons he
    rcases List.mem_cons.mp hmem with rfl | hmem
    · cases caller_cases hu with
      | spawn hc => exact hj hc
    · exact ih (hs.step hu) (stopped_step hstop hu) hr hmem
        (not_spawning_step (ordered_of_reach hs) hstop hj hu)

/-! ## A stop that waits -/

/-- The goroutine that a stop waits for is started, or its start is the next
step of the call that published the channel. -/
theorem started_or_spawning (hs : system.Reach s) {c : Nat}
    (h : s.callers i = .joining (some c)) :
    s.probers c ≠ .unborn ∨ s.callers c = .spawning := by
  have hi := inv_stable.reach hs
  have hok := hi.callers i
  rw [h] at hok
  refine or_iff_not_imp_left.mpr fun hunborn => ?_
  have howes := hi.owed c hok.2 (not_not.mp hunborn)
  have hord := ordered_of_reach hs c
  cases hc : s.callers c with
  | spawning => rfl
  | published =>
    rw [hc] at hord
    have hstop : s.proberStopped = false := hord
    rw [hok.1] at hstop
    cases hstop
  | _ => rw [hc] at howes; exact howes.elim

def proberRank : Prober → Nat
  | .unborn => 8
  | .preparing => 7
  | .probing => 6
  | .checking _ => 5
  | .recording _ => 4
  | .gauging _ => 3
  | .selecting => 2
  | .closing => 1
  | .finished => 0

theorem ProberStep.rank_lt {op : ProberOp} (h : ProberStep s i op s') (htick : op ≠ .tick)
    (htimeout : op ≠ .timeout) : proberRank (s'.probers i) < proberRank (s.probers i) := by
  cases h with
  | tick => exact absurd rfl htick
  | timeout => exact absurd rfl htimeout
  | withTimeout h | probeTarget h | canceled h | notCanceled h | record h | setGauge h
  | ctxDone h | close h =>
    show proberRank (Function.update s.probers i _ i) < _
    rw [h, Function.update_self]
    simp only [proberRank]
    omega

/-- A goroutine whose context is cancelled has a step other than a tick. -/
theorem prober_enabled (hctx : s.proberCtx = true) (hrun : (s.probers i).Running) :
    ∃ op t, op ≠ .tick ∧ op ≠ .timeout ∧ proberStep s i op = some t := by
  cases hp : s.probers i with
  | unborn => exact absurd hp hrun.1
  | preparing => exact ⟨.withTimeout, _, nofun, nofun, by simp only [proberStep, hp]; rfl⟩
  | probing => exact ⟨.probeTarget none, _, nofun, nofun, by simp only [proberStep, hp]; rfl⟩
  | checking err =>
    by_cases hcanceled : s.probeCtx i = some .canceled
    · exact ⟨.ctxErr, _, nofun, nofun, by simp only [proberStep, hp, if_pos hcanceled]; rfl⟩
    · exact ⟨.ctxErr, _, nofun, nofun, by simp only [proberStep, hp, if_neg hcanceled]; rfl⟩
  | recording err => exact ⟨.record 0, _, nofun, nofun, by simp only [proberStep, hp]; rfl⟩
  | gauging err => exact ⟨.setGauge, _, nofun, nofun, by simp only [proberStep, hp]; rfl⟩
  | selecting => exact ⟨.ctxDone, _, nofun, nofun, by simp only [proberStep, hp, hctx]; rfl⟩
  | closing => exact ⟨.close, _, nofun, nofun, by simp only [proberStep, hp]; rfl⟩
  | finished => exact absurd hp hrun.2

/-- While a stop waits for `c`, a step brings the goroutine `c` closer to its end,
and then the stop returns. -/
theorem join_advances (hs : system.Reach s) {c : Nat} (h : s.callers i = .joining (some c)) :
    ∃ a t, system.step s a = some t ∧ (t.callers i = .stopReturned ∨
      t.callers i = .joining (some c) ∧
        proberRank (t.probers c) < proberRank (s.probers c)) := by
  have hi := inv_stable.reach hs
  have hctx : s.proberCtx = true := by
    have := ordered_of_reach hs i
    rwa [h] at this
  by_cases hunborn : s.probers c = .unborn
  · have hc := (started_or_spawning hs h).resolve_left (not_not.mpr hunborn)
    have hic : i ≠ c := by
      rintro rfl
      rw [h] at hc
      cases hc
    refine ⟨.caller c .spawn, (s.goto c .startReturned).run c .preparing, ?_, .inr ⟨?_, ?_⟩⟩
    · simp only [system, TargetHealth.step, TargetHealth.callerStep, hc]
    · exact (Function.update_of_ne hic _ _).trans h
    · rw [hunborn]
      simp [State.run, proberRank]
  · by_cases hfin : s.probers c = .finished
    · refine ⟨.caller i .join, s.goto i .stopReturned, ?_, .inl (Function.update_self ..)⟩
      have hclosed : ∀ d ∈ some c, s.closed d = true := by
        rintro d ⟨⟩
        exact (hi.closed c).mpr hfin
      simp only [system, TargetHealth.step, TargetHealth.callerStep, h, if_pos hclosed]
    · obtain ⟨op, t, htick, htimeout, hst⟩ := prober_enabled hctx ⟨hunborn, hfin⟩
      have hcase := prober_cases hst
      refine ⟨.prober c op, t, hst, .inr ⟨?_, hcase.rank_lt htick htimeout⟩⟩
      rw [hcase.callers]
      exact h

theorem join_returns (hs : system.Reach s) {c : Nat} (h : s.callers i = .joining (some c)) :
    ∃ as t, system.exec s as = some t ∧ t.callers i = .stopReturned := by
  let P (u : State) : Prop := u.callers i = .stopReturned ∨
    system.Reach u ∧ u.callers i = .joining (some c)
  refine System.exec_of_rank (P := P) (fun u => if u.callers i = .stopReturned then 0
    else proberRank (u.probers c) + 1) (fun u hu => ?_) (.inr ⟨hs, h⟩)
  rcases hu with hu | ⟨hr, hu⟩
  · exact .inl hu
  · obtain ⟨a, t, hst, ht⟩ := join_advances hr hu
    refine .inr ⟨a, t, hst, ht.imp_right fun ht => ⟨hr.step hst, ht.1⟩, ?_⟩
    rcases ht with ht | ⟨ht, hlt⟩
    · simp [ht, hu]
    · simpa [ht, hu] using hlt

/-! ## The life of a server -/

/-- What a run from the start of a server to `s` guarantees. -/
structure OneProber (as : List Act) (s : State) : Prop where
  spawned : as.countP Act.isSpawn ≤ 1
  closed : as.countP Act.isClose ≤ 1
  /-- After a stop has left its critical section, only a goroutine whose channel
  is published already is started. -/
  late : ∀ i, (s.callers i).LeftStop → ∀ bs t j, system.exec s bs = some t →
    .caller j .spawn ∈ bs → s.proberDone = some j ∧ s.callers j = .spawning
  /-- A stop that waits has cancelled the context, its goroutine is started or
  about to be, and it can return. -/
  waits : ∀ i c, s.callers i = .joining (some c) → s.proberCtx = true ∧
    (s.probers c ≠ .unborn ∨ s.callers c = .spawning) ∧
    ∃ bs t, system.exec s bs = some t ∧ t.callers i = .stopReturned

/-- **One prober over the life of a server.** -/
theorem one_prober {as : List Act} (he : system.exec initial as = some s) : OneProber as s where
  spawned := spawned_once he
  closed := closed_once he
  late i hleft bs t j hbs hmem := by
    have hs := (System.Reach.init (S := system) rfl).exec he
    have hi := inv_stable.reach hs
    have hj := late_spawn hs (hi.stopped_of_left hleft) hbs hmem
    have hok := hi.callers j
    rw [hj] at hok
    exact ⟨hok.1, hj⟩
  waits i c h := by
    have hs := (System.Reach.init (S := system) rfl).exec he
    have hctx := ordered_of_reach hs i
    rw [h] at hctx
    exact ⟨hctx, started_or_spawning hs h, join_returns hs h⟩

/-- Caller 0 publishes its channel, and the stop of caller 1 goes through its
critical section before the goroutine is started. -/
def lateRun : List Act :=
  [.startTargetProber, .lock, .check, .write, .unlock].map (.caller 0) ++ firstStop

/-- The stop waits for the goroutine that is not started yet. -/
def waitingRun : List Act := lateRun ++ [.proberCancel, .propagate].map (.caller 1)

theorem one_prober_late : ∃ s, system.exec initial waitingRun = some s ∧
    s.callers 1 = .joining (some 0) ∧ s.probers 0 = .unborn ∧
    ∃ bs t, system.exec s bs = some t ∧ t.callers 1 = .stopReturned := by
  have hrun := (Option.some_get (show (system.exec initial waitingRun).isSome = true from rfl)).symm
  exact ⟨_, hrun, rfl, rfl, ((one_prober hrun).waits 1 0 rfl).2.2⟩

/-- A goroutine can be started after a stop has left its critical section. -/
theorem spawn_after_stop : ¬ ∀ as s, system.exec initial as = some s → ∀ i,
    (s.callers i).LeftStop → ∀ bs t j, system.exec s bs = some t → .caller j .spawn ∉ bs := by
  intro h
  exact h lateRun _ rfl 1 trivial [.caller 0 .spawn] _ 0 rfl (List.mem_singleton_self _)

end WorkspaceProxy.Proxy.TargetHealth
