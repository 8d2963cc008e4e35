import WorkspaceProxy.Conc.System
import WorkspaceProxy.Go.Ticker
import WorkspaceProxy.Proxy.Config

/-! # When the target is probed

The goroutine of `startTargetProber` makes a ticker, probes once without waiting for it,
and then once for each tick that it receives, until its context is done. A probe has
`targetHealthDialTimeout`. Here the goroutine runs against a clock, with what the
scheduler may add as bounds. The recorded result is never older than an interval and
one probe; and the check of `LoadConfig`, an interval above the probe's timeout, is what
keeps the ticker from dropping ticks. -/
namespace WorkspaceProxy.Proxy.ProbeSchedule
open WorkspaceProxy.Conc WorkspaceProxy.Go

/-- The interval, the most that `probeOnce` takes, and the most that the receive of a
tick that is there takes. -/
structure Timing where
  interval : Nat
  probe : Nat
  lag : Nat

/-- Where the goroutine is, and since when. -/
inductive Prober
  | probing (since : Nat)
  | waiting (since : Nat)

structure State where
  now : Nat
  prober : Prober
  ticker : Ticker
  recorded : Option Nat

inductive Act
  | delay
  | record
  | fire
  | receive

/-- When the goroutine has to take its next step. -/
def due (k : Timing) (ticker : Ticker) : Prober → Nat
  | .probing since => since + k.probe
  | .waiting since =>
    match ticker.pending with
    | some t => max t since + k.lag
    | none => ticker.next

def step (k : Timing) (s : State) : Act → Option State
  | .delay =>
    if s.now < s.ticker.next ∧ s.now < due k s.ticker s.prober then
      some { s with now := s.now + 1 }
    else none
  | .record =>
    match s.prober with
    | .probing _ => some { s with prober := .waiting s.now, recorded := some s.now }
    | .waiting _ => none
  | .fire =>
    if s.now = s.ticker.next then some { s with ticker := s.ticker.fire k.interval } else none
  | .receive =>
    match s.prober, s.ticker.pending with
    | .waiting _, some _ => some { s with prober := .probing s.now, ticker := s.ticker.take }
    | _, _ => none

def initial (k : Timing) : State := ⟨0, .probing 0, .new 0 k.interval, none⟩

def system (k : Timing) : System State Act := ⟨(· = initial k), step k⟩

/-- The steps of `step`, one constructor for each. -/
inductive Step (k : Timing) (s : State) : Act → State → Prop
  | delay : s.now < s.ticker.next → s.now < due k s.ticker s.prober →
      Step k s .delay { s with now := s.now + 1 }
  | record {since} : s.prober = .probing since →
      Step k s .record { s with prober := .waiting s.now, recorded := some s.now }
  | fire : s.now = s.ticker.next → Step k s .fire { s with ticker := s.ticker.fire k.interval }
  | receive {since t} : s.prober = .waiting since → s.ticker.pending = some t →
      Step k s .receive { s with prober := .probing s.now, ticker := s.ticker.take }

variable {k : Timing} {s t : State} {a : Act}

theorem step_cases (h : step k s a = some t) : Step k s a t := by
  cases a with
  | delay =>
    simp only [step] at h
    split at h
    · rename_i hw
      cases h; exact .delay hw.1 hw.2
    · cases h
  | record =>
    simp only [step] at h
    split at h
    · cases h; exact .record ‹_›
    · cases h
  | fire =>
    simp only [step] at h
    split at h
    · cases h; exact .fire ‹_›
    · cases h
  | receive =>
    simp only [step] at h
    split at h
    · cases h; exact .receive ‹_› ‹_›
    · cases h

/-! ## What holds at each step -/

def Prober.since : Prober → Nat
  | .probing since | .waiting since => since

structure Inv (k : Timing) (s : State) : Prop where
  ticker : s.ticker.At k.interval s.now
  since : s.prober.since ≤ s.now
  due : s.now ≤ due k s.ticker s.prober
  waiting : ∀ since, s.prober = .waiting since → s.recorded = some since

theorem due_fire (hnow : s.now = s.ticker.next) (hdue : s.now ≤ due k s.ticker s.prober) :
    s.now ≤ due k (s.ticker.fire k.interval) s.prober := by
  cases hp : s.prober with
  | probing since =>
    rw [hp] at hdue
    exact hdue
  | waiting since =>
    rw [hp] at hdue
    cases hpend : s.ticker.pending with
    | none =>
      simp only [due, Ticker.fire_of_none hpend]
      omega
    | some u =>
      simp only [due, hpend] at hdue
      simp only [due, Ticker.fire_of_some hpend]
      exact hdue

theorem Inv.step (h : Inv k s) (hst : Step k s a t) : Inv k t := by
  cases hst with
  | delay hnext hdue => exact ⟨h.ticker.delay hnext, Nat.le_succ_of_le h.since, hdue, h.waiting⟩
  | record hp =>
    refine ⟨h.ticker, Nat.le_refl _, ?_, ?_⟩
    · have hahead := h.ticker.ahead
      cases hpend : s.ticker.pending with
      | none =>
        simp only [ProbeSchedule.due, hpend]
        exact hahead
      | some u =>
        simp only [ProbeSchedule.due, hpend]
        omega
    · intro since hw
      cases hw
      rfl
  | fire hnow =>
    exact ⟨h.ticker.fire hnow, h.since, due_fire hnow h.due, h.waiting⟩
  | receive hp _ =>
    refine ⟨h.ticker.take, Nat.le_refl _, Nat.le_add_right _ _, ?_⟩
    intro since hw
    cases hw

theorem inv_stable (k : Timing) : (system k).Stable (Inv k) where
  init s hs := by
    rw [show s = initial k from hs]
    exact ⟨.new, Nat.le_refl _, Nat.zero_le _, fun since hw => by cases hw⟩
  step s a t h hst := h.step (step_cases hst)

/-! ## The recorded result -/

/-- When the next result is recorded at the latest. -/
def recordDue (k : Timing) (ticker : Ticker) : Prober → Nat
  | .probing since => since + k.probe
  | .waiting since =>
    match ticker.pending with
    | some t => max t since + k.lag + k.probe
    | none => ticker.next + k.lag + k.probe

/-- Until when a result is to be recorded: at first within one probe. -/
def freshUntil (k : Timing) : Option Nat → Nat
  | none => k.probe
  | some r => r + k.interval + k.lag + k.probe

theorem Inv.now_le (h : Inv k s) : s.now ≤ recordDue k s.ticker s.prober := by
  have hdue := h.due
  cases hp : s.prober with
  | probing since =>
    rw [hp] at hdue
    exact hdue
  | waiting since =>
    rw [hp] at hdue
    cases hpend : s.ticker.pending with
    | none =>
      simp only [ProbeSchedule.due, hpend] at hdue
      simp only [recordDue, hpend]
      omega
    | some u =>
      simp only [ProbeSchedule.due, hpend] at hdue
      simp only [recordDue, hpend]
      omega

/-- The next result does not become due later than it was. -/
theorem Inv.recordDue_step (h : Inv k s) (hst : Step k s a t)
    (hle : recordDue k s.ticker s.prober ≤ freshUntil k s.recorded) :
    recordDue k t.ticker t.prober ≤ freshUntil k t.recorded := by
  have hat := h.ticker
  have hahead := hat.ahead
  have hwithin := hat.within
  cases hst with
  | delay _ _ => exact hle
  | record hp =>
    cases hpend : s.ticker.pending with
    | none =>
      simp only [recordDue, hpend, freshUntil]
      omega
    | some u =>
      have hpast := hat.past u hpend
      simp only [recordDue, hpend, freshUntil]
      omega
  | fire hnow =>
    refine Nat.le_trans (Nat.le_of_eq ?_) hle
    have hsince := h.since
    cases hp : s.prober with
    | probing since => rfl
    | waiting since =>
      rw [hp] at hsince
      have hsince : since ≤ s.now := hsince
      cases hpend : s.ticker.pending with
      | none =>
        simp only [recordDue, hpend, Ticker.fire_of_none hpend]
        omega
      | some u => simp only [recordDue, hpend, Ticker.fire_of_some hpend]
  | @receive since u hp hpend =>
    have hdue := h.due
    rw [hp] at hdue hle
    simp only [ProbeSchedule.due, hpend] at hdue
    simp only [recordDue, hpend] at hle
    refine Nat.le_trans ?_ hle
    simp only [recordDue]
    omega

theorem fresh_stable (k : Timing) : (system k).Stable fun s =>
    Inv k s ∧ recordDue k s.ticker s.prober ≤ freshUntil k s.recorded where
  init s hs := by
    refine ⟨(inv_stable k).init s hs, ?_⟩
    rw [show s = initial k from hs]
    show 0 + k.probe ≤ k.probe
    omega
  step s a t h hst := ⟨h.1.step (step_cases hst), h.1.recordDue_step (step_cases hst) h.2⟩

/-! ## No tick is dropped -/

/-- The goroutine is done with a tick before the next one: a probe ends before the tick
after the one it was started for. -/
def Prompt (k : Timing) (ticker : Ticker) : Prober → Prop
  | .probing since =>
    match ticker.pending with
    | none => since + k.probe ≤ ticker.next
    | some t => since + k.probe ≤ t ∧ ticker.next = t + k.interval
  | .waiting since => ∀ t, ticker.pending = some t → since ≤ t ∧ ticker.next = t + k.interval

structure Keeps (k : Timing) (s : State) : Prop where
  prompt : Prompt k s.ticker s.prober
  dropped : s.ticker.dropped = 0

/-- While a tick is in the channel, the next one is not due. -/
theorem Inv.not_full (h : Inv k s) (hk : k.lag + k.probe ≤ k.interval) (hpos : 0 < k.probe)
    (hprompt : Prompt k s.ticker s.prober) (hnow : s.now = s.ticker.next) :
    s.ticker.pending = none := by
  cases hpend : s.ticker.pending with
  | none => rfl
  | some u =>
    exfalso
    have hdue := h.due
    have hpast := h.ticker.past u hpend
    cases hp : s.prober with
    | probing since =>
      rw [hp] at hdue hprompt
      simp only [Prompt, hpend] at hprompt
      have hdue : s.now ≤ since + k.probe := hdue
      omega
    | waiting since =>
      rw [hp] at hdue hprompt
      obtain ⟨hsince, hnext⟩ := hprompt u hpend
      simp only [ProbeSchedule.due, hpend] at hdue
      omega

theorem Keeps.step (h : Keeps k s) (hinv : Inv k s) (hk : k.lag + k.probe ≤ k.interval)
    (hpos : 0 < k.probe) (hst : Step k s a t) : Keeps k t := by
  have hprompt := h.prompt
  have hdue := hinv.due
  cases hst with
  | delay _ _ => exact ⟨h.prompt, h.dropped⟩
  | @record since hp =>
    rw [hp] at hprompt hdue
    refine ⟨?_, h.dropped⟩
    intro u hpend
    have hpend : s.ticker.pending = some u := hpend
    simp only [Prompt, hpend] at hprompt
    have hdue : s.now ≤ since + k.probe := hdue
    exact ⟨by omega, hprompt.2⟩
  | fire hnow =>
    have hpend := hinv.not_full hk hpos hprompt hnow
    rw [Ticker.fire_of_none hpend]
    refine ⟨?_, h.dropped⟩
    cases hp : s.prober with
    | probing since =>
      rw [hp] at hprompt
      simp only [Prompt, hpend] at hprompt
      exact ⟨hprompt, rfl⟩
    | waiting since =>
      have hsince := hinv.since
      rw [hp] at hsince
      have hsince : since ≤ s.now := hsince
      intro u hu
      cases hu
      exact ⟨by omega, rfl⟩
  | @receive since u hp hpend =>
    rw [hp] at hprompt hdue
    obtain ⟨hsince, hnext⟩ := hprompt u hpend
    simp only [ProbeSchedule.due, hpend] at hdue
    refine ⟨?_, h.dropped⟩
    show s.now + k.probe ≤ s.ticker.next
    omega

theorem keeps_reach (hk : k.lag + k.probe ≤ k.interval) (hpos : 0 < k.probe)
    (hs : (system k).Reach s) : Keeps k s := by
  induction hs with
  | @init s hi =>
    rw [show s = initial k from hi]
    refine ⟨?_, rfl⟩
    show 0 + k.probe ≤ 0 + k.interval
    omega
  | step hr hst ih => exact ih.step ((inv_stable k).reach hr) hk hpos (step_cases hst)

/-! ## The configuration -/

/-- The prober of a server with this configuration, in nanoseconds; `slack` is how late
a probe comes back after its timeout. -/
def timing (c : Config) (lag slack : Nat) : Timing where
  interval := c.proberTicker.toNat
  probe := targetHealthDialTimeout.toNat + slack
  lag := lag

/-- **A fresh result.** With an accepted configuration, the first result is recorded
within one probe, each result is followed by the next within an interval and one probe,
and no tick is dropped as long as the scheduler adds less than what the interval leaves
over the timeout of a probe. -/
theorem result_fresh {c : Config} (hc : c.Valid) (lag slack : Nat)
    (hs : (system (timing c lag slack)).Reach s) :
    (s.recorded = none → (s.now : Int) ≤ targetHealthDialTimeout + slack) ∧
      (∀ r, s.recorded = some r →
        (s.now : Int) ≤ r + c.targetHealthInterval + lag + targetHealthDialTimeout + slack) ∧
      ((lag : Int) + slack ≤ c.targetHealthInterval - targetHealthDialTimeout →
        s.ticker.dropped = 0) := by
  have hvalid := hc.targetHealth
  have hprobe : (targetHealthDialTimeout.toNat : Int) = targetHealthDialTimeout := rfl
  have hpos : 0 < targetHealthDialTimeout := by simp [targetHealthDialTimeout, second]
  have hticker : c.proberTicker = c.targetHealthInterval := if_neg (by omega)
  obtain ⟨hinv, hle⟩ := (fresh_stable _).reach hs
  have hnow := Nat.le_trans hinv.now_le hle
  refine ⟨?_, ?_, ?_⟩
  · intro hr
    simp only [hr, freshUntil, timing] at hnow
    omega
  · intro r hr
    simp only [hr, freshUntil, timing, hticker] at hnow
    omega
  · intro hfit
    refine (keeps_reach ?_ ?_ hs).dropped
    · simp only [timing, hticker]
      omega
    · simp only [timing]
      omega

/-- The defaults, with 1 ms for each of the scheduler's delays, after the first probe. -/
theorem result_fresh_default : ∃ s, (system (timing (readConfig fun _ => none) 1000000
    1000000)).Reach s ∧ s.recorded = some 0 ∧
    (s.now : Int) ≤ 0 + 30 * second + 1000000 + targetHealthDialTimeout + 1000000 ∧
    s.ticker.dropped = 0 := by
  have hvalid : (readConfig fun _ => none).Valid := by decide
  obtain ⟨s, hs, hr⟩ : ∃ s, (system (timing (readConfig fun _ => none) 1000000
      1000000)).Reach s ∧ s.recorded = some 0 :=
    ⟨_, System.reach_get (system (timing (readConfig fun _ => none) 1000000 1000000)) [.record]
      rfl rfl, rfl⟩
  obtain ⟨-, hfresh, hdropped⟩ := result_fresh hvalid 1000000 1000000 hs
  exact ⟨s, hs, hr, hfresh 0 hr, hdropped (by decide)⟩

end WorkspaceProxy.Proxy.ProbeSchedule
