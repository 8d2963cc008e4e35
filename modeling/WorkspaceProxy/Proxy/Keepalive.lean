import WorkspaceProxy.Conc.System
import WorkspaceProxy.Go.Ticker
import WorkspaceProxy.Proxy.Config

/-! # Pings, pongs and the read deadline

`Run` sets the read deadline of the WebSocket to `PingTimeout` from now, and only then
dials the target; `pingLoop` makes its ticker after that, and writes a ping for each
tick. The pong handler sets the deadline anew; nothing else does. Here a session runs
against a clock. How long things take is given by `Timing`: the clock does not pass the
time at which one of them is due. A session whose client answers is then never cut off
exactly if the bounds fit into `PingTimeout`, which is more than the check of
`LoadConfig` asks for. -/
namespace WorkspaceProxy.Proxy.Keepalive
open WorkspaceProxy.Conc WorkspaceProxy.Go

/-- The most that things take: `dialTCP`, the receive of a tick that is there, the write
of a ping, and the way from there to the pong handler. -/
structure Timing where
  interval : Nat
  timeout : Nat
  dial : Nat
  lag : Nat
  write : Nat
  answer : Nat

/-- The ping loop, with the time at which it came to where it is. -/
inductive Loop
  | dialing
  | idle (since : Nat)
  | writing (since : Nat)

/-- `inflight` has the times at which the pings were written that have no answer yet. -/
structure State where
  now : Nat
  loop : Loop
  ticker : Ticker
  inflight : List Nat
  deadline : Nat

inductive Act
  | delay
  | dialed
  | fire
  | receive
  | ping
  | pong

/-- Nothing is due now. -/
def State.mayWait (k : Timing) (s : State) : Bool :=
  (match s.loop, s.ticker.pending with
    | .dialing, _ => decide (s.now < k.dial)
    | .idle since, some t => decide (s.now < s.ticker.next ∧ s.now < max t since + k.lag)
    | .idle _, none => decide (s.now < s.ticker.next)
    | .writing since, _ => decide (s.now < s.ticker.next ∧ s.now < since + k.write)) &&
  (match s.inflight with
    | [] => true
    | written :: _ => decide (s.now < written + k.answer))

def step (k : Timing) (s : State) : Act → Option State
  | .delay => if s.mayWait k then some { s with now := s.now + 1 } else none
  | .dialed =>
    match s.loop with
    | .dialing => some { s with loop := .idle s.now, ticker := .new s.now k.interval }
    | _ => none
  | .fire =>
    match s.loop with
    | .dialing => none
    | _ =>
      if s.now = s.ticker.next then some { s with ticker := s.ticker.fire k.interval } else none
  | .receive =>
    match s.loop, s.ticker.pending with
    | .idle _, some _ => some { s with loop := .writing s.now, ticker := s.ticker.take }
    | _, _ => none
  | .ping =>
    match s.loop with
    | .writing _ => some { s with loop := .idle s.now, inflight := s.inflight ++ [s.now] }
    | _ => none
  | .pong =>
    match s.inflight with
    | [] => none
    | _ :: rest => some { s with inflight := rest, deadline := s.now + k.timeout }

def initial (k : Timing) : State := ⟨0, .dialing, .new 0 k.interval, [], k.timeout⟩

def system (k : Timing) : System State Act := ⟨(· = initial k), step k⟩

/-- The steps of `step`, one constructor for each. -/
inductive Step (k : Timing) (s : State) : Act → State → Prop
  | delay : s.mayWait k = true → Step k s .delay { s with now := s.now + 1 }
  | dialed : s.loop = .dialing →
      Step k s .dialed { s with loop := .idle s.now, ticker := .new s.now k.interval }
  | fire : s.loop ≠ .dialing → s.now = s.ticker.next →
      Step k s .fire { s with ticker := s.ticker.fire k.interval }
  | receive {since t} : s.loop = .idle since → s.ticker.pending = some t →
      Step k s .receive { s with loop := .writing s.now, ticker := s.ticker.take }
  | ping {since} : s.loop = .writing since →
      Step k s .ping { s with loop := .idle s.now, inflight := s.inflight ++ [s.now] }
  | pong {written rest} : s.inflight = written :: rest →
      Step k s .pong { s with inflight := rest, deadline := s.now + k.timeout }

variable {k : Timing} {s t : State} {a : Act}

theorem step_cases (h : step k s a = some t) : Step k s a t := by
  cases a with
  | delay =>
    simp only [step] at h
    split at h
    · cases h; exact .delay ‹_›
    · cases h
  | dialed =>
    simp only [step] at h
    split at h
    · cases h; exact .dialed ‹_›
    · cases h
  | fire =>
    simp only [step] at h
    split at h
    · cases h
    · rename_i hloop
      split at h
      · cases h; exact .fire hloop ‹_›
      · cases h
  | receive =>
    simp only [step] at h
    split at h
    · cases h; exact .receive ‹_› ‹_›
    · cases h
  | ping =>
    simp only [step] at h
    split at h
    · cases h; exact .ping ‹_›
    · cases h
  | pong =>
    simp only [step] at h
    split at h
    · cases h
    · cases h; exact .pong ‹_›

/-! ## When the next pong is handled at the latest -/

/-- When the ping loop will have written its next ping. -/
def writeDue (k : Timing) (ticker : Ticker) : Loop → Nat
  | .dialing => k.dial + k.interval + k.lag + k.write
  | .idle since =>
    match ticker.pending with
    | some t => max t since + k.lag + k.write
    | none => ticker.next + k.lag + k.write
  | .writing since => since + k.write

def pongDue (k : Timing) (s : State) : Nat :=
  match s.inflight with
  | written :: _ => written + k.answer
  | [] => writeDue k s.ticker s.loop + k.answer

/-- Where the ping loop is, nothing that it does is overdue. -/
def LoopAt (k : Timing) (now : Nat) (ticker : Ticker) : Loop → Prop
  | .dialing => now ≤ k.dial
  | .idle since => since ≤ now ∧ ticker.At k.interval now ∧
      ∀ t, ticker.pending = some t → now ≤ max t since + k.lag
  | .writing since => since ≤ now ∧ ticker.At k.interval now ∧ now ≤ since + k.write

structure Inv (k : Timing) (s : State) : Prop where
  loop : LoopAt k s.now s.ticker s.loop
  dialing : s.loop = .dialing → s.inflight = []
  inflight : ∀ written ∈ s.inflight, written ≤ s.now
  sorted : s.inflight.Pairwise (· ≤ ·)
  answered : ∀ written ∈ s.inflight, s.now ≤ written + k.answer

theorem Inv.ticker (h : Inv k s) (hloop : s.loop ≠ .dialing) : s.ticker.At k.interval s.now := by
  have hl := h.loop
  cases hs : s.loop with
  | dialing => exact absurd hs hloop
  | idle since | writing since =>
    rw [hs] at hl
    exact hl.2.1

theorem LoopAt.delay (h : LoopAt k s.now s.ticker s.loop) (hw : s.mayWait k = true) :
    LoopAt k (s.now + 1) s.ticker s.loop := by
  unfold State.mayWait at hw
  obtain ⟨hw, -⟩ := Bool.and_eq_true_iff.mp hw
  cases hs : s.loop with
  | dialing =>
    rw [hs] at hw
    exact (of_decide_eq_true hw : s.now < k.dial)
  | idle since =>
    rw [hs] at h hw
    obtain ⟨hsince, hat, -⟩ := h
    cases hp : s.ticker.pending with
    | none =>
      rw [hp] at hw
      refine ⟨by omega, hat.delay (of_decide_eq_true hw), ?_⟩
      intro t ht
      cases hp.symm.trans ht
    | some t =>
      rw [hp] at hw
      obtain ⟨hnext, hlag⟩ := of_decide_eq_true hw
      refine ⟨by omega, hat.delay hnext, ?_⟩
      intro u hu
      cases hp.symm.trans hu
      exact hlag
  | writing since =>
    rw [hs] at h hw
    obtain ⟨hsince, hat, -⟩ := h
    obtain ⟨hnext, hwrite⟩ := of_decide_eq_true hw
    exact ⟨by omega, hat.delay hnext, hwrite⟩

theorem LoopAt.fire (h : LoopAt k s.now s.ticker s.loop) (hnow : s.now = s.ticker.next) :
    LoopAt k s.now (s.ticker.fire k.interval) s.loop := by
  cases hs : s.loop with
  | dialing =>
    rw [hs] at h
    exact h
  | idle since =>
    rw [hs] at h
    obtain ⟨hsince, hat, hlag⟩ := h
    refine ⟨hsince, hat.fire hnow, ?_⟩
    cases hp : s.ticker.pending with
    | none =>
      rw [Ticker.fire_of_none hp]
      intro t ht
      cases ht
      omega
    | some u =>
      rw [Ticker.fire_of_some hp]
      intro t ht
      cases ht
      exact hlag u hp
  | writing since =>
    rw [hs] at h
    exact ⟨h.1, h.2.1.fire hnow, h.2.2⟩

/-- The pings are answered in order, so that the first one stands for all. -/
theorem Inv.answered_delay (h : Inv k s) (hw : s.mayWait k = true) :
    ∀ written ∈ s.inflight, s.now + 1 ≤ written + k.answer := by
  intro written hm
  unfold State.mayWait at hw
  obtain ⟨-, hw⟩ := Bool.and_eq_true_iff.mp hw
  cases hs : s.inflight with
  | nil =>
    rw [hs] at hm
    cases hm
  | cons first rest =>
    have hsorted := h.sorted
    rw [hs] at hw hm hsorted
    have hfirst : s.now < first + k.answer := of_decide_eq_true hw
    obtain rfl | hm := List.mem_cons.mp hm
    · exact hfirst
    · have hle := List.rel_of_pairwise_cons hsorted hm
      omega

theorem Inv.step (h : Inv k s) (hst : Step k s a t) : Inv k t := by
  cases hst with
  | delay hw =>
    exact ⟨h.loop.delay hw, h.dialing, fun w hm => Nat.le_succ_of_le (h.inflight w hm), h.sorted,
      h.answered_delay hw⟩
  | dialed hloop =>
    exact ⟨⟨Nat.le_refl _, .new, fun t ht => by cases ht⟩, fun _ => h.dialing hloop, h.inflight,
      h.sorted, h.answered⟩
  | fire _ hnow => exact ⟨h.loop.fire hnow, h.dialing, h.inflight, h.sorted, h.answered⟩
  | receive hloop _ =>
    have hat := h.ticker (by simp [hloop])
    exact ⟨⟨Nat.le_refl _, hat.take, Nat.le_add_right _ _⟩, by simp, h.inflight, h.sorted,
      h.answered⟩
  | ping hloop =>
    have hat := h.ticker (by simp [hloop])
    have hsplit : ∀ w ∈ s.inflight ++ [s.now], w ∈ s.inflight ∨ w = s.now := by
      intro w hm
      simpa using hm
    refine ⟨⟨Nat.le_refl _, hat, ?_⟩, by simp, ?_, ?_, ?_⟩
    · intro t _
      exact Nat.le_trans (Nat.le_max_right t s.now) (Nat.le_add_right _ _)
    · intro w hm
      obtain hm | rfl := hsplit w hm
      · exact h.inflight w hm
      · exact Nat.le_refl _
    · refine List.pairwise_append.mpr ⟨h.sorted, List.pairwise_singleton _ _, ?_⟩
      intro w hm u hu
      rw [List.mem_singleton.mp hu]
      exact h.inflight w hm
    · intro w hm
      obtain hm | rfl := hsplit w hm
      · exact h.answered w hm
      · exact Nat.le_add_right _ _
  | @pong written rest hi =>
    have hsub : ∀ w ∈ rest, w ∈ s.inflight := by
      intro w hm
      rw [hi]
      exact List.mem_cons_of_mem _ hm
    have hsorted := h.sorted
    rw [hi] at hsorted
    refine ⟨h.loop, fun hloop => ?_, fun w hm => h.inflight w (hsub w hm), hsorted.of_cons,
      fun w hm => h.answered w (hsub w hm)⟩
    rw [h.dialing hloop] at hi
    cases hi

theorem inv_stable (k : Timing) : (system k).Stable (Inv k) where
  init s hs := by
    rw [show s = initial k from hs]
    exact ⟨Nat.zero_le _, fun _ => rfl, by simp [initial], .nil, by simp [initial]⟩
  step s a t h hst := h.step (step_cases hst)

/-! ## The deadline is ahead -/

section
variable {now : Nat} {ticker : Ticker} {loop : Loop}

theorem LoopAt.le_writeDue (h : LoopAt k now ticker loop) : now ≤ writeDue k ticker loop := by
  cases loop with
  | dialing =>
    have hd : now ≤ k.dial := h
    show now ≤ k.dial + k.interval + k.lag + k.write
    omega
  | idle since =>
    obtain ⟨-, hat, hlag⟩ := h
    cases hp : ticker.pending with
    | none =>
      have := hat.ahead
      simp only [writeDue, hp]
      omega
    | some t =>
      have := hlag t hp
      simp only [writeDue, hp]
      omega
  | writing since => exact h.2.2

theorem LoopAt.writeDue_le (h : LoopAt k now ticker loop) (hloop : loop ≠ .dialing) :
    writeDue k ticker loop ≤ now + k.interval + k.lag + k.write := by
  cases loop with
  | dialing => exact absurd rfl hloop
  | idle since =>
    obtain ⟨hsince, hat, -⟩ := h
    cases hp : ticker.pending with
    | none =>
      have := hat.within
      simp only [writeDue, hp]
      omega
    | some t =>
      have := hat.past t hp
      simp only [writeDue, hp]
      omega
  | writing since =>
    have := h.1
    show since + k.write ≤ _
    omega

/-- A tick that comes leaves the time of the next ping, or brings it forward. -/
theorem LoopAt.writeDue_fire (h : LoopAt k ticker.next ticker loop) :
    writeDue k (ticker.fire k.interval) loop ≤ writeDue k ticker loop := by
  cases loop with
  | dialing => exact Nat.le_refl _
  | writing since => exact Nat.le_refl _
  | idle since =>
    have hsince := h.1
    cases hp : ticker.pending with
    | none =>
      simp only [writeDue, hp, Ticker.fire_of_none hp]
      omega
    | some u =>
      simp only [writeDue, hp, Ticker.fire_of_some hp]
      omega

end

theorem Inv.le_pongDue (h : Inv k s) : s.now ≤ pongDue k s := by
  unfold pongDue
  cases hs : s.inflight with
  | cons written rest => exact h.answered written (by rw [hs]; exact List.mem_cons_self)
  | nil => exact Nat.le_add_right_of_le h.loop.le_writeDue

/-- From any time on, the next pong is handled within an interval and the bounds. -/
theorem Inv.pongDue_le (h : Inv k s) (hloop : s.loop ≠ .dialing) :
    pongDue k s ≤ s.now + k.interval + k.lag + k.write + k.answer := by
  unfold pongDue
  cases hs : s.inflight with
  | cons written rest =>
    have := h.inflight written (by rw [hs]; exact List.mem_cons_self)
    show written + k.answer ≤ _
    omega
  | nil => exact Nat.add_le_add_right (h.loop.writeDue_le hloop) k.answer

/-- Where no ping is on its way, the next pong is due with the next ping. -/
theorem pongDue_le_of_writeDue (hi : t.inflight = s.inflight)
    (hw : writeDue k t.ticker t.loop ≤ writeDue k s.ticker s.loop) : pongDue k t ≤ pongDue k s := by
  unfold pongDue
  rw [hi]
  cases s.inflight with
  | cons _ _ => exact Nat.le_refl _
  | nil => exact Nat.add_le_add_right hw k.answer

/-- The bounds fit into the timeout. -/
def Fits (k : Timing) : Prop := k.dial + k.interval + k.lag + k.write + k.answer < k.timeout

/-- Until a pong is handled, it does not become due any later. -/
theorem Inv.pongDue_step (h : Inv k s) (hst : Step k s a t) :
    pongDue k t ≤ pongDue k s ∧ t.deadline = s.deadline ∨ t.deadline = s.now + k.timeout ∧
      t.now = s.now ∧ t.loop = s.loop ∧ s.inflight ≠ [] := by
  have hl := h.loop
  cases hst with
  | delay _ => exact .inl ⟨Nat.le_refl _, rfl⟩
  | dialed hloop =>
    rw [hloop] at hl
    have hd : s.now ≤ k.dial := hl
    refine .inl ⟨pongDue_le_of_writeDue rfl ?_, rfl⟩
    simp only [hloop, writeDue, Ticker.new]
    omega
  | fire _ hnow =>
    rw [hnow] at hl
    exact .inl ⟨pongDue_le_of_writeDue rfl hl.writeDue_fire, rfl⟩
  | @receive since t hloop hp =>
    rw [hloop] at hl
    have hlag := hl.2.2 t hp
    refine .inl ⟨pongDue_le_of_writeDue rfl ?_, rfl⟩
    simp only [hloop, writeDue, hp]
    omega
  | ping hloop =>
    rw [hloop] at hl
    have hwrite := hl.2.2
    refine .inl ⟨?_, rfl⟩
    unfold pongDue
    cases hs : s.inflight with
    | cons _ _ => exact Nat.le_refl _
    | nil =>
      simp only [hloop, writeDue, List.nil_append]
      omega
  | pong hi => exact .inr ⟨rfl, rfl, rfl, by simp [hi]⟩

theorem alive_stable (hk : Fits k) :
    (system k).Stable fun s => Inv k s ∧ pongDue k s < s.deadline where
  init s hs := by
    refine ⟨(inv_stable k).init s hs, ?_⟩
    rw [show s = initial k from hs]
    exact hk
  step s a t h hst := by
    obtain ⟨hinv, hlt⟩ := h
    have hst := step_cases hst
    have hinv' := hinv.step hst
    refine ⟨hinv', ?_⟩
    obtain ⟨hle, hd⟩ | ⟨hd, hnow, hloop, hne⟩ := hinv.pongDue_step hst
    · omega
    · have hrun : t.loop ≠ .dialing := by
        rw [hloop]
        exact fun hdial => hne (hinv.dialing hdial)
      have hle := hinv'.pongDue_le hrun
      unfold Fits at hk
      omega

/-! ## A run that takes all the time there is -/

/-- Time that can pass while `Q` is kept passes. -/
theorem pass {Q : State → Prop} {d : Nat} (hstep : ∀ s, (system k).Reach s → Q s → s.now < d →
      ∃ t, (system k).Reach t ∧ Q t ∧ t.now = s.now + 1) (n : Nat) :
    ∀ s, (system k).Reach s → Q s → s.now + n = d → ∃ t, (system k).Reach t ∧ Q t ∧ t.now = d := by
  induction n with
  | zero =>
    intro s hs hq hn
    exact ⟨s, hs, hq, hn⟩
  | succ n ih =>
    intro s hs hq hn
    obtain ⟨t, ht, hqt, hnow⟩ := hstep s hs hq (by omega)
    exact ih t ht hqt (by omega)

theorem reach_delay (hs : (system k).Reach s) (hw : s.mayWait k = true) :
    (system k).Reach { s with now := s.now + 1 } :=
  hs.step (a := .delay) (by simp [system, step, hw])

theorem reach_dialed (hs : (system k).Reach s) (hloop : s.loop = .dialing) :
    (system k).Reach { s with loop := .idle s.now, ticker := .new s.now k.interval } :=
  hs.step (a := .dialed) (by simp [system, step, hloop])

theorem reach_fire (hs : (system k).Reach s) (hloop : s.loop ≠ .dialing)
    (hnow : s.now = s.ticker.next) :
    (system k).Reach { s with ticker := s.ticker.fire k.interval } :=
  hs.step (a := .fire) (by simp [system, step, hnow])

theorem reach_receive {since u : Nat} (hs : (system k).Reach s) (hloop : s.loop = .idle since)
    (hp : s.ticker.pending = some u) :
    (system k).Reach { s with loop := .writing s.now, ticker := s.ticker.take } :=
  hs.step (a := .receive) (by simp [system, step, hloop, hp])

theorem reach_ping {since : Nat} (hs : (system k).Reach s) (hloop : s.loop = .writing since) :
    (system k).Reach { s with loop := .idle s.now, inflight := s.inflight ++ [s.now] } :=
  hs.step (a := .ping) (by simp [system, step, hloop])

/-- The ticker fires if it is time, and is then ahead. -/
theorem reach_ahead (hpos : 0 < k.interval) (hs : (system k).Reach s) (hloop : s.loop ≠ .dialing) :
    ∃ ticker, (system k).Reach { s with ticker := ticker } ∧ s.now < ticker.next ∧
      ∀ u, s.ticker.pending = some u → ticker.pending = some u := by
  have hahead := (((inv_stable k).reach hs).ticker hloop).ahead
  by_cases hnow : s.now = s.ticker.next
  · refine ⟨s.ticker.fire k.interval, reach_fire hs hloop hnow, ?_, ?_⟩
    · rw [Ticker.fire_next]
      omega
    · intro u hu
      rw [Ticker.fire_of_some hu]
  · exact ⟨s.ticker, hs, by omega, fun _ hu => hu⟩

/-- The ping loop writes what there is to write at once. -/
theorem reach_settle {since first : Nat} {rest : List Nat} (hpos : 0 < k.interval)
    (hs : (system k).Reach s) (hloop : s.loop = .idle since) (hi : s.inflight = first :: rest) :
    ∃ t, (system k).Reach t ∧ t.now = s.now ∧ t.deadline = s.deadline ∧ (∃ u, t.loop = .idle u) ∧
      t.ticker.pending = none ∧ (∃ more, t.inflight = first :: more) ∧ t.now < t.ticker.next := by
  obtain ⟨ticker, ht, hnext, -⟩ := reach_ahead hpos hs (by simp [hloop])
  cases hp : ticker.pending with
  | none => exact ⟨_, ht, rfl, rfl, ⟨since, hloop⟩, hp, ⟨rest, hi⟩, hnext⟩
  | some u =>
    have hr := reach_receive ht hloop hp
    exact ⟨_, reach_ping hr rfl, rfl, rfl, ⟨s.now, rfl⟩, rfl, ⟨rest ++ [s.now], by simp [hi]⟩, hnext⟩

/-- Where the run is while the target is dialed. -/
def Dials (k : Timing) (s : State) : Prop :=
  s.loop = .dialing ∧ s.inflight = [] ∧ s.deadline = k.timeout

/-- No tick has come yet. -/
def Ticks (k : Timing) (s : State) : Prop :=
  s.loop = .idle k.dial ∧ s.ticker.pending = none ∧ s.ticker.next = k.dial + k.interval ∧
    s.inflight = [] ∧ s.deadline = k.timeout

/-- The first tick waits to be received. -/
def Lags (k : Timing) (s : State) : Prop :=
  s.loop = .idle k.dial ∧ s.ticker.pending = some (k.dial + k.interval) ∧
    s.inflight = [] ∧ s.deadline = k.timeout

/-- The first ping is being written. -/
def Writes (k : Timing) (since : Nat) (s : State) : Prop :=
  s.loop = .writing since ∧ s.inflight = [] ∧ s.deadline = k.timeout

/-- The first ping waits for its answer. -/
def Answers (k : Timing) (first : Nat) (s : State) : Prop :=
  (∃ u, s.loop = .idle u) ∧ (∃ rest, s.inflight = first :: rest) ∧ s.deadline = k.timeout

theorem dials : ∃ s, (system k).Reach s ∧ Dials k s ∧ s.now = k.dial := by
  refine pass (d := k.dial) ?_ k.dial (initial k) (.init rfl) ⟨rfl, rfl, rfl⟩ (Nat.zero_add _)
  intro s hs hq hlt
  obtain ⟨hloop, hi, hd⟩ := hq
  refine ⟨_, reach_delay hs ?_, ⟨hloop, hi, hd⟩, rfl⟩
  simp only [State.mayWait, hloop, hi, hlt, decide_true, Bool.and_true]

theorem ticks : ∃ s, (system k).Reach s ∧ Ticks k s ∧ s.now = k.dial + k.interval := by
  obtain ⟨s, hs, ⟨hloop, hi, hd⟩, hnow⟩ := @dials k
  have hr := reach_dialed hs hloop
  refine pass (d := k.dial + k.interval) ?_ k.interval _ hr
    ⟨by rw [hnow], rfl, by simp [Ticker.new, hnow], hi, hd⟩ (by simp [hnow])
  intro s hs hq hlt
  obtain ⟨hloop, hp, hnext, hi, hd⟩ := hq
  refine ⟨_, reach_delay hs ?_, ⟨hloop, hp, hnext, hi, hd⟩, rfl⟩
  simp only [State.mayWait, hloop, hp, hi, hnext, hlt, decide_true, Bool.and_true]

theorem lags (hpos : 0 < k.interval) :
    ∃ s, (system k).Reach s ∧ Lags k s ∧ s.now = k.dial + k.interval + k.lag := by
  obtain ⟨s, hs, ⟨hloop, hp, hnext, hi, hd⟩, hnow⟩ := @ticks k
  have hr := reach_fire hs (by simp [hloop]) (hnow.trans hnext.symm)
  refine pass (d := k.dial + k.interval + k.lag) ?_ k.lag _ hr
    ⟨hloop, by simp [Ticker.fire_of_none hp, hnext], hi, hd⟩ (by simp [hnow])
  intro s hs hq hlt
  obtain ⟨hloop, hp, hi, hd⟩ := hq
  obtain ⟨ticker, ht, hahead, hkeep⟩ := reach_ahead hpos hs (by simp [hloop])
  have hp := hkeep _ hp
  refine ⟨_, reach_delay ht ?_, ⟨hloop, hp, hi, hd⟩, rfl⟩
  have hmax : s.now < max (k.dial + k.interval) k.dial + k.lag := by omega
  simp only [State.mayWait, hloop, hp, hi, hahead, hmax, and_self, decide_true, Bool.and_true]

theorem writes (hpos : 0 < k.interval) : ∃ s since, (system k).Reach s ∧ Writes k since s ∧
    s.now = k.dial + k.interval + k.lag + k.write := by
  obtain ⟨s, hs, ⟨hloop, hp, hi, hd⟩, hnow⟩ := lags hpos
  have hr := reach_receive hs hloop hp
  have hwait : ∀ u, (system k).Reach u → Writes k s.now u → u.now < s.now + k.write →
      ∃ t, (system k).Reach t ∧ Writes k s.now t ∧ t.now = u.now + 1 := by
    intro u hu hq hlt
    obtain ⟨hloop, hi, hd⟩ := hq
    obtain ⟨ticker, ht, hahead, -⟩ := reach_ahead hpos hu (by simp [hloop])
    refine ⟨_, reach_delay ht ?_, ⟨hloop, hi, hd⟩, rfl⟩
    simp only [State.mayWait, hloop, hi, hahead, hlt, and_self, decide_true, Bool.and_true]
  obtain ⟨t, ht, hq, hnow'⟩ := pass hwait k.write _ hr ⟨rfl, hi, hd⟩ rfl
  exact ⟨t, s.now, ht, hq, by rw [hnow', hnow]⟩

theorem answers (hpos : 0 < k.interval) : ∃ s, (system k).Reach s ∧ s.deadline = k.timeout ∧
    s.now = k.dial + k.interval + k.lag + k.write + k.answer := by
  obtain ⟨s, since, hs, ⟨hloop, hi, hd⟩, hnow⟩ := writes hpos
  have hr := reach_ping hs hloop
  have hwait : ∀ u, (system k).Reach u → Answers k s.now u → u.now < s.now + k.answer →
      ∃ t, (system k).Reach t ∧ Answers k s.now t ∧ t.now = u.now + 1 := by
    intro u hu hq hlt
    obtain ⟨⟨v, hloop⟩, ⟨rest, hi⟩, hd⟩ := hq
    obtain ⟨t, ht, hsame, hd', ⟨w, hl⟩, hp, ⟨more, hm⟩, hnext⟩ := reach_settle hpos hu hloop hi
    refine ⟨_, reach_delay ht ?_, ⟨⟨w, hl⟩, ⟨more, hm⟩, hd'.trans hd⟩, by rw [hsame]⟩
    have hans : t.now < s.now + k.answer := by omega
    simp only [State.mayWait, hl, hp, hm, hnext, hans, decide_true, Bool.and_true]
  obtain ⟨t, ht, hq, hnow'⟩ := pass hwait k.answer _ hr
    ⟨⟨s.now, rfl⟩, ⟨[], by simp [hi]⟩, hd⟩ rfl
  exact ⟨t, ht, hq.2.2, by rw [hnow', hnow]⟩

/-! ## The configuration -/

/-- `Timeout` of the dialer of `dialTCP`. -/
def dialTimeout : Int := 5 * second

/-- The time that `WriteControl` is given. -/
def writeWait : Int := 10 * second

/-- A session of a server with this configuration, in nanoseconds. The time to receive a
tick and the time until the answer is handled are the environment's. -/
def timing (c : Config) (lag answer : Nat) : Timing where
  interval := c.pingInterval.toNat
  timeout := c.pingTimeout.toNat
  dial := dialTimeout.toNat
  lag := lag
  write := writeWait.toNat
  answer := answer

/-- **Which sessions are never cut off.** With an accepted configuration, the read
deadline is ahead in every run in which the client answers within `answer` exactly if
the bounds fit into `PingTimeout`. The deadline runs while the target is dialed, and
`PingInterval < PingTimeout` alone does not suffice. -/
theorem deadline_ahead_iff {c : Config} (hc : c.Valid) (hpos : 0 < c.pingInterval)
    (lag answer : Nat) :
    (∀ s, (system (timing c lag answer)).Reach s → s.now < s.deadline) ↔
      dialTimeout + c.pingInterval + lag + writeWait + answer < c.pingTimeout := by
  have hping := hc.ping
  have hfits : Fits (timing c lag answer) ↔
      dialTimeout + c.pingInterval + lag + writeWait + answer < c.pingTimeout := by
    have hd : (dialTimeout.toNat : Int) = dialTimeout := rfl
    have hw : (writeWait.toNat : Int) = writeWait := rfl
    simp only [Fits, timing]
    omega
  rw [← hfits]
  constructor
  · intro h
    obtain ⟨s, hs, hd, hnow⟩ := @answers (timing c lag answer) (by simp only [timing]; omega)
    have hlt := h s hs
    rw [hd, hnow] at hlt
    exact hlt
  · intro hk s hs
    obtain ⟨hinv, hlt⟩ := (alive_stable hk).reach hs
    exact Nat.lt_of_le_of_lt hinv.le_pongDue hlt

/-- With pings every 20 s and the default timeout of 60 s, an answer within 20 s is in
time. -/
theorem deadline_ahead_iff_twenty_seconds :
    0 < (readConfig (only "PING_INTERVAL" "20s")).pingInterval ∧ ∀ s,
      (system (timing (readConfig (only "PING_INTERVAL" "20s")) 1000000 20000000000)).Reach s →
        s.now < s.deadline := by
  have hpos : 0 < (readConfig (only "PING_INTERVAL" "20s")).pingInterval := by decide
  exact ⟨hpos, (deadline_ahead_iff valid_only_ping hpos 1000000 20000000000).mpr (by decide)⟩

end WorkspaceProxy.Proxy.Keepalive
