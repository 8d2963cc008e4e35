import WorkspaceProxy.Proxy.SessionManager

/-! # The connections of the proxy

Any number of runs of `handleWebSocket`, on the slots of `SessionManager`. A run
takes a slot or is refused, upgrades its connection, counts it and runs the
session; what it took is given back by deferred calls. A call out of the handler
may panic, and then the deferred calls that are registered by then run. -/
namespace WorkspaceProxy.Proxy.Connections
open WorkspaceProxy.Conc
open SessionManager (Caller)

/-- `ConnectionsTotal`, and the labels of `ConnectionErrors` that the handler
uses. -/
inductive Counter
  | connectionsTotal
  | capacityExceeded
  | upgradeFailed
deriving DecidableEq

/-- How a handler ends: it returns, it panics, or it panics before it has
incremented a counter. -/
inductive Exit
  | returned
  | panicked
  | cutOff
deriving DecidableEq

/-- Where a handler is. `rejecting` and `failing` are before their log line,
`responding` is before `http.Error`; `decrementing`, `closingWs` and `releasing`
are the deferred calls, the last with whether the connection was upgraded. -/
inductive Handler
  | idle
  | acquiring
  | rejecting
  | countingRejected
  | responding
  | upgrading
  | failing
  | countingFailed
  | countingTotal
  | countingActive
  | running
  | decrementing (exit : Exit)
  | closingWs (exit : Exit)
  | releasing (upgraded : Bool) (exit : Exit)
  | finished (exit : Exit)
deriving DecidableEq

structure Response where
  status : Nat
  retryAfter : String
  body : String
deriving DecidableEq

def capacityRetryAfterSeconds : String := "5"

/-- What a client gets that is refused a slot; `http.Error` ends its text with a newline. -/
def tooManyConnections : Response :=
  ⟨429, capacityRetryAfterSeconds, "Too many concurrent connections\n"⟩

/-- `increments` notes which handler incremented which counter. -/
structure State where
  manager : SessionManager.State
  handlers : Nat → Handler
  activeConnections : Int
  counters : Counter → Nat
  increments : List (Nat × Counter)
  responses : List (Nat × Response)

namespace State

def goto (s : State) (i : Nat) (h : Handler) : State :=
  { s with handlers := Function.update s.handlers i h }

/-- `Inc` of a counter. -/
def inc (s : State) (i : Nat) (c : Counter) : State :=
  { s with
    counters := Function.update s.counters c (s.counters c + 1)
    increments := s.increments ++ [(i, c)] }

/-- `Inc` and `Dec` of the gauge. -/
def addActive (s : State) (n : Int) : State :=
  { s with activeConnections := s.activeConnections + n }

end State

/-- Where the handler is inside `Acquire` and `Release`. -/
def control (h : Handler) : SessionManager.Act → Option Handler
  | .acquire _ => if h = .idle then some .acquiring else none
  | .load _ | .compareAndSwap _ => if h = .acquiring then some h else none
  | .acquireReturns _ ok =>
    if h = .acquiring then some (if ok = true then .upgrading else .rejecting) else none
  | .release _ | .add _ =>
    match h with
    | .releasing _ _ => some h
    | _ => none
  | .releaseReturns _ =>
    match h with
    | .releasing _ exit => some (.finished exit)
    | _ => none

/-- The handler that takes a step of the manager. -/
def caller : SessionManager.Act → Nat
  | .acquire i | .load i | .compareAndSwap i | .acquireReturns i _ | .release i | .add i
  | .releaseReturns i => i

/-- The next step of a handler outside `Acquire` and `Release`; `ok` is the
outcome of the upgrade. The return of the session is one step, whatever it
returns. -/
def handleWebSocket (s : State) (i : Nat) (ok : Bool) : Option State :=
  match s.handlers i with
  | .rejecting => some (s.goto i .countingRejected)
  | .countingRejected => some ((s.inc i .capacityExceeded).goto i .responding)
  | .responding =>
    some { s.goto i (.finished .returned) with
      responses := s.responses ++ [(i, tooManyConnections)] }
  | .upgrading => some (s.goto i (if ok = true then .countingTotal else .failing))
  | .failing => some (s.goto i .countingFailed)
  | .countingFailed => some ((s.inc i .upgradeFailed).goto i (.releasing false .returned))
  | .countingTotal => some ((s.inc i .connectionsTotal).goto i .countingActive)
  | .countingActive => some ((s.addActive 1).goto i .running)
  | .running => some (s.goto i (.decrementing .returned))
  | .decrementing exit => some ((s.addActive (-1)).goto i (.closingWs exit))
  | .closingWs exit => some (s.goto i (.releasing true exit))
  | .idle | .acquiring | .releasing _ _ | .finished _ => none

/-- A call out of the handler panics: the logger, `http.Error`, `Upgrade` or the
session. Without a slot there is no deferred call yet. -/
def unwind : Handler → Option Handler
  | .rejecting => some (.finished .cutOff)
  | .responding => some (.finished .panicked)
  | .upgrading | .failing => some (.releasing false .cutOff)
  | .running => some (.decrementing .panicked)
  | _ => none

inductive Act
  | manager (a : SessionManager.Act)
  | handler (i : Nat) (ok : Bool)
  | panics (i : Nat)
deriving DecidableEq

def step (maxConnections : Int32) (s : State) : Act → Option State
  | .manager a =>
    match control (s.handlers (caller a)) a, SessionManager.step maxConnections s.manager a with
    | some h, some m => some { s.goto (caller a) h with manager := m }
    | _, _ => none
  | .handler i ok => handleWebSocket s i ok
  | .panics i => (unwind (s.handlers i)).map (s.goto i)

def initial : State where
  manager := SessionManager.initial
  handlers _ := .idle
  activeConnections := 0
  counters _ := 0
  increments := []
  responses := []

/-- A proxy whose manager has the limit `maxConnections`. -/
def system (maxConnections : Int32) : System State Act where
  init := (· = initial)
  step := step maxConnections

/-! ## The steps -/

inductive HandlerStep (s : State) (i : Nat) : State → Prop
  | logRejected : s.handlers i = .rejecting → HandlerStep s i (s.goto i .countingRejected)
  | countRejected : s.handlers i = .countingRejected →
      HandlerStep s i ((s.inc i .capacityExceeded).goto i .responding)
  | respond : s.handlers i = .responding → HandlerStep s i { s.goto i (.finished .returned) with
      responses := s.responses ++ [(i, tooManyConnections)] }
  | upgrade : s.handlers i = .upgrading → HandlerStep s i (s.goto i .countingTotal)
  | upgradeFails : s.handlers i = .upgrading → HandlerStep s i (s.goto i .failing)
  | logFailed : s.handlers i = .failing → HandlerStep s i (s.goto i .countingFailed)
  | countFailed : s.handlers i = .countingFailed →
      HandlerStep s i ((s.inc i .upgradeFailed).goto i (.releasing false .returned))
  | countTotal : s.handlers i = .countingTotal →
      HandlerStep s i ((s.inc i .connectionsTotal).goto i .countingActive)
  | countActive : s.handlers i = .countingActive →
      HandlerStep s i ((s.addActive 1).goto i .running)
  | runReturns : s.handlers i = .running → HandlerStep s i (s.goto i (.decrementing .returned))
  | decrement {exit} : s.handlers i = .decrementing exit →
      HandlerStep s i ((s.addActive (-1)).goto i (.closingWs exit))
  | closeWs {exit} : s.handlers i = .closingWs exit →
      HandlerStep s i (s.goto i (.releasing true exit))

theorem handler_cases {s s' : State} {i : Nat} {ok : Bool}
    (h : handleWebSocket s i ok = some s') : HandlerStep s i s' := by
  unfold handleWebSocket at h
  split at h
  · cases h; exact .logRejected ‹_›
  · cases h; exact .countRejected ‹_›
  · cases h; exact .respond ‹_›
  · cases h
    split
    · exact .upgrade ‹_›
    · exact .upgradeFails ‹_›
  · cases h; exact .logFailed ‹_›
  · cases h; exact .countFailed ‹_›
  · cases h; exact .countTotal ‹_›
  · cases h; exact .countActive ‹_›
  · cases h; exact .runReturns ‹_›
  · cases h; exact .decrement ‹_›
  · cases h; exact .closeWs ‹_›
  all_goals cases h

inductive Step (maxConnections : Int32) (s : State) : Act → State → Prop
  | manager {a h m} : control (s.handlers (caller a)) a = some h →
      SessionManager.Step maxConnections s.manager a m →
      Step maxConnections s (.manager a) { s.goto (caller a) h with manager := m }
  | handler {i ok s'} : HandlerStep s i s' → Step maxConnections s (.handler i ok) s'
  | panics {i h} : unwind (s.handlers i) = some h → Step maxConnections s (.panics i) (s.goto i h)

theorem step_cases {maxConnections : Int32} {s s' : State} {a : Act}
    (h : step maxConnections s a = some s') : Step maxConnections s a s' := by
  cases a with
  | manager a =>
    simp only [step] at h
    split at h
    · cases h; exact .manager ‹_› (SessionManager.step_cases ‹_›)
    · cases h
  | handler i ok => exact .handler (handler_cases h)
  | panics i =>
    obtain ⟨k, hk, rfl⟩ := Option.map_eq_some_iff.mp h
    exact .panics hk

/-! ## What the handlers hold and have counted -/

/-- Where a handler's call of the manager is. -/
def Linked : Handler → Caller → Prop
  | .idle, c | .rejecting, c | .countingRejected, c | .responding, c | .finished _, c => c = .idle
  | .acquiring, c => match c with
    | .loading | .swapping _ | .refused | .acquired => True
    | _ => False
  | .releasing _ _, c => c = .holding ∨ c = .releasing ∨ c = .released
  | _, c => c = .holding

/-- The handler is in the gauge. -/
def Counted : Handler → Prop
  | .running | .decrementing _ => True
  | _ => False

/-- The connection was upgraded, and the handler has not finished. -/
def Upgraded : Handler → Prop
  | .countingTotal | .countingActive | .running | .decrementing _ | .closingWs _ => True
  | .releasing upgraded _ => upgraded = true
  | _ => False

/-- The connection was upgraded and is not in the gauge yet, or not any more. -/
def Between : Handler → Prop
  | .countingTotal | .countingActive | .closingWs _ => True
  | .releasing upgraded _ => upgraded = true
  | _ => False

/-- The handler is not in progress. -/
def Returned : Handler → Prop
  | .idle | .finished _ => True
  | _ => False

/-- The counters that the handler has incremented. -/
def incremented (s : State) (i : Nat) : List Counter :=
  (s.increments.filter fun x => x.1 = i).map Prod.snd

/-- What a handler that ends so has incremented: one counter, unless it was cut
off before. -/
def Once (exit : Exit) (l : List Counter) : Prop :=
  if exit = .cutOff then l = [] else ∃ c, l = [c]

def CountOk : Handler → List Counter → Prop
  | .responding, l => l = [.capacityExceeded]
  | .countingActive, l | .running, l => l = [.connectionsTotal]
  | .decrementing exit, l | .closingWs exit, l => exit ≠ .cutOff ∧ l = [.connectionsTotal]
  | .releasing _ exit, l | .finished exit, l => Once exit l
  | _, l => l = []

structure Inv (maxConnections : Int32) (s : State) : Prop where
  manager : SessionManager.Inv maxConnections s.manager
  finite : (among (· ≠ Handler.idle) s.handlers).Finite
  linked : ∀ i, Linked (s.handlers i) (s.manager.callers i)
  gauge : s.activeConnections = tally Counted s.handlers
  counted : ∀ i, CountOk (s.handlers i) (incremented s i)
  counters : ∀ c, s.counters c = (s.increments.filter fun x => x.2 = c).length

variable {maxConnections : Int32} {s s' : State} {i : Nat} {k : Handler}

theorem Inv.finite_of (h : Inv maxConnections s) {p : Handler → Prop} (hp : ¬ p .idle) :
    (among p s.handlers).Finite :=
  h.finite.subset fun i hi hidle => by rw [among, Set.mem_ofPred_eq, hidle] at hi; exact hp hi

/-- A handler moves and keeps its place in the manager. -/
theorem Inv.linked_goto (h : Inv maxConnections s)
    (hl : ∀ c, Linked (s.handlers i) c → Linked k c) (j : Nat) :
    Linked (Function.update s.handlers i k j) (s.manager.callers j) :=
  (Function.forall_update_iff s.handlers fun j x => Linked x (s.manager.callers j)).mpr
    ⟨hl _ (h.linked i), fun j _ => h.linked j⟩ j

/-- A handler moves without an increment. -/
theorem Inv.counted_goto (h : Inv maxConnections s)
    (hc : ∀ l, CountOk (s.handlers i) l → CountOk k l) (j : Nat) :
    CountOk (Function.update s.handlers i k j) (incremented s j) :=
  (Function.forall_update_iff s.handlers fun j x => CountOk x (incremented s j)).mpr
    ⟨hc _ (h.counted i), fun j _ => h.counted j⟩ j

/-- A handler moves while the manager, the gauge and the counters stay. -/
theorem Inv.goto (h : Inv maxConnections s)
    (hl : ∀ c, Linked (s.handlers i) c → Linked k c)
    (hg : Counted k ↔ Counted (s.handlers i))
    (hc : ∀ l, CountOk (s.handlers i) l → CountOk k l) : Inv maxConnections (s.goto i k) :=
  ⟨h.manager, finite_among_update h.finite, h.linked_goto hl,
    h.gauge.trans (by rw [State.goto, tally_stay hg]), h.counted_goto hc, h.counters⟩

theorem incremented_inc (s : State) (i j : Nat) (c : Counter) :
    incremented (s.inc i c) j = if j = i then incremented s j ++ [c] else incremented s j := by
  simp only [incremented, State.inc, List.filter_append, List.map_append]
  by_cases hj : j = i
  · subst hj; simp
  · simp [hj, Ne.symm hj]

/-- A handler increments its counter. -/
theorem Inv.inc (h : Inv maxConnections s) {c : Counter}
    (hl : ∀ x, Linked (s.handlers i) x → Linked k x) (hg : Counted k ↔ Counted (s.handlers i))
    (h0 : ∀ l, CountOk (s.handlers i) l → l = []) (hc : CountOk k [c]) :
    Inv maxConnections ((s.inc i c).goto i k) := by
  refine ⟨h.manager, finite_among_update h.finite, h.linked_goto hl,
    h.gauge.trans (by rw [State.goto, State.inc, tally_stay hg]), fun j => ?_, fun d => ?_⟩
  · show CountOk (Function.update s.handlers i k j) (incremented (s.inc i c) j)
    rw [incremented_inc]
    by_cases hj : j = i
    · subst hj
      rw [Function.update_self, if_pos rfl, h0 _ (h.counted j)]
      exact hc
    · rw [Function.update_of_ne hj, if_neg hj]
      exact h.counted j
  · show Function.update s.counters c (s.counters c + 1) d = _
    have hd := h.counters d
    by_cases he : d = c
    · subst he
      simp [State.inc, State.goto, List.filter_append, hd]
    · simp [State.inc, State.goto, List.filter_append, he, Ne.symm he, hd]

/-- The gauge goes up with a handler that enters it. -/
theorem Inv.countActive (h : Inv maxConnections s) (hi : s.handlers i = .countingActive) :
    Inv maxConnections ((s.addActive 1).goto i .running) := by
  have hgauge := h.gauge
  have htally : tally Counted (Function.update s.handlers i .running) =
      tally Counted s.handlers + 1 :=
    tally_enter (h.finite_of id) (by rw [hi]; exact id) trivial
  refine ⟨h.manager, finite_among_update h.finite, h.linked_goto (by rw [hi]; exact fun _ => id), ?_,
    h.counted_goto (by rw [hi]; exact fun _ => id), h.counters⟩
  show s.activeConnections + 1 = tally Counted (Function.update s.handlers i .running)
  omega

/-- The gauge goes down with a handler that leaves it. -/
theorem Inv.decrement (h : Inv maxConnections s) {exit : Exit}
    (hi : s.handlers i = .decrementing exit) :
    Inv maxConnections ((s.addActive (-1)).goto i (.closingWs exit)) := by
  have hgauge := h.gauge
  have htally : tally Counted (Function.update s.handlers i (.closingWs exit)) + 1 =
      tally Counted s.handlers :=
    tally_leave (h.finite_of id) (by rw [hi]; trivial) id
  refine ⟨h.manager, finite_among_update h.finite, h.linked_goto (by rw [hi]; exact fun _ => id), ?_,
    h.counted_goto (by rw [hi]; exact fun _ => id), h.counters⟩
  show s.activeConnections + -1 = tally Counted (Function.update s.handlers i (.closingWs exit))
  omega

theorem Inv.handlerStep (h : Inv maxConnections s) (hst : HandlerStep s i s') :
    Inv maxConnections s' := by
  cases hst with
  | logRejected hi | upgrade hi | upgradeFails hi | logFailed hi =>
    exact h.goto (by rw [hi]; exact fun _ => id) (by rw [hi]; exact Iff.rfl)
      (by rw [hi]; exact fun _ => id)
  | countRejected hi =>
    exact h.inc (by rw [hi]; exact fun _ => id) (by rw [hi]; exact Iff.rfl)
      (by rw [hi]; exact fun _ => id) rfl
  | respond hi =>
    have hgoto := h.goto (i := i) (k := .finished .returned) (by rw [hi]; exact fun _ => id)
      (by rw [hi]; exact Iff.rfl) (by rw [hi]; exact fun l hl => ⟨_, hl⟩)
    exact ⟨hgoto.manager, hgoto.finite, hgoto.linked, hgoto.gauge, hgoto.counted, hgoto.counters⟩
  | countFailed hi =>
    exact h.inc (by rw [hi]; exact fun _ hc => .inl hc) (by rw [hi]; exact Iff.rfl)
      (by rw [hi]; exact fun _ => id) ⟨_, rfl⟩
  | countTotal hi =>
    exact h.inc (by rw [hi]; exact fun _ => id) (by rw [hi]; exact Iff.rfl)
      (by rw [hi]; exact fun _ => id) rfl
  | countActive hi => exact h.countActive hi
  | runReturns hi =>
    exact h.goto (by rw [hi]; exact fun _ => id) (by rw [hi]; exact Iff.rfl)
      (by rw [hi]; exact fun _ hl => ⟨nofun, hl⟩)
  | decrement hi => exact h.decrement hi
  | closeWs hi =>
    refine h.goto (by rw [hi]; exact fun _ hc => .inl hc) (by rw [hi]; exact Iff.rfl) ?_
    rw [hi]
    rintro l ⟨hne, hl⟩
    exact (if_neg hne).mpr ⟨_, hl⟩

theorem Inv.panics (h : Inv maxConnections s) (hk : unwind (s.handlers i) = some k) :
    Inv maxConnections (s.goto i k) := by
  cases hi : s.handlers i with
  | rejecting =>
    rw [hi] at hk; cases hk
    exact h.goto (by rw [hi]; exact fun _ => id) (by rw [hi]; exact Iff.rfl)
      (by rw [hi]; exact fun _ => id)
  | responding =>
    rw [hi] at hk; cases hk
    exact h.goto (by rw [hi]; exact fun _ => id) (by rw [hi]; exact Iff.rfl)
      (by rw [hi]; exact fun _ hl => ⟨_, hl⟩)
  | upgrading | failing =>
    rw [hi] at hk; cases hk
    exact h.goto (by rw [hi]; exact fun _ hc => .inl hc) (by rw [hi]; exact Iff.rfl)
      (by rw [hi]; exact fun _ => id)
  | running =>
    rw [hi] at hk; cases hk
    exact h.goto (by rw [hi]; exact fun _ => id) (by rw [hi]; exact Iff.rfl)
      (by rw [hi]; exact fun _ hl => ⟨nofun, hl⟩)
  | _ => rw [hi] at hk; cases hk

/-- Inside `Acquire` and `Release` the gauge and the counters stay. -/
theorem control_keeps {h : Handler} {a : SessionManager.Act} (hk : control h a = some k) :
    (Counted k ↔ Counted h) ∧ ∀ l, CountOk h l → CountOk k l := by
  unfold control at hk
  split at hk
  · split at hk
    · rename_i hh; cases hk; rw [hh]; exact ⟨Iff.rfl, fun _ => id⟩
    · cases hk
  · split at hk
    · cases hk; exact ⟨Iff.rfl, fun _ => id⟩
    · cases hk
  · split at hk
    · cases hk; exact ⟨Iff.rfl, fun _ => id⟩
    · cases hk
  · split at hk
    · rename_i hh
      cases hk
      rw [hh]
      split <;> exact ⟨Iff.rfl, fun _ => id⟩
    · cases hk
  · split at hk
    · cases hk; exact ⟨Iff.rfl, fun _ => id⟩
    · cases hk
  · split at hk
    · cases hk; exact ⟨Iff.rfl, fun _ => id⟩
    · cases hk
  · split at hk
    · cases hk; exact ⟨Iff.rfl, fun _ => id⟩
    · cases hk

/-- The handler is where its call is. -/
theorem linked_control {m m' : SessionManager.State} {h : Handler} {a : SessionManager.Act}
    (hl : Linked h (m.callers (caller a))) (hk : control h a = some k)
    (hst : SessionManager.Step maxConnections m a m') : Linked k (m'.callers (caller a)) := by
  cases hst with
  | acquire hi =>
    simp only [control] at hk
    split at hk
    · cases hk
      simp only [SessionManager.State.goto, caller, Function.update_self]
      trivial
    · cases hk
  | refuse hi | load hi | swap hi | retry hi =>
    simp only [control] at hk
    split at hk
    · rename_i hh
      cases hk
      rw [hh]
      simp only [SessionManager.State.goto, SessionManager.State.setActive, caller,
        Function.update_self]
      trivial
    · cases hk
  | refused hi | acquired hi =>
    simp only [control] at hk
    split at hk
    · cases hk
      exact Function.update_self ..
    · cases hk
  | release hi =>
    simp only [control] at hk
    split at hk
    · cases hk
      exact .inr (.inl (Function.update_self ..))
    · cases hk
  | add hi =>
    simp only [control] at hk
    split at hk
    · cases hk
      exact .inr (.inr (Function.update_self ..))
    · cases hk
  | released hi =>
    simp only [control] at hk
    split at hk
    · cases hk
      exact Function.update_self ..
    · cases hk

theorem callers_other {m m' : SessionManager.State} {a : SessionManager.Act} {j : Nat}
    (hst : SessionManager.Step maxConnections m a m') (hj : j ≠ caller a) :
    m'.callers j = m.callers j := by
  cases hst <;> exact Function.update_of_ne hj _ _

theorem Inv.managerStep (h : Inv maxConnections s) {a : SessionManager.Act}
    {m : SessionManager.State} (hk : control (s.handlers (caller a)) a = some k)
    (hst : SessionManager.Step maxConnections s.manager a m) :
    Inv maxConnections { s.goto (caller a) k with manager := m } := by
  obtain ⟨hg, hc⟩ := control_keeps hk
  refine ⟨h.manager.step hst, finite_among_update h.finite, fun j => ?_,
    h.gauge.trans (by rw [State.goto, tally_stay hg]), h.counted_goto hc, h.counters⟩
  show Linked (Function.update s.handlers (caller a) k j) (m.callers j)
  by_cases hj : j = caller a
  · subst hj
    rw [Function.update_self]
    exact linked_control (h.linked _) hk hst
  · rw [Function.update_of_ne hj, callers_other hst hj]
    exact h.linked j

theorem inv_stable (maxConnections : Int32) :
    (system maxConnections).Stable (Inv maxConnections) where
  init := by
    rintro s rfl
    have hempty : ∀ {p : Handler → Prop}, ¬ p .idle → among p initial.handlers = ∅ := by
      intro p hp; ext i; simp [among, initial, hp]
    refine ⟨SessionManager.inv_initial, ?_, fun _ => rfl, ?_, fun _ => rfl, fun _ => rfl⟩
    · rw [hempty (by simp)]; exact Set.finite_empty
    · rw [tally, hempty id, Set.ncard_empty]; rfl
  step s a t h hst := by
    cases step_cases hst with
    | manager hk hm => exact h.managerStep hk hm
    | handler hh => exact h.handlerStep hh
    | panics hk => exact h.panics hk

/-! ## The accounts -/

/-- The gauge is the handlers between its `Inc` and its deferred `Dec`, all of
them upgraded, and those of the upgraded that it misses are on the way to the
one or past the other; they have a slot each, within the limit. A finished
handler has incremented one counter, unless a panic cut it off before. Without
a handler in progress the gauge and the slots are at zero. -/
structure Accounted (maxConnections : Int32) (s : State) : Prop where
  gauge : s.activeConnections = tally Counted s.handlers
  upgraded : (tally Upgraded s.handlers : Int) = s.activeConnections + tally Between s.handlers
  slots : s.activeConnections ≤ s.manager.active.toInt
  limit : s.manager.active.toInt ≤ max 0 maxConnections.toInt
  once : ∀ i exit, s.handlers i = .finished exit → Once exit (incremented s i)
  counters : ∀ c, s.counters c = (s.increments.filter fun x => x.2 = c).length
  quiet : (∀ i, Returned (s.handlers i)) →
    s.activeConnections = 0 ∧ s.manager.active.toInt = 0

theorem Inv.counted_le (h : Inv maxConnections s) :
    tally Counted s.handlers ≤ SessionManager.held s.manager := by
  refine Set.ncard_le_ncard (fun i hi => ?_) h.manager.finite
  have hl := h.linked i
  simp only [among, Set.mem_ofPred_eq] at hi ⊢
  cases hh : s.handlers i with
  | running | decrementing exit =>
    rw [hh] at hl
    rw [show s.manager.callers i = .holding from hl]
    trivial
  | _ => rw [hh] at hi; exact hi.elim

theorem Inv.tally_upgraded (h : Inv maxConnections s) :
    tally Upgraded s.handlers = tally Counted s.handlers + tally Between s.handlers := by
  have hunion : among Upgraded s.handlers = among Counted s.handlers ∪ among Between s.handlers := by
    ext i
    simp only [among, Set.mem_union, Set.mem_ofPred_eq]
    cases s.handlers i <;> simp [Upgraded, Counted, Between]
  have hdisjoint : Disjoint (among Counted s.handlers) (among Between s.handlers) := by
    rw [Set.disjoint_left]
    intro i hc hb
    simp only [among, Set.mem_ofPred_eq] at hc hb
    cases hh : s.handlers i <;> simp_all [Counted, Between]
  rw [tally, hunion, Set.ncard_union_eq hdisjoint (h.finite_of id) (h.finite_of id)]
  rfl

theorem Inv.quiet (h : Inv maxConnections s) (hq : ∀ i, Returned (s.handlers i)) :
    tally Counted s.handlers = 0 ∧ SessionManager.held s.manager = 0 := by
  have hidle : ∀ i, s.manager.callers i = .idle := by
    intro i
    have hl := h.linked i
    have hr := hq i
    cases hh : s.handlers i with
    | idle | finished => rw [hh] at hl; exact hl
    | _ => rw [hh] at hr; exact hr.elim
  have hheld : SessionManager.held s.manager = 0 := by
    have hempty : among Caller.Holds s.manager.callers = ∅ := by
      ext i; simp [among, hidle i, Caller.Holds]
    rw [SessionManager.held, tally, hempty, Set.ncard_empty]
  have hle := h.counted_le
  exact ⟨by omega, hheld⟩

theorem Inv.accounted (h : Inv maxConnections s) : Accounted maxConnections s := by
  have hgauge := h.gauge
  have hactive := h.manager.active
  have hle := h.counted_le
  have hlimit := h.manager.limit
  have hup := h.tally_upgraded
  refine ⟨h.gauge, by omega, by omega, by omega, fun i exit hi => ?_, h.counters, fun hq => ?_⟩
  · have hc := h.counted i
    rw [hi] at hc
    exact hc
  · obtain ⟨h1, h2⟩ := h.quiet hq
    omega

/-- **The accounts of the connections.** For every limit, in every state of any
number of handlers. -/
theorem connections_accounted {maxConnections : Int32} {s : State}
    (hs : (system maxConnections).Reach s) : Accounted maxConnections s :=
  ((inv_stable maxConnections).reach hs).accounted

/-- A handler gets a slot and its connection is upgraded. -/
def upgradeRun (i : Nat) : List Act :=
  [.manager (.acquire i), .manager (.load i), .manager (.compareAndSwap i),
    .manager (.acquireReturns i true), .handler i true]

/-- Its session runs and panics, and the deferred calls up to the subtraction of
`Release` run. -/
def panicRun (i : Nat) : List Act :=
  [.handler i true, .handler i true, .panics i, .handler i true, .handler i true,
    .manager (.release i), .manager (.add i)]

/-- With a limit of one: a session that panicked and a refused client. -/
theorem connections_accounted_panic : ∃ s, (system 1).Reach s ∧
    s.handlers 0 = .finished .panicked ∧ s.handlers 1 = .finished .returned ∧
    s.responses = [(1, tooManyConnections)] ∧ Accounted 1 s := by
  obtain ⟨s, hs, h0, h1, hr⟩ : ∃ s, (system 1).Reach s ∧ s.handlers 0 = .finished .panicked ∧
      s.handlers 1 = .finished .returned ∧ s.responses = [(1, tooManyConnections)] :=
    ⟨_, System.reach_get (system 1) (upgradeRun 0 ++ [.manager (.acquire 1), .manager (.load 1),
      .manager (.acquireReturns 1 false), .handler 1 true, .handler 1 true, .handler 1 true] ++
      panicRun 0 ++ [.manager (.releaseReturns 0)]) rfl rfl, rfl, rfl, rfl⟩
  exact ⟨s, hs, h0, h1, hr, connections_accounted hs⟩

/-- A connection is upgraded before it is in the gauge and unfinished after its
slot was given back; a negative limit is below the empty count; and a panic in
`Upgrade` leaves a request that no counter knows of. -/
theorem accounts_behind_steps :
    (¬ ∀ maxConnections s, (system maxConnections).Reach s →
      s.activeConnections = tally Upgraded s.handlers) ∧
    (¬ ∀ maxConnections s, (system maxConnections).Reach s →
      (tally Upgraded s.handlers : Int) ≤ s.manager.active.toInt) ∧
    (¬ ∀ maxConnections s, (system maxConnections).Reach s →
      s.manager.active.toInt ≤ maxConnections.toInt) ∧
    (¬ ∀ maxConnections s, (system maxConnections).Reach s →
      ∀ i exit, s.handlers i = .finished exit → ∃ c, incremented s i = [c]) := by
  have hpos : ∀ {s : State} {k : Handler}, (system 1).Reach s → s.handlers 0 = k → Upgraded k →
      0 < tally Upgraded s.handlers := fun hs h0 hk =>
    tally_pos (i := 0) (((inv_stable 1).reach hs).finite_of id) (by rw [h0]; exact hk)
  refine ⟨fun h => ?_, fun h => ?_, fun h => ?_, fun h => ?_⟩
  · obtain ⟨s, hs, h0, hg⟩ : ∃ s, (system 1).Reach s ∧ s.handlers 0 = .countingTotal ∧
        s.activeConnections = 0 :=
      ⟨_, System.reach_get (system 1) (upgradeRun 0) rfl rfl, rfl, rfl⟩
    have := hpos hs h0 trivial
    have := h 1 s hs
    omega
  · obtain ⟨s, hs, h0, ha⟩ : ∃ s, (system 1).Reach s ∧ s.handlers 0 = .releasing true .panicked ∧
        s.manager.active.toInt = 0 :=
      ⟨_, System.reach_get (system 1) (upgradeRun 0 ++ panicRun 0) rfl rfl, rfl, by decide⟩
    have := hpos hs h0 rfl
    have := h 1 s hs
    omega
  · have hle := h (-1) initial (.init rfl)
    exact absurd hle (by decide)
  · obtain ⟨s, hs, h0, hl⟩ : ∃ s, (system 1).Reach s ∧ s.handlers 0 = .finished .cutOff ∧
        incremented s 0 = [] :=
      ⟨_, System.reach_get (system 1) ((upgradeRun 0).take 4 ++ [.panics 0, .manager (.release 0),
        .manager (.add 0), .manager (.releaseReturns 0)]) rfl rfl, rfl, rfl⟩
    obtain ⟨c, hc⟩ := h 1 s hs 0 _ h0
    rw [hl] at hc
    cases hc

end WorkspaceProxy.Proxy.Connections
