import WorkspaceProxy.Conc.Atomic
import WorkspaceProxy.Conc.Tally

/-! # The slots of the proxy

`SessionManager` counts the sessions in one atomic `int32`. `Acquire` reads it
and then tries to swap it for its successor, again and again until the swap
succeeds or the counter is at the limit; `Release` subtracts one. The counter
is the number of held slots in every state, and the two operations are those
of a counting semaphore. -/
namespace WorkspaceProxy.Proxy.SessionManager
open WorkspaceProxy.Conc

/-- Where a caller is. It calls `Acquire` and, after a success, `Release` once.
`swapping` has read the counter; `refused` and `acquired` are before the
return. -/
inductive Caller
  | idle
  | loading
  | swapping (current : Int32)
  | refused
  | acquired
  | holding
  | releasing
  | released
deriving DecidableEq

structure State where
  active : Int32
  callers : Nat → Caller

def State.goto (s : State) (i : Nat) (c : Caller) : State :=
  { s with callers := Function.update s.callers i c }

def State.setActive (s : State) (n : Int32) : State := { s with active := n }

inductive Act
  | acquire (i : Nat)
  | load (i : Nat)
  | compareAndSwap (i : Nat)
  | acquireReturns (i : Nat) (ok : Bool)
  | release (i : Nat)
  | add (i : Nat)
  | releaseReturns (i : Nat)
deriving DecidableEq

/-- One atomic step of a caller. -/
def step (maxConnections : Int32) (s : State) : Act → Option State
  | .acquire i => if s.callers i = .idle then some (s.goto i .loading) else none
  | .load i =>
    if s.callers i = .loading then
      if s.active ≥ maxConnections then some (s.goto i .refused)
      else some (s.goto i (.swapping s.active))
    else none
  | .compareAndSwap i =>
    match s.callers i with
    | .swapping current =>
      if s.active = current then some ((s.goto i .acquired).setActive (current + 1))
      else some (s.goto i .loading)
    | _ => none
  | .acquireReturns i ok =>
    match s.callers i, ok with
    | .refused, false => some (s.goto i .idle)
    | .acquired, true => some (s.goto i .holding)
    | _, _ => none
  | .release i => if s.callers i = .holding then some (s.goto i .releasing) else none
  | .add i =>
    if s.callers i = .releasing then some ((s.goto i .released).setActive (s.active + -1))
    else none
  | .releaseReturns i => if s.callers i = .released then some (s.goto i .idle) else none

def initial : State := ⟨0, fun _ => .idle⟩

/-- A manager with the limit `maxConnections`, and any number of callers. -/
def system (maxConnections : Int32) : System State Act where
  init := (· = initial)
  step := step maxConnections

inductive Step (maxConnections : Int32) (s : State) : Act → State → Prop
  | acquire {i} : s.callers i = .idle → Step maxConnections s (.acquire i) (s.goto i .loading)
  | refuse {i} : s.callers i = .loading → maxConnections ≤ s.active →
      Step maxConnections s (.load i) (s.goto i .refused)
  | load {i} : s.callers i = .loading → s.active < maxConnections →
      Step maxConnections s (.load i) (s.goto i (.swapping s.active))
  | swap {i} : s.callers i = .swapping s.active →
      Step maxConnections s (.compareAndSwap i)
        ((s.goto i .acquired).setActive (s.active + 1))
  | retry {i current} : s.callers i = .swapping current → s.active ≠ current →
      Step maxConnections s (.compareAndSwap i) (s.goto i .loading)
  | refused {i} : s.callers i = .refused →
      Step maxConnections s (.acquireReturns i false) (s.goto i .idle)
  | acquired {i} : s.callers i = .acquired →
      Step maxConnections s (.acquireReturns i true) (s.goto i .holding)
  | release {i} : s.callers i = .holding →
      Step maxConnections s (.release i) (s.goto i .releasing)
  | add {i} : s.callers i = .releasing →
      Step maxConnections s (.add i) ((s.goto i .released).setActive (s.active + -1))
  | released {i} : s.callers i = .released →
      Step maxConnections s (.releaseReturns i) (s.goto i .idle)

theorem step_cases {maxConnections : Int32} {s s' : State} {a : Act}
    (h : step maxConnections s a = some s') : Step maxConnections s a s' := by
  cases a with
  | acquire i =>
    simp only [step] at h
    split at h
    · cases h; exact .acquire ‹_›
    · cases h
  | load i =>
    simp only [step] at h
    split at h
    · split at h
      · cases h; exact .refuse ‹_› ‹_›
      · cases h; exact .load ‹_› (Int32.not_le.mp ‹_›)
    · cases h
  | compareAndSwap i =>
    simp only [step] at h
    split at h
    · rename_i current hc
      split at h
      · rename_i ha
        subst ha
        rw [← Option.some.inj h]
        exact .swap hc
      · cases h; exact .retry hc ‹_›
    · cases h
  | acquireReturns i ok =>
    simp only [step] at h
    split at h
    · cases h; exact .refused ‹_›
    · cases h; exact .acquired ‹_›
    · cases h
  | release i =>
    simp only [step] at h
    split at h
    · cases h; exact .release ‹_›
    · cases h
  | add i =>
    simp only [step] at h
    split at h
    · rw [← Option.some.inj h]; exact .add ‹_›
    · cases h
  | releaseReturns i =>
    simp only [step] at h
    split at h
    · cases h; exact .released ‹_›
    · cases h

/-! ## The counter counts -/

/-- The caller holds a slot: its swap succeeded, and it has not subtracted. -/
def Caller.Holds : Caller → Prop
  | .acquired | .holding | .releasing => True
  | _ => False

/-- The slots that are held. -/
noncomputable def held (s : State) : Nat := tally Caller.Holds s.callers

/-- The counter is the number of held slots, within the limit, and what a caller
goes by is below the limit. -/
structure Inv (maxConnections : Int32) (s : State) : Prop where
  finite : (among Caller.Holds s.callers).Finite
  active : s.active.toInt = held s
  limit : (held s : Int) ≤ max 0 maxConnections.toInt
  below : ∀ i current, s.callers i = .swapping current → current < maxConnections

variable {maxConnections : Int32} {s s' : State}

theorem toInt_succ {a b : Int32} (h : a < b) : (a + 1).toInt = a.toInt + 1 := by
  have hab := Int32.lt_iff_toInt_lt.mp h
  have hb := b.toInt_lt
  have ha := a.le_toInt
  have h1 : (1 : Int32).toInt = 1 := by decide
  rw [Int32.toInt_add, h1]
  exact Int.bmod_eq_of_le_mul_two (by omega) (by omega)

theorem toInt_pred {a : Int32} (h : 0 < a.toInt) : (a + -1).toInt = a.toInt - 1 := by
  have ha := a.toInt_lt
  have h1 : (-1 : Int32).toInt = -1 := by decide
  rw [Int32.toInt_add, h1]
  exact Int.bmod_eq_of_le_mul_two (by omega) (by omega)

/-- A step that neither takes nor gives back a slot. -/
theorem Inv.goto (h : Inv maxConnections s) {i : Nat} {c : Caller}
    (hc : c.Holds ↔ (s.callers i).Holds)
    (hb : ∀ current, c = .swapping current → current < maxConnections) :
    Inv maxConnections (s.goto i c) := by
  have hheld : held (s.goto i c) = held s := tally_stay hc
  refine ⟨finite_among_update h.finite, by rw [hheld]; exact h.active,
    by rw [hheld]; exact h.limit, fun j current hj => ?_⟩
  by_cases hji : j = i
  · subst hji
    exact hb current (by simpa [State.goto] using hj)
  · exact h.below j current (by simpa [State.goto, hji] using hj)

theorem held_setActive (s : State) (n : Int32) : held (s.setActive n) = held s := rfl

/-- The swap takes a slot. -/
theorem Inv.swap (h : Inv maxConnections s) {i : Nat} (hi : s.callers i = .swapping s.active) :
    held (s.goto i .acquired) = held s + 1 ∧
      Inv maxConnections ((s.goto i .acquired).setActive (s.active + 1)) := by
  have hlt := h.below i s.active hi
  have hheld : held (s.goto i .acquired) = held s + 1 :=
    tally_enter h.finite (by rw [hi]; exact id) trivial
  have hact := h.active
  refine ⟨hheld, finite_among_update h.finite, ?_, ?_, fun j current hj => ?_⟩
  · show (s.active + 1).toInt = _
    rw [held_setActive, hheld, toInt_succ hlt]
    omega
  · have := Int32.lt_iff_toInt_lt.mp hlt
    rw [held_setActive, hheld]
    omega
  · by_cases hji : j = i
    · subst hji; simp [State.goto, State.setActive] at hj
    · exact h.below j current (by simpa [State.goto, State.setActive, hji] using hj)

/-- The subtraction gives one back. -/
theorem Inv.add (h : Inv maxConnections s) {i : Nat} (hi : s.callers i = .releasing) :
    held (s.goto i .released) + 1 = held s ∧
      Inv maxConnections ((s.goto i .released).setActive (s.active + -1)) := by
  have hheld : held (s.goto i .released) + 1 = held s :=
    tally_leave h.finite (by rw [hi]; trivial) id
  have hact := h.active
  have hlimit := h.limit
  refine ⟨hheld, finite_among_update h.finite, ?_, ?_, fun j current hj => ?_⟩
  · show (s.active + -1).toInt = _
    rw [held_setActive, toInt_pred (by omega)]
    omega
  · rw [held_setActive]
    omega
  · by_cases hji : j = i
    · subst hji; simp [State.goto, State.setActive] at hj
    · exact h.below j current (by simpa [State.goto, State.setActive, hji] using hj)

theorem Inv.step {a : Act} (h : Inv maxConnections s) (hst : Step maxConnections s a s') :
    Inv maxConnections s' := by
  cases hst with
  | acquire hi => exact h.goto (by rw [hi]; exact Iff.rfl) nofun
  | refuse hi hle => exact h.goto (by rw [hi]; exact Iff.rfl) nofun
  | load hi hlt => exact h.goto (by rw [hi]; exact Iff.rfl) fun _ he => by cases he; exact hlt
  | swap hi => exact (h.swap hi).2
  | retry hi hne => exact h.goto (by rw [hi]; exact Iff.rfl) nofun
  | refused hi => exact h.goto (by rw [hi]; exact Iff.rfl) nofun
  | acquired hi => exact h.goto (by rw [hi]; exact Iff.rfl) nofun
  | release hi => exact h.goto (by rw [hi]; exact Iff.rfl) nofun
  | add hi => exact (h.add hi).2
  | released hi => exact h.goto (by rw [hi]; exact Iff.rfl) nofun

theorem among_initial : among Caller.Holds initial.callers = ∅ := by
  ext; simp [among, initial, Caller.Holds]

theorem held_initial : held initial = 0 := by
  rw [held, tally, among_initial, Set.ncard_empty]

theorem inv_initial : Inv maxConnections initial :=
  ⟨by rw [among_initial]; exact Set.finite_empty, by rw [held_initial]; rfl,
    by rw [held_initial]; simp, nofun⟩

theorem inv_stable (maxConnections : Int32) :
    (system maxConnections).Stable (Inv maxConnections) where
  init := by rintro s rfl; exact inv_initial
  step _ _ _ h hst := h.step (step_cases hst)

/-! ## No spurious refusal -/

/-- A caller comes to be refused only by its own `Load`. -/
theorem refused_cases {a : Act} {i : Nat} (hst : Step maxConnections s a s')
    (hi : s'.callers i = .refused) :
    (a = .load i ∧ maxConnections ≤ s.active) ∨ (a ≠ .load i ∧ s.callers i = .refused) := by
  have hmove : ∀ {j : Nat} {c : Caller}, Function.update s.callers j c i = .refused →
      c ≠ .refused → s.callers i = .refused := by
    intro j c hu hc
    by_cases hij : i = j
    · subst hij; rw [Function.update_self] at hu; exact absurd hu hc
    · rwa [Function.update_of_ne hij] at hu
  cases hst with
  | @refuse j hj hle =>
    by_cases hij : j = i
    · exact .inl ⟨by rw [hij], hle⟩
    · refine .inr ⟨fun he => hij (Act.load.inj he), ?_⟩
      exact (Function.update_of_ne (fun he => hij he.symm) _ _).symm.trans hi
  | @load j hj hlt =>
    have hi' := hmove hi nofun
    refine .inr ⟨fun he => ?_, hi'⟩
    rw [← Act.load.inj he, hj] at hi'
    cases hi'
  | acquire | swap | retry | refused | acquired | release | add | released =>
    exact .inr ⟨nofun, hmove hi nofun⟩

/-- In a run that ends with a refused caller, all slots were held at the last
`Load` of that caller. -/
theorem full_at_last_load {as : List Act} {i : Nat}
    (he : (system maxConnections).exec initial as = some s) (hi : s.callers i = .refused) :
    ∃ pre post u, as = pre ++ .load i :: post ∧ Act.load i ∉ post ∧
      (system maxConnections).exec initial pre = some u ∧
      (held u : Int) = max 0 maxConnections.toInt := by
  induction as using List.reverseRecOn generalizing s with
  | nil => cases he; cases hi
  | append_singleton as a ih =>
    rw [System.exec_append] at he
    obtain ⟨u, hu, hlast⟩ := Option.bind_eq_some_iff.mp he
    obtain ⟨v, hv, hnil⟩ := System.exec_cons hlast
    cases hnil
    rcases refused_cases (step_cases hv) hi with ⟨rfl, hle⟩ | ⟨hne, hold⟩
    · have hinv := (inv_stable maxConnections).reach ((System.Reach.init rfl).exec hu)
      refine ⟨as, [], u, rfl, nofun, hu, ?_⟩
      have hle := Int32.le_iff_toInt_le.mp hle
      have hact := hinv.active
      have hlimit := hinv.limit
      omega
    · obtain ⟨pre, post, w, rfl, hno, hw, hfull⟩ := ih hu hold
      refine ⟨pre, post ++ [a], w, by simp, ?_, hw, hfull⟩
      rw [List.mem_append, List.mem_singleton, not_or]
      exact ⟨hno, fun h => hne h.symm⟩

/-! ## The counting semaphore -/

inductive Op
  | acquire
  | release
deriving DecidableEq

inductive Ret
  | granted (ok : Bool)
  | done
deriving DecidableEq

/-- A counting semaphore: how many slots are taken, of at most `limit`. A
release is defined only where a slot is taken. -/
def semaphore (limit : Int) : Object Nat Op Ret where
  start := 0
  apply n
    | .acquire => if (n : Int) < limit then some (.granted true, n + 1)
        else some (.granted false, n)
    | .release => match n with
      | 0 => none
      | n + 1 => some (.done, n)

/-- The calls and returns of a run. -/
def view : Act → Option (Event Op Ret)
  | .acquire i => some (.call i .acquire)
  | .acquireReturns i ok => some (.ret i (.granted ok))
  | .release i => some (.call i .release)
  | .releaseReturns i => some (.ret i .done)
  | .load _ | .compareAndSwap _ | .add _ => none

/-- A refusal takes effect at the last `Load`, a success at the swap, and a
release at the subtraction. -/
def status : Caller → Status Op Ret
  | .idle | .holding => .idle
  | .loading | .swapping _ => .pending .acquire
  | .refused => .performed (.granted false)
  | .acquired => .performed (.granted true)
  | .releasing => .pending .release
  | .released => .performed .done

/-- The semaphore has as many slots taken as are held, and its callers are where
those of the manager are. -/
structure Refines (maxConnections : Int32) (s : State) (t : Object.State Nat Op Ret) : Prop where
  inv : Inv maxConnections s
  value : t.value = held s
  status : ∀ i, t.status i = status (s.callers i)

theorem Refines.at_caller {t : Object.State Nat Op Ret} {i : Nat} {c : Caller}
    (h : Refines maxConnections s t) (hc : s.callers i = c) :
    t.status i = SessionManager.status c := hc ▸ h.status i

theorem Refines.set {t : Object.State Nat Op Ret} (h : Refines maxConnections s t) {i : Nat}
    {c : Caller} (j : Nat) : (t.set i (SessionManager.status c)).status j =
      SessionManager.status ((s.goto i c).callers j) := by
  show Function.update t.status i _ j = SessionManager.status (Function.update s.callers i c j)
  by_cases hj : j = i
  · subst hj; rw [Function.update_self, Function.update_self]
  · rw [Function.update_of_ne hj, Function.update_of_ne hj]; exact h.status j

/-- A caller moves, and with it the semaphore's, without a change in the slots. -/
theorem Refines.goto {t : Object.State Nat Op Ret} {i : Nat} {c : Caller} {a : Act}
    (h : Refines maxConnections s t) (hst : Step maxConnections s a (s.goto i c))
    (hc : c.Holds ↔ (s.callers i).Holds) :
    Refines maxConnections (s.goto i c) (t.set i (SessionManager.status c)) :=
  ⟨h.inv.step hst, h.value.trans (tally_stay hc).symm, h.set⟩

/-- A caller moves and the semaphore pauses. -/
theorem Refines.pause {t : Object.State Nat Op Ret} {i : Nat} {c : Caller} {a : Act}
    (h : Refines maxConnections s t) (hst : Step maxConnections s a (s.goto i c))
    (hc : c.Holds ↔ (s.callers i).Holds)
    (hs : SessionManager.status c = SessionManager.status (s.callers i)) :
    Refines maxConnections (s.goto i c) t := by
  have hgoto := h.goto hst hc
  rw [hs, ← h.status i] at hgoto
  simpa [Object.State.set] using hgoto

/-- **Forward simulation.** The semaphore follows the manager step by step. -/
theorem simulation (maxConnections : Int32) :
    Simulation (system maxConnections) (semaphore maxConnections.toInt).system view Object.seen
      (Refines maxConnections) where
  init := by
    rintro s rfl
    exact ⟨_, rfl, inv_initial, held_initial.symm, fun _ => rfl⟩
  step s t a s' h hst := by
    have hst := step_cases hst
    have hst' := hst
    have hact := h.inv.active
    have hval := h.value
    cases hst with
    | @acquire i hi =>
      exact ⟨_, _, Object.exec_call (h.at_caller hi), rfl, h.goto hst' (by rw [hi]; exact Iff.rfl)⟩
    | @refuse i hi hle =>
      have happ : (semaphore maxConnections.toInt).apply t.value .acquire =
          some (.granted false, t.value) := by
        have := Int32.le_iff_toInt_le.mp hle
        exact if_neg (by omega)
      exact ⟨_, _, Object.exec_perform (h.at_caller hi) happ, rfl,
        h.goto hst' (by rw [hi]; exact Iff.rfl)⟩
    | @load i hi hlt =>
      exact ⟨[], t, rfl, rfl, h.pause hst' (by rw [hi]; exact Iff.rfl) (by rw [hi]; rfl)⟩
    | @swap i hi =>
      have happ : (semaphore maxConnections.toInt).apply t.value .acquire =
          some (.granted true, t.value + 1) := by
        have := Int32.lt_iff_toInt_lt.mp (h.inv.below i _ hi)
        exact if_pos (by omega)
      refine ⟨_, _, Object.exec_perform (h.at_caller hi) happ, rfl, h.inv.step hst', ?_,
        h.set (c := .acquired)⟩
      rw [held_setActive, (h.inv.swap hi).1, hval]
    | @retry i current hi hne =>
      exact ⟨[], t, rfl, rfl, h.pause hst' (by rw [hi]; exact Iff.rfl) (by rw [hi]; rfl)⟩
    | @refused i hi =>
      exact ⟨_, _, Object.exec_ret (h.at_caller hi), rfl, h.goto hst' (by rw [hi]; exact Iff.rfl)⟩
    | @acquired i hi =>
      exact ⟨_, _, Object.exec_ret (h.at_caller hi), rfl, h.goto hst' (by rw [hi]; exact Iff.rfl)⟩
    | @release i hi =>
      exact ⟨_, _, Object.exec_call (h.at_caller hi), rfl, h.goto hst' (by rw [hi]; exact Iff.rfl)⟩
    | @add i hi =>
      have hheld := (h.inv.add hi).1
      have happ : (semaphore maxConnections.toInt).apply t.value .release =
          some (.done, held (s.goto i .released)) := by
        rw [hval, ← hheld]; rfl
      refine ⟨_, _, Object.exec_perform (h.at_caller hi) happ, rfl, h.inv.step hst', ?_,
        h.set (c := .released)⟩
      rw [held_setActive]
    | @released i hi =>
      exact ⟨_, _, Object.exec_ret (h.at_caller hi), rfl, h.goto hst' (by rw [hi]; exact Iff.rfl)⟩

/-- The counter is exact: it is the number of held slots, it stays within the
limit, and neither the successor that a swap writes nor the predecessor that a
release writes overflows. -/
structure Exact (maxConnections : Int32) (s : State) : Prop where
  finite : (among Caller.Holds s.callers).Finite
  counts : s.active.toInt = held s
  lower : 0 ≤ s.active.toInt
  upper : s.active.toInt ≤ max 0 maxConnections.toInt
  succ : ∀ i current, s.callers i = .swapping current → (current + 1).toInt = current.toInt + 1
  pred : ∀ i, s.callers i = .releasing → (s.active + -1).toInt = s.active.toInt - 1

theorem Inv.exact (h : Inv maxConnections s) : Exact maxConnections s := by
  have hact := h.active
  have hlimit := h.limit
  refine ⟨h.finite, hact, by omega, by omega, fun i current hi => toInt_succ (h.below i current hi),
    fun i hi => toInt_pred ?_⟩
  have hpos : 0 < held s := tally_pos h.finite (i := i) (by rw [hi]; trivial)
  omega

/-- **The limiter is an exact bounded counter.** For every limit: the counter is
exact in every state; a caller is refused only if all slots were held at its
last `Load`; and every history of calls and returns is linearizable to a
counting semaphore with that limit. -/
theorem limiter_exact (maxConnections : Int32) :
    (∀ s, (system maxConnections).Reach s → Exact maxConnections s) ∧
    (∀ as s s' i, (system maxConnections).exec initial as = some s →
      (system maxConnections).step s (.acquireReturns i false) = some s' →
      ∃ pre post u, as = pre ++ .load i :: post ∧ Act.load i ∉ post ∧
        (system maxConnections).exec initial pre = some u ∧
        (held u : Int) = max 0 maxConnections.toInt) ∧
    (∀ as s, (system maxConnections).exec initial as = some s →
      (semaphore maxConnections.toInt).Linearizable (as.filterMap view)) := by
  refine ⟨fun s hs => ((inv_stable maxConnections).reach hs).exact, ?_, ?_⟩
  · intro as s s' i he hst
    have hcases : Step maxConnections s (.acquireReturns i false) s' := step_cases hst
    cases hcases with
    | refused hi => exact full_at_last_load he hi
  · intro as s he
    exact Object.linearizable_of_simulation (simulation maxConnections) rfl he

/-- Two callers read an empty counter with a limit of one; the second loses the
swap, reads again and is refused. -/
def raceRun : List Act :=
  [.acquire 0, .acquire 1, .load 0, .load 1, .compareAndSwap 0, .compareAndSwap 1, .load 1]

theorem limiter_exact_race : ∃ s s', (system 1).exec initial raceRun = some s ∧
    (system 1).step s (.acquireReturns 1 false) = some s' ∧ s.active = 1 ∧ Exact 1 s ∧
    (∃ pre post u, raceRun = pre ++ .load 1 :: post ∧ Act.load 1 ∉ post ∧
      (system 1).exec initial pre = some u ∧ (held u : Int) = max 0 (1 : Int32).toInt) ∧
    (semaphore (1 : Int32).toInt).Linearizable (raceRun.filterMap view) := by
  obtain ⟨s, hs, hi, hact⟩ : ∃ s, (system 1).exec initial raceRun = some s ∧
      s.callers 1 = .refused ∧ s.active = 1 :=
    ⟨_, (Option.some_get (show ((system 1).exec initial raceRun).isSome = true by decide)).symm,
      by decide, by decide⟩
  have hst : (system 1).step s (.acquireReturns 1 false) = some (s.goto 1 .idle) := by
    simp [system, step, hi]
  have hreach : (system 1).Reach s := (System.Reach.init rfl).exec hs
  exact ⟨s, _, hs, hst, hact, (limiter_exact 1).1 s hreach,
    (limiter_exact 1).2.1 raceRun s _ 1 hs hst, (limiter_exact 1).2.2 raceRun s hs⟩

end WorkspaceProxy.Proxy.SessionManager
