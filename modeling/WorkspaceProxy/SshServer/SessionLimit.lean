import WorkspaceProxy.Conc.System
import WorkspaceProxy.Conc.Tally

/-! # The session limit of the SSH server

`acquireSession` adds one to an atomic counter, compares what it got with
`MaxSessions`, and takes the one back when it was too many; `releaseSession`
subtracts one. Any number of runs of `handleSession` do so, one atomic step at
a time. The counter is the held slots plus the increments that are still to be
undone, so the limit is never exceeded; but the increments of refused calls are
in the way of others, and a call may be refused while a slot is free. -/
namespace WorkspaceProxy.SshServer.SessionLimit
open WorkspaceProxy.Conc

/-- Where a run of `handleSession` is with its slot. `comparing` has the result
of its `Add(1)`; `refused` and `granted` are before `acquireSession` returns. -/
inductive Run
  | idle
  | adding
  | comparing (n : Int)
  | undoing
  | refused
  | granted
  | running
  | releasing
deriving DecidableEq

/-- `sessions` is an `int64`. An integer stands for it, since it is at most the
number of runs. -/
structure State where
  sessions : Int
  runs : Nat → Run

namespace State

def goto (s : State) (i : Nat) (r : Run) : State :=
  { s with runs := Function.update s.runs i r }

/-- `sessions.Add`. -/
def add (s : State) (n : Int) : State := { s with sessions := s.sessions + n }

end State

inductive Act
  | acquireSession (i : Nat)
  | add (i : Nat)
  | compare (i : Nat)
  | undo (i : Nat)
  | acquireReturns (i : Nat) (ok : Bool)
  | releaseSession (i : Nat)
  | subtract (i : Nat)
deriving DecidableEq

/-- One atomic step of a run. A limit that is not positive is none: the counter
is left alone. -/
def step (maxSessions : Int) (s : State) : Act → Option State
  | .acquireSession i =>
    if s.runs i = .idle then
      if maxSessions ≤ 0 then some (s.goto i .granted) else some (s.goto i .adding)
    else none
  | .add i =>
    if s.runs i = .adding then some ((s.goto i (.comparing (s.sessions + 1))).add 1) else none
  | .compare i =>
    match s.runs i with
    | .comparing n => if n > maxSessions then some (s.goto i .undoing) else some (s.goto i .granted)
    | _ => none
  | .undo i => if s.runs i = .undoing then some ((s.goto i .refused).add (-1)) else none
  | .acquireReturns i ok =>
    match s.runs i, ok with
    | .refused, false => some (s.goto i .idle)
    | .granted, true => some (s.goto i .running)
    | _, _ => none
  | .releaseSession i => if s.runs i = .running then some (s.goto i .releasing) else none
  | .subtract i =>
    if s.runs i = .releasing then
      if maxSessions ≤ 0 then some (s.goto i .idle) else some ((s.goto i .idle).add (-1))
    else none

def initial : State := ⟨0, fun _ => .idle⟩

/-- A server with the limit `maxSessions`, and any number of runs. -/
def system (maxSessions : Int) : System State Act where
  init := (· = initial)
  step := step maxSessions

inductive Step (maxSessions : Int) (s : State) : Act → State → Prop
  | unlimited {i} : s.runs i = .idle → maxSessions ≤ 0 →
      Step maxSessions s (.acquireSession i) (s.goto i .granted)
  | acquireSession {i} : s.runs i = .idle → 0 < maxSessions →
      Step maxSessions s (.acquireSession i) (s.goto i .adding)
  | add {i} : s.runs i = .adding →
      Step maxSessions s (.add i) ((s.goto i (.comparing (s.sessions + 1))).add 1)
  | overLimit {i n} : s.runs i = .comparing n → maxSessions < n →
      Step maxSessions s (.compare i) (s.goto i .undoing)
  | withinLimit {i n} : s.runs i = .comparing n → n ≤ maxSessions →
      Step maxSessions s (.compare i) (s.goto i .granted)
  | undo {i} : s.runs i = .undoing → Step maxSessions s (.undo i) ((s.goto i .refused).add (-1))
  | refused {i} : s.runs i = .refused →
      Step maxSessions s (.acquireReturns i false) (s.goto i .idle)
  | granted {i} : s.runs i = .granted →
      Step maxSessions s (.acquireReturns i true) (s.goto i .running)
  | releaseSession {i} : s.runs i = .running →
      Step maxSessions s (.releaseSession i) (s.goto i .releasing)
  | releaseUnlimited {i} : s.runs i = .releasing → maxSessions ≤ 0 →
      Step maxSessions s (.subtract i) (s.goto i .idle)
  | subtract {i} : s.runs i = .releasing → 0 < maxSessions →
      Step maxSessions s (.subtract i) ((s.goto i .idle).add (-1))

theorem step_cases {maxSessions : Int} {s s' : State} {a : Act}
    (h : step maxSessions s a = some s') : Step maxSessions s a s' := by
  cases a with
  | acquireSession i =>
    simp only [step] at h
    split at h
    · split at h
      · cases h; exact .unlimited ‹_› ‹_›
      · cases h; exact .acquireSession ‹_› (by omega)
    · cases h
  | add i =>
    simp only [step] at h
    split at h
    · cases h; exact .add ‹_›
    · cases h
  | compare i =>
    simp only [step] at h
    split at h
    · split at h
      · cases h; exact .overLimit ‹_› ‹_›
      · cases h; exact .withinLimit ‹_› (by omega)
    · cases h
  | undo i =>
    simp only [step] at h
    split at h
    · cases h; exact .undo ‹_›
    · cases h
  | acquireReturns i ok =>
    simp only [step] at h
    split at h
    · cases h; exact .refused ‹_›
    · cases h; exact .granted ‹_›
    · cases h
  | releaseSession i =>
    simp only [step] at h
    split at h
    · cases h; exact .releaseSession ‹_›
    · cases h
  | subtract i =>
    simp only [step] at h
    split at h
    · split at h
      · cases h; exact .releaseUnlimited ‹_› ‹_›
      · cases h; exact .subtract ‹_› (by omega)
    · cases h

/-! ## What the counter counts -/

/-- The run has a slot: its increment was within the limit, and `releaseSession`
has not subtracted it. -/
def Run.Holds (maxSessions : Int) : Run → Prop
  | .comparing n => n ≤ maxSessions
  | .granted | .running | .releasing => True
  | _ => False

/-- The run is refused a slot and has not undone its increment. -/
def Run.Pending (maxSessions : Int) : Run → Prop
  | .comparing n => maxSessions < n
  | .undoing => True
  | _ => False

/-- The run is inside `acquireSession`. -/
def Run.Acquiring : Run → Prop
  | .idle | .running | .releasing => False
  | _ => True

/-- `acquireSession` has returned true to the run, and it has not released. -/
def Run.Admitted : Run → Prop
  | .running | .releasing => True
  | _ => False

/-- The slots that are held. -/
noncomputable def held (maxSessions : Int) (s : State) : Nat := tally (Run.Holds maxSessions) s.runs

/-- The increments that are still to be undone. -/
noncomputable def pending (maxSessions : Int) (s : State) : Nat :=
  tally (Run.Pending maxSessions) s.runs

structure Inv (maxSessions : Int) (s : State) : Prop where
  finite : (among (· ≠ Run.idle) s.runs).Finite
  counts : s.sessions = held maxSessions s + pending maxSessions s
  limit : (held maxSessions s : Int) ≤ maxSessions

variable {maxSessions : Int} {s s' : State} {i : Nat} {r : Run}

theorem Inv.finite_holds (h : Inv maxSessions s) : (among (Run.Holds maxSessions) s.runs).Finite :=
  h.finite.subset fun i hi hidle => by rw [among, Set.mem_ofPred_eq, hidle] at hi; exact hi

theorem Inv.finite_pending (h : Inv maxSessions s) :
    (among (Run.Pending maxSessions) s.runs).Finite :=
  h.finite.subset fun i hi hidle => by rw [among, Set.mem_ofPred_eq, hidle] at hi; exact hi

/-- A step that changes neither the slots nor the increments to be undone. -/
theorem Inv.goto (h : Inv maxSessions s) (hh : r.Holds maxSessions ↔ (s.runs i).Holds maxSessions)
    (hp : r.Pending maxSessions ↔ (s.runs i).Pending maxSessions) : Inv maxSessions (s.goto i r) := by
  have hheld : held maxSessions (s.goto i r) = held maxSessions s := tally_stay hh
  have hpend : pending maxSessions (s.goto i r) = pending maxSessions s := tally_stay hp
  exact ⟨finite_among_update h.finite, by rw [hheld, hpend]; exact h.counts,
    by rw [hheld]; exact h.limit⟩

/-- A run moves and adds to the counter. -/
theorem Inv.add (h : Inv maxSessions s) {n : Int}
    (hcounts : s.sessions + n = held maxSessions (s.goto i r) + pending maxSessions (s.goto i r))
    (hlimit : (held maxSessions (s.goto i r) : Int) ≤ maxSessions) :
    Inv maxSessions ((s.goto i r).add n) :=
  ⟨finite_among_update h.finite, hcounts, hlimit⟩

/-- The increment takes a slot where it is within the limit. -/
theorem Inv.take (h : Inv maxSessions s) (hi : s.runs i = .adding)
    (hle : s.sessions + 1 ≤ maxSessions) :
    Inv maxSessions ((s.goto i (.comparing (s.sessions + 1))).add 1) := by
  have hheld : held maxSessions (s.goto i (.comparing (s.sessions + 1))) = held maxSessions s + 1 :=
    tally_enter h.finite_holds (by rw [hi]; exact id) hle
  have hpend : pending maxSessions (s.goto i (.comparing (s.sessions + 1))) =
      pending maxSessions s :=
    tally_stay (by rw [hi]; exact ⟨fun hlt => absurd hle (not_le.mpr hlt), False.elim⟩)
  have hcounts := h.counts
  refine h.add ?_ ?_
  · rw [hheld, hpend]
    omega
  · rw [hheld]
    omega

/-- An increment that is too many is one to be undone. -/
theorem Inv.overshoot (h : Inv maxSessions s) (hi : s.runs i = .adding)
    (hlt : maxSessions < s.sessions + 1) :
    Inv maxSessions ((s.goto i (.comparing (s.sessions + 1))).add 1) := by
  have hheld : held maxSessions (s.goto i (.comparing (s.sessions + 1))) = held maxSessions s :=
    tally_stay (by rw [hi]; exact ⟨fun hle => absurd hle (not_le.mpr hlt), False.elim⟩)
  have hpend : pending maxSessions (s.goto i (.comparing (s.sessions + 1))) =
      pending maxSessions s + 1 :=
    tally_enter h.finite_pending (by rw [hi]; exact id) hlt
  have hcounts := h.counts
  refine h.add ?_ ?_
  · rw [hheld, hpend]
    omega
  · rw [hheld]
    exact h.limit

theorem Inv.undo (h : Inv maxSessions s) (hi : s.runs i = .undoing) :
    Inv maxSessions ((s.goto i .refused).add (-1)) := by
  have hheld : held maxSessions (s.goto i .refused) = held maxSessions s :=
    tally_stay (by rw [hi]; exact Iff.rfl)
  have hpend : pending maxSessions (s.goto i .refused) + 1 = pending maxSessions s :=
    tally_leave h.finite_pending (by rw [hi]; trivial) id
  have hcounts := h.counts
  refine h.add ?_ ?_
  · rw [hheld]
    omega
  · rw [hheld]
    exact h.limit

/-- The subtraction of `releaseSession` gives a slot back. -/
theorem held_subtract (h : Inv maxSessions s) (hi : s.runs i = .releasing) :
    held maxSessions (s.goto i .idle) + 1 = held maxSessions s :=
  tally_leave h.finite_holds (by rw [hi]; trivial) id

theorem Inv.subtract (h : Inv maxSessions s) (hi : s.runs i = .releasing) :
    Inv maxSessions ((s.goto i .idle).add (-1)) := by
  have hheld := held_subtract h hi
  have hpend : pending maxSessions (s.goto i .idle) = pending maxSessions s :=
    tally_stay (by rw [hi]; exact Iff.rfl)
  have hcounts := h.counts
  have hlimit := h.limit
  refine h.add ?_ ?_
  · rw [hpend]
    omega
  · omega

theorem Inv.step {a : Act} (hpos : 0 < maxSessions) (h : Inv maxSessions s)
    (hst : Step maxSessions s a s') : Inv maxSessions s' := by
  cases hst with
  | unlimited _ hle => omega
  | acquireSession hi => exact h.goto (by rw [hi]; exact Iff.rfl) (by rw [hi]; exact Iff.rfl)
  | add hi =>
    rcases le_or_gt (s.sessions + 1) maxSessions with hle | hlt
    · exact h.take hi hle
    · exact h.overshoot hi hlt
  | overLimit hi hlt =>
    refine h.goto ?_ ?_ <;> rw [hi]
    · exact ⟨False.elim, fun hle => absurd hlt (not_lt.mpr hle)⟩
    · exact iff_of_true trivial hlt
  | withinLimit hi hle =>
    refine h.goto ?_ ?_ <;> rw [hi]
    · exact iff_of_true trivial hle
    · exact ⟨False.elim, fun hlt => absurd hlt (not_lt.mpr hle)⟩
  | undo hi => exact h.undo hi
  | refused hi => exact h.goto (by rw [hi]; exact Iff.rfl) (by rw [hi]; exact Iff.rfl)
  | granted hi => exact h.goto (by rw [hi]; exact Iff.rfl) (by rw [hi]; exact Iff.rfl)
  | releaseSession hi => exact h.goto (by rw [hi]; exact Iff.rfl) (by rw [hi]; exact Iff.rfl)
  | releaseUnlimited _ hle => omega
  | subtract hi => exact h.subtract hi

theorem tally_initial {p : Run → Prop} (hp : ¬ p .idle) : tally p initial.runs = 0 := by
  have hempty : among p initial.runs = ∅ := by ext i; simp [among, initial, hp]
  rw [tally, hempty, Set.ncard_empty]

theorem inv_stable (hpos : 0 < maxSessions) : (system maxSessions).Stable (Inv maxSessions) where
  init := by
    rintro s rfl
    have hheld : held maxSessions initial = 0 := tally_initial id
    have hpend : pending maxSessions initial = 0 := tally_initial id
    refine ⟨?_, by rw [hheld, hpend]; rfl, by rw [hheld]; omega⟩
    have hempty : among (· ≠ Run.idle) initial.runs = ∅ := by ext i; simp [among, initial]
    rw [hempty]
    exact Set.finite_empty
  step _ _ _ h hst := h.step hpos (step_cases hst)

/-- The counter is the sessions that hold a slot and the refused calls that have
still to undo their increment; the first are within the limit; and where no
`acquireSession` is in progress it is the sessions that were admitted and have
not released. -/
structure SlotsExact (maxSessions : Int) (s : State) : Prop where
  finite : (among (· ≠ Run.idle) s.runs).Finite
  counts : s.sessions = held maxSessions s + pending maxSessions s
  limit : (held maxSessions s : Int) ≤ maxSessions
  admitted : (tally Run.Admitted s.runs : Int) ≤ maxSessions
  nonneg : 0 ≤ s.sessions
  quiet : (∀ i, ¬ (s.runs i).Acquiring) → s.sessions = tally Run.Admitted s.runs

theorem Inv.admitted_le (h : Inv maxSessions s) :
    tally Run.Admitted s.runs ≤ held maxSessions s := by
  refine Set.ncard_le_ncard (fun i hi => ?_) h.finite_holds
  simp only [among, Set.mem_ofPred_eq] at hi ⊢
  cases hr : s.runs i <;> simp_all [Run.Admitted, Run.Holds]

theorem Inv.slotsExact (h : Inv maxSessions s) : SlotsExact maxSessions s := by
  have hcounts := h.counts
  have hlimit := h.limit
  have hadm := h.admitted_le
  refine ⟨h.finite, h.counts, h.limit, by omega, by omega, fun hquiet => ?_⟩
  have hheld : among (Run.Holds maxSessions) s.runs = among Run.Admitted s.runs := by
    ext i
    have hi := hquiet i
    simp only [among, Set.mem_ofPred_eq]
    cases hr : s.runs i <;> simp_all [Run.Acquiring, Run.Holds, Run.Admitted]
  have hpend : among (Run.Pending maxSessions) s.runs = ∅ := by
    ext i
    have hi := hquiet i
    simp only [among, Set.mem_ofPred_eq, Set.mem_empty_iff_false, iff_false]
    cases hr : s.runs i <;> simp_all [Run.Acquiring, Run.Pending]
  rw [h.counts, held, pending, tally, tally, tally, hheld, hpend, Set.ncard_empty]
  simp

theorem slotsExact_of_reach (hpos : 0 < maxSessions) (hs : (system maxSessions).Reach s) :
    SlotsExact maxSessions s :=
  ((inv_stable hpos).reach hs).slotsExact

/-! ## Refusals -/

/-- At some instant of the call of `acquireSession` that the run `i` is in at the
end of `as`, all slots were held. -/
def FullDuringCall (maxSessions : Int) (as : List Act) (i : Nat) : Prop :=
  ∃ pre mid post u, as = pre ++ .acquireSession i :: (mid ++ post) ∧
    Act.acquireSession i ∉ mid ++ post ∧
    (system maxSessions).exec initial (pre ++ .acquireSession i :: mid) = some u ∧
    (held maxSessions u : Int) = maxSessions

/-- No session releases its slot while a refused call has still to undo its
increment. -/
def ReleaseWaits (maxSessions : Int) (s : State) : Act → Prop
  | .subtract _ => ∀ j, ¬ (s.runs j).Pending maxSessions
  | _ => True

/-- Increments are to be undone only while all slots are held. -/
def Crowded (maxSessions : Int) (s : State) : Prop :=
  ∀ j, (s.runs j).Pending maxSessions → (held maxSessions s : Int) = maxSessions

theorem Crowded.goto (h : Crowded maxSessions s)
    (hh : r.Holds maxSessions ↔ (s.runs i).Holds maxSessions)
    (hp : r.Pending maxSessions → (s.runs i).Pending maxSessions) :
    Crowded maxSessions (s.goto i r) := by
  have hheld : held maxSessions (s.goto i r) = held maxSessions s := tally_stay hh
  intro j hj
  rw [hheld]
  by_cases hji : j = i
  · subst hji
    exact h j (hp (by simpa [State.goto] using hj))
  · exact h j (by simpa [State.goto, hji] using hj)

/-- With no increment to be undone the counter is the held slots; with one, all
slots are held anyway. -/
theorem Crowded.full (h : Crowded maxSessions s) (hi : Inv maxSessions s)
    (hlt : maxSessions < s.sessions + 1) : (held maxSessions s : Int) = maxSessions := by
  by_cases hp : ∃ j, (s.runs j).Pending maxSessions
  · obtain ⟨j, hj⟩ := hp
    exact h j hj
  · have hempty : among (Run.Pending maxSessions) s.runs = ∅ :=
      Set.eq_empty_of_forall_notMem fun j hj => hp ⟨j, hj⟩
    have hpend : pending maxSessions s = 0 := by rw [pending, tally, hempty, Set.ncard_empty]
    have hcounts := hi.counts
    have hlimit := hi.limit
    omega

theorem Crowded.step {a : Act} (hpos : 0 < maxSessions) (hi : Inv maxSessions s)
    (h : Crowded maxSessions s) (hc : ReleaseWaits maxSessions s a)
    (hst : Step maxSessions s a s') : Crowded maxSessions s' := by
  cases hst with
  | unlimited _ hle => omega
  | acquireSession hr => exact h.goto (by rw [hr]; exact Iff.rfl) False.elim
  | @add i hr =>
    rcases le_or_gt (s.sessions + 1) maxSessions with hle | hlt
    · -- a slot is free, so nothing is to be undone before the increment or after it
      intro j hj
      have hcounts := hi.counts
      by_cases hji : j = i
      · subst hji
        simp only [State.goto, State.add, Function.update_self, Run.Pending] at hj
        omega
      · have hj' : (s.runs j).Pending maxSessions := by
          simpa [State.goto, State.add, hji] using hj
        have := h j hj'
        omega
    · have hheld : held maxSessions (s.goto i (.comparing (s.sessions + 1))) = held maxSessions s :=
        tally_stay (by rw [hr]; exact ⟨fun hle => absurd hle (not_le.mpr hlt), False.elim⟩)
      intro j _
      show (held maxSessions (s.goto i _) : Int) = _
      rw [hheld]
      exact h.full hi hlt
  | overLimit hr hlt =>
    refine h.goto ?_ ?_ <;> rw [hr]
    · exact ⟨False.elim, fun hle => absurd hlt (not_lt.mpr hle)⟩
    · exact fun _ => hlt
  | withinLimit hr hle =>
    refine h.goto ?_ False.elim
    rw [hr]
    exact iff_of_true trivial hle
  | undo hr => exact h.goto (r := .refused) (by rw [hr]; exact Iff.rfl) False.elim
  | refused hr => exact h.goto (by rw [hr]; exact Iff.rfl) False.elim
  | granted hr => exact h.goto (by rw [hr]; exact Iff.rfl) False.elim
  | releaseSession hr => exact h.goto (by rw [hr]; exact Iff.rfl) False.elim
  | releaseUnlimited _ hle => omega
  | @subtract i hr =>
    intro j hj
    by_cases hji : j = i
    · subst hji
      simp [State.goto, State.add, Run.Pending] at hj
    · exact absurd (by simpa [State.goto, State.add, hji] using hj) (hc j)

/-- The run is being refused: its increment was too many. -/
def Run.Refusing (maxSessions : Int) : Run → Prop
  | .comparing n => maxSessions < n
  | .undoing | .refused => True
  | _ => False

theorem update_cases {p : Run → Prop} {j : Nat} (h : p (Function.update s.runs i r j)) :
    (j = i ∧ p r) ∨ p (s.runs j) := by
  by_cases hji : j = i
  · subst hji; rw [Function.update_self] at h; exact .inl ⟨rfl, h⟩
  · rw [Function.update_of_ne hji] at h; exact .inr h

/-- A run comes into `acquireSession` only by its own call. -/
theorem acquiring_cases {a : Act} {j : Nat} (hst : Step maxSessions s a s')
    (hj : (s'.runs j).Acquiring) :
    a = .acquireSession j ∨ (a ≠ .acquireSession j ∧ (s.runs j).Acquiring) := by
  by_cases hself : a = .acquireSession j
  · exact .inl hself
  refine .inr ⟨hself, ?_⟩
  cases hst with
  | unlimited hr | acquireSession hr =>
    rcases update_cases hj with ⟨rfl, -⟩ | hold
    · exact absurd rfl hself
    · exact hold
  | add hr | overLimit hr | withinLimit hr | undo hr =>
    rcases update_cases hj with ⟨rfl, -⟩ | hold
    · rw [hr]; trivial
    · exact hold
  | refused hr | granted hr | releaseSession hr | releaseUnlimited hr | subtract hr =>
    rcases update_cases hj with ⟨rfl, hnew⟩ | hold
    · exact hnew.elim
    · exact hold

/-- A run comes to be refused only by an increment that was too many. -/
theorem refusing_cases {a : Act} {j : Nat} (hst : Step maxSessions s a s')
    (hj : (s'.runs j).Refusing maxSessions) :
    (a = .add j ∧ s.runs j = .adding ∧ maxSessions < s.sessions + 1) ∨
      (a ≠ .acquireSession j ∧ (s.runs j).Refusing maxSessions) := by
  cases hst with
  | unlimited hr | acquireSession hr =>
    rcases update_cases hj with ⟨rfl, hp⟩ | hp
    · exact hp.elim
    · refine .inr ⟨fun he => ?_, hp⟩
      rw [← Act.acquireSession.inj he, hr] at hp
      exact hp
  | add hr =>
    rcases update_cases hj with ⟨rfl, hp⟩ | hp
    · exact .inl ⟨rfl, hr, hp⟩
    · exact .inr ⟨nofun, hp⟩
  | overLimit hr hlt =>
    rcases update_cases hj with ⟨rfl, -⟩ | hp
    · exact .inr ⟨nofun, by rw [hr]; exact hlt⟩
    · exact .inr ⟨nofun, hp⟩
  | undo hr =>
    rcases update_cases hj with ⟨rfl, -⟩ | hp
    · exact .inr ⟨nofun, by rw [hr]; trivial⟩
    · exact .inr ⟨nofun, hp⟩
  | withinLimit | refused | granted | releaseSession | releaseUnlimited | subtract =>
    rcases update_cases hj with ⟨rfl, hp⟩ | hp
    · exact hp.elim
    · exact .inr ⟨nofun, hp⟩

theorem FullDuringCall.snoc {as : List Act} {a : Act} (h : FullDuringCall maxSessions as i)
    (ha : a ≠ .acquireSession i) : FullDuringCall maxSessions (as ++ [a]) i := by
  obtain ⟨pre, mid, post, u, rfl, hno, hu, hfull⟩ := h
  refine ⟨pre, mid, post ++ [a], u, by simp, ?_, hu, hfull⟩
  rw [← List.append_assoc, List.mem_append, List.mem_singleton, not_or]
  exact ⟨hno, Ne.symm ha⟩

/-- The call that a run is in. -/
theorem last_call {as : List Act} (he : (system maxSessions).exec initial as = some s)
    (hi : (s.runs i).Acquiring) :
    ∃ pre post, as = pre ++ .acquireSession i :: post ∧ Act.acquireSession i ∉ post := by
  refine System.exec_history (C := fun _ _ => True) (S := system maxSessions)
    (P := fun as s => (s.runs i).Acquiring →
      ∃ pre post, as = pre ++ .acquireSession i :: post ∧ Act.acquireSession i ∉ post)
    False.elim ?_ he (.of_forall (fun _ _ _ => trivial) _) hi
  intro as s a t _ _ ih _ hst hj
  rcases acquiring_cases (step_cases hst) hj with rfl | ⟨hne, hold⟩
  · exact ⟨as, [], rfl, List.not_mem_nil⟩
  · obtain ⟨pre, post, rfl, hno⟩ := ih hold
    refine ⟨pre, post ++ [a], by simp, ?_⟩
    rw [List.mem_append, List.mem_singleton, not_or]
    exact ⟨hno, Ne.symm hne⟩

theorem crowded_of_along (hpos : 0 < maxSessions) {as : List Act}
    (he : (system maxSessions).exec initial as = some s)
    (hc : (system maxSessions).Along (ReleaseWaits maxSessions) initial as) :
    Crowded maxSessions s := by
  have hon : (system maxSessions).ReachOn (ReleaseWaits maxSessions) s :=
    (System.ReachOn.init rfl).exec hc he
  refine hon.invariant (fun _ => (inv_stable hpos).reach) ?_
    (fun s a t hi h hc hst => h.step hpos hi hc (step_cases hst))
  rintro s rfl j hj
  exact hj.elim

/-- Under the condition, all slots were held when a refused call incremented. -/
theorem fullDuringCall_of_refusing (hpos : 0 < maxSessions) {as : List Act}
    (he : (system maxSessions).exec initial as = some s)
    (hc : (system maxSessions).Along (ReleaseWaits maxSessions) initial as)
    (hi : (s.runs i).Refusing maxSessions) : FullDuringCall maxSessions as i := by
  refine System.exec_history (S := system maxSessions)
    (P := fun as s => (s.runs i).Refusing maxSessions → FullDuringCall maxSessions as i)
    False.elim ?_ he hc hi
  intro as s a t he hc ih _ hst hj
  rcases refusing_cases (step_cases hst) hj with ⟨rfl, hr, hlt⟩ | ⟨hne, hold⟩
  · have hinv := (inv_stable hpos).reach ((System.Reach.init rfl).exec he)
    obtain ⟨pre, post, rfl, hno⟩ := last_call (i := i) he (by rw [hr]; trivial)
    refine ⟨pre, post, [.add i], s, by simp, ?_, he, (crowded_of_along hpos he hc).full hinv hlt⟩
    simpa using hno
  · exact (ih hold).snoc hne

/-- The steps of a call that is refused, up to its return. -/
def refusedCall (j : Nat) : List Act := [.acquireSession j, .add j, .compare j, .undo j]

/-- With a counter at the limit a call is refused, and its own steps take no
slot. -/
theorem exec_refusedCall (hpos : 0 < maxSessions) {j : Nat} (hidle : s.runs j = .idle)
    (hover : maxSessions ≤ s.sessions) :
    (∃ t, (system maxSessions).exec s (refusedCall j) = some t ∧ t.runs j = .refused) ∧
    ∀ mid post u, refusedCall j = .acquireSession j :: (mid ++ post) →
      (system maxSessions).exec s (.acquireSession j :: mid) = some u →
      held maxSessions u = held maxSessions s := by
  -- the states after each of the four steps
  let s₁ := s.goto j .adding
  let s₂ := (s₁.goto j (.comparing (s.sessions + 1))).add 1
  let s₃ := s₂.goto j .undoing
  let s₄ := (s₃.goto j .refused).add (-1)
  have hlt : maxSessions < s.sessions + 1 := by omega
  have hnot : ∀ r : Run, r.Refusing maxSessions → ¬ r.Holds maxSessions := by
    intro r hr hh
    cases r with
    | comparing n => exact absurd hr (not_lt.mpr hh)
    | _ => first | exact hh | exact hr
  have e₁ : step maxSessions s (.acquireSession j) = some s₁ := by
    simp [step, hidle, hpos, s₁]
  have e₂ : step maxSessions s₁ (.add j) = some s₂ := by
    simp [step, s₁, s₂, State.goto]
  have e₃ : step maxSessions s₂ (.compare j) = some s₃ := by
    simp [step, s₂, s₃, State.goto, State.add, hlt]
  have e₄ : step maxSessions s₃ (.undo j) = some s₄ := by
    simp [step, s₃, s₄, State.goto]
  have h₁ : held maxSessions s₁ = held maxSessions s := tally_stay (by rw [hidle]; exact Iff.rfl)
  have h₂ : held maxSessions s₂ = held maxSessions s :=
    (tally_stay (iff_of_false (hnot (.comparing _) hlt) (by simp [s₁, State.goto, Run.Holds]))).trans h₁
  have h₃ : held maxSessions s₃ = held maxSessions s :=
    (tally_stay (iff_of_false id (by
      simpa [s₂, State.goto, State.add] using hnot (.comparing (s.sessions + 1)) hlt))).trans h₂
  have h₄ : held maxSessions s₄ = held maxSessions s :=
    (tally_stay (iff_of_false id (by simp [s₃, State.goto, Run.Holds]))).trans h₃
  constructor
  · exact ⟨s₄, by simp [System.exec, refusedCall, system, e₁, e₂, e₃, e₄],
      by simp [s₄, State.goto, State.add]⟩
  · intro mid post u hsplit hu
    have hmid : mid <+: [.add j, .compare j, .undo j] := ⟨post, (List.cons.inj hsplit).2.symm⟩
    simp only [List.prefix_cons_iff, List.prefix_nil] at hmid
    obtain rfl | ⟨_, rfl, rfl | ⟨_, rfl, rfl | ⟨_, rfl, rfl⟩⟩⟩ := hmid
    · have hs : u = s₁ := by simpa [System.exec, system, e₁] using hu.symm
      rw [hs, h₁]
    · have hs : u = s₂ := by simpa [System.exec, system, e₁, e₂] using hu.symm
      rw [hs, h₂]
    · have hs : u = s₃ := by simpa [System.exec, system, e₁, e₂, e₃] using hu.symm
      rw [hs, h₃]
    · have hs : u = s₄ := by simpa [System.exec, system, e₁, e₂, e₃, e₄] using hu.symm
      rw [hs, h₄]

/-- A list is cut at the last `x` in one way. -/
theorem cut_at_last {α : Type} {x : α} {as bs cs ds : List α} (h : as ++ x :: bs = cs ++ x :: ds)
    (hbs : x ∉ bs) (hds : x ∉ ds) : as = cs ∧ bs = ds := by
  rcases List.append_eq_append_iff.mp h with ⟨m, rfl, hm⟩ | ⟨m, rfl, hm⟩
  · cases m with
    | nil => exact ⟨by simp, (List.cons.inj hm).2⟩
    | cons y m =>
      refine absurd ?_ hbs
      rw [(List.cons.inj hm).2]
      simp
  · cases m with
    | nil => exact ⟨by simp, (List.cons.inj hm).2.symm⟩
    | cons y m =>
      refine absurd ?_ hds
      rw [(List.cons.inj hm).2]
      simp

/-- A slot is released while an increment is still to be undone: the next call
is refused although a slot is free throughout it. -/
theorem refused_of_early_release (hpos : 0 < maxSessions) {as : List Act}
    (he : (system maxSessions).exec initial as = some s) (hcrowded : Crowded maxSessions s)
    (hst : (system maxSessions).step s (.subtract i) = some s')
    (hc : ¬ ReleaseWaits maxSessions s (.subtract i)) :
    ∃ j t, (system maxSessions).exec s' (refusedCall j) = some t ∧ t.runs j = .refused ∧
      ¬ FullDuringCall maxSessions (as ++ .subtract i :: refusedCall j) j := by
  have hinv := (inv_stable hpos).reach ((System.Reach.init rfl).exec he)
  have hst' : Step maxSessions s (.subtract i) s' := step_cases hst
  cases hst' with
  | releaseUnlimited _ hle => omega
  | subtract hr =>
    obtain ⟨k, hk⟩ : ∃ k, (s.runs k).Pending maxSessions := by
      by_contra hno
      exact hc fun j hj => hno ⟨j, hj⟩
    have hki : k ≠ i := by rintro rfl; rw [hr] at hk; exact hk
    have hinv' := hinv.subtract hr
    have hfull := hcrowded k hk
    have hheld := held_subtract hinv hr
    -- the counter is still at the limit
    have hpend : 0 < pending maxSessions ((s.goto i .idle).add (-1)) :=
      tally_pos (i := k) hinv'.finite_pending (by simpa [State.goto, State.add, hki] using hk)
    have hcounts := hinv'.counts
    have hover : maxSessions ≤ ((s.goto i .idle).add (-1)).sessions := by
      have : held maxSessions ((s.goto i .idle).add (-1)) = held maxSessions (s.goto i .idle) := rfl
      omega
    obtain ⟨j, hj⟩ := hinv'.finite.infinite_compl.nonempty
    have hidle : ((s.goto i .idle).add (-1)).runs j = .idle := by
      simpa [among] using hj
    obtain ⟨⟨t, ht, href⟩, hkeep⟩ := exec_refusedCall hpos hidle hover
    refine ⟨j, t, ht, href, ?_⟩
    rintro ⟨pre, mid, post, u, hsplit, hno, hu, hfull'⟩
    have hcut : as ++ [.subtract i] ++ .acquireSession j :: [.add j, .compare j, .undo j] =
        pre ++ .acquireSession j :: (mid ++ post) := by
      simpa [refusedCall] using hsplit
    obtain ⟨rfl, hmid⟩ := cut_at_last hcut (by simp) hno
    have hu' : (system maxSessions).exec ((s.goto i .idle).add (-1))
        (.acquireSession j :: mid) = some u := by
      rw [System.exec_append, System.exec_append, he] at hu
      simpa [System.exec, hst] using hu
    have hsame := hkeep mid post u (by rw [refusedCall, hmid]) hu'
    have : held maxSessions ((s.goto i .idle).add (-1)) = held maxSessions (s.goto i .idle) := rfl
    omega

theorem step_refused {t : State} {j : Nat} (h : t.runs j = .refused) :
    (system maxSessions).step t (.acquireReturns j false) = some (t.goto j .idle) := by
  simp [system, step, h]

/-- **No call is refused while a slot is free, as long as no session releases
while an increment is to be undone.** After the first release that does, a call
may be refused although a slot is free throughout it. -/
theorem no_spurious_refusal_of_releaseWaits {maxSessions : Int} (hpos : 0 < maxSessions) :
    (∀ as s s' i, (system maxSessions).exec initial as = some s →
      (system maxSessions).Along (ReleaseWaits maxSessions) initial as →
      (system maxSessions).step s (.acquireReturns i false) = some s' →
      FullDuringCall maxSessions as i) ∧
    (∀ as s s' i, (system maxSessions).exec initial as = some s →
      (system maxSessions).Along (ReleaseWaits maxSessions) initial as →
      (system maxSessions).step s (.subtract i) = some s' →
      ¬ ReleaseWaits maxSessions s (.subtract i) →
      ∃ j t t', (system maxSessions).exec s' (refusedCall j) = some t ∧
        (system maxSessions).step t (.acquireReturns j false) = some t' ∧
        ¬ FullDuringCall maxSessions (as ++ .subtract i :: refusedCall j) j) := by
  constructor
  · intro as s s' i he hc hst
    have hst' : Step maxSessions s (.acquireReturns i false) s' := step_cases hst
    cases hst' with
    | refused hr => exact fullDuringCall_of_refusing hpos he hc (by rw [hr]; trivial)
  · intro as s s' i he hc hst hwait
    obtain ⟨j, t, ht, href, hnot⟩ :=
      refused_of_early_release hpos he (crowded_of_along hpos he hc) hst hwait
    exact ⟨j, t, _, ht, step_refused href, hnot⟩

/-- The run `0` is admitted and the run `1` has added, with a limit of one. -/
def overshootRun : List Act :=
  [.acquireSession 0, .add 0, .compare 0, .acquireReturns 0 true, .acquireSession 1, .add 1]

/-- The run `1` is refused while the run `0` has the slot, and then the run `0`
comes to its release. -/
def earlyReleaseRun : List Act := overshootRun ++ [.compare 1, .releaseSession 0]

theorem along_earlyReleaseRun :
    (system 1).Along (ReleaseWaits 1) initial earlyReleaseRun :=
  .of_forall (by simp [earlyReleaseRun, overshootRun, ReleaseWaits]) _

theorem no_spurious_refusal_at_capacity :
    (∃ s s', (system 1).exec initial (earlyReleaseRun ++ [.undo 1]) = some s ∧
      (system 1).step s (.acquireReturns 1 false) = some s' ∧
      FullDuringCall 1 (earlyReleaseRun ++ [.undo 1]) 1) := by
  obtain ⟨s, hs, hi⟩ : ∃ s, (system 1).exec initial (earlyReleaseRun ++ [.undo 1]) = some s ∧
      s.runs 1 = .refused :=
    ⟨_, (Option.some_get (show ((system 1).exec initial
      (earlyReleaseRun ++ [.undo 1])).isSome = true by decide)).symm, by decide⟩
  have hc : (system 1).Along (ReleaseWaits 1) initial (earlyReleaseRun ++ [.undo 1]) :=
    .of_forall (by simp [earlyReleaseRun, overshootRun, ReleaseWaits]) _
  exact ⟨s, _, hs, step_refused hi,
    (no_spurious_refusal_of_releaseWaits (by decide)).1 _ s _ 1 hs hc (step_refused hi)⟩

/-- The run `0` releases the only slot, the increment of the run `1` is not yet
undone, and the next call is refused by a server without a session. -/
theorem refused_while_slot_free :
    ¬ ∀ maxSessions : Int, 0 < maxSessions → ∀ as s s' i,
      (system maxSessions).exec initial as = some s →
      (system maxSessions).step s (.acquireReturns i false) = some s' →
      FullDuringCall maxSessions as i := by
  intro h
  obtain ⟨s, hs, h0, h1⟩ : ∃ s, (system 1).exec initial earlyReleaseRun = some s ∧
      s.runs 0 = .releasing ∧ s.runs 1 = .undoing :=
    ⟨_, (Option.some_get (show ((system 1).exec initial earlyReleaseRun).isSome = true by
      decide)).symm, by decide, by decide⟩
  have hst : (system 1).step s (.subtract 0) = some ((s.goto 0 .idle).add (-1)) := by
    simp [system, step, h0]
  have hwait : ¬ ReleaseWaits 1 s (.subtract 0) := fun hw => hw 1 (by rw [h1]; trivial)
  obtain ⟨j, t, ht, href, hnot⟩ := refused_of_early_release (by decide) hs
    (crowded_of_along (by decide) hs along_earlyReleaseRun) hst hwait
  refine hnot (h 1 (by decide) _ t _ j ?_ (step_refused href))
  rw [System.exec_append, hs]
  simpa [System.exec, hst] using ht

end WorkspaceProxy.SshServer.SessionLimit
