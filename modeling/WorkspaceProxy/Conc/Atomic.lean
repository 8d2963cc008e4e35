import WorkspaceProxy.Conc.System

/-! # Atomic objects and linearizability

An object is given by what each operation does in one step. Its canonical
concurrent version takes a call, later performs it in one internal step, and
later still returns the result, any number of calls overlapping. A history of
calls and returns is linearizable to the object when the canonical version has
a run with this history: the internal steps are the linearization points, each
between the call and its return. A forward simulation carries the histories of
an implementation over to it. -/
namespace WorkspaceProxy.Conc

/-! ## Histories and simulations -/

section Simulation
variable {σ τ α β E : Type}

/-- `T` follows `S` with steps of the same visible events. -/
structure Simulation (S : System σ α) (T : System τ β) (seen : α → Option E)
    (seen' : β → Option E) (R : σ → τ → Prop) : Prop where
  init : ∀ s, S.init s → ∃ t, T.init t ∧ R s t
  step : ∀ s t a s', R s t → S.step s a = some s' →
    ∃ bs t', T.exec t bs = some t' ∧ bs.filterMap seen' = (seen a).toList ∧ R s' t'

theorem Simulation.exec {S : System σ α} {T : System τ β} {seen : α → Option E}
    {seen' : β → Option E} {R : σ → τ → Prop} (h : Simulation S T seen seen' R) {s s' : σ} {t : τ}
    {as : List α} (hr : R s t) (he : S.exec s as = some s') :
    ∃ bs t', T.exec t bs = some t' ∧ bs.filterMap seen' = as.filterMap seen ∧ R s' t' := by
  induction as generalizing s t with
  | nil => cases he; exact ⟨[], t, rfl, rfl, hr⟩
  | cons a as ih =>
    obtain ⟨u, hu, hrest⟩ := System.exec_cons he
    obtain ⟨bs, v, hv, hb, hru⟩ := h.step s t a u hr hu
    obtain ⟨cs, t', ht', hc, hr'⟩ := ih hru hrest
    refine ⟨bs ++ cs, t', ?_, ?_, hr'⟩
    · rw [System.exec_append, hv]; exact ht'
    · rw [List.filterMap_append, hb, hc]
      cases hs : seen a with
      | none => rw [List.filterMap_cons_none hs]; rfl
      | some e => rw [List.filterMap_cons_some hs]; rfl

end Simulation

/-! ## The canonical atomic object -/

/-- An object: from a state, an operation gives a result and the next state. It
may be undefined where its callers promise not to call it. -/
structure Object (Q Op Ret : Type) where
  start : Q
  apply : Q → Op → Option (Ret × Q)

/-- What a history shows: a caller calls an operation, or gets its result. -/
inductive Event (Op Ret : Type)
  | call (i : Nat) (op : Op)
  | ret (i : Nat) (r : Ret)

/-- Where a caller is: outside, called and not performed, or performed and not
returned. -/
inductive Status (Op Ret : Type)
  | idle
  | pending (op : Op)
  | performed (r : Ret)

namespace Object
variable {Q Op Ret : Type}

structure State (Q Op Ret : Type) where
  value : Q
  status : Nat → Status Op Ret

inductive Act (Op Ret : Type)
  | call (i : Nat) (op : Op)
  | perform (i : Nat)
  | ret (i : Nat) (r : Ret)

/-- The internal step is not seen. -/
def seen : Act Op Ret → Option (Event Op Ret)
  | .call i op => some (.call i op)
  | .perform _ => none
  | .ret i r => some (.ret i r)

def State.set (s : State Q Op Ret) (i : Nat) (st : Status Op Ret) : State Q Op Ret :=
  { s with status := Function.update s.status i st }

variable [DecidableEq Ret]

def step (O : Object Q Op Ret) (s : State Q Op Ret) : Act Op Ret → Option (State Q Op Ret)
  | .call i op =>
    match s.status i with
    | .idle => some (s.set i (.pending op))
    | _ => none
  | .perform i =>
    match s.status i with
    | .pending op =>
      (O.apply s.value op).map fun (r, q) => { s.set i (.performed r) with value := q }
    | _ => none
  | .ret i r =>
    match s.status i with
    | .performed r' => if r' = r then some (s.set i .idle) else none
    | _ => none

def initial (O : Object Q Op Ret) : State Q Op Ret := ⟨O.start, fun _ => .idle⟩

/-- The canonical concurrent version. -/
def system (O : Object Q Op Ret) : System (State Q Op Ret) (Act Op Ret) where
  init := (· = O.initial)
  step := O.step

/-- The history is one of the canonical version: each call takes effect at one
instant between the call and its return. -/
def Linearizable (O : Object Q Op Ret) (history : List (Event Op Ret)) : Prop :=
  ∃ as t, O.system.exec O.initial as = some t ∧ as.filterMap seen = history

variable {O : Object Q Op Ret} {s : State Q Op Ret} {i : Nat}

theorem exec_call {op : Op} (h : s.status i = .idle) :
    O.system.exec s [.call i op] = some (s.set i (.pending op)) := by
  simp [System.exec, system, step, h]

theorem exec_perform {op : Op} {r : Ret} {q : Q} (h : s.status i = .pending op)
    (ha : O.apply s.value op = some (r, q)) :
    O.system.exec s [.perform i] = some { s.set i (.performed r) with value := q } := by
  simp [System.exec, system, step, h, ha]

theorem exec_ret {r : Ret} (h : s.status i = .performed r) :
    O.system.exec s [.ret i r] = some (s.set i .idle) := by
  simp [System.exec, system, step, h]

/-- The histories of an implementation that the object simulates. -/
theorem linearizable_of_simulation {σ α : Type} {S : System σ α}
    {view : α → Option (Event Op Ret)} {R : σ → State Q Op Ret → Prop}
    (h : Simulation S O.system view seen R) {s s' : σ} {as : List α} (hs : S.init s)
    (he : S.exec s as = some s') : O.Linearizable (as.filterMap view) := by
  obtain ⟨t, rfl, hr⟩ := h.init s hs
  obtain ⟨bs, t', ht', hb, -⟩ := h.exec hr he
  exact ⟨bs, t', ht', hb⟩

end Object
end WorkspaceProxy.Conc
