import WorkspaceProxy.Proxy.Connections
import WorkspaceProxy.Proxy.SessionStream

/-! # The tunnels of the proxy

Any number of runs of `handleWebSocket`, each with the goroutines of its session.
In `Connections` the return of a session is one step, and `Session` is one session
on its own; here a handler that runs its session goes on where `Run` has returned,
and its deferred `ws.Close` is the last step of that session. What the goroutines
of a session still have to do after `Run` they do at any later time. -/
namespace WorkspaceProxy.Proxy.Tunnels
open WorkspaceProxy.Conc
open Connections (Handler)

/-- `begun` notes the handlers that have called `Run`. -/
structure State where
  connections : Connections.State
  sessions : Nat → Session.State
  begun : Nat → Bool

namespace State

/-- A step of a handler; where it comes to `running` it calls `Run`. -/
def connect (s : State) (c : Connections.State) : State :=
  { s with connections := c, begun := fun j => s.begun j || decide (c.handlers j = .running) }

def setSession (s : State) (i : Nat) (t : Session.State) : State :=
  { s with sessions := Function.update s.sessions i t }

end State

/-- `Run` has returned, and the deferred `ws.Close` is still to come. -/
def left : Session.Caller → Bool
  | .leaving _ => true
  | _ => false

/-- The steps of a handler that are not its session's: it waits for `Run`, and its
`ws.Close` is a step of both. A panic of `Run` itself is left out. -/
def free (s : State) : Connections.Act → Bool
  | .manager _ => true
  | .handler i _ =>
    match s.connections.handlers i with
    | .running => left (s.sessions i).caller
    | .closingWs _ => false
    | _ => true
  | .panics i =>
    match s.connections.handlers i with
    | .running => left (s.sessions i).caller
    | _ => true

/-- The step of a session that is its handler's. -/
def leaves (t : Session.State) : Session.Act → Bool
  | .caller _ => left t.caller
  | _ => false

inductive Act
  | connection (a : Connections.Act)
  | session (i : Nat) (a : Session.Act)
  | closeWs (i : Nat)
deriving DecidableEq

section
variable (maxConnections : Int32) (peers : Nat → Session.Peers)

def step (s : State) : Act → Option State
  | .connection a =>
    if free s a = true then
      (Connections.step maxConnections s.connections a).map s.connect
    else none
  | .session i a =>
    if s.begun i = true ∧ leaves (s.sessions i) a = false then
      (Session.step (peers i) (s.sessions i) a).map (s.setSession i)
    else none
  | .closeWs i =>
    match s.connections.handlers i, (s.sessions i).caller with
    | .closingWs _, .leaving _ =>
      match Connections.step maxConnections s.connections (.handler i true),
        Session.step (peers i) (s.sessions i) (.caller true) with
      | some c, some t => some ((s.connect c).setSession i t)
      | _, _ => none
    | _, _ => none

def initial : State where
  connections := Connections.initial
  sessions i := Session.initial (peers i)
  begun _ := false

/-- A proxy with the limit `maxConnections`, whose `i`-th request has the peers
`peers i`. -/
def system : System State Act where
  init := (· = initial peers)
  step := step maxConnections peers

end

/-! ## The steps -/

variable {maxConnections : Int32} {peers : Nat → Session.Peers} {s s' : State} {i : Nat}

inductive Step (maxConnections : Int32) (peers : Nat → Session.Peers) (s : State) :
    Act → State → Prop
  | connection {a c} : free s a = true → Connections.step maxConnections s.connections a = some c →
      Step maxConnections peers s (.connection a) (s.connect c)
  | session {i a t} : s.begun i = true → leaves (s.sessions i) a = false →
      Session.step (peers i) (s.sessions i) a = some t →
      Step maxConnections peers s (.session i a) (s.setSession i t)
  | closeWs {i exit err c t} : s.connections.handlers i = .closingWs exit →
      (s.sessions i).caller = .leaving err →
      Connections.step maxConnections s.connections (.handler i true) = some c →
      Session.step (peers i) (s.sessions i) (.caller true) = some t →
      Step maxConnections peers s (.closeWs i) ((s.connect c).setSession i t)

theorem step_cases {a : Act} (h : step maxConnections peers s a = some s') :
    Step maxConnections peers s a s' := by
  cases a with
  | connection a =>
    simp only [step] at h
    split at h
    · rename_i hfree
      obtain ⟨c, hc, rfl⟩ := Option.map_eq_some_iff.mp h
      exact .connection hfree hc
    · cases h
  | session i a =>
    simp only [step] at h
    split at h
    · rename_i hguard
      obtain ⟨t, ht, rfl⟩ := Option.map_eq_some_iff.mp h
      exact .session hguard.1 hguard.2 ht
    · cases h
  | closeWs i =>
    simp only [step] at h
    split at h
    · split at h
      · cases h; exact .closeWs ‹_› ‹_› ‹_› ‹_›
      · cases h
    · cases h

/-- The handlers run as in `Connections`. -/
theorem connections_reach (hs : (system maxConnections peers).Reach s) :
    (Connections.system maxConnections).Reach s.connections := by
  refine hs.map State.connections ?_ ?_
  · intro s hi
    rw [hi]
    rfl
  · intro s a t hst
    cases step_cases hst with
    | connection _ hc => exact .inr ⟨_, hc⟩
    | session => exact .inl rfl
    | closeWs _ _ hc => exact .inr ⟨.handler _ true, hc⟩

/-- A step of one session is one of its own, and none of the others'. -/
theorem session_moves {j : Nat} {a : Session.Act} {t : Session.State}
    (ht : Session.step (peers j) (s.sessions j) a = some t) (i : Nat) :
    Function.update s.sessions j t i = s.sessions i ∨
      ∃ b, Session.step (peers i) (s.sessions i) b = some (Function.update s.sessions j t i) := by
  by_cases hj : i = j
  · subst hj
    refine .inr ⟨a, ?_⟩
    rw [Function.update_self]
    exact ht
  · exact .inl (Function.update_of_ne hj ..)

/-- Each session runs as in `Session`. -/
theorem session_reach (hs : (system maxConnections peers).Reach s) (i : Nat) :
    (Session.system (peers i)).Reach (s.sessions i) := by
  refine hs.map (fun s => s.sessions i) ?_ ?_
  · intro s hi
    rw [hi]
    rfl
  · intro s a t hst
    cases step_cases hst with
    | connection => exact .inl rfl
    | session _ _ ht => exact session_moves ht i
    | closeWs _ _ _ ht => exact session_moves ht i

/-! ## The handler and its session -/

/-- Where the session of a handler is. -/
def Linked (h : Handler) (begun : Bool) (c : Session.Caller) : Prop :=
  match h with
  | .running => begun = true
  | .decrementing _ | .closingWs _ => begun = true ∧ ∃ err, c = .leaving err
  | .releasing true _ => begun = true ∧ ∃ err, c = .returned err
  | .finished _ => begun = true → ∃ err, c = .returned err
  | _ => begun = false

def LinkedAt (s : State) (i : Nat) : Prop :=
  Linked (s.connections.handlers i) (s.begun i) (s.sessions i).caller

theorem Linked.noted {h : Handler} {b : Bool} {c : Session.Caller} (hl : Linked h b c) :
    Linked h (b || decide (h = .running)) c := by
  by_cases hr : h = .running
  · subst hr
    exact Bool.or_eq_true_iff.mpr (.inl hl)
  · rw [decide_eq_false hr, Bool.or_false]
    exact hl

/-- One handler moves, and its session. -/
theorem linkedAt_both {c : Connections.State} {t : Session.State} {k : Handler}
    (h : ∀ j, LinkedAt s j) (hc : c.handlers = Function.update s.connections.handlers i k)
    (hk : Linked k (s.begun i || decide (k = .running)) t.caller) (j : Nat) :
    LinkedAt ((s.connect c).setSession i t) j := by
  show Linked (c.handlers j) (s.begun j || decide (c.handlers j = .running))
    (Function.update s.sessions i t j).caller
  rw [hc]
  by_cases hj : j = i
  · subst hj
    rw [Function.update_self, Function.update_self]
    exact hk
  · rw [Function.update_of_ne hj, Function.update_of_ne hj]
    exact (h j).noted

theorem linkedAt_connect {c : Connections.State} {k : Handler} (h : ∀ j, LinkedAt s j)
    (hc : c.handlers = Function.update s.connections.handlers i k)
    (hk : Linked k (s.begun i || decide (k = .running)) (s.sessions i).caller) (j : Nat) :
    LinkedAt (s.connect c) j := by
  have hboth := linkedAt_both h hc hk j
  rw [State.setSession, State.connect, Function.update_eq_self] at hboth
  exact hboth

/-- A session moves, while `Run` stays or is not over. -/
theorem linkedAt_setSession {t : Session.State} (h : ∀ j, LinkedAt s j)
    (ht : Linked (s.connections.handlers i) (s.begun i) t.caller) (j : Nat) :
    LinkedAt (s.setSession i t) j := by
  show Linked (s.connections.handlers j) (s.begun j) (Function.update s.sessions i t j).caller
  by_cases hj : j = i
  · subst hj
    rw [Function.update_self]
    exact ht
  · rw [Function.update_of_ne hj]
    exact h j

theorem left_eq_true_iff {c : Session.Caller} : left c = true ↔ ∃ err, c = .leaving err := by
  cases c <;> simp [left]

/-- Where `Run` is moves only with its own steps. -/
theorem session_caller {p : Session.Peers} {t t' : Session.State} {a : Session.Act}
    (hst : Session.Step p t a t') (ha : leaves t a = false) :
    t'.caller = t.caller ∨ (∀ err, t.caller ≠ .leaving err ∧ t.caller ≠ .returned err) := by
  cases hst with
  | caller h =>
    refine .inr fun err => ⟨fun hc => ?_, fun hc => ?_⟩
    · rw [leaves, hc] at ha
      cases ha
    · cases h <;> simp_all
  | ping h => exact .inl h.runFrame.caller
  | bridge h => exact .inl h.runFrame.caller
  | readPump h => exact .inl h.runFrame.caller
  | writePump h => exact .inl h.runFrame.caller
  | timer h => exact .inl h.runFrame.caller
  | grace | endCtx => exact .inl rfl

/-- Where a handler goes on that has not returned from `Run` yet. -/
theorem linked_session {h : Handler} {b : Bool} {c c' : Session.Caller} (hl : Linked h b c)
    (hb : b = true) (hc : c' = c ∨ ∀ err, c ≠ .leaving err ∧ c ≠ .returned err) :
    Linked h b c' := by
  rcases hc with rfl | hno
  · exact hl
  · subst hb
    unfold Linked at hl ⊢
    split at hl
    · exact hl
    · exact absurd hl.2.choose_spec (hno _).1
    · exact absurd hl.2.choose_spec (hno _).1
    · exact absurd hl.2.choose_spec (hno _).2
    · exact absurd (hl rfl).choose_spec (hno _).2
    · cases hl

theorem linked_control {h k : Handler} {b : Bool} {c : Session.Caller} {a : SessionManager.Act}
    (hl : Linked h b c) (hk : Connections.control h a = some k) :
    Linked k (b || decide (k = .running)) c := by
  refine Linked.noted ?_
  unfold Connections.control at hk
  split at hk
  · split at hk
    · rename_i hh
      cases hk
      rw [hh] at hl
      exact hl
    · cases hk
  · split at hk
    · cases hk
      exact hl
    · cases hk
  · split at hk
    · cases hk
      exact hl
    · cases hk
  · split at hk
    · rename_i hh
      cases hk
      rw [hh] at hl
      split <;> exact hl
    · cases hk
  · split at hk
    · cases hk
      exact hl
    · cases hk
  · split at hk
    · cases hk
      exact hl
    · cases hk
  · split at hk
    · rename_i upgraded exit
      cases hk
      cases upgraded with
      | true => exact fun _ => hl.2
      | false =>
        intro hb
        rw [show b = false from hl] at hb
        cases hb
    · cases hk

/-- A handler that has no session finishes. -/
theorem linked_finished {b : Bool} {c : Session.Caller} (hb : b = false) (exit : Connections.Exit) :
    Linked (.finished exit) b c := by
  intro htrue
  rw [hb] at htrue
  cases htrue

theorem linkedAt_handler {c : Connections.State} {ok : Bool} (h : ∀ j, LinkedAt s j)
    (hfree : free s (.handler i ok) = true) (hst : Connections.HandlerStep s.connections i c) :
    ∀ j, LinkedAt (s.connect c) j := by
  have hl := h i
  unfold LinkedAt at hl
  unfold free at hfree
  cases hst with
  | logRejected hi | upgrade hi | upgradeFails hi | logFailed hi | countRejected hi
  | countFailed hi | countTotal hi =>
    rw [hi] at hl
    exact linkedAt_connect h rfl (Linked.noted hl)
  | respond hi =>
    rw [hi] at hl
    exact linkedAt_connect h rfl (Linked.noted (linked_finished hl _))
  | countActive hi => exact linkedAt_connect h rfl (Bool.or_true _)
  | runReturns hi =>
    rw [hi] at hl
    simp only [hi] at hfree
    exact linkedAt_connect h rfl (Linked.noted ⟨hl, left_eq_true_iff.mp hfree⟩)
  | decrement hi =>
    rw [hi] at hl
    exact linkedAt_connect h rfl (Linked.noted hl)
  | closeWs hi =>
    simp only [hi] at hfree
    cases hfree

theorem linkedAt_panics {k : Handler} (h : ∀ j, LinkedAt s j)
    (hfree : free s (.panics i) = true)
    (hk : Connections.unwind (s.connections.handlers i) = some k) :
    ∀ j, LinkedAt (s.connect (s.connections.goto i k)) j := by
  have hl := h i
  unfold LinkedAt at hl
  unfold free at hfree
  refine linkedAt_connect h rfl ?_
  cases hi : s.connections.handlers i with
  | rejecting | responding =>
    rw [hi] at hl hk
    cases hk
    exact Linked.noted (linked_finished hl _)
  | upgrading | failing =>
    rw [hi] at hl hk
    cases hk
    exact Linked.noted hl
  | running =>
    rw [hi] at hl hk
    simp only [hi] at hfree
    cases hk
    exact Linked.noted ⟨hl, left_eq_true_iff.mp hfree⟩
  | _ =>
    rw [hi] at hk
    cases hk

theorem linkedAt_step {a : Act} (h : ∀ j, LinkedAt s j) (hst : Step maxConnections peers s a s') :
    ∀ j, LinkedAt s' j := by
  cases hst with
  | session hbegun hleaves ht =>
    exact linkedAt_setSession h
      (linked_session (h _) hbegun (session_caller (Session.step_cases ht) hleaves))
  | connection hfree hc =>
    cases Connections.step_cases hc with
    | manager hk => exact linkedAt_connect h rfl (linked_control (h _) hk)
    | handler hh => exact linkedAt_handler h hfree hh
    | panics hk => exact linkedAt_panics h hfree hk
  | closeWs hh hcaller hc ht =>
    have hl := h ‹_›
    unfold LinkedAt at hl
    rw [hh] at hl
    simp only [Connections.step, Connections.handleWebSocket, hh] at hc
    simp only [Session.step, Session.run, hcaller] at ht
    cases hc
    cases ht
    exact linkedAt_both h rfl (Linked.noted ⟨hl.1, _, rfl⟩)

/-- The handlers are linked to their sessions, and a session that was not begun is
as it was at the start. -/
structure Paired (peers : Nat → Session.Peers) (s : State) : Prop where
  linked : ∀ j, LinkedAt s j
  unbegun : ∀ j, s.begun j = false → s.sessions j = Session.initial (peers j)

theorem unbegun_setSession {t : Session.State} (h : Paired peers s) (hbegun : s.begun i = true)
    {j : Nat} (hj : s.begun j = false) :
    Function.update s.sessions i t j = Session.initial (peers j) := by
  have hne : j ≠ i := by
    intro he
    rw [he, hbegun] at hj
    cases hj
  rw [Function.update_of_ne hne]
  exact h.unbegun j hj

theorem Paired.step {a : Act} (h : Paired peers s) (hst : Step maxConnections peers s a s') :
    Paired peers s' := by
  refine ⟨linkedAt_step h.linked hst, fun j hj => ?_⟩
  cases hst with
  | connection => exact h.unbegun j (Bool.or_eq_false_iff.mp hj).1
  | session hbegun => exact unbegun_setSession h hbegun hj
  | @closeWs i exit err c t hh =>
    have hl := h.linked i
    unfold LinkedAt at hl
    rw [hh] at hl
    exact unbegun_setSession h hl.1 (Bool.or_eq_false_iff.mp hj).1

theorem paired_stable (maxConnections : Int32) (peers : Nat → Session.Peers) :
    (system maxConnections peers).Stable (Paired peers) where
  init s hi := by
    rw [hi]
    exact ⟨fun _ => rfl, fun _ _ => rfl⟩
  step _ _ _ h hst := h.step (step_cases hst)

/-! ## What is open -/

/-- The session has a connection to the target. -/
def Open (t : Session.State) : Prop := t.tcp = .opened

/-- `Run` has returned. -/
def Over (c : Session.Caller) : Prop := ∃ err, c = .leaving err ∨ c = .returned err

/-- Once `Run` has returned the connection to the target is closed, and the ping
loop has ended. -/
theorem closed_of_over {t : Session.State} (hi : Session.Inv t) (hc : Over t.caller) :
    ¬ Open t ∧ (t.ping = .unborn ∨ t.ping = .finished) := by
  have hcaller := hi.caller
  have hcases : (Session.Fresh t ∧ t.tcp = .unopened) ∨ Session.Torn t := by
    obtain ⟨err, hc | hc⟩ := hc
    · rw [hc] at hcaller
      exact hcaller
    · rw [hc] at hcaller
      exact hcaller.2
  unfold Open
  rcases hcases with ⟨hfresh, htcp⟩ | htorn
  · rw [htcp]
    exact ⟨nofun, .inl hfresh.1⟩
  · rw [htorn.2.2.1.2]
    exact ⟨nofun, .inr htorn.1⟩

/-- A handler whose session is open is in its session. -/
theorem Paired.running_of_open (h : Paired peers s) (hi : Session.Inv (s.sessions i))
    (hopen : Open (s.sessions i)) : s.connections.handlers i = .running := by
  have hbegun : s.begun i = true := by
    by_contra hno
    rw [Bool.not_eq_true] at hno
    rw [Open, h.unbegun i hno] at hopen
    cases hopen
  have hover : ¬ Over (s.sessions i).caller := fun hc => (closed_of_over hi hc).1 hopen
  have hl := h.linked i
  unfold LinkedAt Linked at hl
  split at hl
  · assumption
  · exact absurd ⟨_, .inl hl.2.choose_spec⟩ hover
  · exact absurd ⟨_, .inl hl.2.choose_spec⟩ hover
  · exact absurd ⟨_, .inr hl.2.choose_spec⟩ hover
  · exact absurd ⟨_, .inr (hl hbegun).choose_spec⟩ hover
  · cases hl.symm.trans hbegun

/-- The connections to the target, and what is left of a session whose slot was
given back. -/
structure Bounded (maxConnections : Int32) (s : State) : Prop where
  finite : (among Open s.sessions).Finite
  targets : (tally Open s.sessions : Int) ≤ s.connections.manager.active.toInt
  limit : s.connections.manager.active.toInt ≤ max 0 maxConnections.toInt
  released : ∀ i, s.begun i = true → ¬ (s.connections.manager.callers i).Holds →
    (∃ err, (s.sessions i).caller = .returned err) ∧ ¬ Open (s.sessions i) ∧
      (s.sessions i).wsClosed = true ∧
      ((s.sessions i).ping = .unborn ∨ (s.sessions i).ping = .finished)

/-- A handler that has no slot has no session any more. -/
theorem Paired.returned_of_released (h : Paired peers s)
    (hc : Connections.Inv maxConnections s.connections) (hbegun : s.begun i = true)
    (hno : ¬ (s.connections.manager.callers i).Holds) :
    ∃ err, (s.sessions i).caller = .returned err := by
  have hl := h.linked i
  have hm := hc.linked i
  have hholds : s.connections.manager.callers i ≠ .holding := by
    intro he
    rw [he] at hno
    exact hno trivial
  unfold LinkedAt at hl
  cases hh : s.connections.handlers i with
  | running | decrementing | closingWs =>
    rw [hh] at hm
    exact absurd hm hholds
  | releasing upgraded exit =>
    rw [hh] at hl
    cases upgraded with
    | true => exact hl.2
    | false => cases hl.symm.trans hbegun
  | finished exit =>
    rw [hh] at hl
    exact hl hbegun
  | _ =>
    rw [hh] at hl
    cases hl.symm.trans hbegun

/-- **The sessions have at most one connection to the target for each slot.** With
any number of requests and whatever becomes of their sessions, short of a panic of
`Run`, the connections of the sessions that are open to the target are at most the
slots in use, which are at most `maxConnections`, the configured number narrowed to
32 bits, or 0 where that is negative. The prober's connection takes no slot and is
not among them. A slot is given back only where `Run` has returned, both connections
of the session are closed and its ping loop has ended. -/
theorem target_connections_bounded {maxConnections : Int32} {peers : Nat → Session.Peers}
    {s : State} (hs : (system maxConnections peers).Reach s) : Bounded maxConnections s := by
  have hpair := (paired_stable maxConnections peers).reach hs
  have hconn := (Connections.inv_stable maxConnections).reach (connections_reach hs)
  have hsess := fun i => (Session.inv_stable (peers i)).reach (session_reach hs i)
  have hsub : among Open s.sessions ⊆
      among SessionManager.Caller.Holds s.connections.manager.callers := by
    intro i hi
    have hrun := hpair.running_of_open (hsess i) hi
    have hm := hconn.linked i
    rw [hrun] at hm
    show (s.connections.manager.callers i).Holds
    rw [show s.connections.manager.callers i = .holding from hm]
    trivial
  have hactive := hconn.manager.active
  have hlimit := hconn.manager.limit
  refine ⟨hconn.manager.finite.subset hsub, ?_, by omega, fun i hbegun hno => ?_⟩
  · have hle : tally Open s.sessions ≤ SessionManager.held s.connections.manager :=
      Set.ncard_le_ncard hsub hconn.manager.finite
    omega
  · obtain ⟨err, hret⟩ := hpair.returned_of_released hconn hbegun hno
    have hcaller := (hsess i).caller
    rw [hret] at hcaller
    obtain ⟨hopen, hping⟩ := closed_of_over (hsess i) ⟨err, .inr hret⟩
    exact ⟨⟨err, hret⟩, hopen, hcaller.1, hping⟩

/-- With a limit of one, a session that has dialed its target. -/
def dialedRun : List Act :=
  (Connections.upgradeRun 0).map .connection ++
    [.connection (.handler 0 true), .connection (.handler 0 true), .session 0 (.caller true),
      .session 0 (.caller true)]

theorem target_connections_bounded_dialed :
    ∃ s, (system 1 fun _ => Session.oneMessage).Reach s ∧ Open (s.sessions 0) ∧
      s.connections.manager.active = 1 ∧ Bounded 1 s := by
  obtain ⟨s, hs, hopen, hactive⟩ : ∃ s, (system 1 fun _ => Session.oneMessage).Reach s ∧
      (s.sessions 0).tcp = .opened ∧ s.connections.manager.active = 1 :=
    ⟨_, System.reach_get (system 1 fun _ => Session.oneMessage) dialedRun rfl rfl, rfl, rfl⟩
  exact ⟨s, hs, hopen, hactive, target_connections_bounded hs⟩

end WorkspaceProxy.Proxy.Tunnels
