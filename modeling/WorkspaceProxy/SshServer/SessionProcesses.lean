import WorkspaceProxy.SshServer.SessionFleet
import WorkspaceProxy.SshServer.SessionLifecycle

/-! # The processes of a server

Each session of a fleet is a session as in `Session`, for which the others move the
counter. A process that was started and not reaped belongs to a session that has a
slot, so the limit on the slots is one on the processes. -/
namespace WorkspaceProxy.SshServer.SessionFleet
open WorkspaceProxy.Conc

variable {srv : Server} {s s' : State} {i : Nat}

/-- **Each session of a fleet runs as one alone.** -/
theorem member_reach (hs : (system srv).Reach s) (i : Nat) :
    (Session.system (srv.config i)).Reach (s.member i) := by
  refine hs.map (fun s => s.member i) ?_ ?_
  · intro s hi
    have hm := hi.members i
    exact ⟨hm.handler, hm.watcher, hm.resizer, hm.cmd, hm.slot, hm.admitted, hm.releases, hm.done,
      hm.stopResize, hm.masterClosed, hm.resizes, hm.exits, hm.attempts⟩
  · intro s act t hst
    obtain ⟨j, a⟩ := act
    refine .inr ?_
    change step srv s (j, a) = some t at hst
    unfold step at hst
    split at hst
    · cases hst
    · obtain ⟨m, hm, rfl⟩ := Option.map_eq_some_iff.mp hst
      by_cases hj : i = j
      · subst hj
        refine ⟨_, hm.trans ?_⟩
        simp [State.member]
      · refine ⟨.others (m.sessions - s.sessions), ?_⟩
        simp [Session.system, Session.step, State.member, hj]

/-- The process was started and has not been reaped. -/
def Alive (m : Session.State) : Prop :=
  m.cmd.child ≠ .absent ∧ m.cmd.child.isReaped = false

/-- A session with a process has a slot, which it keeps until `wait` has returned. -/
theorem running_of_alive {cfg : Session.Config} {m : Session.State} (h : Session.Inv cfg m)
    (halive : Alive m) : phase m.handler = .running := by
  have hh := h.handler
  have hended : ¬ Session.Ended m := by
    intro he
    rcases he with ⟨hun, -⟩ | ⟨⟨r, hr, -⟩, -⟩
    · exact halive.1 hun.child
    · have hw := h.cmdInv.waiter
      rw [hr] at hw
      obtain ⟨-, status, -, hchild, -⟩ := hw
      rw [Alive, hchild] at halive
      cases halive.2
  cases hp : m.handler with
  | acquiring | refusing | undoing =>
    rw [hp] at hh
    exact absurd hh.2.2.2.1.child halive.1
  | releasing =>
    rw [hp] at hh
    exact absurd hh.2 hended
  | returned =>
    rw [hp] at hh
    rcases hh.2 with ⟨-, -, he⟩ | ⟨-, -, hun, -⟩
    · exact absurd he hended
    · exact absurd hun.child halive.1
  | _ => rfl

/-- The processes are within the limit, and a session that has returned has none. -/
structure ProcessesBounded (srv : Server) (s : State) : Prop where
  finite : (among Alive s.members).Finite
  limit : (tally Alive s.members : Int) ≤ srv.maxSessions
  returned : ∀ i, (s.members i).handler = .returned → ¬ Alive (s.members i)

/-- **The session limit bounds the processes.** In every state of a server with a
limit, whatever the clients and the processes do, at most that many processes of
sessions were started and not reaped, and a session that has given its slot back has
no such process. -/
theorem processes_within_limit {srv : Server} (hpos : 0 < srv.maxSessions) {s : State}
    (hs : (system srv).Reach s) : ProcessesBounded srv s := by
  have hslots := SessionLimit.slotsExact_of_reach hpos (limiter_reach hs)
  have hinv := fun i => (Session.inv_stable (srv.config i)).reach (member_reach hs i)
  have hrun : ∀ i, Alive (s.members i) → phase (s.members i).handler = .running :=
    fun i halive => @running_of_alive (srv.config i) (s.member i) (hinv i) halive
  have hsub : among Alive s.members ⊆ among SessionLimit.Run.Admitted (limiter s).runs := by
    intro i hi
    show (phase (s.members i).handler).Admitted
    rw [hrun i hi]
    trivial
  have hfinite : (among SessionLimit.Run.Admitted (limiter s).runs).Finite := by
    refine hslots.finite.subset fun i hi hidle => ?_
    rw [among, Set.mem_ofPred_eq, hidle] at hi
    exact hi
  refine ⟨hfinite.subset hsub, ?_, fun i hret halive => ?_⟩
  · have hle : tally Alive s.members ≤ tally SessionLimit.Run.Admitted (limiter s).runs :=
      Set.ncard_le_ncard hsub hfinite
    have hadmitted := hslots.admitted
    omega
  · have hphase := hrun i halive
    rw [hret] at hphase
    cases hphase

/-- A server with a limit of one, and no terminals. -/
def oneSession : Server := ⟨1, fun _ => false, fun _ => ⟨80, 24⟩⟩

/-- The first session starts its process while the second is refused. -/
def startedRun : List (Nat × Session.Act) :=
  [(0, .handler true), (0, .handler true), (1, .handler true), (0, .handler true),
    (0, .cmd .start), (1, .handler true)]

theorem processes_within_limit_started : ∃ s, (system oneSession).Reach s ∧
    (s.members 0).cmd.child = .running ∧ (s.members 1).handler = .refusing ∧
    ProcessesBounded oneSession s := by
  obtain ⟨s, hs, h0, h1⟩ : ∃ s, (system oneSession).Reach s ∧
      (s.members 0).cmd.child = .running ∧ (s.members 1).handler = .refusing :=
    ⟨_, @System.reach_get _ _ (system oneSession) ⟨0, fun _ => Session.execStart⟩ startedRun
      ⟨rfl, fun _ => Session.initial_execStart⟩ rfl, rfl, rfl⟩
  exact ⟨s, hs, h0, h1, processes_within_limit (by decide) hs⟩

end WorkspaceProxy.SshServer.SessionFleet
