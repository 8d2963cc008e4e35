import WorkspaceProxy.SshServer.ForwardSafety

/-! # One request at a time

What a global request does to the table and to the listeners when its
goroutine runs alone from the request to the reply. A request can fail before
anything was done, in `net.Listen`, or after its listener was opened and
recorded, when the context has no connection. In the last case `closeForward`
rolls back by key, which is right because the insertion replaced nothing. -/
namespace WorkspaceProxy.SshServer.Forward
open WorkspaceProxy.Go WorkspaceProxy.Conc

/-- The listeners that are open. -/
def State.openListeners (s : State) : Set (Nat × Listener) := Sock.opened s.sockets

/-- An action of goroutine `t`. -/
def Act.Of (t : Nat) : Act → Prop
  | .request u _ _ | .listen u _ | .record u | .spawn u _ _ | .abort u | .wake u | .remove u
  | .close u | .accept u _ | .acceptFail u | .cleanup u => u = t
  | .endCtx _ => False

/-- Neither the table nor a listener has changed since `s`. -/
def Untouched (s s' : State) : Prop := s'.forwards = s.forwards ∧ s'.sockets = s.sockets

/-- One listener was opened since `s`. -/
def Bound (s s' : State) (l : Nat) : Prop :=
  l = s.sockets.length ∧ ∃ f : Listener, f.isOpen = true ∧ s'.sockets = s.sockets ++ [f]

/-- That listener was also recorded, under a key that was free. -/
def Recorded (s s' : State) (key : GoString) (l : Nat) : Prop :=
  s.forwards key = none ∧ s'.forwards = Function.update s.forwards key (some l) ∧ Bound s s' l

/-- The entry of `l` was taken out of the table since `s`. -/
def Taken (s s' : State) (key : GoString) (l : Nat) : Prop :=
  s.forwards key = some l ∧ s'.forwards = Function.update s.forwards key none

/-- What the goroutine that handles `req` has done since `s`, by where it is. -/
def Handling (s : State) (req : Request) (s' : State) : Proc → Prop
  | .rejected | .refused _ _ => Untouched s s'
  | .listening _ _ => req.type = requestTypeForward ∧ Untouched s s'
  | .recording _ _ l _ =>
    req.type = requestTypeForward ∧ s'.forwards = s.forwards ∧ Bound s s' l
  | .starting _ payload l p | .served _ payload l p =>
    req.type = requestTypeForward ∧ Recorded s s' (forwardKey payload.bindAddr p.val) l
  | .closing (.cancel _ _) _ => req.type = requestTypeCancelForward ∧ Untouched s s'
  | .closingListener (.cancel _ _) key l =>
    req.type = requestTypeCancelForward ∧ Taken s s' key l ∧ s'.sockets = s.sockets
  | .closed (.cancel _ _) _ none => Untouched s s'
  | .closed (.cancel _ _) key (some l) =>
    req.type = requestTypeCancelForward ∧ Taken s s' key l ∧ s'.sockets = Sock.shut s.sockets l
  | .closing (.abort _ _) key => ∃ l, Recorded s s' key l
  | .closingListener (.abort _ _) _ l => s'.forwards = s.forwards ∧ Bound s s' l
  | .closed (.abort _ _) _ _ =>
    s'.forwards = s.forwards ∧ s'.openListeners = s.openListeners
  | _ => False

theorem handling_request (W : World) (s : State) (t : Nat) (ctx : Context) (req : Request) :
    Handling s req (s.goto t (handleSSHRequest W newServer ctx req))
      (handleSSHRequest W newServer ctx req) := by
  unfold handleSSHRequest
  split
  · exact ⟨rfl, rfl⟩
  · split
    · split
      · exact ⟨‹_›, rfl, rfl⟩
      · exact ⟨rfl, rfl⟩
    · split
      · exact ⟨‹_›, rfl, rfl⟩
      · exact ⟨rfl, rfl⟩

/-- Closing the listener that was opened since `s` leaves those of `s`. -/
theorem Bound.opened_shut {s s' : State} {l : Nat} (h : Bound s s' l) :
    Sock.opened (Sock.shut s'.sockets l) = s.openListeners := by
  obtain ⟨rfl, f, ho, hs⟩ := h
  have hf : s'.sockets[s.sockets.length]? = some f := by simp [hs]
  rw [Sock.opened_shut hf, hs, Sock.opened_bind _ ho,
    Set.insert_sdiff_self_of_notMem (Sock.not_mem_opened_length _ f)]
  rfl

/-- `closeForward` finds its key, or does not. -/
theorem Handling.remove {W : World} {s u v : State} {req : Request} {t : Nat} {who : Caller}
    {key : GoString} (hp : u.procs t = .closing who key) (h : Handling s req u (.closing who key))
    (hst : Step W u (.remove t) v) : Handling s req v (v.procs t) := by
  cases who with
  | teardown ctx => exact h.elim
  | cancel ctx payload =>
    obtain ⟨hty, hf, hs⟩ := h
    cases hst with
    | removeNone hp' hn =>
      rw [hp] at hp'
      cases hp'
      rw [State.goto_procs, Function.update_self]
      exact ⟨hf, hs⟩
    | remove hp' hl =>
      rw [hp] at hp'
      cases hp'
      rw [State.take_procs, Function.update_self]
      have hupd : Function.update u.forwards key none = Function.update s.forwards key none := by
        rw [hf]
      exact ⟨hty, ⟨by rw [← hf]; exact hl, hupd⟩, hs⟩
  | abort ctx payload =>
    obtain ⟨l, hnone, hf, hb⟩ := h
    have hl : u.forwards key = some l := by rw [hf, Function.update_self]
    cases hst with
    | removeNone hp' hn =>
      rw [hp] at hp'
      cases hp'
      rw [hl] at hn
      cases hn
    | remove hp' hl' =>
      rw [hp] at hp'
      cases hp'
      rw [hl] at hl'
      cases hl'
      rw [State.take_procs, Function.update_self]
      -- the key was free before the insertion, so this removal undoes it
      refine ⟨?_, hb⟩
      show Function.update u.forwards key none = s.forwards
      rw [hf, Function.update_idem, ← hnone, Function.update_eq_self]

theorem Handling.close {s u : State} {req : Request} {t l : Nat} {who : Caller} {key : GoString}
    (h : Handling s req u (.closingListener who key l)) :
    Handling s req (u.close t who key l) (.closed who key (some l)) := by
  cases who with
  | teardown ctx => exact h.elim
  | cancel ctx payload =>
    obtain ⟨hty, htaken, hs⟩ := h
    exact ⟨hty, htaken, by rw [State.close_sockets, hs]⟩
  | abort ctx payload => exact ⟨h.1, h.2.opened_shut⟩

/-- One step of the goroutine that handles the request. -/
theorem Handling.step {W : World} {s u v : State} {req : Request} {t : Nat} {a : Act}
    (hi : Inv W u) (h : Handling s req u (u.procs t)) (ha : a.Of t) (hst : Step W u a v) :
    Handling s req v (v.procs t) := by
  cases hst with
  | request hp | wake hp | accept hp | acceptFail hp | cleanup hp =>
    cases ha
    rw [hp] at h
    exact h.elim
  | endCtx => exact ha.elim
  | listenFail hp =>
    cases ha
    rw [hp] at h
    rw [State.goto_procs, Function.update_self]
    exact h.2
  | listen hp ht hq hfree =>
    cases ha
    rw [hp] at h
    obtain ⟨hty, hf, hs⟩ := h
    rw [State.bound_procs, Function.update_self]
    exact ⟨hty, hf, by rw [hs], _, rfl, by rw [State.bound_sockets, hs]⟩
  | record hp =>
    cases ha
    have hnone := hi.insertFresh hp
    rw [hp] at h
    obtain ⟨hty, hf, hb⟩ := h
    rw [State.record_procs, Function.update_self]
    exact ⟨hty, hf ▸ hnone, congrArg (Function.update · _ _) hf, hb⟩
  | @spawn _ tw ta ctx payload l p hp hconn htw hta hne =>
    cases ha
    have htw' : t ≠ tw := by rintro rfl; rw [hp] at htw; cases htw
    have hta' : t ≠ ta := by rintro rfl; rw [hp] at hta; cases hta
    rw [hp] at h
    rw [State.spawn_procs, Function.update_of_ne hta', Function.update_of_ne htw',
      Function.update_self]
    exact h
  | abort hp hconn =>
    cases ha
    rw [hp] at h
    rw [State.goto_procs, Function.update_self]
    exact ⟨_, h.2⟩
  | removeNone hp hn =>
    cases ha
    rw [hp] at h
    exact h.remove (W := W) hp (.removeNone hp hn)
  | remove hp hl =>
    cases ha
    rw [hp] at h
    exact h.remove (W := W) hp (.remove hp hl)
  | close hp =>
    cases ha
    rw [hp] at h
    rw [State.close_procs, Function.update_self]
    exact h.close

/-- The run of the goroutine that handles the request. -/
theorem Handling.exec {W : World} {s u v : State} {req : Request} {t : Nat} {as : List Act}
    (hi : Inv W u) (h : Handling s req u (u.procs t)) (ha : ∀ a ∈ as, a.Of t)
    (he : (system W).exec u as = some v) : Handling s req v (v.procs t) := by
  induction as generalizing u with
  | nil => cases he; exact h
  | cons a as ih =>
    obtain ⟨w, hw, hrest⟩ := System.exec_cons he
    have hst := step_cases hw
    exact ih (hi.step hst) (h.step hi (ha a (by simp)) hst) (fun b hb => ha b (by simp [hb])) hrest

/-- What the reply to a request tells about the table and the listeners. -/
structure RequestEffect (s s' : State) (req : Request) (r : Reply) : Prop where
  refused : r.ok = false → s'.forwards = s.forwards ∧ s'.openListeners = s.openListeners
  forwarded : req.type = requestTypeForward → r.ok = true → ∃ key l f,
    s.forwards key = none ∧ s'.forwards = Function.update s.forwards key (some l) ∧
    (l, f) ∉ s.openListeners ∧ s'.openListeners = insert (l, f) s.openListeners
  cancelled : req.type = requestTypeCancelForward → r.ok = true → ∃ key l f,
    s.forwards key = some l ∧ s'.forwards = Function.update s.forwards key none ∧
    (l, f) ∈ s.openListeners ∧ s'.openListeners = s.openListeners \ {(l, f)}

theorem requestType_ne {req : Request} (h : req.type = requestTypeForward) :
    req.type ≠ requestTypeCancelForward := by
  rw [h]; decide

theorem Untouched.effect {s s' : State} {req : Request} {payload : ReplyPayload}
    (h : Untouched s s') : RequestEffect s s' req ⟨false, payload⟩ where
  refused _ := ⟨h.1, congrArg Sock.opened h.2⟩
  forwarded _ := nofun
  cancelled _ := nofun

theorem Recorded.effect {s s' : State} {req : Request} {payload : ReplyPayload} {key : GoString}
    {l : Nat} (hty : req.type = requestTypeForward) (h : Recorded s s' key l) :
    RequestEffect s s' req ⟨true, payload⟩ where
  refused := nofun
  forwarded _ _ := by
    obtain ⟨hnone, hf, rfl, f, ho, hs⟩ := h
    refine ⟨key, _, f, hnone, hf, Sock.not_mem_opened_length _ f, ?_⟩
    rw [State.openListeners, hs]
    exact Sock.opened_bind _ ho
  cancelled hc := absurd hc (requestType_ne hty)

theorem Taken.effect {W : World} {s s' : State} {req : Request} {payload : ReplyPayload}
    {key : GoString} {l : Nat} (hi : Inv W s) (hty : req.type = requestTypeCancelForward)
    (h : Taken s s' key l) (hs : s'.sockets = Sock.shut s.sockets l) :
    RequestEffect s s' req ⟨true, payload⟩ where
  refused := nofun
  forwarded hf := absurd hty (requestType_ne hf)
  cancelled _ _ := by
    obtain ⟨hl, hf⟩ := h
    obtain ⟨-, f, hsock, ho, -⟩ := hi.table key l hl
    refine ⟨key, l, f, hl, hf, ⟨hsock, ho⟩, ?_⟩
    rw [State.openListeners, hs]
    exact Sock.opened_shut hsock

/-- Where the goroutine has replied, the reply tells what it did. -/
theorem Handling.effect {W : World} {s s' : State} {req : Request} {p : Proc} {r : Reply}
    (hi : Inv W s) (h : Handling s req s' p) (hr : p.reply = some r) :
    RequestEffect s s' req r := by
  cases p with
  | rejected | refused =>
    cases hr
    exact Untouched.effect h
  | served ctx payload l p =>
    cases hr
    exact h.2.effect h.1
  | closed who key l =>
    cases who with
    | teardown ctx => cases hr
    | cancel ctx payload =>
      cases hr
      cases l with
      | none => exact Untouched.effect h
      | some l => exact h.2.1.effect hi h.1 h.2.2
    | abort ctx payload =>
      cases hr
      exact ⟨fun _ => h, fun _ => nofun, fun _ => nofun⟩
  | _ => cases hr

/-- **A request does what its reply says.** From every reachable state, when a
goroutine handles a request alone: a refusal changes neither the table nor the
open listeners, a forward adds one entry and its listener, and a cancel
removes one entry and closes its listener. -/
theorem request_effect {W : World} {s s' : State} (hs : (system W).Reach s) {t : Nat}
    {ctx : Context} {req : Request} {as : List Act} {r : Reply}
    (hrun : (system W).exec s (.request t ctx req :: as) = some s')
    (halone : ∀ a ∈ as, a.Of t) (hr : (s'.procs t).reply = some r) :
    RequestEffect s s' req r := by
  have hi := inv_of_reach hs
  obtain ⟨u, hu, hrest⟩ := System.exec_cons hrun
  have hst : Step W s (.request t ctx req) u := step_cases hu
  refine (Handling.exec (hi.step hst) ?_ halone hrest).effect hi hr
  cases hst with
  | request hp =>
    rw [State.goto_procs, Function.update_self]
    exact handling_request W s t ctx req

/-- The request of a connection that its context does not carry. -/
def orphanRequest : Request := ⟨requestTypeForward, wireMarshal ⟨bytes "::1", 8000⟩⟩

/-- Its goroutine opens and records a listener before it looks for the connection. -/
def rollbackRun : List Act :=
  [.listen 3 (some port8000), .record 3, .abort 3, .remove 3, .close 3]

/-- The rollback beside a forward that stays. -/
theorem request_effect_rollback : ∃ s s' : State, (system wireWorld).Reach s ∧
    (system wireWorld).exec s (.request 3 ⟨1, false⟩ orphanRequest :: rollbackRun) = some s' ∧
    s.forwards (forwardKey (bytes "localhost") 8000) = some 0 ∧ s'.sockets.length = 2 ∧
    s'.forwards = s.forwards ∧ s'.openListeners = s.openListeners :=
  have hr := System.reach_get (system wireWorld) (openRun 0 1 (bytes "localhost")) rfl rfl
  have halone : ∀ a ∈ rollbackRun, a.Of 3 := by simp [rollbackRun, Act.Of]
  have heff := @request_effect wireWorld _ _ hr 3 ⟨1, false⟩ orphanRequest rollbackRun
    ⟨false, .nil⟩ rfl halone rfl
  ⟨_, _, hr, rfl, rfl, rfl, heff.refused rfl⟩

end WorkspaceProxy.SshServer.Forward
