import WorkspaceProxy.SshServer.ForwardOrphans

/-! # What the end of a connection closes

The goroutine that `startForward` spawns for a connection remembers the key
and not the listener, and it outlives a cancel. So it closes whatever is under
the key when the context ends. It closes only listeners of its own connection
exactly as long as no forward is recorded under a key on which a goroutine of
another connection is still waiting. -/
namespace WorkspaceProxy.SshServer.Forward
open WorkspaceProxy.Go WorkspaceProxy.Conc

/-- The goroutines that end with a connection's context close only listeners
that this connection's requests opened. -/
def TeardownIsolated (s : State) : Prop :=
  ∀ t ctx l f, Closes s t (.teardown ctx) l → s.sockets[l]? = some f → f.tag.ctx.conn = ctx.conn

/-- The goroutine closes `key` at the end of connection `c`, or is about to
spawn one that does. -/
def Proc.TearsDown (c : Nat) (key : GoString) : Proc → Prop
  | .starting ctx payload _ p =>
      forwardKey payload.bindAddr p.val = key ∧ ctx.conn = c ∧ ctx.hasConn = true
  | .watching ctx k | .closing (.teardown ctx) k => k = key ∧ ctx.conn = c
  | _ => False

/-- Where a forward is recorded, no other connection waits on its key. -/
def NoStaleWatch (s : State) : Act → Prop
  | .record t => ∀ ctx payload l p, s.procs t = .recording ctx payload l p →
      ∀ u c, (s.procs u).TearsDown c (forwardKey payload.bindAddr p.val) → c = ctx.conn
  | _ => True

/-- Only the owner of a table entry waits on its key. -/
def OwnWatch (s : State) : Prop :=
  ∀ key l f, s.forwards key = some l → s.sockets[l]? = some f →
    ∀ u c, (s.procs u).TearsDown c key → c = f.tag.ctx.conn

theorem OwnWatch.move {s s' : State} {t : Nat} {p : Proc} (h : OwnWatch s)
    (hf : ∀ k l, s'.forwards k = some l → s.forwards k = some l)
    (hsock : ∀ k l f, s'.forwards k = some l → s'.sockets[l]? = some f →
      ∃ g, s.sockets[l]? = some g ∧ g.tag = f.tag)
    (hp : s'.procs = Function.update s.procs t p)
    (hkeep : ∀ c k, p.TearsDown c k → (s.procs t).TearsDown c k) : OwnWatch s' := by
  intro k l f hk hl u c hu
  obtain ⟨g, hg, htag⟩ := hsock k l f hk hl
  rw [← htag]
  refine h k l g (hf k l hk) hg u c ?_
  rw [hp] at hu
  by_cases hut : u = t
  · subst hut; rw [Function.update_self] at hu; exact hkeep c k hu
  · rw [Function.update_of_ne hut] at hu; exact hu

theorem OwnWatch.goto {s : State} {t : Nat} {p : Proc} (h : OwnWatch s)
    (hkeep : ∀ c k, p.TearsDown c k → (s.procs t).TearsDown c k) : OwnWatch (s.goto t p) :=
  h.move (fun _ _ h => h) (fun _ _ f _ hf => ⟨f, hf, rfl⟩) rfl hkeep

theorem handleSSHRequest_not_tearsDown (W : World) (ctx : Context) (req : Request) (c : Nat)
    (k : GoString) : ¬ (handleSSHRequest W newServer ctx req).TearsDown c k := by
  unfold handleSSHRequest
  split
  · exact id
  · split
    · split <;> exact id
    · split <;> exact id

theorem OwnWatch.record {W : World} {s : State} (hi : Inv W s) (h : OwnWatch s) {t : Nat}
    {ctx : Context} {payload : RemoteForwardRequest} {l : Nat} {p : BoundPort}
    (hp : s.procs t = .recording ctx payload l p) (hc : NoStaleWatch s (.record t)) :
    OwnWatch (s.record t ctx payload l p) := by
  obtain ⟨-, f, hf, -, -, hctx, -, -⟩ := hi.procAt hp
  intro k i g hk hg u c hu
  simp only [State.record_forwards, Function.update_apply] at hk
  rw [State.record_procs] at hu
  by_cases hut : u = t
  · -- the goroutine that records waits on its own key
    subst hut
    rw [Function.update_self] at hu
    obtain ⟨rfl, rfl, -⟩ := hu
    rw [if_pos rfl] at hk
    cases hk
    rw [State.record_sockets, hf] at hg
    rw [← Option.some.inj hg, hctx]
  · rw [Function.update_of_ne hut] at hu
    split at hk
    · rename_i hkey
      cases hk
      rw [State.record_sockets, hf] at hg
      rw [← Option.some.inj hg, hctx]
      exact hc ctx payload l p hp u c (hkey ▸ hu)
    · exact h k i g hk hg u c hu

theorem OwnWatch.spawn {s : State} (h : OwnWatch s) {t tw ta : Nat} {ctx : Context}
    {payload : RemoteForwardRequest} {l : Nat} {p : BoundPort}
    (hp : s.procs t = .starting ctx payload l p) (hconn : ctx.hasConn = true) :
    OwnWatch (s.spawn t tw ta ctx payload l p) := by
  intro k i f hk hf u c hu
  simp only [State.spawn_procs, Function.update_apply] at hu
  split at hu
  · exact hu.elim
  · split at hu
    · refine h k i f hk hf t c ?_
      rw [hp]
      exact ⟨hu.1, hu.2, hconn⟩
    · split at hu
      · exact hu.elim
      · exact h k i f hk hf u c hu

theorem OwnWatch.step {W : World} {s s' : State} {a : Act} (hi : Inv W s) (h : OwnWatch s)
    (hc : NoStaleWatch s a) (hst : Step W s a s') : OwnWatch s' := by
  cases hst with
  | request hp =>
    exact h.goto fun c k hk => absurd hk (handleSSHRequest_not_tearsDown W _ _ c k)
  | listenFail hp => exact h.goto fun c k hk => hk.elim
  | listen hp ht hq hfree =>
    exact h.move (fun _ _ h => h) (fun _ _ _ => hi.tag_before_bound) rfl fun c k hk => hk.elim
  | record hp => exact h.record hi hp hc
  | spawn hp hconn htw hta hne => exact h.spawn hp hconn
  | abort hp hconn => exact h.goto fun c k hk => hk.elim
  | endCtx => exact h
  | wake hp hd => exact h.goto fun c k hk => by rw [hp]; exact hk
  | removeNone hp hn => exact h.goto fun c k hk => hk.elim
  | remove hp hl =>
    exact h.move (fun _ _ h => (take_forwards h).1) (fun _ _ f _ hf => ⟨f, hf, rfl⟩) rfl
      fun c k hk => hk.elim
  | close hp =>
    exact h.move (fun _ _ h => h) (fun _ _ _ _ => tag_before_close) rfl fun c k hk => hk.elim
  | accept hp hf ho => exact h
  | acceptFail hp => exact h.goto fun c k hk => hk.elim
  | cleanup hp =>
    exact h.move (fun _ _ h => cleanup_forwards h) (fun _ _ f _ hf => ⟨f, hf, rfl⟩) rfl
      fun c k hk => hk.elim

/-! ## What a goroutine closes was under its key -/

theorem closes_goto {s : State} {t u : Nat} {p : Proc} {who : Caller} {l : Nat}
    (h : Closes (s.goto t p) u who l) :
    (u = t ∧ ∃ key, p = .closingListener who key l ∨ p = .closed who key (some l)) ∨
      Closes s u who l := by
  obtain ⟨key, hu⟩ := h
  by_cases hut : u = t
  · subst hut
    rw [State.goto_procs, Function.update_self] at hu
    exact Or.inl ⟨rfl, key, hu⟩
  · rw [State.goto_procs, Function.update_of_ne hut] at hu
    exact Or.inr ⟨key, hu⟩

theorem not_closes_update {s : State} {t u : Nat} {p : Proc} {who : Caller} {l : Nat}
    (h : Closes (s.goto t p) u who l)
    (hp : ∀ key, p ≠ .closingListener who key l ∧ p ≠ .closed who key (some l)) :
    Closes s u who l := by
  rcases closes_goto h with ⟨-, key, hu | hu⟩ | h
  · exact absurd hu (hp key).1
  · exact absurd hu (hp key).2
  · exact h

theorem handleSSHRequest_not_closing (W : World) (ctx : Context) (req : Request) (who : Caller)
    (l : Nat) (key : GoString) :
    handleSSHRequest W newServer ctx req ≠ .closingListener who key l ∧
      handleSSHRequest W newServer ctx req ≠ .closed who key (some l) := by
  unfold handleSSHRequest
  split
  · exact ⟨nofun, nofun⟩
  · split
    · split <;> exact ⟨nofun, nofun⟩
    · split <;> exact ⟨nofun, nofun⟩

/-- A goroutine closes what it closed before, or what is now under its key. -/
theorem closes_cases {W : World} {s s' : State} {a : Act} (hst : Step W s a s') {u : Nat}
    {who : Caller} {l : Nat} (h : Closes s' u who l) :
    Closes s u who l ∨ ∃ key, s.procs u = .closing who key ∧ s.forwards key = some l := by
  cases hst with
  | request hp =>
    exact Or.inl (not_closes_update h fun key => handleSSHRequest_not_closing W _ _ who l key)
  | listenFail hp => exact Or.inl (not_closes_update h fun key => ⟨nofun, nofun⟩)
  | listen hp ht hq hfree =>
    exact Or.inl (not_closes_update (s := s) h fun key => ⟨nofun, nofun⟩)
  | record hp => exact Or.inl (not_closes_update (s := s) h fun key => ⟨nofun, nofun⟩)
  | @spawn t tw ta ctx payload i p hp hconn htw hta hne =>
    have h1 := not_closes_update (s := (s.goto t (.served ctx payload i p)).goto tw
      (.watching ctx (forwardKey payload.bindAddr p.val))) h fun key => ⟨nofun, nofun⟩
    have h2 := not_closes_update h1 fun key => ⟨nofun, nofun⟩
    exact Or.inl (not_closes_update h2 fun key => ⟨nofun, nofun⟩)
  | abort hp hconn => exact Or.inl (not_closes_update h fun key => ⟨nofun, nofun⟩)
  | endCtx => exact Or.inl h
  | wake hp hd => exact Or.inl (not_closes_update h fun key => ⟨nofun, nofun⟩)
  | removeNone hp hn => exact Or.inl (not_closes_update h fun key => ⟨nofun, nofun⟩)
  | @remove t who' key i hp hl =>
    rcases closes_goto (s := s) h with ⟨rfl, key', hu | hu⟩ | h
    · cases hu; exact Or.inr ⟨key, hp, hl⟩
    · cases hu
    · exact Or.inl h
  | @close t who' key i hp =>
    rcases closes_goto (s := s) h with ⟨rfl, key', hu | hu⟩ | h
    · cases hu
    · cases hu; exact Or.inl ⟨key, Or.inl hp⟩
    · exact Or.inl h
  | accept hp hf ho => exact Or.inl h
  | acceptFail hp => exact Or.inl (not_closes_update h fun key => ⟨nofun, nofun⟩)
  | cleanup hp => exact Or.inl (not_closes_update (s := s) h fun key => ⟨nofun, nofun⟩)

/-- A listener keeps what it was opened for. -/
theorem socket_back {W : World} {s s' : State} {a : Act} (hst : Step W s a s') {l : Nat}
    {f g : Listener} (hg : s.sockets[l]? = some g) (hf : s'.sockets[l]? = some f) :
    f.tag = g.tag := by
  cases hst with
  | listen hp ht hq hfree =>
    rcases Sock.getElem?_bind.mp hf with hf | ⟨rfl, -⟩
    · rw [hg] at hf; rw [Option.some.inj hf]
    · rw [List.getElem?_eq_none (Nat.le_refl _)] at hg; cases hg
  | close hp =>
    obtain ⟨f', hf', rfl⟩ := Sock.getElem?_shut.mp hf
    rw [hg] at hf'
    rw [Option.some.inj hf']
    split <;> rfl
  | _ => rw [show s.sockets[l]? = some f from hf] at hg; rw [Option.some.inj hg]

theorem Inv.closes_socket {W : World} {s : State} (hi : Inv W s) {t l : Nat} {who : Caller}
    (h : Closes s t who l) : ∃ f, s.sockets[l]? = some f := by
  obtain ⟨key, hp | hp⟩ := h
  · obtain ⟨-, -, ⟨f, hf, -⟩, -⟩ := hi.procAt hp
    exact ⟨f, hf⟩
  · obtain ⟨-, h⟩ := hi.procAt hp
    obtain ⟨-, f, hf, -⟩ := h l rfl
    exact ⟨f, hf⟩

theorem TeardownIsolated.step {W : World} {s s' : State} {a : Act} (hi : Inv W s)
    (hw : OwnWatch s) (h : TeardownIsolated s) (hst : Step W s a s') : TeardownIsolated s' := by
  intro t ctx l f hcl hf
  rcases closes_cases hst hcl with hcl | ⟨key, hp, hl⟩
  · obtain ⟨g, hg⟩ := hi.closes_socket hcl
    rw [socket_back hst hg hf]
    exact h t ctx l g hcl hg
  · obtain ⟨-, g, hg, -, -⟩ := hi.table key l hl
    rw [socket_back hst hg hf]
    exact (hw key l g hl hg t ctx.conn (by rw [hp]; exact ⟨rfl, rfl⟩)).symm

/-! ## The first stale watch is enough -/

/-- A goroutine of connection `c` that waits on the key of another
connection's listener can go on to close it. -/
theorem stale_watch_closes {W : World} {s : State} (hs : (system W).Reach s) {u l c : Nat}
    {key : GoString} {f : Listener} (hl : s.forwards key = some l) (hf : s.sockets[l]? = some f)
    (hu : (s.procs u).TearsDown c key) (hne : c ≠ f.tag.ctx.conn) :
    ∃ as s', (system W).exec s as = some s' ∧ ¬ TeardownIsolated s' := by
  -- once it stands before the critical section, the removal is the violation
  have hclose : ∀ (v : State) (t : Nat) (ctx : Context), v.procs t = .closing (.teardown ctx) key →
      ctx.conn = c → v.forwards key = some l → v.sockets = s.sockets →
      ∃ s', (system W).exec v [.remove t] = some s' ∧ ¬ TeardownIsolated s' := by
    intro v t ctx hp hc hl' hsock
    refine ⟨v.take t (.teardown ctx) key l, ?_, fun h => ?_⟩
    · simp [System.exec, system, Forward.step, hp, hl']
    · have := h t ctx l f ⟨key, Or.inl (by simp)⟩ (by rw [State.take_sockets, hsock]; exact hf)
      exact hne (by rw [this]; exact hc.symm)
  have hwatch : ∀ (v : State) (t : Nat) (ctx : Context), v.procs t = .watching ctx key →
      ctx.conn = c → v.forwards key = some l → v.sockets = s.sockets →
      ∃ s', (system W).exec v [.endCtx c, .wake t, .remove t] = some s' ∧
        ¬ TeardownIsolated s' := by
    intro v t ctx hp hc hl' hsock
    obtain ⟨s', he, hn⟩ := hclose ((v.endCtx c).goto t (.closing (.teardown ctx) key)) t ctx
      (by simp) hc hl' hsock
    refine ⟨s', ?_, hn⟩
    rw [← he]
    simp [System.exec, system, Forward.step, hp, hc]
  cases hp : s.procs u with
  | starting ctx payload i p =>
    rw [hp] at hu
    obtain ⟨hkey, hc, hconn⟩ := hu
    obtain ⟨n, hn⟩ := bounded_of_reach hs
    obtain ⟨s', he, hn'⟩ := hwatch (s.spawn u n (n + 1) ctx payload i p) n ctx
      (by simp [hkey]) hc hl rfl
    refine ⟨[.spawn u n (n + 1), .endCtx c, .wake n, .remove n], s', ?_, hn'⟩
    rw [← he]
    have hsp : (system W).step s (.spawn u n (n + 1)) =
        some (s.spawn u n (n + 1) ctx payload i p) := by
      simp [system, Forward.step, hp, hconn, hn n (Nat.le_refl n), hn (n + 1) (by omega)]
    rw [System.exec, hsp, Option.bind_some]
  | watching ctx k =>
    rw [hp] at hu
    obtain ⟨rfl, hc⟩ := hu
    obtain ⟨s', he, hn⟩ := hwatch s u ctx hp hc hl rfl
    exact ⟨_, s', he, hn⟩
  | closing who k =>
    cases who with
    | teardown ctx =>
      rw [hp] at hu
      obtain ⟨rfl, hc⟩ := hu
      obtain ⟨s', he, hn⟩ := hclose s u ctx hp hc hl rfl
      exact ⟨_, s', he, hn⟩
    | _ => rw [hp] at hu; exact hu.elim
  | _ => rw [hp] at hu; exact hu.elim

/-- Connection 1 opens a forward and cancels it, connection 2 opens one on the
same address and port, and then connection 1 ends: its goroutine closes the
listener of connection 2. -/
theorem teardown_closes_foreign_listener :
    ¬ ∀ s, (system wireWorld).Reach s → TeardownIsolated s := by
  intro h
  have hr := System.reach_get (system wireWorld)
    (openRun 0 1 loopbackIPv4 ++ cancelRun 3 1 loopbackIPv4 ++ openRun 4 2 loopbackIPv4 ++
      [.endCtx 1, .wake 1, .remove 1, .close 1]) rfl (by decide)
  have hiso := h _ hr 1 ⟨1, true⟩ 1
    ⟨(wireWorld.resolve loopbackIPv4, 8000), false, ⟨4, ⟨2, true⟩, ⟨loopbackIPv4, 8000⟩, loopbackIPv4⟩⟩
    ⟨forwardKey loopbackIPv4 8000, by decide⟩ (by decide)
  exact absurd hiso (by decide)

/-- **A teardown is isolated as long as no forward is recorded under a key on
which another connection still waits.** In every run whose insertions all meet
this, the goroutines of a connection close only its own listeners, in every
state; and after the first insertion that does not meet it, some continuation
closes another connection's listener. -/
theorem teardown_isolated_of_noStaleWatch (W : World) :
    (∀ s, (system W).ReachOn NoStaleWatch s → TeardownIsolated s) ∧
    (∀ s a s', (system W).Reach s → (system W).step s a = some s' → ¬ NoStaleWatch s a →
      ∃ as s'', (system W).exec s' as = some s'' ∧ ¬ TeardownIsolated s'') := by
  constructor
  · intro s hs
    have hboth : OwnWatch s ∧ TeardownIsolated s := by
      refine hs.invariant (I := fun s => OwnWatch s ∧ TeardownIsolated s)
        (fun _ => (inv_stable W).reach) ?_ ?_
      · rintro s rfl
        refine ⟨fun k l f hk => (by cases hk), fun t ctx l f hcl => ?_⟩
        obtain ⟨key, h | h⟩ := hcl <;> cases h
      · intro s a t hi h hc hst
        have hst := step_cases hst
        exact ⟨h.1.step hi hc hst, h.2.step hi h.1 hst⟩
    exact hboth.2
  · intro s a s' hs hst hc
    have hs' := hs.step hst
    cases step_cases hst with
    | @record t ctx payload l p hp =>
      simp only [NoStaleWatch, not_forall] at hc
      obtain ⟨ctx', payload', l', p', hp', u, c, hu, hne⟩ := hc
      rw [hp] at hp'
      cases hp'
      obtain ⟨-, f, hf, -, -, hctx, -, -⟩ := (inv_of_reach hs).procAt hp
      have hut : u ≠ t := by rintro rfl; rw [hp] at hu; exact hu
      have hl : (s.record t ctx payload l p).forwards (forwardKey payload.bindAddr p.val) =
          some l := by simp
      have hu' : ((s.record t ctx payload l p).procs u).TearsDown c
          (forwardKey payload.bindAddr p.val) := by
        rw [State.record_procs, Function.update_of_ne hut]; exact hu
      exact stale_watch_closes hs' hl hf hu' (by rw [hctx]; exact hne)
    | _ => exact absurd trivial hc

/-- Connection 1 opens a forward and ends: its goroutine closes its listener. -/
theorem teardown_isolated_own_listener : ∃ s, (system wireWorld).ReachOn NoStaleWatch s ∧
    Closes s 1 (.teardown ⟨1, true⟩) 0 ∧ TeardownIsolated s := by
  obtain ⟨s, hr, hp, hidle⟩ : ∃ s, (system wireWorld).ReachOn NoStaleWatch s ∧
      s.procs 0 = .recording ⟨1, true⟩ ⟨loopbackIPv4, 8000⟩ 0 port8000 ∧
      ∀ u, u ≠ 0 → s.procs u = .idle :=
    ⟨_, System.reachOn_get (system wireWorld) ((openRun 0 1 loopbackIPv4).take 2) rfl
      (.of_forall (by simp [openRun, NoStaleWatch]) _) (by decide), by decide,
      fun u hu => (Function.update_of_ne hu _ _).trans (Function.update_of_ne hu _ _)⟩
  have hc : NoStaleWatch s (.record 0) := by
    intro ctx payload l p _ u c hu
    by_cases h0 : u = 0
    · rw [h0, hp] at hu; exact hu.elim
    · rw [hidle u h0] at hu; exact hu.elim
  have hst : (system wireWorld).step s (.record 0) =
      some (s.record 0 ⟨1, true⟩ ⟨loopbackIPv4, 8000⟩ 0 port8000) := by
    simp only [system, step, hp]
  obtain ⟨s', he, hp'⟩ : ∃ s', (system wireWorld).exec
      (s.record 0 ⟨1, true⟩ ⟨loopbackIPv4, 8000⟩ 0 port8000)
      [.spawn 0 1 2, .endCtx 1, .wake 1, .remove 1] = some s' ∧
      s'.procs 1 = .closingListener (.teardown ⟨1, true⟩) (forwardKey loopbackIPv4 8000) 0 := by
    simp [System.exec, system, step, hidle, port8000]
  have hon := (hr.step hc hst).exec (.of_forall (by simp [NoStaleWatch]) _) he
  exact ⟨s', hon, ⟨_, Or.inl hp'⟩, (teardown_isolated_of_noStaleWatch wireWorld).1 s' hon⟩

end WorkspaceProxy.SshServer.Forward
