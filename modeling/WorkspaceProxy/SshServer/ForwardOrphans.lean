import WorkspaceProxy.SshServer.ForwardClosing

/-! # Listeners that nobody can close any more

Removal from the table and closing happen in different places: `closeForward`
does both, the deferred cleanup of `acceptLoop` only removes. A listener that
is open and recorded stays reachable through its entry exactly as long as no
cleanup finds its own listener in the table, which happens when `Accept` fails
on a listener that nobody has closed. -/
namespace WorkspaceProxy.SshServer.Forward
open WorkspaceProxy.Go WorkspaceProxy.Conc

/-- Every recorded listener that is still open is in the table under its key,
or `closeForward` took it out and is about to close it. -/
def NoOrphan (s : State) : Prop :=
  ∀ (l : Nat) f, s.sockets[l]? = some f → l ∈ s.recorded → f.isOpen = true →
    s.forwards (keyOf f) = some l ∨ ∃ t who key, s.procs t = .closingListener who key l

/-- A cleanup does not find its own listener in the table. -/
def CleanupMisses (s : State) : Act → Prop
  | .cleanup t => ∀ l key, s.procs t = .cleaning l key → s.forwards key ≠ some l
  | _ => True

/-! ## The owner's goroutine stays on watch -/

/-- The goroutine will run `closeForward(key)` for connection `c`: it serves
the request of listener `l`, or waits for the context, or is about to close. -/
def Proc.Attends (c l : Nat) (key : GoString) : Proc → Prop
  | .starting ctx _ i _ => i = l ∧ ctx.conn = c
  | .watching ctx k | .closing (.teardown ctx) k | .closing (.abort ctx _) k =>
      k = key ∧ ctx.conn = c
  | _ => False

theorem attends_closing {who : Caller} {key k : GoString} {c l : Nat}
    (h : (Proc.closing who key).Attends c l k) : key = k := by
  cases who with
  | cancel => exact h.elim
  | teardown => exact h.1
  | abort => exact h.1

/-- Every table entry has a goroutine of its listener's connection. -/
def Attended (s : State) : Prop :=
  ∀ key l f, s.forwards key = some l → s.sockets[l]? = some f →
    ∃ t, (s.procs t).Attends f.tag.ctx.conn l key

theorem Attended.move {s s' : State} {t : Nat} {p : Proc} (h : Attended s)
    (hf : ∀ k l, s'.forwards k = some l → s.forwards k = some l)
    (hsock : ∀ k l f, s'.forwards k = some l → s'.sockets[l]? = some f →
      ∃ g, s.sockets[l]? = some g ∧ g.tag = f.tag)
    (hp : s'.procs = Function.update s.procs t p)
    (hkeep : ∀ c l k, s'.forwards k = some l → (s.procs t).Attends c l k → p.Attends c l k) :
    Attended s' := by
  intro k l f hk hl
  obtain ⟨g, hg, htag⟩ := hsock k l f hk hl
  obtain ⟨u, hu⟩ := h k l g (hf k l hk) hg
  rw [htag] at hu
  refine ⟨u, ?_⟩
  rw [hp]
  by_cases hut : u = t
  · subst hut; rw [Function.update_self]; exact hkeep _ _ _ hk hu
  · rw [Function.update_of_ne hut]; exact hu

theorem Attended.goto {s : State} {t : Nat} {p : Proc} (h : Attended s)
    (hkeep : ∀ c l k, s.forwards k = some l → (s.procs t).Attends c l k → p.Attends c l k) :
    Attended (s.goto t p) :=
  h.move (fun _ _ h => h) (fun _ _ f _ hf => ⟨f, hf, rfl⟩) rfl hkeep

/-- A goroutine that attends to nothing may move anywhere. -/
theorem not_attends {q p : Proc} {s : State} {t : Nat} (hp : s.procs t = q)
    (hq : ∀ c l k, ¬ q.Attends c l k) (c l : Nat) (k : GoString)
    (h : (s.procs t).Attends c l k) : p.Attends c l k :=
  absurd (hp ▸ h) (hq c l k)

theorem Attended.record {W : World} {s : State} (hi : Inv W s) (h : Attended s) {t : Nat}
    {ctx : Context} {payload : RemoteForwardRequest} {l : Nat} {p : BoundPort}
    (hp : s.procs t = .recording ctx payload l p) : Attended (s.record t ctx payload l p) := by
  obtain ⟨-, f, hf, -, -, hc, -, -⟩ := hi.procAt hp
  intro k i g hk hg
  simp only [State.record_forwards, Function.update_apply] at hk
  simp only [State.record_procs]
  split at hk
  · cases hk
    refine ⟨t, ?_⟩
    rw [Function.update_self]
    rw [State.record_sockets, hf] at hg
    exact ⟨rfl, by rw [← Option.some.inj hg, hc]⟩
  · obtain ⟨u, hu⟩ := h k i g hk hg
    refine ⟨u, ?_⟩
    rw [Function.update_of_ne]
    · exact hu
    · rintro rfl; rw [hp] at hu; exact hu

theorem Attended.spawn {W : World} {s : State} (hi : Inv W s) (h : Attended s)
    {t tw ta : Nat} {ctx : Context} {payload : RemoteForwardRequest} {l : Nat} {p : BoundPort}
    (hp : s.procs t = .starting ctx payload l p) (htw : s.procs tw = .idle)
    (hta : s.procs ta = .idle) (hne : tw ≠ ta) :
    Attended (s.spawn t tw ta ctx payload l p) := by
  obtain ⟨-, f, hf, hc, hpay, ha⟩ := hi.procAt hp
  intro k i g hk hg
  obtain ⟨u, hu⟩ := h k i g hk hg
  have huw : u ≠ tw := by rintro rfl; rw [htw] at hu; exact hu
  have hua : u ≠ ta := by rintro rfl; rw [hta] at hu; exact hu
  by_cases hut : u = t
  · -- the new goroutine takes over
    subst hut
    rw [hp] at hu
    obtain ⟨rfl, hconn⟩ := hu
    refine ⟨tw, ?_⟩
    obtain ⟨-, g', hg', -, hkey⟩ := hi.table k l hk
    rw [hf] at hg'
    rw [State.spawn_procs, Function.update_of_ne hne, Function.update_self]
    refine ⟨?_, hconn⟩
    rw [← hkey, ← Option.some.inj hg', keyOf, hpay, ha]
  · refine ⟨u, ?_⟩
    rw [State.spawn_procs, Function.update_of_ne hua, Function.update_of_ne huw,
      Function.update_of_ne hut]
    exact hu

theorem Attended.step {W : World} {s s' : State} {a : Act} (hi : Inv W s) (h : Attended s)
    (hst : Step W s a s') : Attended s' := by
  cases hst with
  | request hp => exact h.goto fun c l k _ => not_attends hp (fun _ _ _ => id) c l k
  | listenFail hp => exact h.goto fun c l k _ => not_attends hp (fun _ _ _ => id) c l k
  | listen hp ht hq hfree =>
    exact h.move (fun _ _ h => h) (fun _ _ _ => hi.tag_before_bound) rfl
      fun c l k _ => not_attends hp (fun _ _ _ => id) c l k
  | record hp => exact h.record hi hp
  | spawn hp hc htw hta hne => exact h.spawn hi hp htw hta hne
  | @abort t ctx payload l p hp hc =>
    refine h.goto fun c i k hk ha => ?_
    rw [hp] at ha
    obtain ⟨rfl, hconn⟩ := ha
    obtain ⟨-, f, hf, -, hpay, hport⟩ := hi.procAt hp
    obtain ⟨-, g, hg, -, hkey⟩ := hi.table k l hk
    rw [hf] at hg
    exact ⟨by rw [← hkey, ← Option.some.inj hg, keyOf, hpay, hport], hconn⟩
  | endCtx => exact h
  | wake hp hd => exact h.goto fun c l k _ ha => by rw [hp] at ha; exact ha
  | @removeNone t who key hp hn =>
    refine h.goto fun c l k hk ha => ?_
    rw [hp] at ha
    rw [← attends_closing ha, hn] at hk; cases hk
  | @remove t who key l hp hl =>
    refine h.move (fun _ _ h => (take_forwards h).1) (fun _ _ f _ hf => ⟨f, hf, rfl⟩) rfl
      fun c i k hk ha => ?_
    rw [hp] at ha
    exact absurd (attends_closing ha).symm (take_forwards hk).2
  | close hp =>
    exact h.move (fun _ _ h => h) (fun _ _ _ _ => tag_before_close) rfl
      fun c l k _ => not_attends hp (fun _ _ _ => id) c l k
  | accept hp hf ho => exact h
  | acceptFail hp => exact h.goto fun c l k _ => not_attends hp (fun _ _ _ => id) c l k
  | cleanup hp =>
    exact h.move (fun _ _ h => cleanup_forwards h) (fun _ _ f _ hf => ⟨f, hf, rfl⟩) rfl
      fun c l k _ => not_attends hp (fun _ _ _ => id) c l k

theorem attended_of_reach {W : World} {s : State} (hs : (system W).Reach s) : Attended s := by
  have hst : (system W).Stable fun s => Inv W s ∧ Attended s := by
    refine ⟨?_, fun s a t h ht => ?_⟩
    · rintro s rfl
      exact ⟨inv_initial W, fun k l f hk => by cases hk⟩
    · exact ⟨h.1.step (step_cases ht), h.2.step h.1 (step_cases ht)⟩
  exact (hst.reach hs).2

/-- Only finitely many goroutines have been used. -/
def Bounded (s : State) : Prop := ∃ n, ∀ t, n ≤ t → s.procs t = .idle

theorem Bounded.update {s s' : State} {u : Nat} {p : Proc} (h : Bounded s)
    (hp : s'.procs = Function.update s.procs u p) : Bounded s' := by
  obtain ⟨n, hn⟩ := h
  refine ⟨max n (u + 1), fun t ht => ?_⟩
  rw [hp, Function.update_of_ne (by omega)]
  exact hn t (by omega)

theorem bounded_of_reach {W : World} {s : State} (hs : (system W).Reach s) : Bounded s := by
  have hst : (system W).Stable Bounded := by
    refine ⟨fun s h => ⟨0, fun t _ => by rw [h]; rfl⟩, fun s a t h ht => ?_⟩
    cases step_cases ht with
    | endCtx => exact h
    | accept hp hf ho => exact h
    | @spawn t tw ta ctx payload l p hp hc htw hta hne =>
      have h1 : Bounded (s.goto t (.served ctx payload l p)) := h.update rfl
      have h2 : Bounded ((s.goto t (.served ctx payload l p)).goto tw
          (.watching ctx (forwardKey payload.bindAddr p.val))) := h1.update rfl
      exact h2.update rfl
    | request hp => exact h.update rfl
    | listenFail hp => exact h.update rfl
    | listen hp ht hq hfree => exact h.update rfl
    | record hp => exact h.update rfl
    | abort hp hc => exact h.update rfl
    | wake hp hd => exact h.update rfl
    | removeNone hp hn => exact h.update rfl
    | remove hp hl => exact h.update rfl
    | close hp => exact h.update rfl
    | acceptFail hp => exact h.update rfl
    | cleanup hp => exact h.update rfl
  exact hst.reach hs

/-! ## Closing a listener that is in the table -/

/-- Listener `l` is closed. -/
def Shut (s : State) (l : Nat) : Prop := ∃ f, s.sockets[l]? = some f ∧ f.isOpen = false

/-- The actions of a teardown: no client sends anything for them. -/
def Act.isTeardown : Act → Bool
  | .spawn _ _ _ | .abort _ | .wake _ | .remove _ | .close _ => true
  | _ => false

/-- Teardown actions alone can close listener `l`. -/
def TeardownCloses (W : World) (s : State) (l : Nat) : Prop :=
  ∃ as s', (∀ a ∈ as, Act.isTeardown a = true) ∧ (system W).exec s as = some s' ∧ Shut s' l

/-- A cancel of the pair, and the end of the owning connection's context, each
lead to the close of listener `l`. -/
structure Closable (W : World) (s : State) (l : Nat) (f : Listener) : Prop where
  cancel : ∀ t ctx req, s.procs t = .idle → req.type = requestTypeCancelForward →
    W.unmarshal req.payload = some ⟨f.tag.payload.bindAddr, UInt32.ofNat f.addr.2⟩ →
    ∃ s', (system W).exec s [.request t ctx req, .remove t, .close t] = some s' ∧ Shut s' l
  teardown : TeardownCloses W (s.endCtx f.tag.ctx.conn) l

theorem shut_of_shut {s s' : State} {l : Nat} {f : Listener} (hf : s.sockets[l]? = some f)
    (h : s'.sockets = Sock.shut s.sockets l) : Shut s' l :=
  ⟨_, by rw [h]; exact Sock.getElem?_shut.mpr ⟨f, hf, rfl⟩, by simp⟩

theorem TeardownCloses.step {W : World} {s u : State} {a : Act} {l : Nat}
    (h : step W s a = some u) (ha : a.isTeardown = true) (hu : TeardownCloses W u l) :
    TeardownCloses W s l := by
  obtain ⟨as, s', hall, he, hs⟩ := hu
  refine ⟨a :: as, s', ?_, ?_, hs⟩
  · intro b hb
    rcases List.mem_cons.mp hb with rfl | hb
    · exact ha
    · exact hall b hb
  · simp only [System.exec, system, h, Option.bind_some]
    exact he

theorem TeardownCloses.closing (W : World) {s : State} {t l : Nat} {who : Caller}
    {key : GoString} {f : Listener} (hp : s.procs t = .closing who key)
    (hl : s.forwards key = some l) (hf : s.sockets[l]? = some f) : TeardownCloses W s l :=
  ⟨_, _, by simp [Act.isTeardown], exec_closeForward W hp hl, shut_of_shut hf rfl⟩

theorem TeardownCloses.watching (W : World) {s : State} {t l : Nat} {ctx : Context}
    {key : GoString} {f : Listener} (hp : s.procs t = .watching ctx key)
    (hd : s.ctxDone ctx.conn = true) (hl : s.forwards key = some l)
    (hf : s.sockets[l]? = some f) : TeardownCloses W s l := by
  have h1 : Forward.step W s (.wake t) = some (s.goto t (.closing (.teardown ctx) key)) := by
    simp [Forward.step, hp, hd]
  have hp' : (s.goto t (.closing (.teardown ctx) key)).procs t = .closing (.teardown ctx) key := by
    simp
  exact .step h1 rfl (.closing W hp' hl hf)

/-- A request that is still in `startForward` goes on to spawn the goroutine
that waits, or closes the forward itself. -/
theorem TeardownCloses.starting (W : World) {s : State} {t l n : Nat} {ctx : Context}
    {payload : RemoteForwardRequest} {p : BoundPort} {f : Listener}
    (hp : s.procs t = .starting ctx payload l p) (hd : s.ctxDone ctx.conn = true)
    (hl : s.forwards (forwardKey payload.bindAddr p.val) = some l)
    (hf : s.sockets[l]? = some f) (hn : ∀ u, n ≤ u → s.procs u = .idle) :
    TeardownCloses W s l := by
  by_cases hc : ctx.hasConn = true
  · have hsp : Forward.step W s (.spawn t n (n + 1)) =
        some (s.spawn t n (n + 1) ctx payload l p) := by
      simp [Forward.step, hp, hc, hn n (Nat.le_refl n), hn (n + 1) (by omega)]
    have hp' : (s.spawn t n (n + 1) ctx payload l p).procs n =
        .watching ctx (forwardKey payload.bindAddr p.val) := by simp
    exact .step hsp rfl (.watching W hp' hd hl hf)
  · have hab : Forward.step W s (.abort t) = some (s.goto t (.closing (.abort ctx payload)
        (forwardKey payload.bindAddr p.val))) := by
      simp [Forward.step, hp, hc]
    have hp' : (s.goto t (.closing (.abort ctx payload)
        (forwardKey payload.bindAddr p.val))).procs t =
        .closing (.abort ctx payload) (forwardKey payload.bindAddr p.val) := by simp
    exact .step hab rfl (.closing W hp' hl hf)

theorem closable {W : World} {s : State} (hs : (system W).Reach s) {l : Nat} {f : Listener}
    (hf : s.sockets[l]? = some f) (hl : s.forwards (keyOf f) = some l) : Closable W s l f := by
  have hi := inv_of_reach hs
  constructor
  · intro t ctx req ht hty hu
    rw [keyOf_eq (hi.faithful l f hf)] at hl
    obtain ⟨s', he, -, hsock, -⟩ := exec_cancel ctx ht hty hu hl
    exact ⟨s', he, shut_of_shut hf hsock⟩
  · obtain ⟨t, ht⟩ := attended_of_reach hs _ l f hl hf
    obtain ⟨n, hn⟩ := bounded_of_reach hs
    cases hp : s.procs t with
    | starting ctx payload i p =>
      rw [hp] at ht
      obtain ⟨rfl, hconn⟩ := ht
      obtain ⟨-, g, hg, -, hpay, hport⟩ := hi.procAt hp
      rw [hf] at hg
      have hkey : forwardKey payload.bindAddr p.val = keyOf f := by
        rw [Option.some.inj hg, keyOf, hpay, hport]
      rw [← hkey] at hl
      exact TeardownCloses.starting W (s := s.endCtx _) hp (by simp [hconn]) hl hf hn
    | watching ctx k =>
      rw [hp] at ht
      obtain ⟨rfl, hconn⟩ := ht
      exact TeardownCloses.watching W (s := s.endCtx _) hp (by simp [hconn]) hl hf
    | closing who k =>
      rw [hp] at ht
      rw [← attends_closing ht] at hl
      exact TeardownCloses.closing W (s := s.endCtx _) hp hl hf
    | idle | rejected | listening | refused | recording | served | closingListener | closed
    | accepting | cleaning | exited => rw [hp] at ht; exact ht.elim

/-! ## When a listener is orphaned -/

/-- A goroutine that is about to close `l` stays where it is while another moves. -/
theorem closer_update {procs : Nat → Proc} {t l : Nat} {p : Proc}
    (hno : ∀ who key, procs t ≠ .closingListener who key l)
    (h : ∃ u who key, procs u = .closingListener who key l) :
    ∃ u who key, Function.update procs t p u = .closingListener who key l := by
  obtain ⟨u, who, key, hu⟩ := h
  have hne : u ≠ t := fun he => hno who key (he ▸ hu)
  exact ⟨u, who, key, by rw [Function.update_of_ne hne, hu]⟩

theorem NoOrphan.move {s s' : State} {t : Nat} {p : Proc} (h : NoOrphan s)
    (hs : s'.sockets = s.sockets) (hr : s'.recorded = s.recorded)
    (hf : s'.forwards = s.forwards) (hp : s'.procs = Function.update s.procs t p)
    (hno : ∀ who key l, s.procs t ≠ .closingListener who key l) : NoOrphan s' := by
  intro l f hl hrec ho
  rw [hs] at hl
  rw [hr] at hrec
  rw [hf, hp]
  exact (h l f hl hrec ho).imp_right (closer_update fun who key => hno who key l)

theorem NoOrphan.record {W : World} {s : State} (hi : Inv W s) (h : NoOrphan s) {t : Nat}
    {ctx : Context} {payload : RemoteForwardRequest} {l : Nat} {p : BoundPort}
    (hp : s.procs t = .recording ctx payload l p) : NoOrphan (s.record t ctx payload l p) := by
  obtain ⟨-, g, hg, -, -, -, hpay, ha⟩ := hi.procAt hp
  intro i f hf hrec ho
  simp only [State.record_forwards, State.record_procs]
  rcases List.mem_append.mp hrec with hrec | hrec
  · refine (h i f hf hrec ho).imp (fun he => ?_) (closer_update (by simp [hp]))
    rw [Function.update_of_ne, he]
    intro hk
    rw [hk, hi.insertFresh hp] at he
    cases he
  · left
    rw [List.mem_singleton.mp hrec, State.record_sockets, hg] at hf
    rw [← Option.some.inj hf, keyOf, hpay, ha, List.mem_singleton.mp hrec, Function.update_self]

theorem NoOrphan.take {s : State} (h : NoOrphan s) {t : Nat} {who : Caller} {key : GoString}
    {l : Nat} (hp : s.procs t = .closing who key) (hl : s.forwards key = some l) :
    NoOrphan (s.take t who key l) := by
  intro i f hf hrec ho
  simp only [State.take_forwards, State.take_procs]
  rcases h i f hf hrec ho with he | hcl
  · by_cases hk : keyOf f = key
    · -- the entry that was taken
      rw [hk, hl] at he
      exact Or.inr ⟨t, who, key, by rw [Function.update_self, Option.some.inj he]⟩
    · exact Or.inl (by rw [Function.update_of_ne hk, he])
  · exact Or.inr (closer_update (by simp [hp]) hcl)

theorem NoOrphan.close {s : State} (h : NoOrphan s) {t : Nat} {who : Caller} {key : GoString}
    {l : Nat} (hp : s.procs t = .closingListener who key l) :
    NoOrphan (s.close t who key l) := by
  intro i f hf hrec ho
  obtain ⟨g, hg, rfl⟩ := Sock.getElem?_shut.mp hf
  by_cases hil : l = i
  · rw [if_pos hil] at ho; cases ho
  · rw [if_neg hil] at ho ⊢
    exact (h i g hg hrec ho).imp_right (closer_update (by simp [hp, hil]))

theorem NoOrphan.spawn {s : State} (h : NoOrphan s) {t tw ta : Nat} {ctx : Context}
    {payload : RemoteForwardRequest} {l : Nat} {p : BoundPort}
    (hp : s.procs t = .starting ctx payload l p) (htw : s.procs tw = .idle)
    (hta : s.procs ta = .idle) (hne : tw ≠ ta) :
    NoOrphan (s.spawn t tw ta ctx payload l p) := by
  have htt : tw ≠ t := fun he => by rw [he, hp] at htw; cases htw
  have hat : ta ≠ t := fun he => by rw [he, hp] at hta; cases hta
  intro i f hf hrec ho
  refine (h i f hf hrec ho).imp_right fun hcl => ?_
  -- one goroutine after the other: the handler, the watch, the accept loop
  have h1 := closer_update (t := t) (p := .served ctx payload l p) (by simp [hp]) hcl
  have h2 := closer_update (t := tw)
    (p := .watching ctx (forwardKey payload.bindAddr p.val)) (by simp [htt, htw]) h1
  exact closer_update (by simp [hat, hne.symm, hta]) h2

theorem NoOrphan.step {W : World} {s s' : State} {a : Act} (hi : Inv W s) (h : NoOrphan s)
    (hc : CleanupMisses s a) (hst : Step W s a s') : NoOrphan s' := by
  cases hst with
  | request hp => exact h.move rfl rfl rfl rfl (by simp [hp])
  | listenFail hp => exact h.move rfl rfl rfl rfl (by simp [hp])
  | listen hp ht hq hfree =>
    intro l f hf hrec ho
    rcases Sock.getElem?_bind.mp hf with hf | ⟨rfl, -⟩
    · exact (h l f hf hrec ho).imp_right (closer_update (by simp [hp]))
    · exact absurd (hi.known _ hrec) (Nat.lt_irrefl _)
  | record hp => exact h.record hi hp
  | spawn hp hconn htw hta hne => exact h.spawn hp htw hta hne
  | abort hp hconn => exact h.move rfl rfl rfl rfl (by simp [hp])
  | endCtx => exact h
  | wake hp hd => exact h.move rfl rfl rfl rfl (by simp [hp])
  | removeNone hp hn => exact h.move rfl rfl rfl rfl (by simp [hp])
  | remove hp hl => exact h.take hp hl
  | close hp => exact h.close hp
  | accept hp hf ho => exact h
  | acceptFail hp => exact h.move rfl rfl rfl rfl (by simp [hp])
  | @cleanup t l key hp =>
    exact h.move rfl rfl (if_neg (hc l key hp)) rfl (by simp [hp])

/-- A cleanup that finds its own listener leaves it open and out of reach. -/
theorem orphan_of_cleanup {W : World} {s : State} (hi : Inv W s) {t l : Nat} {key : GoString}
    (hp : s.procs t = .cleaning l key) (hl : s.forwards key = some l) :
    ¬ NoOrphan (s.cleanup t l key) := by
  intro h
  obtain ⟨hrec, f, hf, ho, hk⟩ := hi.table key l hl
  rcases h l f hf hrec ho with he | ⟨u, who, key', hu⟩
  · rw [hk, State.cleanup_forwards, if_pos hl, Function.update_self] at he
    cases he
  · have hne : u ≠ t := by
      rintro rfl
      rw [State.cleanup_procs, Function.update_self] at hu
      cases hu
    rw [State.cleanup_procs, Function.update_of_ne hne] at hu
    exact (hi.procAt hu).2.2.2 key hl

/-- `Accept` fails on an open listener, and the cleanup removes its entry. -/
theorem accept_failure_orphans : ¬ ∀ s, (system wireWorld).Reach s → NoOrphan s := by
  intro h
  obtain ⟨s, hr, hp, hl⟩ : ∃ s, (system wireWorld).Reach s ∧
      s.procs 2 = .cleaning 0 (forwardKey loopbackIPv4 8000) ∧
      s.forwards (forwardKey loopbackIPv4 8000) = some 0 :=
    ⟨_, System.reach_get (system wireWorld) (openRun 0 1 loopbackIPv4 ++ [.acceptFail 2]) rfl
      (by decide), by decide, by decide⟩
  have hst : (system wireWorld).step s (.cleanup 2) =
      some (s.cleanup 2 0 (forwardKey loopbackIPv4 8000)) := by
    simp only [system, step, hp]
  exact orphan_of_cleanup (inv_of_reach hr) hp hl (h _ (hr.step hst))

/-- **No listener is orphaned as long as no cleanup finds its own listener in
the table, and the first that does orphans it.** Under that condition every
open recorded listener is in the table or about to be closed; and one that is
in the table can be closed by a cancel of its pair and by the end of its
connection's context. -/
theorem no_orphan_iff_cleanup_misses (W : World) :
    (∀ s, (system W).ReachOn CleanupMisses s → NoOrphan s ∧
      ∀ (l : Nat) f, s.sockets[l]? = some f → s.forwards (keyOf f) = some l → Closable W s l f) ∧
    (∀ s a s', (system W).Reach s → step W s a = some s' → ¬ CleanupMisses s a → ¬ NoOrphan s') := by
  constructor
  · intro s hs
    refine ⟨?_, fun l f hf hl => closable hs.reach hf hl⟩
    refine hs.invariant (fun _ => (inv_stable W).reach) ?_ ?_
    · rintro s rfl l f hf
      cases hf
    · intro s a t hi h hc hst
      exact h.step hi hc (step_cases hst)
  · intro s a s' hs hst hc
    cases step_cases hst with
    | @cleanup t l key hp =>
      refine orphan_of_cleanup (inv_of_reach hs) hp ?_
      by_contra hne
      refine hc fun l' key' hp' => ?_
      rw [hp] at hp'
      cases hp'
      exact hne
    | _ => exact absurd trivial hc

/-- A forward that was cancelled before its accept loop ended, and a second one
that is open: the cleanup of the first leaves the second alone. -/
theorem no_orphan_after_cancel : ∃ s, (system wireWorld).ReachOn CleanupMisses s ∧
    s.procs 2 = .exited ∧ s.recorded = [0, 1] ∧ NoOrphan s := by
  obtain ⟨s, hr, hp, hl, hrec⟩ : ∃ s, (system wireWorld).ReachOn CleanupMisses s ∧
      s.procs 2 = .cleaning 0 (forwardKey loopbackIPv4 8000) ∧
      s.forwards (forwardKey loopbackIPv4 8000) = some 1 ∧ s.recorded = [0, 1] :=
    ⟨_, System.reachOn_get (system wireWorld) (openRun 0 1 loopbackIPv4 ++
      cancelRun 3 1 loopbackIPv4 ++ openRun 4 1 loopbackIPv4 ++ [.acceptFail 2]) rfl
      (.of_forall (by simp [openRun, cancelRun, CleanupMisses]) _) (by decide),
      by decide, by decide, by decide⟩
  have hst : (system wireWorld).step s (.cleanup 2) =
      some (s.cleanup 2 0 (forwardKey loopbackIPv4 8000)) := by
    simp only [system, step, hp]
  have hc : CleanupMisses s (.cleanup 2) := by
    intro l key hp'
    rw [hp] at hp'
    cases hp'
    rw [hl]; decide
  have hon := hr.step hc hst
  exact ⟨_, hon, by simp, hrec, ((no_orphan_iff_cleanup_misses wireWorld).1 _ hon).1⟩

end WorkspaceProxy.SshServer.Forward
