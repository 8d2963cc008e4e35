import WorkspaceProxy.SshServer.Forward

/-! # The forward table and the listeners

What holds of the handler in every reachable state: how `net.Listen` made each
listener, which listener each table entry refers to, and what a goroutine may
rely on at each point. The transient states are part of it: a listener that is
bound and not yet recorded belongs to one goroutine, and a listener that
`closeForward` took out is in the table no more. -/
namespace WorkspaceProxy.SshServer.Forward
open WorkspaceProxy.Go WorkspaceProxy.Conc

theorem forwardKey_inj {h₁ h₂ : GoString} {p₁ p₂ : Int}
    (h : forwardKey h₁ p₁ = forwardKey h₂ p₂) : h₁ = h₂ ∧ p₁ = p₂ := by
  obtain ⟨hh, hp⟩ := join_inj (itoa_plain p₁) (itoa_plain p₂) h
  exact ⟨hh, itoa_injective hp⟩

/-- Splitting gives back what a key was made of. A remote address has the form
of a key: `TCPAddr.String` joins a host and a port in the same way. -/
theorem splitAddr_forwardKey {host : GoString} (ho : openBracket ∉ host)
    (hc : closeBracket ∉ host) {p : Nat} (hp : p ≤ 65535) :
    splitAddr (forwardKey host p) = (host, (p : Int)) := by
  have hs : splitHostPort (forwardKey host p) = .ok (host, itoa p) :=
    split_join (itoa_plain _) ho hc
  have ha := atoi_itoa p (by omega)
  simp only [splitAddr, hs, ha]

/-- `net.Listen` reads the joined address back: the host is the one that was
checked, and the port is the requested one when it has 16 bits. -/
theorem listenTarget_listenAddress {payload : RemoteForwardRequest} {host : GoString} {q : Nat}
    (hl : LoopbackHost (bindHost payload))
    (h : listenTarget (listenAddress payload) = some (host, q)) :
    host = bindHost payload ∧ q = payload.bindPort.toNat := by
  have hs : splitHostPort (listenAddress payload) =
      .ok (bindHost payload, itoa payload.bindPort.toNat) :=
    split_join (itoa_plain _) hl.noBracket.1 hl.noBracket.2
  have ha : atoi (itoa payload.bindPort.toNat) = .ok (payload.bindPort.toNat : Int) :=
    atoi_itoa _ (by have := payload.bindPort.toNat_lt; omega)
  unfold listenTarget at h
  rw [hs] at h
  simp only [ha] at h
  split at h
  · obtain ⟨hh, hq⟩ := Prod.mk.inj (Option.some.inj h)
    exact ⟨hh.symm, by omega⟩
  · cases h

/-- A listener as `net.Listen` makes it for an admitted request. -/
structure Faithful (W : World) (f : Listener) : Prop where
  host : f.tag.host = bindHost f.tag.payload
  loopback : LoopbackHost f.tag.host
  addr : f.addr.1 = W.resolve f.tag.host
  port : f.addr.2 < 65536
  requested : f.tag.payload.bindPort ≠ 0 → f.addr.2 = f.tag.payload.bindPort.toNat

/-- Listener `l` serves a request of `ctx` for `payload` on port `p`. -/
def Serves (s : State) (l : Nat) (ctx : Context) (payload : RemoteForwardRequest)
    (p : BoundPort) : Prop :=
  ∃ f, s.sockets[l]? = some f ∧ f.tag.ctx = ctx ∧ f.tag.payload = payload ∧ f.addr.2 = p.val

/-- Listener `l` has the key `key`. -/
def HasKey (s : State) (l : Nat) (key : GoString) : Prop :=
  ∃ f, s.sockets[l]? = some f ∧ keyOf f = key

/-- A cancel closes under the key of the pair that it names. -/
def Caller.Ok : Caller → GoString → Prop
  | .cancel _ payload, key => key = forwardKey payload.bindAddr payload.bindPort.toNat
  | _, _ => True

/-- What goroutine `t` may rely on at each point. -/
def ProcOk (s : State) (t : Nat) : Proc → Prop
  | .listening _ payload => LoopbackHost (bindHost payload)
  | .recording ctx payload l p => l ∉ s.recorded ∧
      ∃ f, s.sockets[l]? = some f ∧ f.isOpen = true ∧ f.tag.goroutine = t ∧
        f.tag.ctx = ctx ∧ f.tag.payload = payload ∧ f.addr.2 = p.val
  | .starting ctx payload l p | .served ctx payload l p =>
      l ∈ s.recorded ∧ Serves s l ctx payload p
  | .closing who key => who.Ok key
  | .closingListener who key l => who.Ok key ∧ l ∈ s.recorded ∧ HasKey s l key ∧
      ∀ k, s.forwards k ≠ some l
  | .closed who key l => who.Ok key ∧ ∀ i ∈ l, i ∈ s.recorded ∧ HasKey s i key
  | .accepting l requestedAddr p key => ∃ f, s.sockets[l]? = some f ∧
      f.tag.payload.bindAddr = requestedAddr ∧ f.addr.2 = p.val ∧ keyOf f = key
  | .cleaning l key => HasKey s l key
  | _ => True

structure Inv (W : World) (s : State) : Prop where
  faithful : ∀ (l : Nat) f, s.sockets[l]? = some f → Faithful W f
  exclusive : Sock.Exclusive s.sockets
  table : ∀ key l, s.forwards key = some l →
    l ∈ s.recorded ∧ ∃ f, s.sockets[l]? = some f ∧ f.isOpen = true ∧ keyOf f = key
  known : ∀ l ∈ s.recorded, l < s.sockets.length
  channel : ∀ l d, (l, d) ∈ s.channels → ∃ f, s.sockets[l]? = some f ∧
    d.destAddr = f.tag.payload.bindAddr ∧ d.destPort = UInt32.ofNat f.addr.2
  proc : ∀ t, ProcOk s t (s.procs t)

theorem Inv.procAt {W : World} {s : State} (hi : Inv W s) {t : Nat} {p : Proc}
    (hp : s.procs t = p) : ProcOk s t p := hp ▸ hi.proc t

/-! ## What an action of one goroutine leaves to the others -/

/-- The effect of an action of goroutine `t`, as far as the others can see it. -/
structure Ext (s : State) (t : Nat) (s' : State) : Prop where
  socket : ∀ (l : Nat) f, s.sockets[l]? = some f →
    ∃ f', s'.sockets[l]? = some f' ∧ f'.tag = f.tag ∧ f'.addr = f.addr
  recorded : ∀ l ∈ s.recorded, l ∈ s'.recorded
  absent : ∀ l ∈ s.recorded, (∀ k, s.forwards k ≠ some l) → ∀ k, s'.forwards k ≠ some l
  pending : ∀ (l : Nat) f, l ∉ s.recorded → s.sockets[l]? = some f → f.tag.goroutine ≠ t →
    l ∉ s'.recorded ∧ s'.sockets[l]? = some f

theorem Ext.of_frame {s s' : State} (t : Nat) (hs : s'.sockets = s.sockets)
    (hr : s'.recorded = s.recorded) (hf : ∀ k l, s'.forwards k = some l → s.forwards k = some l) :
    Ext s t s' where
  socket _ f h := ⟨f, hs ▸ h, rfl, rfl⟩
  recorded _ h := hr ▸ h
  absent l _ h k he := h k (hf k l he)
  pending _ _ hn h _ := ⟨hr ▸ hn, hs ▸ h⟩

theorem Ext.hasKey {s s' : State} {t l : Nat} {key : GoString} (he : Ext s t s')
    (h : HasKey s l key) : HasKey s' l key := by
  obtain ⟨f, hf, hk⟩ := h
  obtain ⟨f', hf', ht, ha⟩ := he.socket l f hf
  exact ⟨f', hf', by rw [← hk]; simp only [keyOf, ht, ha]⟩

theorem Ext.serves {s s' : State} {t l : Nat} {ctx : Context} {payload : RemoteForwardRequest}
    {p : BoundPort} (he : Ext s t s') (h : Serves s l ctx payload p) :
    Serves s' l ctx payload p := by
  obtain ⟨f, hf, hc, hp, ha⟩ := h
  obtain ⟨f', hf', ht, ha'⟩ := he.socket l f hf
  exact ⟨f', hf', by rw [ht]; exact hc, by rw [ht]; exact hp, by rw [ha']; exact ha⟩

/-- A goroutine that does not act keeps what it relies on. -/
theorem Ext.procOk {s s' : State} {t u : Nat} {p : Proc} (he : Ext s t s') (hne : u ≠ t)
    (h : ProcOk s u p) : ProcOk s' u p := by
  cases p with
  | recording ctx payload l p =>
    obtain ⟨hn, f, hf, ho, hg, hrest⟩ := h
    obtain ⟨hn', hf'⟩ := he.pending l f hn hf (by rw [hg]; exact hne)
    exact ⟨hn', f, hf', ho, hg, hrest⟩
  | starting ctx payload l p => exact ⟨he.recorded l h.1, he.serves h.2⟩
  | served ctx payload l p => exact ⟨he.recorded l h.1, he.serves h.2⟩
  | closingListener who key l =>
    obtain ⟨hw, hr, hk, ha⟩ := h
    exact ⟨hw, he.recorded l hr, he.hasKey hk, he.absent l hr ha⟩
  | closed who key l =>
    refine ⟨h.1, fun i hi => ?_⟩
    obtain ⟨hr, hk⟩ := h.2 i hi
    exact ⟨he.recorded i hr, he.hasKey hk⟩
  | accepting l requestedAddr p key =>
    obtain ⟨f, hf, hb, ha, hk⟩ := h
    obtain ⟨f', hf', ht, ha'⟩ := he.socket l f hf
    exact ⟨f', hf', by rw [ht]; exact hb, by rw [ha']; exact ha,
      by rw [← hk]; simp only [keyOf, ht, ha']⟩
  | cleaning l key => exact he.hasKey h
  | idle | rejected | listening | refused | watching | closing | exited => exact h

theorem Ext.proc {s s' : State} {t : Nat} {p : Proc} (he : Ext s t s')
    (hs : ∀ u, ProcOk s u (s.procs u)) (hp : s'.procs = Function.update s.procs t p)
    (hok : ProcOk s' t p) : ∀ u, ProcOk s' u (s'.procs u) := by
  intro u
  rw [hp]
  by_cases hu : u = t
  · subst hu; rw [Function.update_self]; exact hok
  · rw [Function.update_of_ne hu]; exact he.procOk hu (hs u)

/-- An action that only moves goroutine `t`, and may remove table entries. -/
theorem Inv.move {W : World} {s s' : State} {t : Nat} {p : Proc} (hi : Inv W s)
    (hs : s'.sockets = s.sockets) (hr : s'.recorded = s.recorded)
    (hf : ∀ k l, s'.forwards k = some l → s.forwards k = some l)
    (hc : s'.channels = s.channels) (hp : s'.procs = Function.update s.procs t p)
    (hok : ProcOk s' t p) : Inv W s' where
  faithful l f h := hi.faithful l f (hs ▸ h)
  exclusive := hs ▸ hi.exclusive
  table k l h := by
    obtain ⟨hl, f, hsock, ho, hk⟩ := hi.table k l (hf k l h)
    exact ⟨hr ▸ hl, f, hs ▸ hsock, ho, hk⟩
  known l h := by rw [hs]; exact hi.known l (hr ▸ h)
  channel l d h := by rw [hs]; exact hi.channel l d (hc ▸ h)
  proc := (Ext.of_frame t hs hr hf).proc hi.proc hp hok

/-! ## The actions, one by one -/

theorem inv_initial (W : World) : Inv W initial where
  faithful l f h := by cases h
  exclusive := Sock.exclusive_nil
  table k l h := by cases h
  known l h := by cases h
  channel l d h := by cases h
  proc t := trivial

theorem handleSSHRequest_ok (W : World) (s : State) (t : Nat) (ctx : Context) (req : Request) :
    ProcOk s t (handleSSHRequest W newServer ctx req) := by
  unfold handleSSHRequest
  split
  · trivial
  · split
    · split
      · rename_i hp
        exact (isLoopback_iff _).mp hp
      · trivial
    · split
      · exact rfl
      · trivial

theorem faithful_bound {W : World} {t : Nat} {ctx : Context} {payload : RemoteForwardRequest}
    {host : GoString} {q : Nat} {p : BoundPort} (hl : LoopbackHost (bindHost payload))
    (ht : listenTarget (listenAddress payload) = some (host, q)) (hq : q = 0 ∨ p.val = q) :
    Faithful W ⟨(W.resolve host, p.val), true, ⟨t, ctx, payload, host⟩⟩ := by
  obtain ⟨rfl, rfl⟩ := listenTarget_listenAddress hl ht
  refine ⟨rfl, hl, rfl, p.lt, fun hne => ?_⟩
  rcases hq with hz | hq
  · exact absurd (UInt32.toNat_inj.mp hz) hne
  · exact hq

theorem ext_bound (s : State) (t : Nat) (ctx : Context) (payload : RemoteForwardRequest)
    (addr : IP) (host : GoString) (p : BoundPort) :
    Ext s t (s.bound t ctx payload addr host p) where
  socket _ f h := ⟨f, Sock.getElem?_bind.mpr (Or.inl h), rfl, rfl⟩
  recorded _ h := h
  absent _ _ h := h
  pending _ _ hn h _ := ⟨hn, Sock.getElem?_bind.mpr (Or.inl h)⟩

theorem Inv.bound {W : World} {s : State} (hi : Inv W s) {t : Nat} {ctx : Context}
    {payload : RemoteForwardRequest} {host : GoString} {q : Nat} {p : BoundPort}
    (hp : s.procs t = .listening ctx payload)
    (ht : listenTarget (listenAddress payload) = some (host, q)) (hq : q = 0 ∨ p.val = q)
    (hfree : Sock.free s.sockets (W.resolve host, p.val) = true) :
    Inv W (s.bound t ctx payload (W.resolve host) host p) := by
  have hl : LoopbackHost (bindHost payload) := hi.procAt hp
  have hnew : s.sockets.length ∉ s.recorded := fun h => Nat.lt_irrefl _ (hi.known _ h)
  refine ⟨?_, hi.exclusive.bind hfree, ?_, ?_, ?_, ?_⟩
  · intro l f h
    rcases Sock.getElem?_bind.mp h with h | ⟨-, rfl⟩
    · exact hi.faithful l f h
    · exact faithful_bound hl ht hq
  · intro k l h
    obtain ⟨hr, f, hf, ho, hk⟩ := hi.table k l h
    exact ⟨hr, f, Sock.getElem?_bind.mpr (Or.inl hf), ho, hk⟩
  · intro l h
    have := hi.known l h
    simp only [State.bound_sockets, List.length_append]; omega
  · intro l d h
    obtain ⟨f, hf, hd⟩ := hi.channel l d h
    exact ⟨f, Sock.getElem?_bind.mpr (Or.inl hf), hd⟩
  · refine (ext_bound s t ctx payload _ host p).proc hi.proc rfl ⟨hnew, ?_⟩
    exact ⟨_, Sock.getElem?_bind.mpr (Or.inr ⟨rfl, rfl⟩), rfl, rfl, rfl, rfl, rfl⟩

theorem ext_record {W : World} {s : State} (hi : Inv W s) {t : Nat} {ctx : Context}
    {payload : RemoteForwardRequest} {l : Nat} {p : BoundPort}
    (hp : s.procs t = .recording ctx payload l p) :
    Ext s t (s.record t ctx payload l p) := by
  obtain ⟨hn, f, hf, ho, hg, hrest⟩ := hi.procAt hp
  refine ⟨fun i g h => ⟨g, h, rfl, rfl⟩, fun i h => List.mem_append_left _ h, ?_, ?_⟩
  · intro i hr h k he
    simp only [State.record_forwards, Function.update_apply] at he
    split at he
    · exact hn ((Option.some.inj he) ▸ hr)
    · exact h k he
  · intro i g hni hg' hne
    refine ⟨?_, hg'⟩
    simp only [State.record_recorded, List.mem_append, List.mem_singleton, not_or]
    refine ⟨hni, fun he => hne ?_⟩
    subst he
    rw [hf] at hg'
    rw [← Option.some.inj hg']; exact hg

theorem Inv.record {W : World} {s : State} (hi : Inv W s) {t : Nat} {ctx : Context}
    {payload : RemoteForwardRequest} {l : Nat} {p : BoundPort}
    (hp : s.procs t = .recording ctx payload l p) : Inv W (s.record t ctx payload l p) := by
  obtain ⟨hn, f, hf, ho, hg, hc, hpay, ha⟩ := hi.procAt hp
  refine ⟨hi.faithful, hi.exclusive, ?_, ?_, hi.channel, ?_⟩
  · intro k i h
    simp only [State.record_forwards, Function.update_apply] at h
    split at h
    · rename_i hk
      cases h
      refine ⟨by simp, f, hf, ho, ?_⟩
      rw [hk, keyOf, hpay, ha]
    · obtain ⟨hr, hrest⟩ := hi.table k i h
      exact ⟨List.mem_append_left _ hr, hrest⟩
  · intro i h
    rcases List.mem_append.mp h with h | h
    · exact hi.known i h
    · rw [List.mem_singleton.mp h]
      exact (List.getElem?_eq_some_iff.mp hf).1
  · exact (ext_record hi hp).proc hi.proc rfl ⟨by simp, f, hf, hc, hpay, ha⟩

theorem Inv.spawn {W : World} {s : State} (hi : Inv W s) {t tw ta : Nat} {ctx : Context}
    {payload : RemoteForwardRequest} {l : Nat} {p : BoundPort}
    (hp : s.procs t = .starting ctx payload l p) :
    Inv W (s.spawn t tw ta ctx payload l p) := by
  obtain ⟨hr, hs⟩ := hi.procAt hp
  refine ⟨hi.faithful, hi.exclusive, hi.table, hi.known, hi.channel, fun u => ?_⟩
  obtain ⟨f, hf, hc, hpay, ha⟩ := hs
  simp only [State.spawn_procs, Function.update_apply]
  split
  · exact ⟨f, hf, by rw [hpay], ha, by rw [keyOf, hpay, ha]⟩
  · split
    · trivial
    · split
      · exact ⟨hr, f, hf, hc, hpay, ha⟩
      · exact hi.proc u

theorem ext_close {W : World} {s : State} (hi : Inv W s) {t : Nat} {who : Caller}
    {key : GoString} {l : Nat} (hp : s.procs t = .closingListener who key l) :
    Ext s t (s.close t who key l) := by
  have hok := hi.procAt hp
  refine ⟨?_, fun i h => h, fun i _ h => h, ?_⟩
  · intro i f h
    refine ⟨_, Sock.getElem?_shut.mpr ⟨f, h, rfl⟩, ?_⟩
    split <;> exact ⟨rfl, rfl⟩
  · intro i f hn h _
    refine ⟨hn, Sock.getElem?_shut.mpr ⟨f, h, ?_⟩⟩
    rw [if_neg]
    intro he
    exact hn (he ▸ hok.2.1)

theorem Inv.close {W : World} {s : State} (hi : Inv W s) {t : Nat} {who : Caller}
    {key : GoString} {l : Nat} (hp : s.procs t = .closingListener who key l) :
    Inv W (s.close t who key l) := by
  have hext := ext_close hi hp
  obtain ⟨hw, hr, hk, habs⟩ := hi.procAt hp
  refine ⟨?_, hi.exclusive.shut l, ?_, ?_, ?_, ?_⟩
  · intro i g h
    obtain ⟨f, hf, rfl⟩ := Sock.getElem?_shut.mp h
    have := hi.faithful i f hf
    split
    · exact ⟨this.host, this.loopback, this.addr, this.port, this.requested⟩
    · exact this
  · intro k i h
    obtain ⟨hri, f, hf, ho, hkey⟩ := hi.table k i h
    have hne : l ≠ i := fun he => habs k (he ▸ h)
    exact ⟨hri, f, Sock.getElem?_shut.mpr ⟨f, hf, by rw [if_neg hne]⟩, ho, hkey⟩
  · intro i h
    simp only [State.close_sockets, Sock.shut, List.length_modify]
    exact hi.known i h
  · intro i d h
    obtain ⟨f, hf, hd⟩ := hi.channel i d h
    obtain ⟨f', hf', ht, ha⟩ := hext.socket i f hf
    exact ⟨f', hf', by rw [ht]; exact hd.1, by rw [ha]; exact hd.2⟩
  · refine hext.proc hi.proc rfl ⟨hw, fun i hi' => ?_⟩
    cases hi'
    exact ⟨hr, hext.hasKey hk⟩

theorem Inv.relay {W : World} {s : State} (hi : Inv W s) {t : Nat} {l : Nat}
    {requestedAddr : GoString} {p : BoundPort} {key remote : GoString}
    (hp : s.procs t = .accepting l requestedAddr p key) :
    Inv W (s.relay l requestedAddr p remote) := by
  refine ⟨hi.faithful, hi.exclusive, hi.table, hi.known, ?_, fun u => ?_⟩
  · intro i d h
    rcases List.mem_append.mp h with h | h
    · exact hi.channel i d h
    · obtain ⟨rfl, rfl⟩ := Prod.mk.inj (List.mem_singleton.mp h)
      obtain ⟨f, hf, hb, ha, -⟩ := hi.procAt hp
      exact ⟨f, hf, hb.symm, by rw [ha]⟩
  · exact (Ext.of_frame (u + 1) rfl rfl (fun _ _ h => h)).procOk (by omega) (hi.proc u)

/-- A table entry's listener was there before `net.Listen` added another. -/
theorem Inv.tag_before_bound {W : World} {s : State} (hi : Inv W s) {t : Nat} {ctx : Context}
    {payload : RemoteForwardRequest} {addr : IP} {host k : GoString} {p : BoundPort} {l : Nat}
    {f : Listener} (hk : s.forwards k = some l)
    (hl : (s.bound t ctx payload addr host p).sockets[l]? = some f) :
    ∃ g, s.sockets[l]? = some g ∧ g.tag = f.tag := by
  rcases Sock.getElem?_bind.mp hl with hl | ⟨rfl, -⟩
  · exact ⟨f, hl, rfl⟩
  · exact absurd (hi.known _ (hi.table k _ hk).1) (Nat.lt_irrefl _)

theorem tag_before_close {s : State} {t l i : Nat} {who : Caller} {key : GoString} {f : Listener}
    (hf : (s.close t who key l).sockets[i]? = some f) :
    ∃ g, s.sockets[i]? = some g ∧ g.tag = f.tag := by
  obtain ⟨g, hg, rfl⟩ := Sock.getElem?_shut.mp hf
  exact ⟨g, hg, by split <;> rfl⟩

theorem cleanup_forwards {s : State} {t l i : Nat} {key k : GoString}
    (h : (s.cleanup t l key).forwards k = some i) : s.forwards k = some i := by
  simp only [State.cleanup_forwards] at h
  split at h
  · simp only [Function.update_apply] at h
    split at h
    · cases h
    · exact h
  · exact h

theorem take_forwards {s : State} {t l i : Nat} {who : Caller} {key k : GoString}
    (h : (s.take t who key l).forwards k = some i) : s.forwards k = some i ∧ k ≠ key := by
  simp only [State.take_forwards, Function.update_apply] at h
  split at h
  · cases h
  · exact ⟨h, ‹_›⟩

/-- The keys of two table entries for one listener agree. -/
theorem Inv.key_unique {W : World} {s : State} (hi : Inv W s) {k₁ k₂ : GoString} {l : Nat}
    (h₁ : s.forwards k₁ = some l) (h₂ : s.forwards k₂ = some l) : k₁ = k₂ := by
  obtain ⟨-, f, hf, -, hk⟩ := hi.table k₁ l h₁
  obtain ⟨-, g, hg, -, hk'⟩ := hi.table k₂ l h₂
  rw [hf] at hg
  rw [← hk, ← hk', Option.some.inj hg]

theorem Inv.take {W : World} {s : State} (hi : Inv W s) {t : Nat} {who : Caller}
    {key : GoString} {l : Nat} (hp : s.procs t = .closing who key)
    (hl : s.forwards key = some l) : Inv W (s.take t who key l) := by
  have hw : who.Ok key := hi.procAt hp
  obtain ⟨hr, f, hf, -, hk⟩ := hi.table key l hl
  refine hi.move rfl rfl (fun k i h => (take_forwards h).1) rfl rfl
    ⟨hw, hr, ⟨f, hf, hk⟩, fun k h => ?_⟩
  obtain ⟨hk', hne⟩ := take_forwards h
  exact hne (hi.key_unique hk' hl)

theorem Inv.step {W : World} {s s' : State} {a : Act} (hi : Inv W s) (h : Step W s a s') :
    Inv W s' := by
  cases h with
  | request hp => exact hi.move rfl rfl (fun _ _ h => h) rfl rfl (handleSSHRequest_ok W _ _ _ _)
  | listenFail hp => exact hi.move rfl rfl (fun _ _ h => h) rfl rfl trivial
  | listen hp ht hq hfree => exact hi.bound hp ht hq hfree
  | record hp => exact hi.record hp
  | spawn hp hc htw hta hne => exact hi.spawn hp
  | abort hp hc => exact hi.move rfl rfl (fun _ _ h => h) rfl rfl trivial
  | endCtx =>
    refine ⟨hi.faithful, hi.exclusive, hi.table, hi.known, hi.channel, fun u => ?_⟩
    exact (Ext.of_frame (u + 1) rfl rfl (fun _ _ h => h)).procOk (by omega) (hi.proc u)
  | wake hp hd => exact hi.move rfl rfl (fun _ _ h => h) rfl rfl trivial
  | removeNone hp hn =>
    exact hi.move rfl rfl (fun _ _ h => h) rfl rfl ⟨hi.procAt hp, fun i hi' => by cases hi'⟩
  | remove hp hl => exact hi.take hp hl
  | close hp => exact hi.close hp
  | accept hp hf ho => exact hi.relay hp
  | @acceptFail t l requestedAddr p key hp =>
    obtain ⟨f, hf, -, -, hk⟩ := hi.procAt hp
    exact hi.move rfl rfl (fun _ _ h => h) rfl rfl ⟨f, hf, hk⟩
  | cleanup hp => exact hi.move rfl rfl (fun _ _ h => cleanup_forwards h) rfl rfl trivial

theorem inv_stable (W : World) : (system W).Stable (Inv W) where
  init _ h := h ▸ inv_initial W
  step _ _ _ hi h := hi.step (step_cases h)

theorem inv_of_reach {W : World} {s : State} (h : (system W).Reach s) : Inv W s :=
  (inv_stable W).reach h

end WorkspaceProxy.SshServer.Forward
