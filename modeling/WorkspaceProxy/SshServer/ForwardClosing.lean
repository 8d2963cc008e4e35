import WorkspaceProxy.SshServer.ForwardSafety

/-! # Who can close a listener

A recorded listener can be closed only through its table entry: by a cancel
that names its pair, or by the goroutine that waits for the end of its
connection's context. This file says which cancels reach which listener, that
the reply, the channels and the key name one pair, and when a listener is left
without an entry while it is still open. -/
namespace WorkspaceProxy.SshServer.Forward
open WorkspaceProxy.Go WorkspaceProxy.Conc

/-! ## One cancel, without interleaving -/

theorem toNat_bindPort {W : World} {f : Listener} (hf : Faithful W f) :
    (UInt32.ofNat f.addr.2).toNat = f.addr.2 := by
  have := hf.port
  rw [UInt32.toNat_ofNat', Nat.mod_eq_of_lt (by omega)]

theorem keyOf_eq {W : World} {f : Listener} (hf : Faithful W f) :
    keyOf f = forwardKey f.tag.payload.bindAddr (UInt32.ofNat f.addr.2).toNat := by
  rw [keyOf, toNat_bindPort hf]

/-- The two steps of `closeForward` on a key that is in the table. -/
theorem exec_closeForward (W : World) {s : State} {t l : Nat} {who : Caller} {key : GoString}
    (hp : s.procs t = .closing who key) (hl : s.forwards key = some l) :
    (system W).exec s [.remove t, .close t] = some ((s.take t who key l).close t who key l) := by
  have h1 : step W s (.remove t) = some (s.take t who key l) := by simp [step, hp, hl]
  have h2 : step W (s.take t who key l) (.close t) =
      some ((s.take t who key l).close t who key l) := by simp [step]
  simp [System.exec, system, h1, h2]

/-- A cancel request whose key is in the table, handled on a new goroutine. -/
theorem exec_cancel {W : World} {s : State} {t l : Nat} (ctx : Context) {req : Request}
    {payload : RemoteForwardRequest} (ht : s.procs t = .idle)
    (hty : req.type = requestTypeCancelForward) (hu : W.unmarshal req.payload = some payload)
    (hl : s.forwards (forwardKey payload.bindAddr payload.bindPort.toNat) = some l) :
    ∃ s', (system W).exec s [.request t ctx req, .remove t, .close t] = some s' ∧
      (s'.procs t).reply = some ⟨true, .nil⟩ ∧ s'.sockets = Sock.shut s.sockets l ∧
      s'.forwards = Function.update s.forwards
        (forwardKey payload.bindAddr payload.bindPort.toNat) none := by
  have hne : requestTypeCancelForward ≠ requestTypeForward := by decide
  have hreq : handleSSHRequest W newServer ctx req =
      .closing (.cancel ctx payload) (forwardKey payload.bindAddr payload.bindPort.toNat) := by
    simp [handleSSHRequest, hu, hty, hne]
  have h1 : (system W).step s (.request t ctx req) =
      some (s.goto t (.closing (.cancel ctx payload)
        (forwardKey payload.bindAddr payload.bindPort.toNat))) := by
    simp [system, step, ht, hreq]
  have hp : (s.goto t (.closing (.cancel ctx payload)
      (forwardKey payload.bindAddr payload.bindPort.toNat))).procs t =
      .closing (.cancel ctx payload) (forwardKey payload.bindAddr payload.bindPort.toNat) := by
    simp
  refine ⟨_, by rw [System.exec, h1]; exact exec_closeForward W hp hl, ?_, rfl, rfl⟩
  simp [Proc.reply]

/-- Removing a listener's entry leaves the entries of the others. -/
theorem update_other {s : State} {key : GoString} {l : Nat}
    (hl : s.forwards key = some l) {k : GoString} {i : Nat} (hne : i ≠ l) :
    Function.update s.forwards key none k = some i ↔ s.forwards k = some i := by
  by_cases hk : k = key
  · subst hk
    rw [Function.update_self, hl]
    simp [Ne.symm hne]
  · rw [Function.update_of_ne hk]

/-! ## Which listener a cancel closes -/

/-- On goroutine `t`, `closeForward` took listener `l` for `who`. -/
def Closes (s : State) (t : Nat) (who : Caller) (l : Nat) : Prop :=
  ∃ key, s.procs t = .closingListener who key l ∨ s.procs t = .closed who key (some l)

/-- A cancel reaches only a listener that was requested with the address that
it names and has the port that it names. -/
theorem Inv.cancel_names {W : World} {s : State} (hi : Inv W s) {t l : Nat} {ctx : Context}
    {payload : RemoteForwardRequest} (h : Closes s t (.cancel ctx payload) l) :
    l ∈ s.recorded ∧ ∃ f, s.sockets[l]? = some f ∧
      f.tag.payload.bindAddr = payload.bindAddr ∧ f.addr.2 = payload.bindPort.toNat := by
  obtain ⟨key, hp⟩ := h
  have hfacts : Caller.Ok (.cancel ctx payload) key ∧ l ∈ s.recorded ∧ HasKey s l key := by
    rcases hp with hp | hp
    · obtain ⟨hw, hr, hk, -⟩ := hi.procAt hp
      exact ⟨hw, hr, hk⟩
    · obtain ⟨hw, hr⟩ := hi.procAt hp
      exact ⟨hw, hr l rfl⟩
  obtain ⟨hkey, hr, f, hf, hk⟩ := hfacts
  obtain ⟨hb, ha⟩ := forwardKey_inj (hk.trans hkey)
  exact ⟨hr, f, hf, hb, by omega⟩

/-- A cancel closes only listeners that its own connection's requests opened. -/
def CancelIsolated (s : State) : Prop :=
  ∀ t ctx payload l f, Closes s t (.cancel ctx payload) l → s.sockets[l]? = some f →
    f.tag.ctx.conn = ctx.conn

/-- Connection 2 cancels the forward of connection 1: the table carries no
connection. -/
theorem cancel_crosses_connections :
    ¬ ∀ s, (system wireWorld).Reach s → CancelIsolated s := by
  intro h
  have hr := System.reach_get (system wireWorld)
    (openRun 0 1 loopbackIPv4 ++ cancelRun 3 2 loopbackIPv4) rfl (by decide)
  have hiso := h _ hr 3 ⟨2, true⟩ ⟨loopbackIPv4, 8000⟩ 0
    ⟨(wireWorld.resolve loopbackIPv4, 8000), false, ⟨0, ⟨1, true⟩, ⟨loopbackIPv4, 8000⟩, loopbackIPv4⟩⟩
    ⟨forwardKey loopbackIPv4 8000, by decide⟩ (by decide)
  exact absurd hiso (by decide)

/-- What a cancel can do, whichever connection it comes from. -/
structure CancelByName (W : World) (s : State) : Prop where
  closes : ∀ t ctx payload l, Closes s t (.cancel ctx payload) l → l ∈ s.recorded ∧
    ∃ f, s.sockets[l]? = some f ∧ f.tag.payload.bindAddr = payload.bindAddr ∧
      f.addr.2 = payload.bindPort.toNat
  unknown : ∀ t ctx payload key s', s.procs t = .closing (.cancel ctx payload) key →
    (∀ k l f, s.forwards k = some l → s.sockets[l]? = some f →
      ¬ (f.tag.payload.bindAddr = payload.bindAddr ∧ f.addr.2 = payload.bindPort.toNat)) →
    step W s (.remove t) = some s' →
    (s'.procs t).reply = some ⟨false, .nil⟩ ∧ s'.forwards = s.forwards ∧ s'.sockets = s.sockets

/-- **A cancel acts by name.** A cancel on any connection closes only the
listener that was requested with the address and given the port that it names,
whichever connection opened it; one that names no recorded forward is refused
and changes nothing. -/
theorem cancel_by_name {W : World} {s : State} (hs : (system W).Reach s) : CancelByName W s := by
  have hi := inv_of_reach hs
  refine ⟨fun t ctx payload l h => hi.cancel_names h, ?_⟩
  intro t ctx payload key s' hp hno hst
  have hkey : key = forwardKey payload.bindAddr payload.bindPort.toNat := hi.procAt hp
  have hnone : s.forwards key = none := by
    cases he : s.forwards key with
    | none => rfl
    | some l =>
      obtain ⟨-, f, hf, -, hk⟩ := hi.table key l he
      obtain ⟨hb, ha⟩ := forwardKey_inj (hk.trans hkey)
      exact absurd ⟨hb, by omega⟩ (hno key l f he hf)
  have hs' : s' = s.goto t (.closed (.cancel ctx payload) key none) := by
    simpa [step, hp, hnone, eq_comm] using hst
  subst hs'
  exact ⟨by simp [Proc.reply], rfl, rfl⟩

/-- A cancel of connection 2 for a port that nobody forwards. -/
theorem cancel_by_name_unknown : ∃ s, (system wireWorld).Reach s ∧
    s.procs 3 = .closing (.cancel ⟨2, true⟩ ⟨bindAnyIPv4, 8000⟩) (forwardKey bindAnyIPv4 8000) ∧
    s.forwards (forwardKey loopbackIPv4 8000) = some 0 ∧ CancelByName wireWorld s :=
  have hr := System.reach_get (system wireWorld) (openRun 0 1 loopbackIPv4 ++
    [.request 3 ⟨2, true⟩ ⟨requestTypeCancelForward, wireMarshal ⟨bindAnyIPv4, 8000⟩⟩]) rfl
    (by decide)
  ⟨_, hr, by decide, by decide, cancel_by_name hr⟩

/-! ## Reply, channels and cancel name one pair -/

/-- Listener `l`, accepted for `payload` and answered with port `p`. -/
structure OnePair (W : World) (s : State) (l : Nat) (payload : RemoteForwardRequest)
    (p : UInt32) : Prop where
  port : payload.bindPort ≠ 0 → p = payload.bindPort
  channel : ∀ d, (l, d) ∈ s.channels → d.destAddr = payload.bindAddr ∧ d.destPort = p
  cancel : (∃ key, s.forwards key = some l) → ∀ t ctx req, s.procs t = .idle →
    req.type = requestTypeCancelForward →
    W.unmarshal req.payload = some ⟨payload.bindAddr, p⟩ →
    ∃ s', (system W).exec s [.request t ctx req, .remove t, .close t] = some s' ∧
      (s'.procs t).reply = some ⟨true, .nil⟩ ∧ s'.sockets = Sock.shut s.sockets l ∧
      (∀ k, s'.forwards k ≠ some l) ∧
      ∀ k i, i ≠ l → (s'.forwards k = some i ↔ s.forwards k = some i)
  other : ∀ t ctx payload', Closes s t (.cancel ctx payload') l →
    payload' = ⟨payload.bindAddr, p⟩

/-- **Reply, channel payload and cancel agree**, for every accepted request in
every reachable state. -/
theorem reply_channel_cancel_agree {W : World} {s : State} (hs : (system W).Reach s)
    {t l : Nat} {ctx : Context} {payload : RemoteForwardRequest} {bp : BoundPort} {p : UInt32}
    (hp : s.procs t = .served ctx payload l bp)
    (hreply : (s.procs t).reply = some ⟨true, .success ⟨p⟩⟩) : OnePair W s l payload p := by
  have hi := inv_of_reach hs
  obtain ⟨hr, f, hf, hc, hpay, ha⟩ := hi.procAt hp
  have hff := hi.faithful l f hf
  have hpf : p = UInt32.ofNat f.addr.2 := by
    rw [hp] at hreply
    simp only [Proc.reply, Option.some.injEq, Reply.mk.injEq, true_and, ReplyPayload.success.injEq,
      RemoteForwardSuccess.mk.injEq] at hreply
    rw [ha, hreply]
  have hpn : p.toNat = f.addr.2 := by rw [hpf, toNat_bindPort hff]
  refine ⟨?_, ?_, ?_, ?_⟩
  · intro hne
    have := hff.requested (by rw [hpay]; exact hne)
    rw [hpay] at this
    exact UInt32.toNat_inj.mp (by omega)
  · intro d hd
    obtain ⟨g, hg, hda, hdp⟩ := hi.channel l d hd
    rw [hf] at hg
    rw [← Option.some.inj hg] at hda hdp
    exact ⟨by rw [hda, hpay], by rw [hdp, hpf]⟩
  · rintro ⟨key, hl⟩ u ctx' req hu hty hun
    have hkey : key = forwardKey payload.bindAddr p.toNat := by
      obtain ⟨-, g, hg, -, hk⟩ := hi.table key l hl
      rw [hf] at hg
      rw [← hk, ← Option.some.inj hg, keyOf, hpay, hpn]
    rw [hkey] at hl
    obtain ⟨s', hex, hrep, hsock, hfor⟩ := exec_cancel ctx' hu hty hun hl
    refine ⟨s', hex, hrep, hsock, ?_, ?_⟩
    · intro k hk
      rw [hfor, Function.update_apply] at hk
      split at hk
      · cases hk
      · rename_i hne
        exact hne (hi.key_unique hk hl)
    · intro k i hne
      rw [hfor]
      exact update_other hl hne
  · intro u ctx' payload' h
    obtain ⟨-, g, hg, hb, hap⟩ := hi.cancel_names h
    rw [hf] at hg
    rw [← Option.some.inj hg] at hb hap
    have hport : payload'.bindPort = p := UInt32.toNat_inj.mp (by rw [hpn]; exact hap.symm)
    rw [← hpay, hb, ← hport]

/-- A wildcard request, one relayed connection, and the cancel still to come. -/
theorem reply_channel_cancel_agree_wildcard : ∃ s, (system wireWorld).Reach s ∧
    s.procs 0 = .served ⟨1, true⟩ ⟨bindAnyIPv4, 8000⟩ 0 port8000 ∧
    s.channels = [(0, ⟨bindAnyIPv4, 8000, loopbackIPv4, 40000⟩)] ∧
    OnePair wireWorld s 0 ⟨bindAnyIPv4, 8000⟩ 8000 :=
  have hr := System.reach_get (system wireWorld)
    (openRun 0 1 bindAnyIPv4 ++ [.accept 2 (bytes "127.0.0.1:40000")]) rfl (by decide)
  ⟨_, hr, by decide, by decide, reply_channel_cancel_agree hr
    (show State.procs _ 0 = .served ⟨1, true⟩ ⟨bindAnyIPv4, 8000⟩ 0 port8000 by decide) (by decide)⟩

end WorkspaceProxy.SshServer.Forward
