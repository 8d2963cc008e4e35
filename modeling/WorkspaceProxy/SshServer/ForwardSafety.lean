import WorkspaceProxy.SshServer.ForwardTable

/-! # Loopback only, and a table that tells the truth

Two results about every reachable state of the handler. No listener is ever
bound outside loopback, whatever the clients send. And the table is faithful:
its listeners are open, each under one key, an insertion never replaces an
entry and the cleanup of an accept loop never touches another listener's. -/
namespace WorkspaceProxy.SshServer.Forward
open WorkspaceProxy.Go WorkspaceProxy.Conc

/-! ## A concrete world

The wire format of RFC 4254 section 7.1, a string with its length and a 32-bit
number, and hosts resolved to the address they spell. -/

def be32 (bs : List UInt8) : Nat := bs.foldl (fun n b => n * 256 + b.toNat) 0

def put32 (n : Nat) : List UInt8 :=
  [UInt8.ofNat (n / 2 ^ 24), UInt8.ofNat (n / 2 ^ 16), UInt8.ofNat (n / 2 ^ 8), UInt8.ofNat n]

def wireMarshal (r : RemoteForwardRequest) : List UInt8 :=
  put32 r.bindAddr.length ++ r.bindAddr ++ put32 r.bindPort.toNat

def wireUnmarshal (bs : List UInt8) : Option RemoteForwardRequest :=
  if 4 ≤ bs.length ∧ (bs.drop 4).length = be32 (bs.take 4) + 4 then
    some ⟨(bs.drop 4).take (be32 (bs.take 4)),
      UInt32.ofNat (be32 ((bs.drop 4).drop (be32 (bs.take 4))))⟩
  else none

def wireWorld : World where
  unmarshal := wireUnmarshal
  resolve host := (parseIP host).getD ⟨v4InV6Lead ++ [127, 0, 0, 1], rfl⟩

def port8000 : BoundPort := ⟨8000, by decide, by decide⟩

/-- Connection `c` asks for a forward of 8000 on `addr`, and goroutine `t`
serves it; `t + 1` and `t + 2` are the goroutines that it spawns. -/
def openRun (t c : Nat) (addr : GoString) : List Act :=
  [.request t ⟨c, true⟩ ⟨requestTypeForward, wireMarshal ⟨addr, 8000⟩⟩,
    .listen t (some port8000), .record t, .spawn t (t + 1) (t + 2)]

/-- Connection `c` cancels a forward of 8000 on `addr`. -/
def cancelRun (t c : Nat) (addr : GoString) : List Act :=
  [.request t ⟨c, true⟩ ⟨requestTypeCancelForward, wireMarshal ⟨addr, 8000⟩⟩,
    .remove t, .close t]

/-! ## Loopback only -/

/-- The shape of a bound host against the requested one. -/
def BoundFor (requested host : GoString) : Prop :=
  requested = host ∨ (requested ∈ anyBindAddresses ∧ host = loopbackIPv4)

theorem boundFor_bindHost (payload : RemoteForwardRequest) :
    BoundFor payload.bindAddr (bindHost payload) := by
  unfold bindHost
  by_cases hw : payload.bindAddr ∈ anyBindAddresses
  · rw [if_pos hw]; exact Or.inr ⟨hw, rfl⟩
  · rw [if_neg hw]; exact Or.inl rfl

/-- A request for an address that is neither a wildcard nor loopback is
answered at once, before anything is opened. -/
theorem handleSSHRequest_refuses (W : World) (ctx : Context) {req : Request}
    {payload : RemoteForwardRequest} (hu : W.unmarshal req.payload = some payload)
    (ht : req.type = requestTypeForward) (hw : payload.bindAddr ∉ anyBindAddresses)
    (hl : ¬ LoopbackHost payload.bindAddr) :
    handleSSHRequest W newServer ctx req = .refused ctx payload := by
  have hp : policyAllows newServer ctx payload = false := by
    have hb : bindHost payload = payload.bindAddr := if_neg hw
    have : isLoopback payload.bindAddr ≠ true := fun h => hl ((isLoopback_iff _).mp h)
    simpa [policyAllows, newServer, allowReverseForward, hb] using this
  simp [handleSSHRequest, hu, ht, hp]

/-- Every listener ever opened, every table entry, and every request for
another address. -/
structure LoopbackOnly (W : World) (s : State) : Prop where
  opened : ∀ (l : Nat) f, s.sockets[l]? = some f → LoopbackHost f.tag.host
  entry : ∀ key l, s.forwards key = some l → ∃ f, s.sockets[l]? = some f ∧
    LoopbackHost f.tag.host ∧ BoundFor f.tag.payload.bindAddr f.tag.host
  refused : ∀ t ctx req payload s', W.unmarshal req.payload = some payload →
    req.type = requestTypeForward → payload.bindAddr ∉ anyBindAddresses →
    ¬ LoopbackHost payload.bindAddr → step W s (.request t ctx req) = some s' →
    (s'.procs t).reply = some ⟨false, .text (bytes "port forwarding is disabled")⟩ ∧
      s'.sockets = s.sockets ∧ s'.forwards = s.forwards

/-- **Reverse forwards stay on loopback.** In every state that any number of
connections can reach with any requests, every listener is on the name
localhost or on a loopback literal, every entry's bound host is the requested
one or 127.0.0.1 for a wildcard, and any other address is refused. -/
theorem loopback_only {W : World} {s : State} (hs : (system W).Reach s) : LoopbackOnly W s := by
  have hi := inv_of_reach hs
  refine ⟨fun l f hf => (hi.faithful l f hf).loopback, ?_, ?_⟩
  · intro key l hl
    obtain ⟨-, f, hf, -, -⟩ := hi.table key l hl
    have hff := hi.faithful l f hf
    exact ⟨f, hf, hff.loopback, hff.host ▸ boundFor_bindHost f.tag.payload⟩
  · intro t ctx req payload s' hu ht hw hl hst
    cases step_cases hst with
    | request hp =>
      rw [handleSSHRequest_refuses W ctx hu ht hw hl]
      refine ⟨?_, rfl, rfl⟩
      simp [Proc.reply]

/-- The wildcard of RFC 4254, bound on 127.0.0.1. -/
theorem loopback_only_wildcard : ∃ s, (system wireWorld).Reach s ∧
    s.forwards (forwardKey bindAnyIPv4 8000) = some 0 ∧
    s.sockets[0]?.map (fun f => f.tag.host) = some loopbackIPv4 ∧ LoopbackOnly wireWorld s :=
  have hr := System.reach_get (system wireWorld) (openRun 0 1 bindAnyIPv4) rfl (by decide)
  ⟨_, hr, by decide, by decide, loopback_only hr⟩

/-! ## A faithful table -/

structure TableFaithful (W : World) (s : State) : Prop where
  isOpen : ∀ key l, s.forwards key = some l → ∃ f, s.sockets[l]? = some f ∧ f.isOpen = true
  oneKey : ∀ k₁ k₂ l, s.forwards k₁ = some l → s.forwards k₂ = some l → k₁ = k₂
  insertFresh : ∀ t ctx payload l p, s.procs t = .recording ctx payload l p →
    s.forwards (forwardKey payload.bindAddr p.val) = none
  cleanupOwn : ∀ t s', step W s (.cleanup t) = some s' → ∃ l key, s.procs t = .cleaning l key ∧
    ∀ k i, s.forwards k = some i → i ≠ l → s'.forwards k = some i

/-- Two listeners with one key have one address: the key fixes the requested
host and the port, and the requested host fixes the bound one. -/
theorem addr_of_key {W : World} {f g : Listener} (hf : Faithful W f) (hg : Faithful W g)
    (h : keyOf f = keyOf g) : f.addr = g.addr := by
  obtain ⟨hh, hp⟩ := forwardKey_inj h
  have hb : bindHost f.tag.payload = bindHost g.tag.payload := by simp only [bindHost, hh]
  have h1 : f.addr.1 = g.addr.1 := by rw [hf.addr, hg.addr, hf.host, hg.host, hb]
  exact Prod.ext h1 (by omega)

theorem Inv.insertFresh {W : World} {s : State} (hi : Inv W s) {t : Nat} {ctx : Context}
    {payload : RemoteForwardRequest} {l : Nat} {p : BoundPort}
    (hp : s.procs t = .recording ctx payload l p) :
    s.forwards (forwardKey payload.bindAddr p.val) = none := by
  obtain ⟨hn, f, hf, ho, -, -, hpay, ha⟩ := hi.procAt hp
  cases he : s.forwards (forwardKey payload.bindAddr p.val) with
  | none => rfl
  | some i =>
    obtain ⟨hr, g, hg, hgo, hk⟩ := hi.table _ i he
    have hkey : keyOf g = keyOf f := by rw [hk, keyOf, hpay, ha]
    have haddr := addr_of_key (hi.faithful i g hg) (hi.faithful l f hf) hkey
    have hil : i = l := hi.exclusive i l g f hg hf hgo ho haddr
    exact absurd (hil ▸ hr) hn

/-- **The table is faithful in every interleaving.** -/
theorem table_faithful {W : World} {s : State} (hs : (system W).Reach s) :
    TableFaithful W s := by
  have hi := inv_of_reach hs
  refine ⟨?_, fun _ _ _ h₁ h₂ => hi.key_unique h₁ h₂, fun _ _ _ _ _ hp => hi.insertFresh hp, ?_⟩
  · intro key l hl
    obtain ⟨-, f, hf, ho, -⟩ := hi.table key l hl
    exact ⟨f, hf, ho⟩
  · intro t s' hst
    cases step_cases hst with
    | @cleanup t l key hp =>
      refine ⟨l, key, hp, fun k i hk hne => ?_⟩
      simp only [State.cleanup_forwards]
      split
      · rename_i hown
        rw [Function.update_of_ne, hk]
        rintro rfl
        rw [hown] at hk
        exact hne (Option.some.inj hk).symm
      · exact hk

/-- Opened, cancelled and opened again: the first accept loop's cleanup is
still to come and the new entry is in place. -/
theorem table_faithful_reopened : ∃ s, (system wireWorld).Reach s ∧
    s.procs 2 = .cleaning 0 (forwardKey loopbackIPv4 8000) ∧
    s.forwards (forwardKey loopbackIPv4 8000) = some 1 ∧ TableFaithful wireWorld s :=
  have hr := System.reach_get (system wireWorld)
    (openRun 0 1 loopbackIPv4 ++ cancelRun 3 1 loopbackIPv4 ++ openRun 4 1 loopbackIPv4 ++
      [.acceptFail 2]) rfl (by decide)
  ⟨_, hr, by decide, by decide, table_faithful hr⟩

/-! ## Keys and origins -/

/-- **Keys do not collide, and an origin is the remote address.** A key
determines its host and its port for all texts; the address of a peer without
brackets in its host splits back into what it was made of, and a channel
opened for that peer names it. -/
theorem forwardKey_faithful (W : World) :
    (∀ (h₁ h₂ : GoString) (p₁ p₂ : Int), forwardKey h₁ p₁ = forwardKey h₂ p₂ →
      h₁ = h₂ ∧ p₁ = p₂) ∧
    ∀ host : GoString, openBracket ∉ host → closeBracket ∉ host → ∀ p : Nat, p ≤ 65535 →
      splitAddr (forwardKey host p) = (host, (p : Int)) ∧
      ∀ s t s', step W s (.accept t (forwardKey host p)) = some s' →
        ∃ l d, s'.channels = s.channels ++ [(l, d)] ∧
          d.originAddr = host ∧ d.originPort.toNat = p := by
  refine ⟨fun _ _ _ _ h => forwardKey_inj h, fun host ho hc p hp => ?_⟩
  have hsplit := splitAddr_forwardKey ho hc hp
  refine ⟨hsplit, fun s t s' hst => ?_⟩
  cases step_cases hst with
  | @accept _ l requestedAddr q key _ f hproc hf hopen =>
    refine ⟨l, _, rfl, by rw [hsplit], ?_⟩
    have hport : (UInt32.ofInt (p : Int)).toNat = p := by
      simp only [UInt32.ofInt, UInt32.toNat_ofNat']
      omega
    rw [hsplit, hport]

/-- A peer on an IPv6 address with a zone, whose text is bracketed. -/
theorem forwardKey_faithful_zoned : ∃ s s', (system wireWorld).Reach s ∧
    step wireWorld s (.accept 2 (bytes "[fe80::1%eth0]:40000")) = some s' ∧
    ∃ l d, s'.channels = s.channels ++ [(l, d)] ∧
      d.originAddr = bytes "fe80::1%eth0" ∧ d.originPort.toNat = 40000 :=
  have hr := System.reach_get (system wireWorld) (openRun 0 1 loopbackIPv4) rfl rfl
  have hsplit := (forwardKey_faithful wireWorld).2 (bytes "fe80::1%eth0") (by decide) (by decide)
    40000 (by decide)
  ⟨_, _, hr, rfl, hsplit.2 _ 2 _ rfl⟩

end WorkspaceProxy.SshServer.Forward
