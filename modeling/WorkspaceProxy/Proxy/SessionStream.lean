import Mathlib.Algebra.GroupWithZero.Nat
import WorkspaceProxy.Conc.Relay
import WorkspaceProxy.Proxy.SessionTeardown

/-! # The byte streams of a proxied session

Each pump is a relay: of the payloads of the client's binary messages to the
target, and of the target's bytes to the client. What the other goroutines do
can only break it off. -/
namespace WorkspaceProxy.Proxy.Session
open WorkspaceProxy.Conc

variable {p : Peers} {s s' : State}

/-- What the client sends to the target: the payloads of its binary messages. -/
def binaryBytes : List Message → List UInt8
  | [] => []
  | m :: ms => if m.messageType = .binary then m.data ++ binaryBytes ms else binaryBytes ms

/-- What the peer got. -/
def written (writes : List Write) : List UInt8 := writes.flatMap Write.data

/-- The bytes of the writes that returned no error. -/
def completed (writes : List Write) : Nat :=
  ((writes.filter Write.ok).map fun w => w.data.length).sum

@[simp] theorem written_snoc (writes : List Write) (w : Write) :
    written (writes ++ [w]) = written writes ++ w.data := by
  simp [written]

@[simp] theorem completed_ok (writes : List Write) (data : List UInt8) :
    completed (writes ++ [⟨data, true⟩]) = completed writes + data.length := by
  simp [completed]

@[simp] theorem completed_failed (writes : List Write) (data : List UInt8) :
    completed (writes ++ [⟨data, false⟩]) = completed writes := by
  simp [completed]

def ReadPump.status : ReadPump → RelayStatus UInt8
  | .writing data => .flowing data
  | .sending none | .finished none => .drained
  | .sending (some _) | .finished (some _) => .broken
  | _ => .flowing []

def WritePump.status : WritePump → RelayStatus UInt8
  | .locking buf | .writing buf => .flowing buf
  | .unlocking _ false => .broken
  | .sending none | .finished none => .drained
  | .sending (some _) | .finished (some _) => .broken
  | _ => .flowing []

/-- The bytes of a write that has returned and is not in the counter yet. -/
def ReadPump.uncounted : ReadPump → Nat
  | .counting n => n
  | _ => 0

def WritePump.uncounted : WritePump → Nat
  | .unlocking buf true => buf.length
  | .counting n => n
  | _ => 0

/-- The data of a write that is in progress. -/
def ReadPump.inFlight : ReadPump → List UInt8
  | .writing data => data
  | _ => []

def WritePump.inFlight : WritePump → List UInt8
  | .writing buf => buf
  | _ => []

/-- The pump has ended without an error. -/
def ReadPump.EndedNil (r : ReadPump) : Prop := r = .sending none ∨ r = .finished none

def WritePump.EndedNil (w : WritePump) : Prop := w = .sending none ∨ w = .finished none

structure Streams (p : Peers) (s : State) : Prop where
  read : Relayed (binaryBytes p.messages) (written s.wsToTcp.writes)
    (binaryBytes s.wsToTcp.unread) s.wsToTcp.phase.status
  readCounter : s.wsToTcp.counter + s.wsToTcp.phase.uncounted = completed s.wsToTcp.writes
  write : Relayed p.bytes (written s.tcpToWs.writes) s.tcpToWs.unread s.tcpToWs.phase.status
  writeCounter : s.tcpToWs.counter + s.tcpToWs.phase.uncounted = completed s.tcpToWs.writes

theorem Streams.readStep (h : Streams p s) (hst : ReadStep p s s') : Streams p s' := by
  have hr := h.read
  have hn := h.readCounter
  cases hst with
  | message hp hu hm =>
    rw [hp, hu, binaryBytes, if_pos hm] at hr
    rw [hp] at hn
    exact ⟨hr.read, hn, h.write, h.writeCounter⟩
  | ignore hp hu hm =>
    rw [hp, hu, binaryBytes, if_neg hm] at hr
    rw [hp] at hn
    exact ⟨hr, hn, h.write, h.writeCounter⟩
  | @closed code hp hu hcode =>
    rw [hp] at hr hn
    refine ⟨?_, hn, h.write, h.writeCounter⟩
    show Relayed _ _ (binaryBytes s.wsToTcp.unread) (ReadPump.sending (readResult _)).status
    rw [hu] at hr ⊢
    cases hres : readResult (.close code) with
    | none => exact hr.drain
    | some err => exact hr.stop
  | readFails hp =>
    rw [hp] at hr hn
    exact ⟨hr.stop, hn, h.write, h.writeCounter⟩
  | write hp =>
    rw [hp] at hr hn
    refine ⟨?_, ?_, h.write, h.writeCounter⟩
    · simp only [written_snoc]
      exact hr.write
    · simp only [completed_ok]
      simpa [ReadPump.uncounted] using hn
  | @writeFails data n hp =>
    rw [hp] at hr hn
    refine ⟨?_, ?_, h.write, h.writeCounter⟩
    · simp only [written_snoc]
      exact hr.cut (List.take_prefix n data)
    · simp only [completed_failed]
      exact hn
  | count hp =>
    rw [hp] at hr hn
    exact ⟨hr, hn, h.write, h.writeCounter⟩
  | @send err hp =>
    rw [hp] at hr hn
    refine ⟨?_, hn, h.write, h.writeCounter⟩
    cases err <;> exact hr

theorem Streams.writeStep (h : Streams p s) (hst : WriteStep p s s') : Streams p s' := by
  have hw := h.write
  have hn := h.writeCounter
  cases hst with
  | @read n hp hpos hbuf hlen =>
    rw [hp] at hw hn
    refine ⟨h.read, h.readCounter, ?_, hn⟩
    rw [← List.take_append_drop n s.tcpToWs.unread] at hw
    exact hw.read
  | eof hp hu he =>
    rw [hp] at hw hn
    refine ⟨h.read, h.readCounter, ?_, hn⟩
    rw [hu] at hw
    exact hw.drain
  | readFails hp =>
    rw [hp] at hw hn
    exact ⟨h.read, h.readCounter, hw.stop, hn⟩
  | lock hp =>
    rw [hp] at hw hn
    exact ⟨h.read, h.readCounter, hw, hn⟩
  | write hp =>
    rw [hp] at hw hn
    refine ⟨h.read, h.readCounter, ?_, ?_⟩
    · simp only [written_snoc]
      exact hw.write
    · simp only [completed_ok]
      simpa [WritePump.uncounted] using hn
  | @writeFails buf n hp =>
    rw [hp] at hw hn
    have hsent : (if buf.length ≤ n then buf else []) <+: buf := by
      split
      · exact List.prefix_rfl
      · exact List.nil_prefix
    refine ⟨h.read, h.readCounter, ?_, ?_⟩
    · simp only [written_snoc]
      exact hw.cut hsent
    · simp only [completed_failed]
      exact hn
  | unlock hp | unlockFailed hp | count hp =>
    rw [hp] at hw hn
    exact ⟨h.read, h.readCounter, hw, hn⟩
  | @send err hp =>
    rw [hp] at hw hn
    refine ⟨h.read, h.readCounter, ?_, hn⟩
    cases err <;> exact hw

/-- The goroutines that are not pumps. -/
theorem Streams.frame (h : Streams p s) (hr : s'.wsToTcp = s.wsToTcp)
    (hw : s'.tcpToWs = s.tcpToWs) : Streams p s' :=
  ⟨by rw [hr]; exact h.read, by rw [hr]; exact h.readCounter, by rw [hw]; exact h.write,
    by rw [hw]; exact h.writeCounter⟩

theorem Streams.bridgeStep (h : Streams p s) (hb : BridgeOk s s.bridge) (hst : BridgeStep s s') :
    Streams p s' := by
  cases hst with
  | spawnRead hbr =>
    rw [hbr] at hb
    have hr := h.read
    have hn := h.readCounter
    rw [hb.1] at hr hn
    exact ⟨hr, hn, h.write, h.writeCounter⟩
  | spawnWrite hbr =>
    rw [hbr] at hb
    have hw := h.write
    have hn := h.writeCounter
    rw [hb.2.1] at hw hn
    exact ⟨h.read, h.readCounter, hw, hn⟩
  | receive | closeWs | closeTcp | send => exact h.frame rfl rfl

theorem Streams.step {a : Act} (h : Streams p s) (hi : Inv s) (hst : Step p s a s') :
    Streams p s' := by
  cases hst with
  | caller hr => cases hr <;> exact h.frame rfl rfl
  | ping hp => cases hp <;> exact h.frame rfl rfl
  | bridge hb => exact h.bridgeStep hi.bridge hb
  | readPump hr => exact h.readStep hr
  | writePump hw => exact h.writeStep hw
  | timer ht => cases ht <;> exact h.frame rfl rfl
  | grace | endCtx => exact h.frame rfl rfl

theorem streams_stable (p : Peers) : (system p).Stable fun s => Inv s ∧ Streams p s where
  init := by
    rintro s rfl
    exact ⟨(inv_stable p).init _ rfl, .start, rfl, .start, rfl⟩
  step s a t h hst := ⟨(inv_stable p).step s a t h.1 hst, h.2.step h.1 (step_cases hst)⟩

/-- What each peer got, a part of a write in progress included, is the beginning
of the other's stream, and all of it where the pump ended without an error; the
counters say how many bytes went out, and between the return of a write and its
`Add` they are behind by that write. -/
structure Faithful (p : Peers) (s : State) : Prop where
  toTarget : ∀ sent, sent <+: s.wsToTcp.phase.inFlight →
    written s.wsToTcp.writes ++ sent <+: binaryBytes p.messages
  toClient : ∀ sent, sent <+: s.tcpToWs.phase.inFlight →
    written s.tcpToWs.writes ++ sent <+: p.bytes
  targetGotAll : s.wsToTcp.phase.EndedNil → written s.wsToTcp.writes = binaryBytes p.messages
  clientGotAll : s.tcpToWs.phase.EndedNil → written s.tcpToWs.writes = p.bytes
  wsToTcpBytes : s.wsToTcp.counter + s.wsToTcp.phase.uncounted = completed s.wsToTcp.writes
  tcpToWsBytes : s.tcpToWs.counter + s.tcpToWs.phase.uncounted = completed s.tcpToWs.writes

theorem Streams.faithful (h : Streams p s) : Faithful p s := by
  refine ⟨fun sent hsent => ?_, fun sent hsent => ?_, fun hend => ?_, fun hend => ?_,
    h.readCounter, h.writeCounter⟩
  · have hr := h.read
    cases hp : s.wsToTcp.phase with
    | writing data => rw [hp] at hr hsent; exact (hr.cut hsent).isPrefix
    | _ =>
      rw [hp] at hsent
      rw [List.prefix_nil.mp hsent, List.append_nil]
      exact hr.isPrefix
  · have hw := h.write
    cases hp : s.tcpToWs.phase with
    | writing buf => rw [hp] at hw hsent; exact (hw.cut hsent).isPrefix
    | _ =>
      rw [hp] at hsent
      rw [List.prefix_nil.mp hsent, List.append_nil]
      exact hw.isPrefix
  · have hr := h.read
    rcases hend with hp | hp <;> rw [hp] at hr <;> exact hr
  · have hw := h.write
    rcases hend with hp | hp <;> rw [hp] at hw <;> exact hw

/-- **The tunnel is faithful.** For all streams of the peers and all
interleavings, failures and closes. -/
theorem tunnel_faithful {p : Peers} {s : State} (hs : (system p).Reach s) : Faithful p s :=
  ((streams_stable p).reach hs).2.faithful

/-- The message of `oneMessage` was written and the close frame read. -/
theorem tunnel_faithful_close : ∃ s, (system oneMessage).Reach s ∧ s.wsToTcp.phase.EndedNil ∧
    written s.wsToTcp.writes = [1, 2, 3] ∧ s.wsToTcp.counter = 3 ∧ Faithful oneMessage s := by
  obtain ⟨s, hs, hend, hw, hn⟩ : ∃ s, (system oneMessage).Reach s ∧
      s.wsToTcp.phase.EndedNil ∧ written s.wsToTcp.writes = [1, 2, 3] ∧ s.wsToTcp.counter = 3 :=
    ⟨_, System.reach_get (system oneMessage) closeRun rfl rfl, .inl rfl, rfl, rfl⟩
  exact ⟨s, hs, hend, hw, hn, tunnel_faithful hs⟩

end WorkspaceProxy.Proxy.Session
