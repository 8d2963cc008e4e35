import WorkspaceProxy.Conc.Fair
import WorkspaceProxy.Go.Copy
import Mathlib.Logic.Function.Basic

/-! # The relay of a forwarded connection

`relay` opens a channel to the client for a connection that a forward's listener
accepted, and starts a goroutine that discards the client's requests on the channel and
two that each copy in one direction and then close the connection and the channel. The
opener, the goroutines and the peers move in any order. What is delivered in a direction
is the beginning of what was sent, and all of it for the direction that ends first at
the end of its stream. Once one direction has ended and the client has answered the
close of the channel, the other one ends as well, and nothing stays open. -/
namespace WorkspaceProxy.SshServer.ForwardRelay
open WorkspaceProxy.Conc WorkspaceProxy.Go

/-- `io.Copy(channel, inbound)` and `io.Copy(inbound, channel)`. -/
inductive Dir
  | toChannel
  | toInbound
deriving DecidableEq

def Dir.other : Dir → Dir
  | .toChannel => .toInbound
  | .toInbound => .toChannel

/-- What the two ends send: the bytes that go in a direction, and whether their sender
ends the stream after them, be it by a close or with the connection. -/
structure Peers where
  bytes : Dir → List UInt8
  ends : Dir → Bool

/-- The goroutine that runs `relay` itself. -/
inductive Opener
  | opening
  | refusing
  | spawningDiscard
  | spawning (d : Dir)
  | returned
deriving DecidableEq

/-- `gossh.DiscardRequests`, a loop over the requests of the channel. -/
inductive Discard
  | unborn
  | ranging
  | returned
deriving DecidableEq

/-- A goroutine that copies; the deferred closes run last first. -/
inductive Thread
  | unborn
  | copying
  | closingInbound
  | closingChannel
  | returned
deriving DecidableEq

/-- `requests` counts the requests that came and were not taken yet, and `answered` says
that the client has closed the channel too, in answer to this side or on its own, or is
gone. `endings` lists the directions in the order in which their copies returned. -/
structure State where
  opener : Opener
  opened : Bool
  discard : Discard
  requests : Nat
  answered : Bool
  thread : Dir → Thread
  copy : Dir → Copy UInt8
  inboundClosed : Bool
  channelClosed : Bool
  endings : List Dir

inductive Act
  | openChannel (ok : Bool)
  | refuse
  | spawn
  | copy (d : Dir) (a : CopyAct)
  | cut (d : Dir)
  | close (d : Dir)
  | request
  | discard
  | answer
deriving DecidableEq

/-- What a read or a write may come to. The channel still gives what it has buffered
when it was closed; a closed connection gives nothing. -/
def State.allows (p : Peers) (s : State) (d : Dir) : CopyAct → Bool
  | .read _ => d == .toInbound || !s.inboundClosed
  | .eof => (s.copy d).unread.isEmpty && p.ends d
  | .readFails => true
  | .write =>
    match d with
    | .toChannel => !s.channelClosed && !s.answered
    | .toInbound => !s.inboundClosed
  | .writeFails _ => true

/-- What a read or a write comes to because its connection was closed. `channel.Close`
only sends a message: a read of the channel, or a write that waits for the client's
window, returns when the client has closed the channel too. -/
def State.forced (s : State) (d : Dir) : Option CopyAct :=
  match (s.copy d).phase, d with
  | .reading, .toChannel => if s.inboundClosed then some .readFails else none
  | .reading, .toInbound => if s.channelClosed && s.answered then some .eof else none
  | .writing _, .toChannel => if s.answered then some (.writeFails 0) else none
  | .writing _, .toInbound => if s.inboundClosed then some (.writeFails 0) else none
  | .returned _, _ => none

/-- The copy in direction `d` comes to `c`. -/
def State.put (s : State) (d : Dir) (c : Copy UInt8) : State :=
  match c.phase with
  | .returned _ =>
    { s with
      copy := Function.update s.copy d c
      thread := Function.update s.thread d .closingInbound
      endings := s.endings ++ [d] }
  | _ => { s with copy := Function.update s.copy d c }

def step (p : Peers) (s : State) : Act → Option State
  | .openChannel ok =>
    if s.opener = .opening then
      some (if ok then { s with opener := .spawningDiscard, opened := true }
        else { s with opener := .refusing })
    else none
  | .refuse =>
    if s.opener = .refusing then some { s with opener := .returned, inboundClosed := true }
    else none
  | .spawn =>
    match s.opener with
    | .spawningDiscard => some { s with opener := .spawning .toChannel, discard := .ranging }
    | .spawning d =>
      some { s with
        opener := match d with
          | .toChannel => .spawning .toInbound
          | .toInbound => .returned
        thread := Function.update s.thread d .copying }
    | _ => none
  | .copy d a =>
    if s.thread d = .copying ∧ s.allows p d a = true then ((s.copy d).step a).map (s.put d)
    else none
  | .cut d =>
    if s.thread d = .copying then
      (s.forced d).bind fun a => ((s.copy d).step a).map (s.put d)
    else none
  | .close d =>
    match s.thread d with
    | .closingInbound =>
      some { s with
        inboundClosed := true
        thread := Function.update s.thread d .closingChannel }
    | .closingChannel =>
      some { s with
        channelClosed := true
        thread := Function.update s.thread d .returned }
    | _ => none
  | .request =>
    if s.opened = true ∧ s.answered = false then some { s with requests := s.requests + 1 }
    else none
  | .discard =>
    if s.discard = .ranging then
      if 0 < s.requests then some { s with requests := s.requests - 1 }
      else if s.answered then some { s with discard := .returned }
      else none
    else none
  | .answer =>
    -- the client answers, or its stream has come to an end
    if s.opened = true ∧ s.answered = false ∧ (s.channelClosed || p.ends .toInbound) = true then
      some { s with answered := true }
    else none

def initial (p : Peers) : State :=
  { opener := .opening
    opened := false
    discard := .unborn
    requests := 0
    answered := false
    thread := fun _ => .unborn
    copy := fun d => Copy.start (p.bytes d)
    inboundClosed := false
    channelClosed := false
    endings := [] }

def system (p : Peers) : System State Act := ⟨(· = initial p), step p⟩

/-- The steps of `step`, one constructor for each way to take one. -/
inductive Step (p : Peers) (s : State) : Act → State → Prop
  | opened : s.opener = .opening →
      Step p s (.openChannel true) { s with opener := .spawningDiscard, opened := true }
  | refused : s.opener = .opening → Step p s (.openChannel false) { s with opener := .refusing }
  | refuse : s.opener = .refusing →
      Step p s .refuse { s with opener := .returned, inboundClosed := true }
  | spawnDiscard : s.opener = .spawningDiscard →
      Step p s .spawn { s with opener := .spawning .toChannel, discard := .ranging }
  | spawnFirst : s.opener = .spawning .toChannel → Step p s .spawn
      { s with opener := .spawning .toInbound,
               thread := Function.update s.thread .toChannel .copying }
  | spawnSecond : s.opener = .spawning .toInbound → Step p s .spawn
      { s with opener := .returned, thread := Function.update s.thread .toInbound .copying }
  | copy {d a c} : s.thread d = .copying → s.allows p d a = true → Copy.Step (s.copy d) a c →
      Step p s (.copy d a) (s.put d c)
  | cut {d a c} : s.thread d = .copying → s.forced d = some a → Copy.Step (s.copy d) a c →
      Step p s (.cut d) (s.put d c)
  | closeInbound {d} : s.thread d = .closingInbound → Step p s (.close d)
      { s with inboundClosed := true, thread := Function.update s.thread d .closingChannel }
  | closeChannel {d} : s.thread d = .closingChannel → Step p s (.close d)
      { s with channelClosed := true, thread := Function.update s.thread d .returned }
  | request : s.opened = true → s.answered = false →
      Step p s .request { s with requests := s.requests + 1 }
  | discard : s.discard = .ranging → 0 < s.requests →
      Step p s .discard { s with requests := s.requests - 1 }
  | discarded : s.discard = .ranging → s.requests = 0 → s.answered = true →
      Step p s .discard { s with discard := .returned }
  | answer : s.opened = true → s.answered = false → Step p s .answer { s with answered := true }

variable {p : Peers} {s t : State} {a : Act} {d e : Dir}

theorem step_cases (h : step p s a = some t) : Step p s a t := by
  cases a with
  | openChannel ok =>
    simp only [step] at h
    split at h
    · cases ok <;> cases h
      · exact .refused ‹_›
      · exact .opened ‹_›
    · cases h
  | refuse =>
    simp only [step] at h
    split at h
    · cases h; exact .refuse ‹_›
    · cases h
  | spawn =>
    simp only [step] at h
    split at h
    · cases h
      exact .spawnDiscard ‹_›
    · rename_i d hd
      cases d <;> cases h
      · exact .spawnFirst hd
      · exact .spawnSecond hd
    · cases h
  | copy d a =>
    simp only [step] at h
    split at h
    · rename_i hc
      obtain ⟨c, hcopy, rfl⟩ := Option.map_eq_some_iff.mp h
      exact .copy hc.1 hc.2 (Copy.step_cases hcopy)
    · cases h
  | cut d =>
    simp only [step] at h
    split at h
    · obtain ⟨a, ha, h⟩ := Option.bind_eq_some_iff.mp h
      obtain ⟨c, hcopy, rfl⟩ := Option.map_eq_some_iff.mp h
      exact .cut ‹_› ha (Copy.step_cases hcopy)
    · cases h
  | close d =>
    simp only [step] at h
    split at h
    · cases h; exact .closeInbound ‹_›
    · cases h; exact .closeChannel ‹_›
    · cases h
  | request =>
    simp only [step] at h
    split at h
    · rename_i hc
      cases h
      exact .request hc.1 hc.2
    · cases h
  | discard =>
    simp only [step] at h
    split at h
    · split at h
      · cases h
        exact .discard ‹_› ‹_›
      · split at h
        · cases h
          exact .discarded ‹_› (Nat.eq_zero_of_not_pos ‹_›) ‹_›
        · cases h
    · cases h
  | answer =>
    simp only [step] at h
    split at h
    · rename_i hc
      cases h
      exact .answer hc.1 hc.2.1
    · cases h

/-! ## What holds at each step -/

/-- The copy has returned. -/
def Thread.Past : Thread → Prop
  | .unborn | .copying => False
  | _ => True

def OpenerOk (s : State) : Opener → Prop
  | .opening | .refusing =>
      s.opened = false ∧ s.inboundClosed = false ∧ ∀ d, s.thread d = .unborn
  | .spawningDiscard | .spawning .toChannel => s.opened = true ∧ ∀ d, s.thread d = .unborn
  | .spawning .toInbound =>
      s.opened = true ∧ s.thread .toChannel ≠ .unborn ∧ s.thread .toInbound = .unborn
  | .returned =>
      (s.opened = true ∧ ∀ d, s.thread d ≠ .unborn) ∨
      (s.opened = false ∧ s.inboundClosed = true ∧ ∀ d, s.thread d = .unborn)

structure Inv (p : Peers) (s : State) : Prop where
  ok : ∀ d, Copy.Ok (p.bytes d) (s.copy d)
  going : ∀ d, ¬ (s.thread d).Past → ¬ (s.copy d).Ended
  listed : ∀ d, d ∈ s.endings ↔ (s.thread d).Past
  closedInbound : ∀ d, s.thread d = .closingChannel ∨ s.thread d = .returned →
    s.inboundClosed = true
  closedChannel : ∀ d, s.thread d = .returned → s.channelClosed = true
  opener : OpenerOk s s.opener
  inbound : s.opened = true → s.inboundClosed = true → s.endings ≠ []
  channel : s.channelClosed = true → s.endings ≠ []
  first : ∀ d, s.endings.head? = some d → (s.copy d).phase = .returned .eof →
    (s.copy d).unread = []
  discard : s.opened = true → s.opener ≠ .spawningDiscard → s.discard ≠ .unborn

/-- What the goroutines that copy leave alone for the opener. -/
theorem OpenerOk.frame {o : Opener} (h : OpenerOk s o) (hopened : t.opened = s.opened)
    (hunborn : ∀ d, t.thread d = .unborn ↔ s.thread d = .unborn)
    (hinbound : t.inboundClosed = s.inboundClosed ∨
      t.inboundClosed = true ∧ ∃ d, s.thread d ≠ .unborn) : OpenerOk t o := by
  cases o with
  | opening | refusing =>
    obtain ⟨ho, hi, hall⟩ := h
    refine ⟨by rw [hopened, ho], ?_, fun d => (hunborn d).mpr (hall d)⟩
    obtain hi' | ⟨-, d, hd⟩ := hinbound
    · rw [hi', hi]
    · exact absurd (hall d) hd
  | spawningDiscard => exact ⟨by rw [hopened, h.1], fun d => (hunborn d).mpr (h.2 d)⟩
  | spawning e =>
    cases e with
    | toChannel => exact ⟨by rw [hopened, h.1], fun d => (hunborn d).mpr (h.2 d)⟩
    | toInbound =>
      exact ⟨by rw [hopened, h.1], mt (hunborn _).mp h.2.1, (hunborn _).mpr h.2.2⟩
  | returned =>
    obtain ⟨ho, hall⟩ | ⟨ho, hi, hall⟩ := h
    · exact .inl ⟨by rw [hopened, ho], fun d => mt (hunborn d).mp (hall d)⟩
    · refine .inr ⟨by rw [hopened, ho], ?_, fun d => (hunborn d).mpr (hall d)⟩
      obtain hi' | ⟨hi', -⟩ := hinbound
      · rw [hi', hi]
      · exact hi'

/-- A started goroutine that moves on stays started. -/
theorem unborn_update (hd : s.thread d ≠ .unborn) (x : Thread) (hx : x ≠ .unborn) (e : Dir) :
    Function.update s.thread d x e = .unborn ↔ s.thread e = .unborn := by
  by_cases he : e = d
  · subst he
    simp [hd, hx]
  · rw [Function.update_of_ne he]

/-- What the new place of the goroutine does not have, another one has. -/
theorem of_update {P : Thread → Prop} {x : Thread} (h : P (Function.update s.thread d x e))
    (hx : ¬ P x) : P (s.thread e) := by
  by_cases he : e = d
  · subst he
    rw [Function.update_self] at h
    exact absurd h hx
  · rwa [Function.update_of_ne he] at h

theorem put_of_returned {c : Copy UInt8} {how : CopyEnd} (hc : c.phase = .returned how) :
    s.put d c = { s with
      copy := Function.update s.copy d c
      thread := Function.update s.thread d .closingInbound
      endings := s.endings ++ [d] } := by
  unfold State.put
  rw [hc]

theorem put_of_going {c : Copy UInt8} (hc : ¬ c.Ended) :
    s.put d c = { s with copy := Function.update s.copy d c } := by
  unfold State.put
  split
  · exact absurd ⟨_, ‹_›⟩ hc
  · rfl

/-- The direction that ended first is not one that still copies. -/
theorem Inv.first_ne (h : Inv p s) (hd : s.thread d = .copying) (he : s.endings.head? = some e) :
    e ≠ d := by
  intro hed
  have hpast := (h.listed e).mp (List.mem_of_mem_head? he)
  rw [hed, hd] at hpast
  exact hpast

theorem Inv.ok_update {x : CopyAct} {c : Copy UInt8} (h : Inv p s)
    (hst : Copy.Step (s.copy d) x c) (e : Dir) :
    Copy.Ok (p.bytes e) (Function.update s.copy d c e) := by
  by_cases he : e = d
  · subst he
    rw [Function.update_self]
    exact (h.ok e).step hst
  · rw [Function.update_of_ne he]
    exact h.ok e

/-- A direction that had ended before is another one, and its copy is as it was. -/
theorem Inv.first_kept {c : Copy UInt8} (h : Inv p s) (hd : s.thread d = .copying) (e : Dir)
    (he : s.endings.head? = some e) (heof : (Function.update s.copy d c e).phase = .returned .eof) :
    (Function.update s.copy d c e).unread = [] := by
  rw [Function.update_of_ne (h.first_ne hd he)] at heof ⊢
  exact h.first e he heof

theorem Inv.put_returned {x : CopyAct} {c : Copy UInt8} {how : CopyEnd} (h : Inv p s)
    (hd : s.thread d = .copying) (hst : Copy.Step (s.copy d) x c) (hphase : c.phase = .returned how)
    (hfirst : s.endings = [] → c.phase = .returned .eof → c.unread = []) :
    Inv p (s.put d c) := by
  rw [put_of_returned hphase]
  have hborn : s.thread d ≠ .unborn := by simp [hd]
  have hunborn := unborn_update hborn .closingInbound (by decide)
  refine ⟨h.ok_update hst, ?_, ?_, ?_, ?_, h.opener.frame rfl hunborn (.inl rfl), ?_, ?_, ?_,
    h.discard⟩
  · intro e he
    by_cases hed : e = d
    · subst hed
      simp [Thread.Past] at he
    · simp only [Function.update_of_ne hed] at he ⊢
      exact h.going e he
  · intro e
    by_cases he : e = d
    · subst he
      simp [Thread.Past]
    · simp [he, h.listed e]
  · intro e he
    exact h.closedInbound e
      (of_update (P := fun x => x = .closingChannel ∨ x = .returned) he (by decide))
  · intro e he
    exact h.closedChannel e (of_update (P := (· = .returned)) he (by decide))
  · simp
  · simp
  · intro e he
    cases hends : s.endings with
    | nil =>
      simp only [hends, List.nil_append, List.head?_cons, Option.some.injEq] at he
      subst he
      simpa only [Function.update_self] using hfirst hends
    | cons e' rest =>
      simp only [hends, List.cons_append, List.head?_cons] at he
      exact h.first_kept hd e (by rw [hends]; exact he)

theorem Inv.put_going {x : CopyAct} {c : Copy UInt8} (h : Inv p s) (hd : s.thread d = .copying)
    (hst : Copy.Step (s.copy d) x c) (hc : ¬ c.Ended) : Inv p (s.put d c) := by
  rw [put_of_going hc]
  have hgoing : ∀ e, ¬ (s.thread e).Past → ¬ (Function.update s.copy d c e).Ended := by
    intro e he
    by_cases hed : e = d
    · subst hed
      rwa [Function.update_self]
    · rw [Function.update_of_ne hed]
      exact h.going e he
  exact ⟨h.ok_update hst, hgoing, h.listed, h.closedInbound, h.closedChannel,
    h.opener.frame rfl (fun _ => Iff.rfl) (.inl rfl), h.inbound, h.channel, h.first_kept hd,
    h.discard⟩

theorem Inv.put {x : CopyAct} {c : Copy UInt8} (h : Inv p s) (hd : s.thread d = .copying)
    (hst : Copy.Step (s.copy d) x c)
    (hfirst : s.endings = [] → c.phase = .returned .eof → c.unread = []) :
    Inv p (s.put d c) := by
  by_cases hc : c.Ended
  · obtain ⟨how, hphase⟩ := hc
    exact h.put_returned hd hst hphase hfirst
  · exact h.put_going hd hst hc

/-- While nothing has ended, no read is cut off at what seems the end of its stream. -/
theorem Inv.forced_ne_eof (h : Inv p s) (hends : s.endings = []) : s.forced d ≠ some .eof := by
  have hc : s.channelClosed = false := by
    by_contra hc
    exact h.channel (by simpa using hc) hends
  unfold State.forced
  cases d <;> split <;> simp [hc]

theorem Inv.closeInbound (h : Inv p s) (hd : s.thread d = .closingInbound) :
    Inv p { s with
      inboundClosed := true
      thread := Function.update s.thread d .closingChannel } := by
  have hborn : s.thread d ≠ .unborn := by simp [hd]
  have hends : s.endings ≠ [] :=
    List.ne_nil_of_mem ((h.listed d).mpr (by rw [hd]; exact trivial))
  refine ⟨h.ok, ?_, ?_, fun _ _ => rfl, ?_,
    h.opener.frame rfl (unborn_update hborn _ (by decide)) (.inr ⟨rfl, d, hborn⟩),
    fun _ _ => hends, h.channel, h.first, h.discard⟩
  · intro e he
    exact h.going e (of_update (P := (¬ ·.Past)) he (not_not_intro trivial))
  · intro e
    by_cases he : e = d
    · subst he
      simp [h.listed e, hd, Thread.Past]
    · simp [he, h.listed e]
  · intro e he
    exact h.closedChannel e (of_update (P := (· = .returned)) he (by decide))

theorem Inv.closeChannel (h : Inv p s) (hd : s.thread d = .closingChannel) :
    Inv p { s with
      channelClosed := true
      thread := Function.update s.thread d .returned } := by
  have hborn : s.thread d ≠ .unborn := by simp [hd]
  have hends : s.endings ≠ [] :=
    List.ne_nil_of_mem ((h.listed d).mpr (by rw [hd]; exact trivial))
  refine ⟨h.ok, ?_, ?_, fun _ _ => h.closedInbound d (.inl hd), fun _ _ => rfl,
    h.opener.frame rfl (unborn_update hborn _ (by decide)) (.inl rfl),
    h.inbound, fun _ => hends, h.first, h.discard⟩
  · intro e he
    exact h.going e (of_update (P := (¬ ·.Past)) he (not_not_intro trivial))
  · intro e
    by_cases he : e = d
    · subst he
      simp [h.listed e, hd, Thread.Past]
    · simp [he, h.listed e]

/-- The opener starts a goroutine that copies. -/
theorem Inv.spawn {o : Opener} (h : Inv p s) (hd : s.thread d = .unborn)
    (ho : OpenerOk { s with opener := o, thread := Function.update s.thread d .copying } o)
    (hdiscard : s.opened = true → s.discard ≠ .unborn) :
    Inv p { s with opener := o, thread := Function.update s.thread d .copying } := by
  refine ⟨h.ok, ?_, ?_, ?_, ?_, ho, h.inbound, h.channel, h.first, fun hopen _ => hdiscard hopen⟩
  · intro e he
    by_cases hed : e = d
    · subst hed
      exact h.going e (by rw [hd]; exact id)
    · simp only [Function.update_of_ne hed] at he
      exact h.going e he
  · intro e
    by_cases he : e = d
    · subst he
      simp [h.listed e, hd, Thread.Past]
    · simp [he, h.listed e]
  · intro e he
    exact h.closedInbound e
      (of_update (P := fun x => x = .closingChannel ∨ x = .returned) he (by decide))
  · intro e he
    exact h.closedChannel e (of_update (P := (· = .returned)) he (by decide))

theorem Inv.step (h : Inv p s) (hst : Step p s a t) : Inv p t := by
  have hop := h.opener
  cases hst with
  | opened ho =>
    rw [ho] at hop
    obtain ⟨-, hi, hall⟩ := hop
    refine ⟨h.ok, h.going, h.listed, h.closedInbound, h.closedChannel, ⟨rfl, hall⟩, ?_, h.channel,
      h.first, fun _ hno => absurd rfl hno⟩
    intro _ hclosed
    exact absurd (hi.symm.trans hclosed) (by decide)
  | refused ho =>
    rw [ho] at hop
    exact ⟨h.ok, h.going, h.listed, h.closedInbound, h.closedChannel, hop, h.inbound, h.channel,
      h.first, fun hopen _ => h.discard hopen (by simp [ho])⟩
  | refuse ho =>
    rw [ho] at hop
    obtain ⟨hopened, -, hall⟩ := hop
    refine ⟨h.ok, h.going, h.listed, fun _ _ => rfl, h.closedChannel, .inr ⟨hopened, rfl, hall⟩, ?_,
      h.channel, h.first, fun hopen _ => h.discard hopen (by simp [ho])⟩
    intro hyes
    exact absurd (hopened.symm.trans hyes) (by decide)
  | spawnDiscard ho =>
    rw [ho] at hop
    exact ⟨h.ok, h.going, h.listed, h.closedInbound, h.closedChannel, hop, h.inbound, h.channel,
      h.first, fun _ _ => by simp⟩
  | spawnFirst ho =>
    rw [ho] at hop
    exact h.spawn (hop.2 .toChannel) ⟨hop.1, by simp, by simpa using hop.2 .toInbound⟩
      fun hopen => h.discard hopen (by simp [ho])
  | spawnSecond ho =>
    rw [ho] at hop
    refine h.spawn hop.2.2 (.inl ⟨hop.1, ?_⟩) fun hopen => h.discard hopen (by simp [ho])
    intro d
    cases d with
    | toChannel => simpa using hop.2.1
    | toInbound => simp
  | @copy d a c hd hallow hcopy =>
    refine h.put hd hcopy ?_
    intro _ hphase
    -- Only the end of the stream makes `io.Copy` return without an error.
    cases hcopy with
    | eof _ => simpa [State.allows] using (Bool.and_eq_true_iff.mp hallow).1
    | read _ _ _ | readFails _ | write _ | writeFails _ => cases hphase
  | @cut d a c hd hforced hcopy =>
    refine h.put hd hcopy ?_
    intro hends hphase
    cases hcopy with
    | eof _ => exact absurd hforced (h.forced_ne_eof hends)
    | read _ _ _ | readFails _ | write _ | writeFails _ => cases hphase
  | closeInbound hd => exact h.closeInbound hd
  | closeChannel hd => exact h.closeChannel hd
  | request _ _ | discard _ _ | answer _ _ =>
    exact ⟨h.ok, h.going, h.listed, h.closedInbound, h.closedChannel,
      hop.frame rfl (fun _ => Iff.rfl) (.inl rfl), h.inbound, h.channel, h.first, h.discard⟩
  | discarded _ _ _ =>
    exact ⟨h.ok, h.going, h.listed, h.closedInbound, h.closedChannel,
      hop.frame rfl (fun _ => Iff.rfl) (.inl rfl), h.inbound, h.channel, h.first,
      fun _ _ => by simp⟩

theorem Inv.initial : Inv p (initial p) where
  ok _ := .start
  going d _ h := by
    obtain ⟨how, hphase⟩ := h
    cases hphase
  listed d := by simp [ForwardRelay.initial, Thread.Past]
  closedInbound d h := by simp [ForwardRelay.initial] at h
  closedChannel d h := by simp [ForwardRelay.initial] at h
  opener := ⟨rfl, rfl, fun _ => rfl⟩
  inbound h := by simp [ForwardRelay.initial] at h
  channel h := by simp [ForwardRelay.initial] at h
  first d h := by simp [ForwardRelay.initial] at h
  discard h := by simp [ForwardRelay.initial] at h

theorem inv_stable (p : Peers) : (system p).Stable (Inv p) where
  init s hs := by rw [show s = ForwardRelay.initial p from hs]; exact Inv.initial
  step s a t h hst := h.step (step_cases hst)

/-! ## What is delivered -/

structure Delivered (p : Peers) (s : State) : Prop where
  inOrder : ∀ d, (s.copy d).out <+: p.bytes d
  complete : ∀ d, s.endings.head? = some d → (s.copy d).phase = .returned .eof →
    (s.copy d).out = p.bytes d
  undisturbed : s.opened = true → s.endings = [] →
    s.inboundClosed = false ∧ s.channelClosed = false

/-- In each direction the beginning of what was sent is delivered. The copy that
returns first, at the end of its stream, has delivered everything, and until a copy
has returned neither connection is closed. -/
theorem relay_delivers (hs : (system p).Reach s) : Delivered p s := by
  have h := (inv_stable p).reach hs
  refine ⟨fun d => (h.ok d).isPrefix, ?_, ?_⟩
  · intro d hd hphase
    exact (h.ok d).complete hphase (by simp) (h.first d hd hphase)
  · intro hopened hends
    constructor
    · by_contra hi
      exact h.inbound hopened (by simpa using hi) hends
    · by_contra hc
      exact h.channel (by simpa using hc) hends

/-- The client sends two bytes and ends its stream, which the copy then relays. -/
def shortPeers : Peers := ⟨fun _ => [1, 2], fun d => d == .toInbound⟩

def shortRun : List Act :=
  [.openChannel true, .spawn, .spawn, .spawn, .copy .toInbound (.read 2), .copy .toInbound .write,
    .copy .toInbound .eof, .close .toInbound, .cut .toChannel, .close .toInbound]

theorem relay_delivers_short : ∃ s, (system shortPeers).Reach s ∧
    s.endings.head? = some .toInbound ∧ (s.copy .toInbound).phase = .returned .eof ∧
    (s.copy .toInbound).out = [1, 2] := by
  obtain ⟨s, hs, hhead, hphase⟩ : ∃ s, (system shortPeers).Reach s ∧
      s.endings.head? = some .toInbound ∧ (s.copy .toInbound).phase = .returned .eof :=
    ⟨_, System.reach_get (system shortPeers) shortRun rfl rfl, rfl, rfl⟩
  exact ⟨s, hs, hhead, hphase, (relay_delivers hs).complete .toInbound hhead hphase⟩

/-! ## Nothing stays open -/

/-- `relay` itself, once the client has answered `OpenChannel`. -/
def OfOpener : Act → Prop
  | .refuse | .spawn => True
  | _ => False

/-- What a copying goroutine must come to: its closes, and the return of a read or a
write on a connection that is closed (on the channel: by both sides). A read of an open
connection may wait for ever. -/
def OfThread (d : Dir) : Act → Prop
  | .cut e | .close e => e = d
  | _ => False

def OfDiscard : Act → Prop
  | .discard => True
  | _ => False

/-- The client's part: where this side has closed the channel, the client closes it too,
or its connection ends. -/
def Answers (r : (system p).Run) : Prop :=
  ∀ n, (r.state n).channelClosed = true → ∃ k, n ≤ k ∧ (r.state k).answered = true

def Thread.left : Thread → Nat
  | .unborn | .copying => 3
  | .closingInbound => 2
  | .closingChannel => 1
  | .returned => 0

/-- What the goroutine of direction `d` has left to do. -/
def rank (d : Dir) (s : State) : Nat := (s.copy d).rank + (s.thread d).left

theorem rank_put {x : CopyAct} {c : Copy UInt8} (hd : s.thread d = .copying)
    (hst : Copy.Step (s.copy d) x c) : rank d (s.put d c) < rank d s := by
  have hlt := Copy.rank_lt hst
  by_cases hc : c.Ended
  · obtain ⟨how, hphase⟩ := hc
    rw [put_of_returned hphase]
    simp only [rank, Function.update_self, hd, Thread.left]
    omega
  · rw [put_of_going hc]
    simp only [rank, Function.update_self, hd, Thread.left]
    omega

theorem put_other {c : Copy UInt8} (hed : d ≠ e) :
    (s.put e c).thread d = s.thread d ∧ (s.put e c).copy d = s.copy d := by
  unfold State.put
  split <;> simp [hed]

theorem put_thread {c : Copy UInt8} (hd : s.thread d ≠ .unborn) :
    (s.put d c).thread d ≠ .unborn := by
  unfold State.put
  split
  · simp
  · exact hd

/-- A step leaves a started goroutine alone, or the goroutine gets closer to its end. -/
def Moves (d : Dir) (s : State) (a : Act) (t : State) : Prop :=
  (t.thread d = s.thread d ∧ t.copy d = s.copy d ∧ ¬ OfThread d a) ∨
  (rank d t < rank d s ∧ s.thread d ≠ .returned ∧ t.thread d ≠ .unborn ∧
    ((s.thread d).Past → (t.thread d).Past))

theorem moves_put {x : CopyAct} {c : Copy UInt8} (hed : ¬ OfThread d a ∨ d = e)
    (he : s.thread e = .copying) (hst : Copy.Step (s.copy e) x c) : Moves d s a (s.put e c) := by
  by_cases hde : d = e
  · subst hde
    refine .inr ⟨rank_put he hst, by simp [he], put_thread (by simp [he]), ?_⟩
    intro hpast
    rw [he] at hpast
    exact hpast.elim
  · obtain ⟨hthread, hcopy⟩ := @put_other s d e c hde
    exact .inl ⟨hthread, hcopy, hed.resolve_right hde⟩

theorem moves_close (x : Thread) (hx : x.Past) (hlt : x.left < (s.thread e).left)
    (hthread : t.thread = Function.update s.thread e x) (hcopy : t.copy = s.copy) :
    Moves d s (.close e) t := by
  by_cases hde : d = e
  · subst hde
    refine .inr ⟨?_, ?_, ?_, ?_⟩
    · simp only [rank, hthread, hcopy, Function.update_self]
      omega
    · intro hreturned
      rw [hreturned] at hlt
      exact Nat.not_lt_zero _ hlt
    · rw [hthread, Function.update_self]
      intro hx'
      rw [hx'] at hx
      exact hx
    · intro _
      rw [hthread, Function.update_self]
      exact hx
  · refine .inl ⟨?_, by rw [hcopy], fun h => hde h.symm⟩
    rw [hthread, Function.update_of_ne hde]

theorem moves_spawn (hd : s.thread d ≠ .unborn) (he : s.thread e = .unborn)
    (hthread : t.thread = Function.update s.thread e .copying) (hcopy : t.copy = s.copy) :
    Moves d s .spawn t := by
  have hde : d ≠ e := by
    intro hde
    rw [hde] at hd
    exact hd he
  refine .inl ⟨?_, by rw [hcopy], id⟩
  rw [hthread, Function.update_of_ne hde]

theorem Step.moves (hst : Step p s a t) (h : Inv p s) (hd : s.thread d ≠ .unborn) :
    Moves d s a t := by
  have hop := h.opener
  cases hst with
  | opened _ | refused _ | refuse _ | spawnDiscard _ | request _ _ | discard _ _
  | discarded _ _ _ | answer _ _ => exact .inl ⟨rfl, rfl, id⟩
  | spawnFirst ho =>
    rw [ho] at hop
    exact moves_spawn hd (hop.2 .toChannel) rfl rfl
  | spawnSecond ho =>
    rw [ho] at hop
    exact moves_spawn hd hop.2.2 rfl rfl
  | copy he _ hcopy => exact moves_put (.inl id) he hcopy
  | @cut e _ _ he _ hcopy =>
    refine moves_put ?_ he hcopy
    by_cases hde : d = e
    · exact .inr hde
    · exact .inl fun h => hde h.symm
  | closeInbound he =>
    exact moves_close .closingChannel trivial (by simp [he, Thread.left]) rfl rfl
  | closeChannel he =>
    exact moves_close .returned trivial (by simp [he, Thread.left]) rfl rfl

/-- What a copy leaves alone. -/
theorem put_frame {c : Copy UInt8} : s.put d c = { s with
    copy := (s.put d c).copy, thread := (s.put d c).thread, endings := (s.put d c).endings } := by
  unfold State.put
  split <;> rfl

/-- Everything is closed, the channel by both sides. -/
structure Closed (s : State) : Prop where
  inbound : s.inboundClosed = true
  channel : s.channelClosed = true
  answered : s.answered = true

/-- What was closed stays closed. -/
theorem Step.closed (hst : Step p s a t) (h : Closed s) : Closed t := by
  cases hst with
  | opened _ | refused _ | spawnDiscard _ | spawnFirst _ | spawnSecond _ | request _ _
  | discard _ _ | discarded _ _ _ => exact ⟨h.inbound, h.channel, h.answered⟩
  | refuse _ | closeInbound _ => exact ⟨rfl, h.channel, h.answered⟩
  | closeChannel _ => exact ⟨h.inbound, rfl, h.answered⟩
  | answer _ _ => exact ⟨h.inbound, h.channel, rfl⟩
  | copy _ _ _ | cut _ _ _ =>
    rw [put_frame]
    exact ⟨h.inbound, h.channel, h.answered⟩

/-- A goroutine that must end: its copy has returned, or what it works on is closed. -/
structure Ending (p : Peers) (d : Dir) (s : State) : Prop where
  inv : Inv p s
  born : s.thread d ≠ .unborn
  bound : (s.thread d).Past ∨ Closed s

theorem Ending.next (h : Ending p d s) (hst : Step p s a t) :
    Ending p d t ∧ rank d t ≤ rank d s ∧ (OfThread d a → rank d t < rank d s) := by
  obtain ⟨hthread, hcopy, hmine⟩ | ⟨hlt, -, hborn, hpast⟩ := hst.moves h.inv h.born
  · refine ⟨⟨h.inv.step hst, by rw [hthread]; exact h.born, ?_⟩, ?_, fun h => absurd h hmine⟩
    · rw [hthread]
      exact h.bound.imp_right hst.closed
    · simp only [rank, hthread, hcopy, Nat.le_refl]
  · exact ⟨⟨h.inv.step hst, hborn, h.bound.imp hpast hst.closed⟩, Nat.le_of_lt hlt,
      fun _ => hlt⟩

/-- A copy on closed connections has a step to take. -/
theorem forced_step (hgo : ¬ (s.copy d).Ended) (hclosed : Closed s) :
    ∃ a c, s.forced d = some a ∧ (s.copy d).step a = some c := by
  obtain ⟨hi, hc, ha⟩ := hclosed
  unfold State.forced Copy.step
  cases hphase : (s.copy d).phase with
  | reading => cases d <;> simp [hi, hc, ha]
  | writing portion => cases d <;> simp [hi, ha]
  | returned how => exact absurd ⟨how, hphase⟩ hgo

theorem Ending.enabled (h : Ending p d s) :
    s.thread d = .returned ∨ ∃ a, OfThread d a ∧ (step p s a).isSome = true := by
  cases hd : s.thread d with
  | unborn => exact absurd hd h.born
  | copying =>
    have hnot : ¬ (s.thread d).Past := by rw [hd]; exact id
    obtain ⟨a, c, hforced, hcopy⟩ := forced_step (h.inv.going d hnot) (h.bound.resolve_left hnot)
    exact .inr ⟨.cut d, rfl, by simp [step, hd, hforced, hcopy]⟩
  | closingInbound => exact .inr ⟨.close d, rfl, by simp [step, hd]⟩
  | closingChannel => exact .inr ⟨.close d, rfl, by simp [step, hd]⟩
  | returned => exact .inl rfl

theorem thread_returns (r : (system p).Run) (hf : r.Fair (OfThread d)) {n : Nat}
    (h : Ending p d (r.state n)) : ∃ k, n ≤ k ∧ (r.state k).thread d = .returned := by
  refine r.leadsTo (P := Ending p d) (Q := fun s => s.thread d = .returned) hf (rank d) ?_ ?_ ?_ h
  · intro s hs
    exact hs.enabled
  · intro s a t hs ha hst
    exact .inr ((hs.next (step_cases hst)).2.2 ha)
  · intro s a t hs hst
    have hnext := hs.next (step_cases hst)
    exact .inr ⟨hnext.1, hnext.2.1⟩

/-- A goroutine that has returned stays so. -/
theorem Step.returned (hst : Step p s a t) (h : Inv p s) (hd : s.thread d = .returned) :
    t.thread d = .returned := by
  obtain ⟨hthread, -, -⟩ | ⟨-, hnot, -, -⟩ := hst.moves h (d := d) (by simp [hd])
  · rw [hthread, hd]
  · exact absurd hd hnot

def Opener.left : Opener → Nat
  | .opening => 4
  | .spawningDiscard => 3
  | .spawning .toChannel => 2
  | .refusing | .spawning .toInbound => 1
  | .returned => 0

theorem Step.opener_left (hst : Step p s a t) :
    t.opener.left ≤ s.opener.left ∧ (OfOpener a → t.opener.left < s.opener.left) := by
  cases hst with
  | opened ho | refused ho | refuse ho | spawnDiscard ho | spawnFirst ho | spawnSecond ho =>
    simp [ho, Opener.left]
  | copy _ _ _ | cut _ _ _ =>
    rw [put_frame]
    exact ⟨Nat.le_refl _, False.elim⟩
  | closeInbound _ | closeChannel _ | request _ _ | discard _ _ | discarded _ _ _
  | answer _ _ => exact ⟨Nat.le_refl _, False.elim⟩

theorem Opener.left_lt_opening {o : Opener} : o.left < 4 ↔ o ≠ .opening := by
  cases o with
  | opening | refusing | spawningDiscard | returned => simp [Opener.left]
  | spawning d => cases d <;> simp [Opener.left]

theorem opener_returns (r : (system p).Run) (hf : r.Fair OfOpener) {n : Nat}
    (h : (r.state n).opener ≠ .opening) : ∃ k, n ≤ k ∧ (r.state k).opener = .returned := by
  refine r.leadsTo (P := fun s => s.opener.left < 4) (Q := fun s => s.opener = .returned) hf
    (fun s => s.opener.left) ?_ ?_ ?_ (Opener.left_lt_opening.mpr h)
  · intro s hs
    cases ho : s.opener with
    | opening => exact absurd ho (Opener.left_lt_opening.mp hs)
    | refusing => exact .inr ⟨.refuse, trivial, by simp [system, step, ho]⟩
    | spawningDiscard | spawning d => exact .inr ⟨.spawn, trivial, by simp [system, step, ho]⟩
    | returned => exact .inl rfl
  · intro s a t _ ha hst
    exact .inr ((step_cases hst).opener_left.2 ha)
  · intro s a t hs hst
    have hle := (step_cases hst).opener_left.1
    exact .inr ⟨Nat.lt_of_le_of_lt hle hs, hle⟩

/-! ## The requests -/

/-- The client has closed the channel, and the requests that came are being taken. -/
structure Draining (s : State) : Prop where
  answered : s.answered = true
  opener : s.opener = .returned
  born : s.discard ≠ .unborn

def Discard.left : Discard → Nat
  | .unborn | .ranging => 1
  | .returned => 0

/-- After the client's close no request comes any more. -/
theorem Draining.next (h : Draining s) (hst : Step p s a t) : Draining t ∧
    t.requests + t.discard.left ≤ s.requests + s.discard.left ∧
    (OfDiscard a → t.requests + t.discard.left < s.requests + s.discard.left) := by
  have hkept : ∀ {t : State}, t.opener = s.opener → t.answered = s.answered →
      t.discard = s.discard → Draining t := fun ho ha hd =>
    ⟨ha.trans h.answered, ho.trans h.opener, by rw [hd]; exact h.born⟩
  cases hst with
  | opened ho | refused ho | refuse ho | spawnDiscard ho | spawnFirst ho | spawnSecond ho =>
    rw [h.opener] at ho
    cases ho
  | copy _ _ _ | cut _ _ _ =>
    rw [put_frame]
    exact ⟨hkept rfl rfl rfl, Nat.le_refl _, False.elim⟩
  | closeInbound _ | closeChannel _ => exact ⟨hkept rfl rfl rfl, Nat.le_refl _, False.elim⟩
  | request _ hno =>
    rw [h.answered] at hno
    cases hno
  | discard _ hpos => exact ⟨hkept rfl rfl rfl, by simp, fun _ => by simp only; omega⟩
  | discarded hranging _ _ =>
    exact ⟨⟨h.answered, h.opener, by simp⟩, by simp [hranging, Discard.left]⟩
  | answer _ hno =>
    rw [h.answered] at hno
    cases hno

theorem discard_returns (r : (system p).Run) (hf : r.Fair OfDiscard) {n : Nat}
    (h : Draining (r.state n)) : ∃ k, n ≤ k ∧ (r.state k).discard = .returned := by
  refine r.leadsTo (P := Draining) (Q := fun s => s.discard = .returned) hf
    (fun s => s.requests + s.discard.left) ?_ ?_ ?_ h
  · intro s hs
    cases hd : s.discard with
    | unborn => exact absurd hd hs.born
    | ranging =>
      refine .inr ⟨.discard, trivial, ?_⟩
      by_cases hpos : 0 < s.requests <;> simp [system, step, hd, hs.answered, hpos]
    | returned => exact .inl rfl
  · intro s a t hs ha hst
    exact .inr ((hs.next (step_cases hst)).2.2 ha)
  · intro s a t hs hst
    have hnext := hs.next (step_cases hst)
    exact .inr ⟨hnext.1, hnext.2.1⟩

/-- All goroutines are gone and both connections are closed. -/
structure Finished (s : State) : Prop where
  opener : s.opener = .returned
  inbound : s.inboundClosed = true
  channel : s.opened = true → s.channelClosed = true
  threads : s.opened = true → ∀ d, s.thread d = .returned
  discard : s.opened = true → s.discard = .returned

/-- The state in which a goroutine has returned, with what it then closed. -/
def Returned (p : Peers) (d : Dir) (s : State) : Prop := Inv p s ∧ s.thread d = .returned

theorem Returned.keeps (r : (system p).Run) {n k : Nat} (hk : n ≤ k)
    (h : Returned p d (r.state n)) : Returned p d (r.state k) := by
  refine r.keeps (P := Returned p d) ?_ hk h
  intro s a t hs hst
  exact ⟨hs.1.step (step_cases hst), (step_cases hst).returned hs.1 hs.2⟩

theorem opener_keeps (r : (system p).Run) {n k : Nat} (hk : n ≤ k)
    (h : (r.state n).opener = .returned) : (r.state k).opener = .returned := by
  refine r.keeps (P := fun s => s.opener = .returned) ?_ hk h
  intro s a t hs hst
  have hle := (step_cases hst).opener_left.1
  rw [hs] at hle
  cases ho : t.opener with
  | returned => rfl
  | opening | refusing | spawningDiscard => rw [ho] at hle; exact absurd hle (by decide)
  | spawning e => rw [ho] at hle; cases e <;> exact absurd hle (by decide)

theorem Dir.eq_or_other (d e : Dir) : e = d ∨ e = d.other := by
  cases d <;> cases e <;> simp [Dir.other]

/-- Where the client refused the channel, the relay does nothing but close. -/
theorem refused_finishes (r : (system p).Run) {n m : Nat} (hm : n ≤ m)
    (h : (r.state n).opener = .refusing) (hret : (r.state m).opener = .returned) :
    Finished (r.state m) := by
  have hinv := (inv_stable p).reach (r.reach n)
  have hop := hinv.opener
  rw [h] at hop
  have hkeep : (r.state m).opened = false ∧
      ((r.state m).opener = .refusing ∨ (r.state m).opener = .returned) := by
    refine r.keeps (P := fun s => s.opened = false ∧ (s.opener = .refusing ∨ s.opener = .returned))
      ?_ hm ⟨hop.1, .inl h⟩
    intro s a t hs hst
    cases step_cases hst with
    | opened ho | refused ho | spawnDiscard ho | spawnFirst ho | spawnSecond ho => simp [ho] at hs
    | refuse _ => exact ⟨hs.1, .inr rfl⟩
    | copy _ _ _ | cut _ _ _ =>
      rw [put_frame]
      exact hs
    | closeInbound _ | closeChannel _ | request _ _ | discard _ _ | discarded _ _ _
    | answer _ _ => exact hs
  have hopm := ((inv_stable p).reach (r.reach m)).opener
  rw [hret] at hopm
  have hnot : (r.state m).opened ≠ true := by
    rw [hkeep.1]
    decide
  obtain ⟨hyes, -⟩ | ⟨-, hi, -⟩ := hopm
  · exact absurd hyes hnot
  · exact ⟨hret, hi, fun hyes => absurd hyes hnot, fun hyes => absurd hyes hnot,
      fun hyes => absurd hyes hnot⟩

/-- The opener has come past `OpenChannel` where a goroutine runs. -/
theorem Inv.opener_ne_opening (h : Inv p s) (hd : s.thread d ≠ .unborn) :
    s.opener ≠ .opening := by
  intro ho
  have hop := h.opener
  rw [ho] at hop
  exact hd (hop.2.2 d)

/-- **No leak.** In a run that is fair to what must happen, and in which the client
answers the close of the channel, once a copy has returned, or the client has refused the
channel, all goroutines of the relay return and both connections are closed. -/
theorem relay_finishes (r : (system p).Run) (hopener : r.Fair OfOpener)
    (hthreads : ∀ d, r.Fair (OfThread d)) (hdiscard : r.Fair OfDiscard) (hanswers : Answers r)
    {n : Nat} (h : (r.state n).endings ≠ [] ∨ (r.state n).opener = .refusing) :
    ∃ k, n ≤ k ∧ Finished (r.state k) := by
  have hinv : ∀ k, Inv p (r.state k) := fun k => (inv_stable p).reach (r.reach k)
  obtain hends | hrefused := h
  · obtain ⟨d, hd⟩ := List.exists_mem_of_ne_nil _ hends
    have hpast := ((hinv n).listed d).mp hd
    have hborn : (r.state n).thread d ≠ .unborn := by
      intro hd'
      rw [hd'] at hpast
      exact hpast
    -- The goroutine whose copy returned closes both connections, …
    obtain ⟨k, hk, hdone⟩ := thread_returns r (hthreads d) ⟨hinv n, hborn, .inl hpast⟩
    obtain ⟨m, hm, hret⟩ := opener_returns r hopener
      ((hinv k).opener_ne_opening (d := d) (by simp [hdone]))
    have hdone := Returned.keeps r hm ⟨hinv k, hdone⟩
    -- … the client answers, …
    obtain ⟨l, hl, hanswered⟩ := hanswers m (hdone.1.closedChannel d hdone.2)
    have hdone := Returned.keeps r hl hdone
    have hret := opener_keeps r hl hret
    have hclosed : Closed (r.state l) := ⟨hdone.1.closedInbound d (.inr hdone.2),
      hdone.1.closedChannel d hdone.2, hanswered⟩
    have hop := hdone.1.opener
    rw [hret] at hop
    obtain ⟨hopened, hall⟩ | ⟨-, -, hall⟩ := hop
    · -- … and then the others, started by now, cannot wait any longer.
      obtain ⟨i, hi, hother⟩ := thread_returns r (hthreads d.other)
        ⟨hdone.1, hall d.other, .inr hclosed⟩
      have hdraining : Draining (r.state i) := by
        refine r.keeps (P := Draining) (fun _ _ _ hs hst => (hs.next (step_cases hst)).1) hi ?_
        exact ⟨hanswered, hret, hdone.1.discard hopened (by simp [hret])⟩
      obtain ⟨j, hj, hdiscarded⟩ := discard_returns r hdiscard hdraining
      have hdone := Returned.keeps r (Nat.le_trans hi hj) hdone
      have hother := Returned.keeps r hj ⟨hinv i, hother⟩
      refine ⟨j, by omega, opener_keeps r hj hdraining.opener, hdone.1.closedInbound d
        (.inr hdone.2), fun _ => hdone.1.closedChannel d hdone.2, fun _ e => ?_, fun _ => hdiscarded⟩
      obtain rfl | rfl := d.eq_or_other e
      · exact hdone.2
      · exact hother.2
    · exact absurd ((hall d).symm.trans hdone.2) (by decide)
  · obtain ⟨m, hm, hret⟩ := opener_returns r hopener (n := n) (by simp [hrefused])
    exact ⟨m, hm, refused_finishes r hm hrefused hret⟩

/-- The run in which the client ends its stream, to its end. -/
def shortRunWhole : List Act :=
  shortRun ++ [.close .toChannel, .close .toChannel, .request, .answer, .discard, .discard]

def shortFinal : State := ((system shortPeers).exec (initial shortPeers) shortRunWhole).getD
  (initial shortPeers)

theorem relay_finishes_short : ∃ (r : (system shortPeers).Run) (n : Nat),
    (r.state n).endings ≠ [] ∧ ∃ k, n ≤ k ∧ Finished (r.state k) := by
  have ht : (system shortPeers).exec (initial shortPeers) shortRunWhole = some shortFinal := rfl
  have hopener : shortFinal.opener = .returned := rfl
  have hdiscard : shortFinal.discard = .returned := rfl
  have hthread : ∀ d, shortFinal.thread d = .returned := by
    intro d
    cases d <;> rfl
  let r := System.Run.ofList (system shortPeers) (initial shortPeers) shortRunWhole rfl rfl
  have hfo : r.Fair OfOpener := System.Run.fair_ofList ht fun a u ha hst => by
    cases a with
    | refuse | spawn => simp [system, step, hopener] at hst
    | openChannel ok | copy d a | cut d | close d | request | discard | answer => exact ha
  have hft : ∀ d, r.Fair (OfThread d) := fun d => System.Run.fair_ofList ht fun a u ha hst => by
    cases a with
    | openChannel ok | refuse | spawn | copy e a | request | discard | answer => exact ha
    | cut e | close e => simp [system, step, hthread] at hst
  have hfd : r.Fair OfDiscard := System.Run.fair_ofList ht fun a u ha hst => by
    cases a with
    | discard => simp [system, step, hdiscard] at hst
    | openChannel ok | refuse | spawn | copy d a | cut d | close d | request | answer => exact ha
  have hanswers : Answers r := by
    intro n _
    refine ⟨max n shortRunWhole.length, Nat.le_max_left .., ?_⟩
    have hend : r.state (max n shortRunWhole.length) = shortFinal :=
      System.Run.ofList_end ht (Nat.le_max_right ..)
    rw [hend]
    rfl
  have hends : (r.state 7).endings ≠ [] := by
    rw [show (r.state 7).endings = [.toInbound] from rfl]
    simp
  exact ⟨r, 7, hends, relay_finishes r hfo hft hfd hanswers (.inl hends)⟩

end WorkspaceProxy.SshServer.ForwardRelay
