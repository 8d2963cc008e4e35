import WorkspaceProxy.Conc.Relay

/-! # io.Copy

A call of `io.Copy` reads a portion and writes it, again and again, until a read
reports the end of the stream or something fails. `unread` is what the source has
still to give, and may grow while the call is going on (`grow`); `out` is what the
destination took. A call in progress is a relay of the stream (`Copy.Ok`), and one
whose source does not grow takes a limited number of steps (`Copy.rank`). -/
namespace WorkspaceProxy.Go
open WorkspaceProxy.Conc
variable {β : Type}

/-- What made a call return; only the end of the stream is no error. -/
inductive CopyEnd
  | eof
  | readError
  | writeError
deriving DecidableEq

/-- Where a call is. -/
inductive CopyPhase (β : Type)
  | reading
  | writing (portion : List β)
  | returned (how : CopyEnd)
deriving DecidableEq

structure Copy (β : Type) where
  phase : CopyPhase β
  unread : List β
  out : List β

/-- What a read or a write of the call comes to: a read gives `n` bytes, reports the
end of the stream or fails; a write takes its portion, or fails after `n` bytes. -/
inductive CopyAct
  | read (n : Nat)
  | eof
  | readFails
  | write
  | writeFails (n : Nat)
deriving DecidableEq

namespace Copy

def start (source : List β) : Copy β := ⟨.reading, source, []⟩

def step (c : Copy β) (a : CopyAct) : Option (Copy β) :=
  match c.phase, a with
  | .reading, .read n =>
    if 0 < n ∧ n ≤ c.unread.length then
      some { c with phase := .writing (c.unread.take n), unread := c.unread.drop n }
    else none
  | .reading, .eof => some { c with phase := .returned .eof }
  | .reading, .readFails => some { c with phase := .returned .readError }
  | .writing portion, .write => some { c with phase := .reading, out := c.out ++ portion }
  | .writing portion, .writeFails n =>
    some { c with phase := .returned .writeError, out := c.out ++ portion.take n }
  | _, _ => none

/-- More comes to the source. -/
def grow (c : Copy β) (x : List β) : Copy β := { c with unread := c.unread ++ x }

/-- The call has returned. -/
def Ended (c : Copy β) : Prop := ∃ how, c.phase = .returned how

instance (c : Copy β) : Decidable c.Ended :=
  match h : c.phase with
  | .returned how => isTrue ⟨how, h⟩
  | .reading | .writing _ => isFalse fun ⟨_, hr⟩ => by rw [h] at hr; cases hr

/-- The steps of `step`, one constructor for each. -/
inductive Step (c : Copy β) : CopyAct → Copy β → Prop
  | read {n} : c.phase = .reading → 0 < n → n ≤ c.unread.length →
      Step c (.read n) { c with phase := .writing (c.unread.take n), unread := c.unread.drop n }
  | eof : c.phase = .reading → Step c .eof { c with phase := .returned .eof }
  | readFails : c.phase = .reading → Step c .readFails
      { c with phase := .returned .readError }
  | write {portion} : c.phase = .writing portion →
      Step c .write { c with phase := .reading, out := c.out ++ portion }
  | writeFails {portion n} : c.phase = .writing portion → Step c (.writeFails n)
      { c with phase := .returned .writeError, out := c.out ++ portion.take n }

variable {c c' : Copy β} {a : CopyAct} {source : List β}

theorem step_cases (h : c.step a = some c') : Step c a c' := by
  unfold step at h
  split at h
  · split at h
    · rename_i hn
      cases h
      exact .read ‹_› hn.1 hn.2
    · cases h
  · cases h; exact .eof ‹_›
  · cases h; exact .readFails ‹_›
  · cases h; exact .write ‹_›
  · cases h; exact .writeFails ‹_›
  · cases h

/-- The relay that the call is. Where a read ended it and nothing was left to read, all
of the stream went out. -/
def status (c : Copy β) : RelayStatus β :=
  match c.phase, c.unread with
  | .reading, _ => .flowing []
  | .writing portion, _ => .flowing portion
  | .returned .writeError, _ => .broken
  | .returned _, [] => .drained
  | .returned _, _ :: _ => .broken

/-- The call relays the stream `source`. -/
def Ok (source : List β) (c : Copy β) : Prop := Relayed source c.out c.unread c.status

theorem Ok.start : Ok source (Copy.start source) := Relayed.start

theorem Ok.isPrefix (h : Ok source c) : c.out <+: source := Relayed.isPrefix h

theorem Ok.complete {how : CopyEnd} (h : Ok source c) (hphase : c.phase = .returned how)
    (hhow : how ≠ .writeError) (hread : c.unread = []) : c.out = source := by
  unfold Ok status at h
  rw [hphase, hread] at h
  cases how with
  | eof | readError => exact h
  | writeError => exact absurd rfl hhow

theorem Ok.at_reading (h : Ok source c) (hphase : c.phase = .reading) :
    Relayed source c.out c.unread (.flowing []) := by
  unfold Ok status at h
  rw [hphase] at h
  exact h

theorem Ok.at_writing {portion : List β} (h : Ok source c) (hphase : c.phase = .writing portion) :
    Relayed source c.out c.unread (.flowing portion) := by
  unfold Ok status at h
  rw [hphase] at h
  exact h

theorem Ok.step (h : Ok source c) (hst : Step c a c') : Ok source c' := by
  cases hst with
  | @read n hphase =>
    have hread := h.at_reading hphase
    rw [← List.take_append_drop n c.unread] at hread
    exact hread.read
  | eof hphase | readFails hphase =>
    have hread := h.at_reading hphase
    unfold Ok status
    cases hu : c.unread with
    | nil =>
      rw [hu] at hread
      exact hread.drain
    | cons b rest =>
      rw [hu] at hread
      exact hread.stop
  | write hphase => exact (h.at_writing hphase).write
  | @writeFails portion n hphase =>
    have hcut := (h.at_writing hphase).cut (List.take_prefix n portion)
    unfold Ok status
    exact hcut

/-- What comes to a source that no read found at its end belongs to the stream. -/
theorem Ok.grow (h : Ok source c)
    (hphase : ∀ how, c.phase = .returned how → how = .writeError) (x : List β) :
    Ok (source ++ x) (c.grow x) := by
  unfold Ok status at h ⊢
  unfold Copy.grow
  cases hp : c.phase with
  | reading =>
    rw [hp] at h
    exact h.grow x
  | writing portion =>
    rw [hp] at h
    exact h.grow x
  | returned how =>
    obtain rfl := hphase how hp
    rw [hp] at h
    exact h.grow_broken x

/-- What is left to do for a source that does not grow. -/
def rank (c : Copy β) : Nat :=
  match c.phase with
  | .reading => 2 * c.unread.length + 1
  | .writing _ => 2 * c.unread.length + 2
  | .returned _ => 0

theorem rank_lt (hst : Step c a c') : c'.rank < c.rank := by
  cases hst with
  | @read n hphase hpos hle =>
    simp only [rank, hphase, List.length_drop]
    omega
  | eof hphase | readFails hphase =>
    simp only [rank, hphase]
    omega
  | write hphase | writeFails hphase =>
    simp only [rank, hphase]
    omega

end Copy

/-! ## A copy of what others send

The source of a pipe or of a connection: `sent` came to it so far, and `closed` says
that nothing more will. A read ends the copy only where all that came was read. -/

structure Piped (β : Type) where
  copy : Copy β
  sent : List β
  closed : Bool

inductive PipedAct (β : Type)
  | feed (x : List β)
  | close
  | copy (a : CopyAct)
deriving DecidableEq

namespace Piped

def start : Piped β := ⟨Copy.start [], [], false⟩

/-- Whether a read or a write can come to `a` here. -/
def allows (s : Piped β) : CopyAct → Bool
  | .eof | .readFails => s.closed && s.copy.unread.isEmpty
  | _ => true

def step (s : Piped β) : PipedAct β → Option (Piped β)
  | .feed x =>
    if s.closed then none else some { s with copy := s.copy.grow x, sent := s.sent ++ x }
  | .close => some { s with closed := true }
  | .copy a =>
    if s.allows a then (s.copy.step a).map fun c => { s with copy := c } else none

/-- The steps of `step`, one constructor for each. -/
inductive Step (s : Piped β) : PipedAct β → Piped β → Prop
  | feed {x} : s.closed = false →
      Step s (.feed x) { s with copy := s.copy.grow x, sent := s.sent ++ x }
  | close : Step s .close { s with closed := true }
  | copy {a c} : s.allows a = true → Copy.Step s.copy a c →
      Step s (.copy a) { s with copy := c }

variable {s t : Piped β} {a : PipedAct β}

theorem step_cases (h : s.step a = some t) : Step s a t := by
  cases a with
  | feed x =>
    simp only [step] at h
    split at h
    · cases h
    · cases h; exact .feed (by simpa using ‹¬ s.closed = true›)
  | close => cases h; exact .close
  | copy a =>
    simp only [step] at h
    split at h
    · obtain ⟨c, hc, rfl⟩ := Option.map_eq_some_iff.mp h
      exact .copy ‹_› (Copy.step_cases hc)
    · cases h

/-- What was copied, and that a read ended it only at the end of what was sent. -/
structure Ok (s : Piped β) : Prop where
  copy : Copy.Ok s.sent s.copy
  ended : ∀ how, s.copy.phase = .returned how → how = .writeError ∨
    s.closed = true ∧ s.copy.unread = []

theorem Ok.start : Ok (Piped.start : Piped β) where
  copy := .start
  ended how h := by cases h

theorem Ok.step (h : Ok s) (hst : Step s a t) : Ok t := by
  cases hst with
  | @feed x hopen =>
    have hwrite : ∀ how, s.copy.phase = .returned how → how = .writeError := by
      intro how hphase
      obtain hw | ⟨hclosed, -⟩ := h.ended how hphase
      · exact hw
      · rw [hopen] at hclosed
        cases hclosed
    exact ⟨h.copy.grow hwrite x, fun how hphase => .inl (hwrite how hphase)⟩
  | close =>
    exact ⟨h.copy, fun how hphase => (h.ended how hphase).imp_right fun he => ⟨rfl, he.2⟩⟩
  | copy hallow hcopy =>
    refine ⟨h.copy.step hcopy, ?_⟩
    intro how hphase
    cases hcopy with
    | read _ _ _ | write _ => cases hphase
    | eof _ | readFails _ => exact .inr (by simpa [allows] using hallow)
    | writeFails _ =>
      cases hphase
      exact .inl rfl

/-- All that was sent was copied, or a write failed. -/
theorem Ok.result {how : CopyEnd} (h : Ok s) (hphase : s.copy.phase = .returned how)
    (hhow : how ≠ .writeError) : s.copy.out = s.sent ∧ s.closed = true := by
  obtain ⟨hclosed, hread⟩ := (h.ended how hphase).resolve_left hhow
  exact ⟨h.copy.complete hphase hhow hread, hclosed⟩

/-- A copy that has returned stays as it was. -/
theorem Step.phase {how : CopyEnd} (hst : Step s a t) (hphase : s.copy.phase = .returned how) :
    t.copy.phase = .returned how := by
  cases hst with
  | feed _ => exact hphase
  | close => exact hphase
  | copy _ hcopy =>
    cases hcopy with
    | read h _ _ | eof h | readFails h | write h | writeFails h =>
      rw [hphase] at h
      cases h

end Piped
end WorkspaceProxy.Go
