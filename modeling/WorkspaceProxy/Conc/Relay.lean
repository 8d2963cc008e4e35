import Mathlib.Tactic.Common

/-! # Relaying a stream

A relay reads a stream in portions and writes each portion before it reads the
next. It comes to the end of the stream, or a write cuts it off, after which it
writes nothing. What it has written is the beginning of the stream throughout,
and all of it where it came to the end. -/
namespace WorkspaceProxy.Conc
variable {β : Type}

/-- Where a relay is: it holds a portion that it has read and not written, it
came to the end, or it broke off. -/
inductive RelayStatus (β : Type)
  | flowing (portion : List β)
  | drained
  | broken

/-- Of the stream `source`, `out` was written and `rest` was not read. -/
def Relayed (source out rest : List β) : RelayStatus β → Prop
  | .flowing portion => out ++ portion ++ rest = source
  | .drained => out = source
  | .broken => out <+: source

variable {source out rest portion sent : List β} {st : RelayStatus β}

theorem Relayed.start : Relayed source [] source (.flowing []) := rfl

theorem Relayed.read (h : Relayed source out (portion ++ rest) (.flowing [])) :
    Relayed source out rest (.flowing portion) := by
  simpa [Relayed] using h

theorem Relayed.write (h : Relayed source out rest (.flowing portion)) :
    Relayed source (out ++ portion) rest (.flowing []) := by
  simpa [Relayed] using h

/-- Only the beginning of a portion went out. -/
theorem Relayed.cut (h : Relayed source out rest (.flowing portion)) (hsent : sent <+: portion) :
    Relayed source (out ++ sent) rest .broken := by
  obtain ⟨unsent, rfl⟩ := hsent
  exact ⟨unsent ++ rest, by simpa [Relayed] using h⟩

theorem Relayed.stop (h : Relayed source out rest (.flowing [])) :
    Relayed source out rest .broken := by
  simpa using h.cut (List.nil_prefix (l := []))

theorem Relayed.drain (h : Relayed source out [] (.flowing [])) :
    Relayed source out [] .drained := by
  simpa [Relayed] using h

/-- The stream goes on. -/
theorem Relayed.grow (h : Relayed source out rest (.flowing portion)) (more : List β) :
    Relayed (source ++ more) out (rest ++ more) (.flowing portion) := by
  simp only [Relayed, ← List.append_assoc] at h ⊢
  rw [h]

theorem Relayed.grow_broken (h : Relayed source out rest .broken) (more : List β) :
    Relayed (source ++ more) out (rest ++ more) .broken :=
  List.IsPrefix.trans h (List.prefix_append source more)

theorem Relayed.isPrefix (h : Relayed source out rest st) : out <+: source := by
  cases st with
  | flowing portion => exact ⟨portion ++ rest, by simpa [Relayed] using h⟩
  | drained => exact h ▸ List.prefix_rfl
  | broken => exact h

end WorkspaceProxy.Conc
