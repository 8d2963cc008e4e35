import WorkspaceProxy.Go.Strings

/-! # Buffered reading

`io.Reader`, `io.LimitReader` and `ReadString` of package bufio. A source has a
law for its `Read`: it hands out its content in pieces that are not empty and
then fails in one way for ever. What `ReadString` returns is a function of the
content and of that failure (`readString_spec`), however the content is cut into
pieces and whatever the size of the buffer. -/
namespace WorkspaceProxy.Go

inductive ReadErr
  | eof
  | noProgress
  | other (text : GoString)
  deriving DecidableEq

def ReadErr.text : ReadErr → GoString
  | .eof => bytes "EOF"
  | .noProgress => bytes "multiple Read calls return no data or error"
  | .other text => text

/-- What a call of `Read` returns and leaves. -/
structure Read (σ : Type) where
  data : GoString
  err : Option ReadErr
  rest : σ

/-- What `Read` may do with a buffer of `n` bytes. -/
inductive Reads {σ : Type} (content : σ → GoString) (ending : σ → ReadErr) (s : σ) (n : Nat) :
    Read σ → Prop
  | piece {p : GoString} {s' : σ} (hne : p ≠ []) (hle : p.length ≤ n)
      (hcontent : content s = p ++ content s') (hending : ending s' = ending s) :
      Reads content ending s n ⟨p, none, s'⟩
  | ended {s' : σ} (hcontent : content s = []) (hrest : content s' = [])
      (hending : ending s' = ending s) : Reads content ending s n ⟨[], some (ending s), s'⟩

/-- An `io.Reader` with what it will hand out and how it then fails. -/
structure Source (σ : Type) where
  read : σ → Nat → Read σ
  content : σ → GoString
  ending : σ → ReadErr
  reads : ∀ s n, 0 < n → Reads content ending s n (read s n)

/-! ## Connections -/

/-- What the other end of a connection sends, as it arrives. -/
structure Arrivals where
  pieces : List GoString
  nonempty : ∀ p ∈ pieces, p ≠ []
  ending : ReadErr

namespace Arrivals

def received (a : Arrivals) : GoString := a.pieces.flatten

/-- A `Read` takes no more than one piece; what does not fit is left. -/
def read (a : Arrivals) (n : Nat) : Read Arrivals :=
  match hp : a.pieces with
  | [] => ⟨[], some a.ending, a⟩
  | p :: ps =>
    if hd : p.drop n = [] then
      ⟨p.take n, none, ⟨ps, fun q hq => a.nonempty q (by simp [hp, hq]), a.ending⟩⟩
    else
      ⟨p.take n, none, ⟨p.drop n :: ps, fun q hq => by
        rcases List.mem_cons.mp hq with rfl | hq
        · exact hd
        · exact a.nonempty q (by simp [hp, hq]), a.ending⟩⟩

theorem reads (a : Arrivals) (n : Nat) (hn : 0 < n) : Reads received ending a n (a.read n) := by
  unfold read
  split
  · rename_i hp
    have hempty : a.received = [] := by rw [received, hp, List.flatten_nil]
    exact .ended hempty hempty rfl
  · rename_i p ps hp
    have hne : p.take n ≠ [] := by
      have := a.nonempty p (by simp [hp])
      simp only [ne_eq, List.take_eq_nil_iff, this, or_false]
      omega
    have hle : (p.take n).length ≤ n := List.length_take_le n p
    have hall : a.received = p.take n ++ (p.drop n ++ ps.flatten) := by
      rw [received, hp, List.flatten_cons, ← List.append_assoc, List.take_append_drop]
    split
    · rename_i hd
      refine .piece hne hle ?_ rfl
      rw [hall, hd, List.nil_append, received]
    · refine .piece hne hle ?_ rfl
      rw [hall, received, List.flatten_cons]

end Arrivals

/-- A `net.Conn` for reading. -/
def conn : Source Arrivals where
  read := Arrivals.read
  content := Arrivals.received
  ending := Arrivals.ending
  reads := Arrivals.reads

/-! ## Limited readers -/

section LimitReader
variable {σ : Type} (S : Source σ)

/-- `LimitedReader.Read`, with the number of bytes that are left. -/
def limitRead (s : σ × Nat) (n : Nat) : Read (σ × Nat) :=
  if s.2 = 0 then ⟨[], some .eof, s⟩
  else
    let r := S.read s.1 (min n s.2)
    ⟨r.data, r.err, (r.rest, s.2 - r.data.length)⟩

def limitContent (s : σ × Nat) : GoString := (S.content s.1).take s.2

/-- A limited reader is at its end as soon as its limit is reached. -/
def limitEnding (s : σ × Nat) : ReadErr :=
  if s.2 ≤ (S.content s.1).length then .eof else S.ending s.1

theorem limitRead_reads (s : σ × Nat) (n : Nat) (hn : 0 < n) :
    Reads (limitContent S) (limitEnding S) s n (limitRead S s n) := by
  obtain ⟨s, limit⟩ := s
  unfold limitRead
  split
  · rename_i hlimit
    change limit = 0 at hlimit
    subst hlimit
    exact .ended rfl rfl rfl
  · rename_i hlimit
    change ¬ limit = 0 at hlimit
    have hread := S.reads s (min n limit) (by omega)
    generalize S.read s (min n limit) = r at hread
    cases hread with
    | @piece p s' hne hle hcontent hending =>
      refine .piece hne (hle.trans (Nat.min_le_left n limit)) ?_ ?_
      · simp only [limitContent, hcontent, List.take_append, List.take_of_length_le
          (show p.length ≤ limit by omega)]
      · have hlen := congrArg List.length hcontent
        rw [List.length_append] at hlen
        simp only [limitEnding, hending, hlen]
        exact if_congr (by omega) rfl rfl
    | ended hcontent hrest hending =>
      have hopen : limitEnding S (s, limit) = S.ending s := if_neg (by simp [hcontent, hlimit])
      rw [← hopen]
      refine .ended (by simp [limitContent, hcontent]) (by simp [limitContent, hrest]) ?_
      simp [limitEnding, hcontent, hrest, hending]

/-- `io.LimitReader`. -/
def limitReader : Source (σ × Nat) where
  read := limitRead S
  content := limitContent S
  ending := limitEnding S
  reads := limitRead_reads S

end LimitReader

/-! ## The bytes up to a delimiter -/

/-- The beginning of a text up to and including the first delimiter. -/
def through (delim : UInt8) : GoString → GoString
  | [] => []
  | c :: cs => if c = delim then [c] else c :: through delim cs

theorem through_of_not_mem {delim : UInt8} {s : GoString} (h : delim ∉ s) (t : GoString) :
    through delim (s ++ t) = s ++ through delim t := by
  induction s with
  | nil => rfl
  | cons c s ih =>
    have hc : c ≠ delim := fun hc => h (by simp [hc])
    rw [List.cons_append, through, if_neg hc, ih fun hs => h (by simp [hs]), List.cons_append]

theorem through_of_mem {delim : UInt8} {s : GoString} (h : delim ∈ s) (t : GoString) :
    through delim (s ++ t) = through delim s := by
  induction s with
  | nil => exact absurd h List.not_mem_nil
  | cons c s ih =>
    rw [List.cons_append, through, through]
    split
    · rfl
    · rename_i hc
      rw [ih ((List.mem_cons.mp h).resolve_left (Ne.symm hc))]

theorem through_take (delim : UInt8) (s : GoString) (n : Nat) :
    through delim (s.take n) = (through delim s).take n := by
  induction s generalizing n with
  | nil => simp [through]
  | cons c s ih =>
    cases n with
    | zero => simp [through]
    | succ n =>
      rw [List.take_succ_cons, through, through]
      split
      · simp
      · rw [ih, List.take_succ_cons]

/-! ## Buffered readers -/

/-- `bufio.Reader`; `buf` is what is read and not yet handed out. A buffer has
at least `minReadBufferSize` bytes. -/
structure Reader (σ : Type) where
  size : Nat
  size_ge : 16 ≤ size
  buf : GoString
  rd : σ
  err : Option ReadErr

namespace Reader
variable {σ : Type} (S : Source σ)

/-- `bufio.NewReader`. -/
def newReader (rd : σ) : Reader σ := ⟨4096, by decide, [], rd, none⟩

/-- The loop of `Reader.fill`, with the number of tries that are left. -/
def fillFrom : Nat → Reader σ → Reader σ
  | 0, b => { b with err := some .noProgress }
  | i + 1, b =>
    let r := S.read b.rd (b.size - b.buf.length)
    let b' := { b with buf := b.buf ++ r.data, rd := r.rest, err := r.err.or b.err }
    if r.err.isSome ∨ r.data ≠ [] then b' else fillFrom i b'

/-- `Reader.fill`; it tries `maxConsecutiveEmptyReads` times. -/
def fill (b : Reader σ) : Reader σ := fillFrom S 100 b

/-- What a buffered reader will still hand out. -/
def content (b : Reader σ) : GoString :=
  b.buf ++ if b.err.isSome then [] else S.content b.rd

/-- How a buffered reader will fail. -/
def ending (b : Reader σ) : ReadErr := b.err.getD (S.ending b.rd)

/-- The reads that are left to the end of the source, its failure included. -/
def pending (b : Reader σ) : Nat := if b.err.isSome then 0 else (S.content b.rd).length + 1

variable {S}

/-- A buffer that is filled has more of the same content. -/
structure Filled (b b' : Reader σ) : Prop where
  content : b'.content S = b.content S
  ending : b'.ending S = b.ending S
  pending : b'.pending S < b.pending S

theorem fill_filled {b : Reader σ} (herr : b.err = none) (hroom : b.buf.length < b.size) :
    Filled (S := S) b (b.fill S) := by
  have hread := S.reads b.rd (b.size - b.buf.length) (by omega)
  unfold fill
  rw [fillFrom]
  generalize S.read b.rd (b.size - b.buf.length) = r at hread
  -- one try is enough: a source never returns nothing without an error
  cases hread with
  | @piece p s' hne hle hcontent hending =>
    have hpos := List.length_pos_of_ne_nil hne
    simp only [hne, ne_eq, not_false_iff, or_true, if_true]
    constructor <;> simp [Reader.content, Reader.ending, Reader.pending, herr, hcontent, hending]
    omega
  | ended hcontent hrest hending =>
    simp only [Option.isSome_some, true_or, if_true]
    constructor <;> simp [Reader.content, Reader.ending, Reader.pending, herr, hcontent]

end Reader

inductive SliceErr
  | bufferFull
  | read (e : ReadErr)

/-- What `ReadSlice` returns and leaves. -/
structure Slice (σ : Type) where
  line : GoString
  err : Option SliceErr
  rest : Reader σ

/-- What `ReadString` returns and leaves. -/
structure Line (σ : Type) where
  text : GoString
  err : Option ReadErr
  rest : Reader σ

namespace Reader
variable {σ : Type} (S : Source σ) (delim : UInt8)

/-- `Reader.ReadSlice`. -/
def readSlice (b : Reader σ) : Slice σ :=
  if delim ∈ b.buf then
    let line := through delim b.buf
    ⟨line, none, { b with buf := b.buf.drop line.length }⟩
  else
    match _ : b.err with
    | some e => ⟨b.buf, some (.read e), { b with buf := [], err := none }⟩
    | none =>
      if _ : b.size ≤ b.buf.length then ⟨b.buf, some .bufferFull, { b with buf := [] }⟩
      else readSlice (b.fill S)
termination_by b.pending S
decreasing_by exact (fill_filled ‹b.err = none› (Nat.lt_of_not_le ‹_›)).pending

/-- What a call of `ReadSlice` has found. -/
inductive Sliced (b : Reader σ) : Slice σ → Prop
  | found {rest : Reader σ} (h : delim ∈ b.content S) :
      Sliced b ⟨through delim (b.content S), none, rest⟩
  | ended {rest : Reader σ} (h : delim ∉ b.content S) :
      Sliced b ⟨b.content S, some (.read (b.ending S)), rest⟩
  | full {frag : GoString} {rest : Reader σ} (hne : frag ≠ []) (h : delim ∉ frag)
      (hcontent : b.content S = frag ++ rest.content S) (hending : rest.ending S = b.ending S) :
      Sliced b ⟨frag, some .bufferFull, rest⟩

variable {S delim}

theorem Filled.sliced {b b' : Reader σ} {r : Slice σ} (h : Filled (S := S) b b')
    (hr : Sliced S delim b' r) : Sliced S delim b r := by
  cases hr with
  | found hmem => rw [h.content] at hmem ⊢; exact .found hmem
  | ended hmem => rw [h.content] at hmem ⊢; rw [h.ending]; exact .ended hmem
  | full hne hmem hcontent hending =>
    exact .full hne hmem (h.content.symm.trans hcontent) (hending.trans h.ending)

variable (S delim)

theorem readSlice_sliced (b : Reader σ) : Sliced S delim b (b.readSlice S delim) := by
  fun_induction readSlice S delim b with
  | case1 b hmem line =>
    have hline : line = through delim (b.content S) := (through_of_mem hmem _).symm
    rw [hline]
    exact .found (List.mem_append_left _ hmem)
  | case2 b hmem e herr =>
    have hcontent : b.content S = b.buf := by simp [content, herr]
    have hending : b.ending S = e := by simp [ending, herr]
    rw [← hcontent] at hmem ⊢
    rw [← hending]
    exact .ended hmem
  | case3 b hmem herr hfull =>
    have hne : b.buf ≠ [] := by
      have := b.size_ge
      rw [ne_eq, ← List.length_eq_zero_iff]
      omega
    exact .full hne hmem (by simp [content, herr]) rfl
  | case4 b hmem herr hfull ih => exact (fill_filled herr (Nat.lt_of_not_le hfull)).sliced ih

/-- `Reader.ReadString`, with the loop of `collectFragments`. -/
def readString (b : Reader σ) : Line σ :=
  match _ : b.readSlice S delim with
  | ⟨frag, none, b'⟩ => ⟨frag, none, b'⟩
  | ⟨frag, some (.read e), b'⟩ => ⟨frag, some e, b'⟩
  | ⟨frag, some .bufferFull, b'⟩ =>
    let r := readString b'
    { r with text := frag ++ r.text }
termination_by (b.content S).length
decreasing_by
  have hs := readSlice_sliced S delim b
  rw [‹b.readSlice S delim = _›] at hs
  cases hs with
  | full hne hmem hcontent hending =>
    have := List.length_pos_of_ne_nil hne
    rw [hcontent, List.length_append]
    omega

/-- `ReadString` returns the content up to the first delimiter, and fails if there
is none, as its source does. -/
theorem readString_spec (b : Reader σ) :
    (b.readString S delim).text = through delim (b.content S) ∧
      (b.readString S delim).err = if delim ∈ b.content S then none else some (b.ending S) := by
  -- along the loop: every slice but the last is a full buffer without the delimiter
  fun_induction readString S delim b with
  | case1 b frag b' h =>
    have hs := readSlice_sliced S delim b
    rw [h] at hs
    cases hs with
    | found hmem => exact ⟨rfl, (if_pos hmem).symm⟩
  | case2 b frag e b' h =>
    have hs := readSlice_sliced S delim b
    rw [h] at hs
    cases hs with
    | ended hmem =>
      have hall := through_of_not_mem hmem []
      rw [List.append_nil, through, List.append_nil] at hall
      exact ⟨hall.symm, (if_neg hmem).symm⟩
  | case3 b frag b' h r ih =>
    have hs := readSlice_sliced S delim b
    rw [h] at hs
    cases hs with
    | full hne hmem hcontent hending =>
      rw [hcontent, ← hending]
      refine ⟨?_, ?_⟩
      · rw [through_of_not_mem hmem, ← ih.1]
      · simpa [hmem] using ih.2

end Reader
end WorkspaceProxy.Go
