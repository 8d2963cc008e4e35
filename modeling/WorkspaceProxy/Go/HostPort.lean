import WorkspaceProxy.Go.Strings

/-! # The host:port grammar of package net

`net.JoinHostPort` brackets a host exactly when it has a colon, and
`net.SplitHostPort` looks for the last colon first and judges the brackets
afterwards. A joined address determines its host and its port (`join_inj`)
for every host text; splitting gives them back when the host has no bracket
(`split_join`). -/
namespace WorkspaceProxy.Go

/-- The byte `:`. -/
abbrev colon : UInt8 := 58
/-- The byte `[`. -/
abbrev openBracket : UInt8 := 91
/-- The byte `]`. -/
abbrev closeBracket : UInt8 := 93

/-- `net.JoinHostPort`. -/
def joinHostPort (host port : GoString) : GoString :=
  if colon ∈ host then openBracket :: host ++ closeBracket :: colon :: port
  else host ++ colon :: port

/-- The reasons of `net.AddrError` that `SplitHostPort` gives. -/
inductive AddrError where
  /-- missing port in address -/
  | missingPort
  /-- too many colons in address -/
  | tooManyColons
  /-- missing ']' in address -/
  | missingCloseBracket
  /-- unexpected '[' in address -/
  | unexpectedOpenBracket
  /-- unexpected ']' in address -/
  | unexpectedCloseBracket
  deriving DecidableEq, Repr

/-- The field `Err` of `net.AddrError`. -/
def AddrError.err : AddrError → GoString
  | .missingPort => bytes "missing port in address"
  | .tooManyColons => bytes "too many colons in address"
  | .missingCloseBracket => bytes "missing ']' in address"
  | .unexpectedOpenBracket => bytes "unexpected '[' in address"
  | .unexpectedCloseBracket => bytes "unexpected ']' in address"

/-- `AddrError.Error`. -/
def AddrError.error (addr : GoString) (e : AddrError) : GoString :=
  if addr ≠ [] then bytes "address " ++ addr ++ bytes ": " ++ e.err else e.err

/-- The last checks of `SplitHostPort`: no `[` at or after `j`, no `]` at or
after `k`, and the port is what follows the last colon `i`. -/
def splitTail (hostport host : GoString) (i j k : Nat) : Except AddrError (GoString × GoString) :=
  if openBracket ∈ hostport.drop j then .error .unexpectedOpenBracket
  else if closeBracket ∈ hostport.drop k then .error .unexpectedCloseBracket
  else .ok (host, hostport.drop (i + 1))

/-- `net.SplitHostPort`. -/
def splitHostPort (hostport : GoString) : Except AddrError (GoString × GoString) :=
  -- The port starts after the last colon.
  match lastIndexByte hostport colon with
  | none => .error .missingPort
  | some i =>
    if hostport.head? = some openBracket then
      match indexByte hostport closeBracket with
      | none => .error .missingCloseBracket
      | some stop =>
        -- Expect the first ']' just before the last ':'.
        if stop + 1 = hostport.length then .error .missingPort
        else if stop + 1 = i then splitTail hostport ((hostport.take stop).drop 1) i 1 (stop + 1)
        else if hostport[stop + 1]? = some colon then .error .tooManyColons
        else .error .missingPort
    else
      if colon ∈ hostport.take i then .error .tooManyColons
      else splitTail hostport (hostport.take i) i 0 0

theorem splitTail_port {hostport host host' port : GoString} {i j k : Nat}
    (h : splitTail hostport host i j k = .ok (host', port)) : port = hostport.drop (i + 1) := by
  unfold splitTail at h
  split at h
  · cases h
  · split at h
    · cases h
    · cases h
      rfl

/-- The port is what follows the last colon. -/
theorem splitHostPort_port {hostport host port : GoString}
    (h : splitHostPort hostport = .ok (host, port)) :
    ∃ pre, hostport = pre ++ colon :: port ∧ colon ∉ port := by
  unfold splitHostPort at h
  split at h
  · cases h
  · rename_i i hlast
    have hport : port = hostport.drop (i + 1) := by
      split at h
      · split at h
        · cases h
        · split at h
          · cases h
          · split at h
            · exact splitTail_port h
            · split at h <;> cases h
      · split at h
        · cases h
        · exact splitTail_port h
    obtain ⟨pre, post, hsplit, hi, hpost⟩ := lastIndexByte_some hlast
    have hdrop : post = hostport.drop (i + 1) := by
      rw [hsplit, hi]
      simp
    rw [hport, ← hdrop]
    exact ⟨pre, hsplit, hpost⟩

/-- A text without the three bytes that the grammar gives a meaning. -/
structure Plain (s : GoString) : Prop where
  noColon : colon ∉ s
  noOpen : openBracket ∉ s
  noClose : closeBracket ∉ s

theorem itoa_plain (n : Int) : Plain (itoa n) :=
  ⟨not_mem_itoa rfl (by decide) n, not_mem_itoa rfl (by decide) n, not_mem_itoa rfl (by decide) n⟩

theorem plain_of_digits {s : GoString} (h : ∀ b ∈ s, isDigit b = true) : Plain s := by
  have hnot : ∀ b, isDigit b = false → b ∉ s := by
    intro b hb hmem
    rw [h b hmem] at hb
    cases hb
  exact ⟨hnot colon rfl, hnot openBracket rfl, hnot closeBracket rfl⟩

/-- The two shapes of a joined address end in the same way: the last colon is
the one before the port. -/
theorem joinHostPort_eq (host port : GoString) :
    ∃ pre, joinHostPort host port = pre ++ colon :: port ∧
      pre = if colon ∈ host then openBracket :: host ++ [closeBracket] else host := by
  refine ⟨_, ?_, rfl⟩
  unfold joinHostPort
  split <;> simp

theorem join_inj {h₁ h₂ p₁ p₂ : GoString} (hp₁ : Plain p₁) (hp₂ : Plain p₂)
    (h : joinHostPort h₁ p₁ = joinHostPort h₂ p₂) : h₁ = h₂ ∧ p₁ = p₂ := by
  obtain ⟨pre₁, he₁, hpre₁⟩ := joinHostPort_eq h₁ p₁
  obtain ⟨pre₂, he₂, hpre₂⟩ := joinHostPort_eq h₂ p₂
  rw [he₁, he₂] at h
  -- the last colon sits at the same place in both
  have hlen : pre₁.length = pre₂.length := by
    have hl := lastIndexByte_append (s := pre₁) hp₁.noColon
    rw [h, lastIndexByte_append hp₂.noColon] at hl
    exact (Option.some.inj hl).symm
  obtain ⟨hpre, hport⟩ := List.append_inj h hlen
  refine ⟨?_, (List.cons.inj hport).2⟩
  rw [hpre₁, hpre₂] at hpre
  -- a bracketed host has a colon and an unbracketed one has none
  split at hpre <;> split at hpre
  · simpa using hpre
  · rename_i hc₁ hc₂
    exact absurd (by rw [← hpre]; simp [hc₁]) hc₂
  · rename_i hc₁ hc₂
    exact absurd (by rw [hpre]; simp [hc₂]) hc₁
  · exact hpre

/-- The bracketed branch, once the positions of the two bytes are known. -/
theorem splitHostPort_bracketed {hs : GoString} {i : Nat} (hhead : hs.head? = some openBracket)
    (hlast : lastIndexByte hs colon = some (i + 1)) (hfirst : indexByte hs closeBracket = some i)
    (hlen : i + 1 ≠ hs.length) :
    splitHostPort hs = splitTail hs ((hs.take i).drop 1) (i + 1) 1 (i + 1) := by
  simp [splitHostPort, hlast, hhead, hfirst, hlen]

/-- The branch without a bracket. -/
theorem splitHostPort_bare {hs : GoString} {i : Nat} (hhead : hs.head? ≠ some openBracket)
    (hlast : lastIndexByte hs colon = some i) (hcolon : colon ∉ hs.take i) :
    splitHostPort hs = splitTail hs (hs.take i) i 0 0 := by
  simp [splitHostPort, hlast, hhead, hcolon]

/-- A text without an opening bracket is not taken for a bracketed host. -/
theorem head?_ne_openBracket {host rest : GoString} (h : openBracket ∉ host) :
    (host ++ colon :: rest).head? ≠ some openBracket := by
  cases host with
  | nil => simp [show colon ≠ openBracket by decide]
  | cons b host =>
    intro he
    simp only [List.cons_append, List.head?_cons, Option.some.injEq] at he
    exact h (by simp [he])

/-- A host with a colon has to be bracketed. -/
theorem splitHostPort_unbracketed_colon {host port : GoString} (ho : openBracket ∉ host)
    (hp : colon ∉ port) (hc : colon ∈ host) :
    splitHostPort (host ++ colon :: port) = .error .tooManyColons := by
  simp only [splitHostPort, lastIndexByte_append hp, if_neg (head?_ne_openBracket ho),
    List.take_left', if_pos hc]

theorem split_join {host port : GoString} (hp : Plain port)
    (ho : openBracket ∉ host) (hc : closeBracket ∉ host) :
    splitHostPort (joinHostPort host port) = .ok (host, port) := by
  have hoc : openBracket ≠ closeBracket := by decide
  have hok : openBracket ≠ colon := by decide
  have hck : closeBracket ≠ colon := by decide
  unfold joinHostPort
  split
  · have hlast : lastIndexByte (openBracket :: host ++ closeBracket :: colon :: port) colon =
        some (host.length + 1 + 1) := by
      have := lastIndexByte_append (s := openBracket :: host ++ [closeBracket]) hp.noColon
      simpa using this
    have hfirst : indexByte (openBracket :: host ++ closeBracket :: colon :: port) closeBracket =
        some (host.length + 1) := by
      rw [indexByte_append]
      · simp
      · simp only [List.mem_cons, not_or]
        exact ⟨hoc.symm, hc⟩
    rw [splitHostPort_bracketed (by simp) hlast hfirst (by simp)]
    simp [splitTail, ho, hp.noOpen, hp.noClose, hoc, hok, hck]
  · rename_i hcolon
    rw [splitHostPort_bare (head?_ne_openBracket ho) (lastIndexByte_append hp.noColon) (by simpa using hcolon)]
    simp [splitTail, ho, hc, hp.noOpen, hp.noClose, hok, hck]

end WorkspaceProxy.Go
