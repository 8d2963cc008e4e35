import WorkspaceProxy.Go.Utf8

/-! # Quoting

The verb `%q` of package fmt, which is `strconv.Quote`. Which runes above
Latin-1 are printable is in the tables of package strconv, here a parameter. What
`Quote` writes is printable throughout (`printableText_quote`), and in a text
that is printable it only escapes quotes and backslashes
(`quoteRunes_of_printable`). -/
namespace WorkspaceProxy.Go

/-- The rune `"`. -/
abbrev doubleQuote : Nat := 34
/-- The rune `\`. -/
abbrev backslash : Nat := 92

/-- The runes of a string literal in ASCII. -/
def ascii (s : String) : List Nat := (bytes s).map UInt8.toNat

/-- A digit of the string `lowerhex`. -/
def lowerhex (d : Nat) : Nat := if d < 10 then 48 + d else 87 + d

/-- The last `w` hexadecimal digits of a number. -/
def hexDigits : Nat → Nat → List Nat
  | 0, _ => []
  | w + 1, n => hexDigits w (n / 16) ++ [lowerhex (n % 16)]

section
variable (table : Nat → Bool)

/-- `strconv.IsPrint`. -/
def isPrint (r : Nat) : Bool :=
  if r ≤ 0xFF then (0x20 ≤ r && r < 0x7F) || (0xA1 ≤ r && r != 0xAD) else table r

/-- The `switch` at the end of `strconv.appendEscapedRune`: a rune that is
neither a quote nor a backslash nor printable. -/
def escapeControl (r : Nat) : List Nat :=
  if r = 7 then ascii "\\a"
  else if r = 8 then ascii "\\b"
  else if r = 12 then ascii "\\f"
  else if r = 10 then ascii "\\n"
  else if r = 13 then ascii "\\r"
  else if r = 9 then ascii "\\t"
  else if r = 11 then ascii "\\v"
  else if r < 0x20 ∨ r = 0x7F then ascii "\\x" ++ hexDigits 2 r
  else if ¬ Scalar r then ascii "\\u" ++ hexDigits 4 0xFFFD
  else if r < 0x10000 then ascii "\\u" ++ hexDigits 4 r
  else ascii "\\U" ++ hexDigits 8 r

/-- `strconv.appendEscapedRune` for a string in double quotes. -/
def escapeRune (r : Nat) : List Nat :=
  if r = doubleQuote ∨ r = backslash then [backslash, r]
  else if isPrint table r = true then [r]
  else escapeControl r

/-- One round of the loop of `strconv.appendQuotedWith`. -/
def escape : Chunk → List Nat
  | .rune r => escapeRune table r
  | .bad b => ascii "\\x" ++ hexDigits 2 b.toNat

def quoteRunes (s : GoString) : List Nat :=
  doubleQuote :: (runes s).flatMap (escape table) ++ [doubleQuote]

/-- `strconv.Quote`. -/
def quote (s : GoString) : GoString := encode (quoteRunes table s)

/-! ## Printable texts -/

structure Printable (r : Nat) : Prop where
  scalar : Scalar r
  isPrint : isPrint table r = true

/-- A text all of whose runes are printable. -/
def PrintableText (s : GoString) : Prop := ∃ rs, s = encode rs ∧ ∀ r ∈ rs, Printable table r

variable {table}

theorem printable_ascii {r : Nat} (hlow : 0x20 ≤ r) (hhigh : r < 0x7F) : Printable table r where
  scalar := .inl (by omega)
  isPrint := by
    rw [Go.isPrint, if_pos (by omega)]
    simp [hlow, hhigh]

/-- Control characters are not printable. -/
theorem Printable.ge {r : Nat} (h : Printable table r) : 0x20 ≤ r := by
  have hp := h.isPrint
  by_contra hlt
  rw [Go.isPrint, if_pos (by omega)] at hp
  simp at hp
  omega

theorem PrintableText.append {s t : GoString} (hs : PrintableText table s)
    (ht : PrintableText table t) : PrintableText table (s ++ t) := by
  obtain ⟨rs, rfl, hrs⟩ := hs
  obtain ⟨rs', rfl, hrs'⟩ := ht
  refine ⟨rs ++ rs', (encode_append rs rs').symm, fun r hr => ?_⟩
  exact (List.mem_append.mp hr).elim (hrs r) (hrs' r)

theorem encode_toNat {s : GoString} (h : ∀ b ∈ s, b.toNat < 0x80) :
    encode (s.map UInt8.toNat) = s := by
  induction s with
  | nil => rfl
  | cons b s ih =>
    have hb : encodeRune b.toNat = [b] := by
      rw [encodeRune, if_pos (h b (by simp)), UInt8.ofNat_toNat]
    have hrest : encode (s.map UInt8.toNat) = s := ih fun b' hb' => h b' (by simp [hb'])
    rw [List.map_cons, encode, List.flatMap_cons, hb]
    exact congrArg (b :: ·) hrest

def isAscii (s : GoString) : Bool := s.all fun b => 0x20 ≤ b.toNat && b.toNat < 0x7F

/-- A text of printable ASCII. -/
theorem printableText_ascii {s : GoString} (h : isAscii s = true) : PrintableText table s := by
  have hbyte : ∀ b ∈ s, 0x20 ≤ b.toNat ∧ b.toNat < 0x7F := by
    intro b hb
    have := List.all_eq_true.mp h b hb
    simpa using this
  refine ⟨s.map UInt8.toNat, (encode_toNat fun b hb => ?_).symm, fun r hr => ?_⟩
  · have := hbyte b hb
    omega
  · obtain ⟨b, hb, rfl⟩ := List.mem_map.mp hr
    exact printable_ascii (hbyte b hb).1 (hbyte b hb).2

/-! ## What is quoted -/

theorem printable_lowerhex (n : Nat) : Printable table (lowerhex (n % 16)) := by
  unfold lowerhex
  split <;> exact printable_ascii (by omega) (by omega)

theorem printable_hexDigits (w n : Nat) : ∀ r ∈ hexDigits w n, Printable table r := by
  induction w generalizing n with
  | zero => exact fun r hr => absurd hr List.not_mem_nil
  | succ w ih =>
    intro r hr
    rcases List.mem_append.mp hr with hr | hr
    · exact ih _ r hr
    · rw [List.mem_singleton.mp hr]
      exact printable_lowerhex n

theorem printable_append {rs rs' : List Nat} (h : ∀ r ∈ rs, Printable table r)
    (h' : ∀ r ∈ rs', Printable table r) : ∀ r ∈ rs ++ rs', Printable table r :=
  fun r hr => (List.mem_append.mp hr).elim (h r) (h' r)

theorem printable_ite {c : Prop} [Decidable c] {rs rs' : List Nat}
    (h : ∀ r ∈ rs, Printable table r) (h' : ∀ r ∈ rs', Printable table r) :
    ∀ r ∈ if c then rs else rs', Printable table r := by
  split
  · exact h
  · exact h'

theorem printable_literal {s : String} (h : ∀ r ∈ ascii s, 0x20 ≤ r ∧ r < 0x7F) :
    ∀ r ∈ ascii s, Printable table r :=
  fun r hr => printable_ascii (h r hr).1 (h r hr).2

theorem printable_escapeControl (r : Nat) : ∀ x ∈ escapeControl r, Printable table x := by
  have hstart : ∀ s ∈ ["\\a", "\\b", "\\f", "\\n", "\\r", "\\t", "\\v", "\\x", "\\u", "\\U"],
      ∀ x ∈ ascii s, 0x20 ≤ x ∧ x < 0x7F := by decide
  unfold escapeControl
  iterate 7 refine printable_ite (printable_literal (hstart _ (by simp))) ?_
  iterate 3
    refine printable_ite (printable_append (printable_literal (hstart _ (by simp)))
      (printable_hexDigits _ _)) ?_
  exact printable_append (printable_literal (hstart _ (by simp))) (printable_hexDigits _ _)

/-- Whatever `Quote` writes for a rune is printable. -/
theorem printable_escapeRune {r : Nat} (hr : Scalar r) :
    ∀ x ∈ escapeRune table r, Printable table x := by
  intro x hx
  unfold escapeRune at hx
  split at hx
  · rename_i hq
    rcases List.mem_cons.mp hx with rfl | hx
    · exact printable_ascii (by decide) (by decide)
    · rw [List.mem_singleton.mp hx]
      rcases hq with rfl | rfl <;> exact printable_ascii (by decide) (by decide)
  · split at hx
    · rename_i hp
      rw [List.mem_singleton.mp hx]
      exact ⟨hr, hp⟩
    · exact printable_escapeControl r x hx

theorem printable_quoteRunes (s : GoString) : ∀ r ∈ quoteRunes table s, Printable table r := by
  have hquote : ∀ r ∈ [doubleQuote], Printable table r := fun r hr => by
    rw [List.mem_singleton.mp hr]
    exact printable_ascii (by decide) (by decide)
  refine printable_append (printable_append hquote fun r hr => ?_) hquote
  obtain ⟨c, hc, hr⟩ := List.mem_flatMap.mp hr
  cases c with
  | rune r' => exact printable_escapeRune (scalar_of_mem_runes hc) r hr
  | bad b =>
    exact printable_append (printable_literal (by decide)) (printable_hexDigits _ _) r hr

theorem printableText_quote (s : GoString) : PrintableText table (quote table s) :=
  ⟨_, rfl, printable_quoteRunes s⟩

/-- A backslash before quotes and backslashes. -/
def slash (r : Nat) : List Nat :=
  if r = doubleQuote ∨ r = backslash then [backslash, r] else [r]

theorem quoteRunes_of_printable {rs : List Nat} (h : ∀ r ∈ rs, Printable table r) :
    quoteRunes table (encode rs) = doubleQuote :: rs.flatMap slash ++ [doubleQuote] := by
  have hescape : ∀ r ∈ rs, escape table (.rune r) = slash r := fun r hr => by
    rw [escape, escapeRune, slash, if_pos (h r hr).isPrint]
  rw [quoteRunes, runes_encode fun r hr => (h r hr).scalar, List.flatMap_map,
    List.flatMap_congr hescape]

end
end WorkspaceProxy.Go
