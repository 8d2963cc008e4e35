import WorkspaceProxy.Go.Quote

/-! # JSON strings

A reader of JSON string literals after RFC 8259: UTF-8, no control characters,
and only the escapes of the grammar. Go's quoting has other escapes, so not
every quoted text is a JSON string; that of a printable text is one, and it is
read back (`jsonString_quote`). -/
namespace WorkspaceProxy.Go

/-- The character that a backslash and `r` stand for. -/
def simpleEscape (r : Nat) : Option Nat :=
  if r = doubleQuote ∨ r = backslash ∨ r = 47 then some r
  else if r = 98 then some 8
  else if r = 102 then some 12
  else if r = 110 then some 10
  else if r = 114 then some 13
  else if r = 116 then some 9
  else none

def hexValue (r : Nat) : Option Nat :=
  if 48 ≤ r ∧ r ≤ 57 then some (r - 48)
  else if 97 ≤ r ∧ r ≤ 102 then some (r - 87)
  else if 65 ≤ r ∧ r ≤ 70 then some (r - 55)
  else none

/-- Where a reader is inside a string literal; `hex n acc` waits for the digits
after the next `n` of an escape `\u`. -/
inductive Scan
  | inString
  | escaped
  | hex (n acc : Nat)

/-- The characters of a string literal after its opening quote. Surrogates of
escapes are still apart. -/
def scan : Scan → List Nat → Option (List Nat)
  | _, [] => none
  | .inString, r :: rs =>
    if r = doubleQuote then if rs = [] then some [] else none
    else if r = backslash then scan .escaped rs
    else if r < 0x20 then none
    else (scan .inString rs).map (r :: ·)
  | .escaped, r :: rs =>
    if r = 117 then scan (.hex 3 0) rs
    else match simpleEscape r with
      | some c => (scan .inString rs).map (c :: ·)
      | none => none
  | .hex 0 acc, r :: rs =>
    match hexValue r with
    | some d => (scan .inString rs).map ((acc * 16 + d) :: ·)
    | none => none
  | .hex (n + 1) acc, r :: rs =>
    match hexValue r with
    | some d => scan (.hex n (acc * 16 + d)) rs
    | none => none

/-- A rune in the place of a surrogate without its pair. -/
def replaceSurrogate (r : Nat) : Nat := if Scalar r then r else 0xFFFD

/-- Pairs of surrogates are one character. -/
def joinSurrogates : List Nat → List Nat
  | [] => []
  | [r] => [replaceSurrogate r]
  | r :: r' :: rs =>
    if 0xD800 ≤ r ∧ r < 0xDC00 ∧ 0xDC00 ≤ r' ∧ r' < 0xE000 then
      (0x10000 + (r - 0xD800) * 1024 + (r' - 0xDC00)) :: joinSurrogates rs
    else replaceSurrogate r :: joinSurrogates (r' :: rs)

/-- The runes of a text that is UTF-8. -/
def validRunes (s : GoString) : Option (List Nat) :=
  (runes s).mapM fun
    | .rune r => some r
    | .bad _ => none

/-- The string that a JSON string literal stands for; `none` if it is not one. -/
def jsonString (literal : GoString) : Option GoString :=
  match validRunes literal with
  | none | some [] => none
  | some (r :: rs) =>
    if r = doubleQuote then (scan .inString rs).map fun cs => encode (joinSurrogates cs) else none

/-! ## Quoted texts -/

theorem validRunes_encode {rs : List Nat} (h : ∀ r ∈ rs, Scalar r) :
    validRunes (encode rs) = some rs := by
  rw [validRunes, runes_encode h]
  clear h
  induction rs with
  | nil => rfl
  | cons r rs ih => simp [ih]

theorem scan_slash {rs : List Nat} (h : ∀ r ∈ rs, 0x20 ≤ r) :
    scan .inString (rs.flatMap slash ++ [doubleQuote]) = some rs := by
  induction rs with
  | nil => rfl
  | cons r rs ih =>
    have hrest := ih fun r' hr' => h r' (by simp [hr'])
    have hr : ¬ r < 0x20 := Nat.not_lt.mpr (h r (by simp))
    rw [List.flatMap_cons, slash]
    split
    · rename_i hq
      have hsimple : simpleEscape r = some r := if_pos (by rw [← or_assoc]; exact .inl hq)
      have hu : r ≠ 117 := by rcases hq with rfl | rfl <;> decide
      simp [scan, hsimple, hu, hrest]
    · rename_i hq
      simp only [not_or] at hq
      simp [scan, hq.1, hq.2, hr, hrest]

theorem joinSurrogates_of_scalar {rs : List Nat} (h : ∀ r ∈ rs, Scalar r) :
    joinSurrogates rs = rs := by
  induction rs with
  | nil => rfl
  | cons r rs ih =>
    have hr : Scalar r := h r (by simp)
    have hrest := ih fun r' hr' => h r' (by simp [hr'])
    cases rs with
    | nil => rw [joinSurrogates, replaceSurrogate, if_pos hr]
    | cons r' rs =>
      have hpair : ¬ (0xD800 ≤ r ∧ r < 0xDC00 ∧ 0xDC00 ≤ r' ∧ r' < 0xE000) := by
        unfold Scalar at hr
        omega
      rw [joinSurrogates, if_neg hpair, hrest, replaceSurrogate, if_pos hr]

/-- **A printable text that is quoted is a JSON string for it.** -/
theorem jsonString_quote {table : Nat → Bool} {s : GoString} (h : PrintableText table s) :
    jsonString (quote table s) = some s := by
  obtain ⟨rs, rfl, hrs⟩ := h
  have hquoted : validRunes (encode (quoteRunes table (encode rs))) = _ :=
    validRunes_encode fun r hr => (printable_quoteRunes (encode rs) r hr).scalar
  have hscan := scan_slash fun r hr => (hrs r hr).ge
  have hjoin := joinSurrogates_of_scalar fun r hr => (hrs r hr).scalar
  rw [jsonString, quote, hquoted, quoteRunes_of_printable hrs]
  simp [hscan, hjoin]

end WorkspaceProxy.Go
