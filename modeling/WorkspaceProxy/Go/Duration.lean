import WorkspaceProxy.Go.Strings

/-! # Go durations in strings

`time.ParseDuration` and `Duration.String`. A duration is a number of
nanoseconds in an `int64`. The parser adds up terms, each a decimal number with
a unit; a fraction goes through `float64`, so the arithmetic of that is here
too. -/
namespace WorkspaceProxy.Go

/-! ## The arithmetic of `float64` -/

/-- A `float64` that is not negative, as `mantissa * 2 ^ exponent`. The exponent
has no bounds: where a fraction comes to a nanosecond or more, all exponents are
far inside those of the format, and below that it counts for nothing. -/
structure Float64 where
  mantissa : Nat
  exponent : Int

/-- The integer nearest to `n / d`, the even one of two. -/
def roundEven (n d : Nat) : Nat :=
  if 2 * (n % d) < d then n / d
  else if d < 2 * (n % d) then n / d + 1
  else if n / d % 2 = 0 then n / d else n / d + 1

/-- Numerator and denominator of `n / d / 2 ^ e`. -/
def scaled (n d : Nat) (e : Int) : Nat × Nat :=
  if 0 ≤ e then (n, d * 2 ^ e.toNat) else (n * 2 ^ (-e).toNat, d)

namespace Float64

/-- The number with a mantissa of 53 bits that is nearest to `n / d * 2 ^ k`. -/
def nearest (n d : Nat) (k : Int) : Float64 :=
  -- with this exponent the mantissa has 52 or 53 bits
  let e : Int := n.log2 - d.log2 - 52
  let e := if (scaled n d e).1 / (scaled n d e).2 < 2 ^ 52 then e - 1 else e
  ⟨roundEven (scaled n d e).1 (scaled n d e).2, e + k⟩

def ofNat (n : Nat) : Float64 := nearest n 1 0

def mul (x y : Float64) : Float64 := nearest (x.mantissa * y.mantissa) 1 (x.exponent + y.exponent)

def div (x y : Float64) : Float64 := nearest x.mantissa y.mantissa (x.exponent - y.exponent)

/-- The conversion to `uint64`, which truncates. -/
def toNat (x : Float64) : Nat :=
  if 0 ≤ x.exponent then x.mantissa * 2 ^ x.exponent.toNat
  else x.mantissa / 2 ^ (-x.exponent).toNat

end Float64

/-! ## ParseDuration -/

inductive DurationError
  | invalid
  | missingUnit
  | unknownUnit
deriving DecidableEq, Repr

/-- `leadingInt`: the number at the beginning, from the value `x` read so far, and
the rest. -/
def leadingInt (x : Nat) : GoString → Option (Nat × GoString)
  | [] => some (x, [])
  | b :: bs =>
    if isDigit b then
      if x > 2 ^ 63 / 10 then none
      else if x * 10 + (b.toNat - 48) > 2 ^ 63 then none
      else leadingInt (x * 10 + (b.toNat - 48)) bs
    else some (x, b :: bs)

/-- `leadingFraction`: digits that do not fit any more are skipped. -/
def leadingFraction (x : Nat) (scale : Float64) (overflow : Bool) :
    GoString → Nat × Float64 × GoString
  | [] => (x, scale, [])
  | b :: bs =>
    if isDigit b then
      if overflow = true ∨ x > (2 ^ 63 - 1) / 10 ∨ x * 10 + (b.toNat - 48) > 2 ^ 63 then
        leadingFraction x scale true bs
      else leadingFraction (x * 10 + (b.toNat - 48)) (scale.mul (.ofNat 10)) false bs
    else (x, scale, b :: bs)

/-- `unitMap`, in nanoseconds. The letter of the microsecond may be U+00B5 or
U+03BC. -/
def unitMap (u : GoString) : Option Nat :=
  if u = bytes "ns" then some 1
  else if u = bytes "us" ∨ u = bytes "µs" ∨ u = bytes "μs" then some 1000
  else if u = bytes "ms" then some 1000000
  else if u = bytes "s" then some 1000000000
  else if u = bytes "m" then some 60000000000
  else if u = bytes "h" then some 3600000000000
  else none

/-- A byte that may stand in a unit. -/
def isUnitByte (b : UInt8) : Bool := !(b == 46 || isDigit b)

/-- The number of a term: what is before the point, what is after it with its
scale, the rest, and whether there was a digit. -/
def leadingNumber (s : GoString) : Option (Nat × Nat × Float64 × GoString × Bool) :=
  (leadingInt 0 s).map fun (v, r) =>
    let pre := decide (r.length ≠ s.length)
    match r with
    | 46 :: r =>
      let (f, scale, rest) := leadingFraction 0 (.ofNat 1) false r
      (v, f, scale, rest, pre || decide (rest.length ≠ r.length))
    | r => (v, 0, .ofNat 1, r, pre)

/-- The value of a term in nanoseconds, an `uint64`. -/
def termValue (v f : Nat) (scale : Float64) (unit : Nat) : Except DurationError Nat :=
  if v > 2 ^ 63 / unit then .error .invalid
  else if f > 0 then
    let w := (v * unit + ((Float64.ofNat f).mul ((Float64.ofNat unit).div scale)).toNat) % 2 ^ 64
    if w > 2 ^ 63 then .error .invalid else .ok w
  else .ok (v * unit)

/-- One round of the loop: the value of the first term and the rest. -/
def parseTerm (s : GoString) : Except DurationError (Nat × GoString) :=
  match leadingNumber s with
  | none => .error .invalid
  | some (v, f, scale, r, digits) =>
    -- a first byte that is neither a digit nor a point leaves no digits
    if digits = false then .error .invalid
    else if r.takeWhile isUnitByte = [] then .error .missingUnit
    else match unitMap (r.takeWhile isUnitByte) with
      | none => .error .unknownUnit
      | some unit => (termValue v f scale unit).map fun w => (w, r.dropWhile isUnitByte)

/-- The loop, from the sum `d` so far. A round takes a byte at least, so as many
rounds as there are bytes are enough. -/
def parseTerms : Nat → GoString → Nat → Except DurationError Nat
  | _, [], d => .ok d
  | 0, _ :: _, _ => .error .invalid
  | n + 1, b :: bs, d =>
    match parseTerm (b :: bs) with
    | .error e => .error e
    | .ok (v, rest) =>
      if (d + v) % 2 ^ 64 > 2 ^ 63 then .error .invalid else parseTerms n rest ((d + v) % 2 ^ 64)

/-- Whether there is a minus sign, and what follows the sign. -/
def splitSign : GoString → Bool × GoString
  | 45 :: r => (true, r)
  | 43 :: r => (false, r)
  | r => (false, r)

/-- `time.ParseDuration`. -/
def parseDuration (s : GoString) : Except DurationError Int :=
  let neg := (splitSign s).1
  let r := (splitSign s).2
  if r = [48] then .ok 0
  else if r = [] then .error .invalid
  else match parseTerms r.length r 0 with
    | .error e => .error e
    | .ok d =>
      if neg = true then .ok (-d)
      else if d > 2 ^ 63 - 1 then .error .invalid else .ok d

theorem leadingInt_length {x v : Nat} {s r : GoString} (h : leadingInt x s = some (v, r)) :
    r.length ≤ s.length := by
  induction s generalizing x with
  | nil => cases h; exact Nat.le_refl _
  | cons b bs ih =>
    simp only [leadingInt] at h
    split at h
    · split at h
      · cases h
      · split at h
        · cases h
        · exact Nat.le_succ_of_le (ih h)
    · cases h; exact Nat.le_refl _

theorem leadingFraction_length (x : Nat) (scale : Float64) (overflow : Bool) (s : GoString) :
    (leadingFraction x scale overflow s).2.2.length ≤ s.length := by
  induction s generalizing x scale overflow with
  | nil => exact Nat.le_refl _
  | cons b bs ih =>
    simp only [leadingFraction]
    split
    · split <;> exact Nat.le_succ_of_le (ih ..)
    · exact Nat.le_refl _

theorem leadingNumber_length {v f : Nat} {scale : Float64} {s r : GoString} {digits : Bool}
    (h : leadingNumber s = some (v, f, scale, r, digits)) : r.length ≤ s.length := by
  obtain ⟨⟨w, r'⟩, hint, heq⟩ := Option.map_eq_some_iff.mp h
  have hlen := leadingInt_length hint
  dsimp only at heq
  split at heq
  · rename_i tail
    have hfrac := leadingFraction_length 0 (.ofNat 1) false tail
    cases heq
    simp only [List.length_cons] at hlen
    exact hfrac.trans (by omega)
  · cases heq
    exact hlen

/-- A round of the loop takes a byte. -/
theorem parseTerm_length {s rest : GoString} {v : Nat} (h : parseTerm s = .ok (v, rest)) :
    rest.length < s.length := by
  unfold parseTerm at h
  split at h
  · cases h
  · rename_i w f scale r digits hnum
    have hlen := leadingNumber_length hnum
    split at h
    · cases h
    · split at h
      · cases h
      · rename_i hunit
        split at h
        · cases h
        · rename_i unit _
          cases hv : termValue w f scale unit with
          | error e => rw [hv] at h; cases h
          | ok x =>
            rw [hv] at h
            cases h
            have hsplit := congrArg List.length (List.takeWhile_append_dropWhile (p := isUnitByte) (l := r))
            have hpos := List.length_pos_iff.mpr hunit
            rw [List.length_append] at hsplit
            omega

/-- More rounds than there are bytes make no difference. -/
theorem parseTerms_enough {n : Nat} {s : GoString} (hn : s.length ≤ n) (d : Nat) :
    parseTerms n s d = parseTerms s.length s d := by
  induction n using Nat.strong_induction_on generalizing s d with
  | _ n ih =>
    cases s with
    | nil => cases n <;> rfl
    | cons b bs =>
      obtain ⟨m, rfl⟩ : ∃ m, n = m + 1 := ⟨n - 1, by simp only [List.length_cons] at hn; omega⟩
      simp only [List.length_cons, Nat.add_le_add_iff_right] at hn
      simp only [parseTerms, List.length_cons]
      split
      · rfl
      · rename_i v rest hterm
        have hrest := parseTerm_length hterm
        simp only [List.length_cons] at hrest
        split
        · rfl
        · rw [ih m (by omega) (by omega), ← ih bs.length (by omega) (by omega)]

theorem parseTerms_le {n d e : Nat} {s : GoString} (hd : d ≤ 2 ^ 63)
    (h : parseTerms n s d = .ok e) : e ≤ 2 ^ 63 := by
  induction n generalizing s d with
  | zero =>
    cases s with
    | nil => cases h; exact hd
    | cons b bs => cases h
  | succ n ih =>
    cases s with
    | nil => cases h; exact hd
    | cons b bs =>
      simp only [parseTerms] at h
      split at h
      · cases h
      · split at h
        · cases h
        · exact ih (by omega) h

/-- A duration that was parsed is an `int64`. -/
theorem parseDuration_range {s : GoString} {d : Int} (h : parseDuration s = .ok d) :
    -2 ^ 63 ≤ d ∧ d ≤ 2 ^ 63 - 1 := by
  unfold parseDuration at h
  dsimp only at h
  split at h
  · cases h; norm_num
  · split at h
    · cases h
    · split at h
      · cases h
      · rename_i e he
        have hle := parseTerms_le (by omega) he
        split at h
        · cases h; omega
        · split at h
          · cases h
          · cases h; omega

/-! ## String -/

/-- `fmtFrac`: the digits of `v` behind the point, without zeros at the end, before
`tail`; and what is before the point. -/
def fmtFrac : Nat → Nat → Bool → GoString → GoString × Nat
  | 0, v, print, tail => (if print then 46 :: tail else tail, v)
  | prec + 1, v, print, tail =>
    if print || v % 10 != 0 then fmtFrac prec (v / 10) true ((48 + UInt8.ofNat (v % 10)) :: tail)
    else fmtFrac prec (v / 10) false tail

/-- The text of `v` in units of `10 ^ prec`. -/
def fmtUnit (v prec : Nat) (unit : String) : GoString :=
  let (tail, v) := fmtFrac prec v false (bytes unit)
  decimal v ++ tail

/-- The text of a duration of a second or more. -/
def fmtSeconds (v : Nat) : GoString :=
  let (tail, v) := fmtFrac 9 v false (bytes "s")
  let seconds := decimal (v % 60) ++ tail
  if v / 60 = 0 then seconds
  else
    let minutes := decimal (v / 60 % 60) ++ bytes "m" ++ seconds
    if v / 60 / 60 = 0 then minutes else decimal (v / 60 / 60) ++ bytes "h" ++ minutes

/-- `Duration.String`. -/
def durationString (d : Int) : GoString :=
  let u := d.natAbs
  let text :=
    if u = 0 then bytes "0s"
    else if u < 1000 then fmtUnit u 0 "ns"
    else if u < 1000000 then fmtUnit u 3 "µs"
    else if u < 1000000000 then fmtUnit u 6 "ms"
    else fmtSeconds u
  if d < 0 then 45 :: text else text

end WorkspaceProxy.Go
