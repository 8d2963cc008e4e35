import Mathlib.Tactic.Common
import Mathlib.Tactic.IntervalCases
import Mathlib.Data.List.Basic

/-! # Go strings, and decimal numbers in them

A Go string is a sequence of bytes with no promise that it is UTF-8, and the
strings here come from clients and from the environment. So a string is a list
of bytes, and a literal of the source is the bytes of its UTF-8 text. The
conversions are `strconv.Itoa` and `strconv.Atoi` on a 64-bit platform, with
the order in which `Atoi` finds its errors. -/
namespace WorkspaceProxy.Go

abbrev GoString := List UInt8

/-- A string literal of the source. -/
def bytes (s : String) : GoString := s.toUTF8.data.toList

/-- `strings.IndexByte`, with `none` for -1. -/
def indexByte (s : GoString) (c : UInt8) : Option Nat := s.findIdx? (· == c)

/-- `strings.LastIndexByte`, with `none` for -1. -/
def lastIndexByte (s : GoString) (c : UInt8) : Option Nat :=
  (indexByte s.reverse c).map fun i => s.length - 1 - i

theorem indexByte_append {s t : GoString} {c : UInt8} (h : c ∉ s) :
    indexByte (s ++ c :: t) c = some s.length := by
  induction s with
  | nil => simp [indexByte, List.findIdx?_cons]
  | cons x s ih =>
    have hx : x ≠ c := fun he => h (by simp [he])
    have ht := ih (fun hm => h (by simp [hm]))
    simp only [indexByte] at ht
    simp [indexByte, List.findIdx?_cons, hx, ht]

theorem lastIndexByte_append {s t : GoString} {c : UInt8} (h : c ∉ t) :
    lastIndexByte (s ++ c :: t) c = some s.length := by
  have hr : (s ++ c :: t).reverse = t.reverse ++ c :: s.reverse := by simp
  rw [lastIndexByte, hr, indexByte_append (by simpa using h)]
  simp

theorem lastIndexByte_some {s : GoString} {c : UInt8} {i : Nat}
    (h : lastIndexByte s c = some i) : ∃ pre post, s = pre ++ c :: post ∧ i = pre.length ∧
      c ∉ post := by
  by_cases hmem : c ∈ s
  · obtain ⟨post, pre, hs, hpost⟩ := List.eq_append_cons_of_mem (List.mem_reverse.mpr hmem)
    have hsplit : s = pre.reverse ++ c :: post.reverse := by
      rw [← List.reverse_reverse s, hs]
      simp
    have hnot : c ∉ post.reverse := by simpa using hpost
    rw [hsplit, lastIndexByte_append hnot] at h
    exact ⟨_, _, hsplit, (Option.some.inj h).symm, hnot⟩
  · have hnone : indexByte s.reverse c = none := by
      simpa [indexByte, List.findIdx?_eq_none_iff] using fun x hx (he : x = c) => hmem (he ▸ hx)
    rw [lastIndexByte, hnone] at h
    cases h

/-! ## Itoa -/

/-- The decimal digits of a natural number. -/
def decimal (n : Nat) : GoString := (Nat.toDigits 10 n).map Char.toUInt8

/-- `strconv.Itoa`. -/
def itoa : Int → GoString
  | .ofNat n => decimal n
  | .negSucc n => 45 :: decimal (n + 1)

/-- The bytes `'0'` to `'9'`. -/
def isDigit (b : UInt8) : Bool := 48 ≤ b && b ≤ 57

theorem digitChar_toUInt8 {d : Nat} (h : d < 10) :
    (Nat.digitChar d).toUInt8 = 48 + UInt8.ofNat d := by
  interval_cases d <;> rfl

theorem isDigit_digit {d : Nat} (h : d < 10) : isDigit (48 + UInt8.ofNat d) = true := by
  interval_cases d <;> rfl

theorem decimal_eq (n : Nat) :
    decimal n = (if n < 10 then [] else decimal (n / 10)) ++ [48 + UInt8.ofNat (n % 10)] := by
  unfold decimal
  rw [Nat.toDigits_eq_if (by omega)]
  split
  · rename_i h
    simp [digitChar_toUInt8 h, Nat.mod_eq_of_lt h]
  · simp [digitChar_toUInt8 (Nat.mod_lt n (by omega))]

theorem decimal_isDigit (n : Nat) : ∀ b ∈ decimal n, isDigit b = true := by
  induction n using Nat.strong_induction_on with
  | _ n ih =>
    intro b hb
    rw [decimal_eq, List.mem_append, List.mem_singleton] at hb
    rcases hb with hb | rfl
    · split at hb
      · cases hb
      · exact ih (n / 10) (by omega) b hb
    · exact isDigit_digit (Nat.mod_lt n (by omega))

theorem decimal_ne_nil (n : Nat) : decimal n ≠ [] := by
  rw [decimal_eq]; simp

/-- A byte that is neither a digit nor a minus sign occurs in no number. -/
theorem not_mem_itoa {b : UInt8} (hd : isDigit b = false) (hm : b ≠ 45) (n : Int) :
    b ∉ itoa n := by
  intro h
  cases n with
  | ofNat n =>
    have := decimal_isDigit n b h
    rw [hd] at this; cases this
  | negSucc n =>
    rcases List.mem_cons.mp h with he | h
    · exact hm he
    · have := decimal_isDigit _ b h
      rw [hd] at this; cases this

/-! ## Atoi -/

inductive NumError where
  | badSyntax
  /-- The value is out of range; `Atoi` also returns the nearest bound. -/
  | range (nearest : Int)
  deriving DecidableEq, Repr

/-- The digit loop of `ParseUint(s, 10, 64)` from the value `n` read so far.
An overflow is reported where it happens, before any later byte is looked at. -/
def parseDigits (n : Nat) : GoString → Option (Option Nat)
  | [] => some (some n)
  | b :: bs =>
    if isDigit b then
      if n * 10 + (b.toNat - 48) < 2 ^ 64 then parseDigits (n * 10 + (b.toNat - 48)) bs
      else some none
    else none

/-- The magnitude after the sign: `none` for a syntax error, `some none` for
an overflow of 64 bits. -/
def parseUint (s : GoString) : Option (Option Nat) :=
  if s = [] then none else parseDigits 0 s

/-- `strconv.Atoi`. -/
def atoi (s : GoString) : Except NumError Int :=
  let (neg, digits) := match s with
    | 45 :: r => (true, r)
    | 43 :: r => (false, r)
    | r => (false, r)
  match parseUint digits with
  | none => .error .badSyntax
  | some none => .error (.range (if neg then -2 ^ 63 else 2 ^ 63 - 1))
  | some (some n) =>
    if neg then
      if n ≤ 2 ^ 63 then .ok (-n) else .error (.range (-2 ^ 63))
    else
      if n < 2 ^ 63 then .ok n else .error (.range (2 ^ 63 - 1))

theorem parseDigits_append (s t : GoString) (n m : Nat) (h : parseDigits n s = some (some m)) :
    parseDigits n (s ++ t) = parseDigits m t := by
  induction s generalizing n with
  | nil => simp only [parseDigits, Option.some.injEq] at h; subst h; rfl
  | cons b s ih =>
    simp only [parseDigits, List.cons_append] at h ⊢
    split at h
    · rename_i hb
      split at h
      · rename_i hlt
        rw [if_pos hb, if_pos hlt]
        exact ih _ h
      · cases h
    · cases h

theorem parseDigits_decimal (n : Nat) (hn : n < 2 ^ 64) :
    parseDigits 0 (decimal n) = some (some n) := by
  induction n using Nat.strong_induction_on with
  | _ n ih =>
    have hd : n % 10 < 10 := Nat.mod_lt n (by omega)
    have hval : (48 + UInt8.ofNat (n % 10)).toNat - 48 = n % 10 := by
      generalize n % 10 = d at hd
      interval_cases d <;> rfl
    have hlast (m : Nat) (hm : m * 10 + n % 10 = n) :
        parseDigits m [48 + UInt8.ofNat (n % 10)] = some (some n) := by
      simp only [parseDigits, isDigit_digit hd, if_true, hval, hm, if_pos hn]
    rw [decimal_eq]
    split
    · exact hlast 0 (by omega)
    · rw [parseDigits_append _ _ _ _ (ih (n / 10) (by omega) (by omega))]
      exact hlast (n / 10) (by omega)

/-- Reading back a number that was written. -/
theorem atoi_itoa (n : Nat) (hn : n < 2 ^ 63) : atoi (itoa n) = .ok (n : Int) := by
  have hp : parseUint (decimal n) = some (some n) := by
    rw [parseUint, if_neg (decimal_ne_nil n), parseDigits_decimal n (by omega)]
  have hhead : ∀ b r, decimal n = b :: r → b ≠ 45 ∧ b ≠ 43 := by
    intro b r he
    have hb := decimal_isDigit n b (by simp [he])
    constructor <;> (rintro rfl; cases hb)
  have hs : itoa (n : Int) = decimal n := rfl
  rw [hs]
  unfold atoi
  split
  · rename_i neg digits hm
    split at hm
    · rename_i r he; exact absurd rfl (hhead _ _ he).1
    · rename_i r he; exact absurd rfl (hhead _ _ he).2
    · cases hm
      simp only [hp, Bool.false_eq_true, if_false, if_pos hn]

theorem decimal_injective {m n : Nat} (h : decimal m = decimal n) : m = n := by
  induction m using Nat.strong_induction_on generalizing n with
  | _ m ih =>
    rw [decimal_eq m, decimal_eq n] at h
    obtain ⟨hpre, hlast⟩ := List.append_inj' h rfl
    have hd : m % 10 = n % 10 := by
      have hm : m % 10 < 10 := Nat.mod_lt m (by omega)
      have hn : n % 10 < 10 := Nat.mod_lt n (by omega)
      simp only [List.cons.injEq, and_true] at hlast
      have := congrArg UInt8.toNat hlast
      simp only [UInt8.toNat_add, UInt8.toNat_ofNat'] at this
      simp at this
      omega
    split at hpre <;> split at hpre
    · omega
    · exact absurd hpre.symm (decimal_ne_nil _)
    · exact absurd hpre (decimal_ne_nil _)
    · have := ih (m / 10) (by omega) hpre
      omega

theorem itoa_injective {m n : Int} (h : itoa m = itoa n) : m = n := by
  cases m with
  | ofNat m =>
    cases n with
    | ofNat n => exact congrArg Int.ofNat (decimal_injective h)
    | negSucc n =>
      have := decimal_isDigit m 45 (by rw [show decimal m = 45 :: decimal (n + 1) from h]; simp)
      cases this
  | negSucc m =>
    cases n with
    | ofNat n =>
      have := decimal_isDigit n 45 (by rw [← show 45 :: decimal (m + 1) = decimal n from h]; simp)
      cases this
    | negSucc n =>
      have := decimal_injective (List.cons.inj h).2
      rw [Nat.succ.inj this]

end WorkspaceProxy.Go
