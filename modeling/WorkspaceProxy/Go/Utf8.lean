import WorkspaceProxy.Go.Strings

/-! # Runes

How Go reads a string as runes. The loop takes the encoding of one scalar value
at a time; a byte at which no encoding starts stands for itself, and the loop
goes on with the next byte. What is encoded is read back (`runes_encode`), and
only scalar values are read (`scalar_of_mem_runes`). -/
namespace WorkspaceProxy.Go

/-- A Unicode scalar value. -/
def Scalar (r : Nat) : Prop := r < 0xD800 ∨ 0xE000 ≤ r ∧ r < 0x110000

instance (r : Nat) : Decidable (Scalar r) :=
  inferInstanceAs (Decidable (_ ∨ _))

/-- `utf8.AppendRune` for a scalar value. -/
def encodeRune (r : Nat) : GoString :=
  if r < 0x80 then [.ofNat r]
  else if r < 0x800 then [.ofNat (0xC0 + r / 64), .ofNat (0x80 + r % 64)]
  else if r < 0x10000 then
    [.ofNat (0xE0 + r / 4096), .ofNat (0x80 + r / 64 % 64), .ofNat (0x80 + r % 64)]
  else
    [.ofNat (0xF0 + r / 262144), .ofNat (0x80 + r / 4096 % 64), .ofNat (0x80 + r / 64 % 64),
      .ofNat (0x80 + r % 64)]

/-- The text of a list of runes. -/
def encode (rs : List Nat) : GoString := rs.flatMap encodeRune

theorem encode_append (rs rs' : List Nat) : encode (rs ++ rs') = encode rs ++ encode rs' :=
  List.flatMap_append

/-- What one round of a loop over a string finds. -/
inductive Chunk
  | rune (r : Nat)
  /-- A byte at which no encoding starts. -/
  | bad (b : UInt8)
  deriving DecidableEq, Repr

/-- What a first byte tells: how many bytes its encoding has, and the range of
the second one where it is not that of every later byte. -/
inductive First
  | ascii
  | two
  | three (lo hi : Nat)
  | four (lo hi : Nat)
  | invalid
  deriving DecidableEq, Repr

/-- The tables `first` and `acceptRanges` of package unicode/utf8. -/
def first (b : Nat) : First :=
  if b < 0x80 then .ascii
  else if b < 0xC2 then .invalid
  else if b ≤ 0xDF then .two
  else if b = 0xE0 then .three 0xA0 0xBF
  else if b = 0xED then .three 0x80 0x9F
  else if b ≤ 0xEF then .three 0x80 0xBF
  else if b = 0xF0 then .four 0x90 0xBF
  else if b ≤ 0xF3 then .four 0x80 0xBF
  else if b = 0xF4 then .four 0x80 0x8F
  else .invalid

/-- A byte in a range. -/
def within (lo hi : Nat) (b : UInt8) : Prop := lo ≤ b.toNat ∧ b.toNat ≤ hi

instance (lo hi : Nat) (b : UInt8) : Decidable (within lo hi b) :=
  inferInstanceAs (Decidable (_ ∧ _))

/-- A byte that continues an encoding. -/
def cont (b : UInt8) : Prop := within 0x80 0xBF b

instance (b : UInt8) : Decidable (cont b) := inferInstanceAs (Decidable (within _ _ b))

/-- `utf8.DecodeRuneInString` on the first byte and those after it, with the
number of bytes after the first that it takes. -/
def decodeRune (b0 : UInt8) (s : GoString) : Chunk × Nat :=
  match first b0.toNat, s with
  | .ascii, _ => (.rune b0.toNat, 0)
  | .two, b1 :: _ =>
    if cont b1 then (.rune ((b0.toNat - 0xC0) * 64 + (b1.toNat - 0x80)), 1)
    else (.bad b0, 0)
  | .three lo hi, b1 :: b2 :: _ =>
    if within lo hi b1 ∧ cont b2 then
      (.rune ((b0.toNat - 0xE0) * 4096 + (b1.toNat - 0x80) * 64 + (b2.toNat - 0x80)), 2)
    else (.bad b0, 0)
  | .four lo hi, b1 :: b2 :: b3 :: _ =>
    if within lo hi b1 ∧ cont b2 ∧ cont b3 then
      (.rune ((b0.toNat - 0xF0) * 262144 + (b1.toNat - 0x80) * 4096 + (b2.toNat - 0x80) * 64 +
        (b3.toNat - 0x80)), 3)
    else (.bad b0, 0)
  | _, _ => (.bad b0, 0)

/-- The loop, with the number of bytes that the last rune still takes. -/
def runesFrom : Nat → GoString → List Chunk
  | _, [] => []
  | 0, b :: s => (decodeRune b s).1 :: runesFrom (decodeRune b s).2 s
  | skip + 1, _ :: s => runesFrom skip s

/-- A loop over the runes of a string. -/
def runes (s : GoString) : List Chunk := runesFrom 0 s

theorem runesFrom_eq (skip : Nat) (s : GoString) : runesFrom skip s = runes (s.drop skip) := by
  induction s generalizing skip with
  | nil => cases skip <;> simp [runes, runesFrom]
  | cons b s ih =>
    cases skip with
    | zero => rfl
    | succ skip => exact ih skip

theorem runes_cons (b : UInt8) (s : GoString) :
    runes (b :: s) = (decodeRune b s).1 :: runes (s.drop (decodeRune b s).2) := by
  rw [runes, runesFrom, runesFrom_eq]

/-! ## First bytes -/

/-- The bytes that each kind of encoding starts with. -/
inductive Leads (b : Nat) : First → Prop
  | ascii (h : b < 0x80) : Leads b .ascii
  | two (hlow : 0xC2 ≤ b) (hhigh : b ≤ 0xDF) : Leads b .two
  | three {lo hi : Nat} (hlow : 0xE0 ≤ b) (hhigh : b ≤ 0xEF)
      (hlo : b = 0xE0 ∧ lo = 0xA0 ∨ b ≠ 0xE0 ∧ lo = 0x80)
      (hhi : b = 0xED ∧ hi = 0x9F ∨ b ≠ 0xED ∧ hi = 0xBF) : Leads b (.three lo hi)
  | four {lo hi : Nat} (hlow : 0xF0 ≤ b) (hhigh : b ≤ 0xF4)
      (hlo : b = 0xF0 ∧ lo = 0x90 ∨ b ≠ 0xF0 ∧ lo = 0x80)
      (hhi : b = 0xF4 ∧ hi = 0x8F ∨ b ≠ 0xF4 ∧ hi = 0xBF) : Leads b (.four lo hi)
  | invalid (h : 0x80 ≤ b ∧ b < 0xC2 ∨ 0xF4 < b) : Leads b .invalid

theorem first_leads (b : Nat) : Leads b (first b) := by
  refine iteInduction (.ascii ·) fun h1 => ?_
  refine iteInduction (fun h2 => .invalid (by omega)) fun h2 => ?_
  refine iteInduction (fun h3 => .two (by omega) h3) fun h3 => ?_
  refine iteInduction (fun h4 => ?_) fun h4 => iteInduction (fun h5 => ?_) fun h5 =>
    iteInduction (fun h6 => ?_) fun h6 => ?_
  iterate 3 exact .three (by omega) (by omega) (by omega) (by omega)
  refine iteInduction (fun h7 => ?_) fun h7 => iteInduction (fun h8 => ?_) fun h8 =>
    iteInduction (fun h9 => ?_) fun h9 => .invalid (by omega)
  iterate 3 exact .four (by omega) (by omega) (by omega) (by omega)

/-! ## Encoding and decoding -/

theorem toNat_ofNat_byte {n : Nat} (h : n < 256) : (UInt8.ofNat n).toNat = n := by
  rw [UInt8.toNat_ofNat', Nat.mod_eq_of_lt (by omega)]

theorem within_ofNat {lo hi n : Nat} (h : n < 256) (hlo : lo ≤ n) (hhi : n ≤ hi) :
    within lo hi (.ofNat n) := by
  rw [within, toNat_ofNat_byte h]
  exact ⟨hlo, hhi⟩

theorem cont_ofNat (n : Nat) : cont (.ofNat (0x80 + n % 64)) :=
  within_ofNat (by omega) (by omega) (by omega)

theorem first_two {r : Nat} (hlow : 0x80 ≤ r) (hhigh : r < 0x800) :
    first (0xC0 + r / 64) = .two := by
  unfold first
  rw [if_neg (by omega), if_neg (by omega), if_pos (by omega)]

/-- The first byte of three allows the second. -/
theorem first_three {r : Nat} (hlow : 0x800 ≤ r) (hhigh : r < 0x10000) (hs : Scalar r) :
    ∃ lo hi, first (0xE0 + r / 4096) = .three lo hi ∧
      lo ≤ 0x80 + r / 64 % 64 ∧ 0x80 + r / 64 % 64 ≤ hi := by
  unfold Scalar at hs
  have hleads := first_leads (0xE0 + r / 4096)
  cases hfirst : first (0xE0 + r / 4096) with rw [hfirst] at hleads
  | three lo hi => cases hleads; exact ⟨lo, hi, rfl, by omega, by omega⟩
  | _ => cases hleads; omega

/-- The first byte of four allows the second. -/
theorem first_four {r : Nat} (hlow : 0x10000 ≤ r) (hs : Scalar r) :
    ∃ lo hi, first (0xF0 + r / 262144) = .four lo hi ∧
      lo ≤ 0x80 + r / 4096 % 64 ∧ 0x80 + r / 4096 % 64 ≤ hi := by
  unfold Scalar at hs
  have hleads := first_leads (0xF0 + r / 262144)
  cases hfirst : first (0xF0 + r / 262144) with rw [hfirst] at hleads
  | four lo hi => cases hleads; exact ⟨lo, hi, rfl, by omega, by omega⟩
  | _ => cases hleads; omega

theorem decodeRune_one {r : Nat} (h : r < 0x80) (s : GoString) :
    decodeRune (.ofNat r) s = (.rune r, 0) := by
  have hfirst : first r = .ascii := if_pos h
  unfold decodeRune
  rw [toNat_ofNat_byte (by omega), hfirst]

theorem decodeRune_two {r : Nat} (hlow : 0x80 ≤ r) (hhigh : r < 0x800) (s : GoString) :
    decodeRune (.ofNat (0xC0 + r / 64)) (.ofNat (0x80 + r % 64) :: s) = (.rune r, 1) := by
  have hvalue : (0xC0 + r / 64 - 0xC0) * 64 + (0x80 + r % 64 - 0x80) = r := by omega
  unfold decodeRune
  rw [toNat_ofNat_byte (by omega), first_two hlow hhigh]
  dsimp only
  rw [if_pos (cont_ofNat r), toNat_ofNat_byte (by omega), hvalue]

theorem decodeRune_three {r : Nat} (hlow : 0x800 ≤ r) (hhigh : r < 0x10000) (hs : Scalar r)
    (s : GoString) : decodeRune (.ofNat (0xE0 + r / 4096))
      (.ofNat (0x80 + r / 64 % 64) :: .ofNat (0x80 + r % 64) :: s) = (.rune r, 2) := by
  obtain ⟨lo, hi, hfirst, hlo, hhi⟩ := first_three hlow hhigh hs
  have hvalue : (0xE0 + r / 4096 - 0xE0) * 4096 + (0x80 + r / 64 % 64 - 0x80) * 64 +
    (0x80 + r % 64 - 0x80) = r := by omega
  unfold decodeRune
  rw [toNat_ofNat_byte (by omega), hfirst]
  dsimp only
  rw [if_pos ⟨within_ofNat (by omega) hlo hhi, cont_ofNat r⟩, toNat_ofNat_byte (by omega),
    toNat_ofNat_byte (by omega), hvalue]

theorem decodeRune_four {r : Nat} (hlow : 0x10000 ≤ r) (hs : Scalar r) (s : GoString) :
    decodeRune (.ofNat (0xF0 + r / 262144)) (.ofNat (0x80 + r / 4096 % 64) ::
      .ofNat (0x80 + r / 64 % 64) :: .ofNat (0x80 + r % 64) :: s) = (.rune r, 3) := by
  have hmax : r < 0x110000 := by unfold Scalar at hs; omega
  obtain ⟨lo, hi, hfirst, hlo, hhi⟩ := first_four hlow hs
  have hvalue : (0xF0 + r / 262144 - 0xF0) * 262144 + (0x80 + r / 4096 % 64 - 0x80) * 4096 +
    (0x80 + r / 64 % 64 - 0x80) * 64 + (0x80 + r % 64 - 0x80) = r := by omega
  unfold decodeRune
  rw [toNat_ofNat_byte (by omega), hfirst]
  dsimp only
  rw [if_pos ⟨within_ofNat (by omega) hlo hhi, cont_ofNat (r / 64), cont_ofNat r⟩,
    toNat_ofNat_byte (by omega), toNat_ofNat_byte (by omega), toNat_ofNat_byte (by omega), hvalue]

/-- The encoding of a scalar value is read back as a whole. -/
theorem runes_encodeRune {r : Nat} (hs : Scalar r) (s : GoString) :
    runes (encodeRune r ++ s) = .rune r :: runes s := by
  unfold encodeRune
  split
  · rename_i h1
    rw [List.singleton_append, runes_cons, decodeRune_one h1]
    rfl
  · split
    · rename_i h1 h2
      rw [List.cons_append, List.singleton_append, runes_cons,
        decodeRune_two (Nat.not_lt.mp h1) h2]
      rfl
    · split
      · rename_i h1 h2 h3
        rw [List.cons_append, List.cons_append, List.singleton_append, runes_cons,
          decodeRune_three (Nat.not_lt.mp h2) h3 hs]
        rfl
      · rename_i h1 h2 h3
        rw [List.cons_append, List.cons_append, List.cons_append, List.singleton_append,
          runes_cons, decodeRune_four (Nat.not_lt.mp h3) hs]
        rfl

theorem runes_encode {rs : List Nat} (h : ∀ r ∈ rs, Scalar r) :
    runes (encode rs) = rs.map .rune := by
  induction rs with
  | nil => rfl
  | cons r rs ih =>
    have hr : Scalar r := h r (by simp)
    have hrest := ih fun r' hr' => h r' (by simp [hr'])
    rw [encode, List.flatMap_cons, runes_encodeRune hr, List.map_cons, ← hrest]
    rfl

/-- Surrogates and what lies above the last code point have no encoding. -/
theorem scalar_of_decodeRune {b : UInt8} {s : GoString} {r n : Nat}
    (h : decodeRune b s = (.rune r, n)) : Scalar r := by
  have hleads := first_leads b.toNat
  unfold decodeRune at h
  unfold Scalar
  split at h
  case h_1 hfirst =>
    rw [hfirst] at hleads
    cases hleads
    cases h
    omega
  case h_2 hfirst | h_3 hfirst | h_4 hfirst =>
    rw [hfirst] at hleads
    cases hleads
    split at h
    · rename_i hw
      unfold cont within at hw
      rw [Prod.mk.injEq, Chunk.rune.injEq] at h
      omega
    · cases h
  case h_5 => cases h

theorem scalar_of_mem_runes {s : GoString} {r : Nat} (h : .rune r ∈ runes s) : Scalar r := by
  induction hn : s.length using Nat.strong_induction_on generalizing s with
  | _ n ih =>
    cases s with
    | nil => cases h
    | cons b s =>
      rw [runes_cons] at h
      rcases List.mem_cons.mp h with h | h
      · exact scalar_of_decodeRune (n := (decodeRune b s).2) (Prod.ext h.symm rfl)
      · refine ih _ ?_ h rfl
        rw [← hn, List.length_drop, List.length_cons]
        omega

end WorkspaceProxy.Go
