import WorkspaceProxy.Go.HostPort

/-! # IP literals

`net.ParseIP` is `netip.ParseAddr` without a zone, in 16-byte form: an IPv4
literal and its IPv4-mapped IPv6 spelling are the same value. The two field
parsers follow the library's loops. `parseIP_addrByte` bounds the texts that
are accepted, which is what keeps an accepted host free of the bytes that the
host:port grammar reserves. -/
namespace WorkspaceProxy.Go

/-- `net.IP` in 16-byte form. -/
structure IP where
  bytes : List UInt8
  length_eq : bytes.length = 16
  deriving DecidableEq, Repr

def IP.ofBytes? (bs : List UInt8) : Option IP :=
  if h : bs.length = 16 then some ⟨bs, h⟩ else none

/-- The twelve bytes before the four of an IPv4 address. -/
def v4InV6Lead : List UInt8 := [0, 0, 0, 0, 0, 0, 0, 0, 0, 0, 0xff, 0xff]

/-- The byte `.`. -/
abbrev dot : UInt8 := 46
/-- The byte `%`. -/
abbrev percent : UInt8 := 37

/-! ## IPv4 fields -/

/-- The loop of `parseIPv4Fields`: the octets stored so far, the value and the
number of digits of the current one, and the byte before the rest. -/
def ipv4Loop (fields : List UInt8) (val digLen : Nat) (prev : Option UInt8) :
    GoString → Option (List UInt8)
  | [] => if fields.length < 3 then none else some (fields ++ [UInt8.ofNat val])
  | b :: bs =>
    if isDigit b then
      -- no octet has a leading zero
      if digLen = 1 ∧ val = 0 then none
      else if val * 10 + (b.toNat - 48) > 255 then none
      else ipv4Loop fields (val * 10 + (b.toNat - 48)) (digLen + 1) (some b) bs
    else if b = dot then
      if prev = none ∨ bs = [] ∨ prev = some dot then none
      else if fields.length = 3 then none
      else ipv4Loop (fields ++ [UInt8.ofNat val]) 0 0 (some b) bs
    else none

def parseIPv4Fields (s : GoString) : Option (List UInt8) := ipv4Loop [] 0 0 none s

/-! ## IPv6 fields -/

def hexVal (b : UInt8) : Option Nat :=
  if 48 ≤ b ∧ b ≤ 57 then some (b.toNat - 48)
  else if 97 ≤ b ∧ b ≤ 102 then some (b.toNat - 97 + 10)
  else if 65 ≤ b ∧ b ≤ 70 then some (b.toNat - 65 + 10)
  else none

/-- One group: how many digits it has, its value and what follows. `none` when
it has more than four digits. -/
def hexField (off acc : Nat) : GoString → Option (Nat × Nat × GoString)
  | [] => some (off, acc, [])
  | b :: bs =>
    match hexVal b with
    | none => some (off, acc, b :: bs)
    | some d =>
      if off > 3 then none
      else if acc * 16 + d > 0xffff then none
      else hexField (off + 1) (acc * 16 + d) bs

/-- The loop of `parseIPv6` from the bytes stored so far, the position of the
ellipsis and the rest of the text. Each round stores two bytes, so eight rounds
are the loop's bound of 16 bytes. -/
def ipv6Loop : Nat → List UInt8 → Option Nat → GoString →
    Option (List UInt8 × Option Nat × GoString)
  | 0, ip, ellipsis, s => some (ip, ellipsis, s)
  | rounds + 1, ip, ellipsis, s =>
    match hexField 0 0 s with
    | none => none
    | some (off, acc, rest) =>
      if off = 0 then none
      else if rest.head? = some dot then
        -- a trailing IPv4 address replaces the last two groups
        if ellipsis = none ∧ ip.length ≠ 12 then none
        else if ip.length + 4 > 16 then none
        else (parseIPv4Fields s).map fun fields => (ip ++ fields, ellipsis, [])
      else
        let ip := ip ++ [UInt8.ofNat (acc / 256), UInt8.ofNat acc]
        match rest with
        | [] => some (ip, ellipsis, [])
        | c :: s =>
          if c ≠ colon then none
          else if s = [] then none
          else if s.head? = some colon then
            if ellipsis ≠ none then none
            else if s.drop 1 = [] then some (ip, some ip.length, [])
            else ipv6Loop rounds ip (some ip.length) (s.drop 1)
          else ipv6Loop rounds ip ellipsis s

/-- After the loop: the whole text must be used, and an ellipsis stands for at
least one group of zeros. -/
def expandEllipsis : List UInt8 × Option Nat × GoString → Option IP
  | (ip, ellipsis, s) =>
    if s ≠ [] then none
    else if ip.length < 16 then
      match ellipsis with
      | none => none
      | some e => IP.ofBytes? (ip.take e ++ List.replicate (16 - ip.length) 0 ++ ip.drop e)
    else if ellipsis ≠ none then none
    else IP.ofBytes? ip

/-- `parseIPv6` on the text before the zone. -/
def parseIPv6Groups (s : GoString) : Option IP :=
  if s.take 2 = [colon, colon] then
    if s.drop 2 = [] then IP.ofBytes? (List.replicate 16 0)
    else (ipv6Loop 8 [] (some 0) (s.drop 2)).bind expandEllipsis
  else (ipv6Loop 8 [] none s).bind expandEllipsis

/-- An address with its zone, which is empty when there is none. -/
def parseIPv6 (s : GoString) : Option (IP × GoString) :=
  match indexByte s percent with
  | none => (parseIPv6Groups s).map (·, [])
  | some i =>
    if s.drop (i + 1) = [] then none
    else (parseIPv6Groups (s.take i)).map (·, s.drop (i + 1))

def parseIPv4 (s : GoString) : Option (IP × GoString) :=
  ((parseIPv4Fields s).bind fun fields => IP.ofBytes? (v4InV6Lead ++ fields)).map (·, [])

/-- `netip.ParseAddr`: the first of the three bytes decides the kind. -/
def parseAddr (s : GoString) : Option (IP × GoString) :=
  match s.find? fun b => b = dot ∨ b = colon ∨ b = percent with
  | none => none
  | some b =>
    if b = dot then parseIPv4 s
    else if b = colon then parseIPv6 s
    else none

/-- `net.ParseIP`. -/
def parseIP (s : GoString) : Option IP :=
  match parseAddr s with
  | some (ip, []) => some ip
  | _ => none

/-! ## Loopback values -/

/-- `IP.To4`. -/
def IP.to4 (ip : IP) : Option (List UInt8) :=
  if ip.bytes.take 12 = v4InV6Lead then some (ip.bytes.drop 12) else none

/-- The address `::1`. -/
def ipv6Loopback : IP := ⟨List.replicate 15 0 ++ [1], rfl⟩

/-- `IP.IsLoopback`. -/
def IP.isLoopback (ip : IP) : Bool :=
  match ip.to4 with
  | some v4 => v4.head? == some 127
  | none => ip == ipv6Loopback

/-- The values that are loopback: 127.0.0.0/8, which in 16-byte form is also
its IPv4-mapped form, and `::1`. -/
def IP.LoopbackValue (ip : IP) : Prop :=
  (∃ x y z, ip.bytes = v4InV6Lead ++ [127, x, y, z]) ∨ ip = ipv6Loopback

theorem IP.loopbackValue_iff {ip : IP} : ip.isLoopback = true ↔ ip.LoopbackValue := by
  constructor
  · intro h
    unfold IP.isLoopback IP.to4 at h
    split at h
    · rename_i v4 hv
      split at hv
      · rename_i hlead
        left
        have hrest : ip.bytes.drop 12 = v4 := Option.some.inj hv
        have hlen : v4.length = 4 := by rw [← hrest, List.length_drop, ip.length_eq]
        match v4, hlen, h with
        | [a, x, y, z], _, h =>
          have ha : a = 127 := by simpa using h
          refine ⟨x, y, z, ?_⟩
          rw [← List.take_append_drop 12 ip.bytes, hlead, hrest, ha]
      · cases hv
    · right
      simpa using h
  · rintro (⟨x, y, z, hb⟩ | rfl)
    · have ht : ip.to4 = some [127, x, y, z] := by
        unfold IP.to4
        rw [hb, if_pos (by rfl)]
        rfl
      simp [IP.isLoopback, ht]
    · decide

/-! ## The bytes of an accepted literal -/

/-- A hexadecimal digit, a dot or a colon. -/
def addrByte (b : UInt8) : Bool := (hexVal b).isSome || b == dot || b == colon

theorem addrByte_digit {b : UInt8} (h : isDigit b = true) : addrByte b = true := by
  simp only [isDigit, Bool.and_eq_true, decide_eq_true_eq] at h
  simp [addrByte, hexVal, h.1, h.2]

theorem ipv4Loop_addrByte {fields : List UInt8} {val digLen : Nat} {prev : Option UInt8}
    {s : GoString} {out : List UInt8} (h : ipv4Loop fields val digLen prev s = some out) :
    ∀ b ∈ s, addrByte b = true := by
  induction s generalizing fields val digLen prev with
  | nil => intro b hb; cases hb
  | cons c s ih =>
    simp only [ipv4Loop] at h
    intro b hb
    have hc : addrByte c = true ∧ ∀ b ∈ s, addrByte b = true := by
      split at h
      · rename_i hd
        refine ⟨addrByte_digit hd, ?_⟩
        split at h
        · cases h
        · split at h
          · cases h
          · exact ih h
      · split at h
        · rename_i hdot
          refine ⟨by rw [hdot]; rfl, ?_⟩
          split at h
          · cases h
          · split at h
            · cases h
            · exact ih h
        · cases h
    rcases List.mem_cons.mp hb with rfl | hb
    · exact hc.1
    · exact hc.2 b hb

theorem hexField_addrByte {off acc off' acc' : Nat} {s rest : GoString}
    (h : hexField off acc s = some (off', acc', rest)) :
    ∀ b ∈ s, addrByte b = true ∨ b ∈ rest := by
  induction s generalizing off acc with
  | nil => intro b hb; cases hb
  | cons c s ih =>
    simp only [hexField] at h
    intro b hb
    split at h
    · cases h; exact Or.inr hb
    · rename_i d hd
      split at h
      · cases h
      · split at h
        · cases h
        · rcases List.mem_cons.mp hb with rfl | hb
          · left; simp [addrByte, hd]
          · exact ih h b hb

theorem mem_drop_one {s : GoString} {a b : UInt8} (h : s.head? = some a) (hb : b ∈ s) :
    b = a ∨ b ∈ s.drop 1 := by
  cases s with
  | nil => cases h
  | cons d s =>
    simp only [List.head?_cons, Option.some.injEq] at h
    rcases List.mem_cons.mp hb with rfl | hb
    · exact Or.inl h
    · exact Or.inr hb

/-- Every byte that the loop consumes belongs to an address. -/
theorem ipv6Loop_addrByte {rounds : Nat} {ip ip' : List UInt8} {e e' : Option Nat}
    {s rest : GoString} (h : ipv6Loop rounds ip e s = some (ip', e', rest)) :
    ∀ b ∈ s, addrByte b = true ∨ b ∈ rest := by
  induction rounds generalizing ip e s with
  | zero => cases h; intro b hb; exact Or.inr hb
  | succ rounds ih =>
    simp only [ipv6Loop] at h
    split at h
    · cases h
    · rename_i off acc tail hf
      have hfield := hexField_addrByte hf
      split at h
      · cases h
      · split at h
        · -- a trailing IPv4 address
          split at h
          · cases h
          · split at h
            · cases h
            · obtain ⟨fields, hv, -⟩ := Option.map_eq_some_iff.mp h
              intro b hb
              exact Or.inl (ipv4Loop_addrByte hv b hb)
        · intro b hb
          rcases hfield b hb with hb | hb
          · exact Or.inl hb
          · cases tail with
            | nil => cases hb
            | cons c s' =>
              dsimp only at h
              split at h
              · cases h
              · rename_i hc
                rcases List.mem_cons.mp hb with rfl | hb
                · left; rw [not_not.mp hc]; rfl
                · split at h
                  · cases h
                  · split at h
                    · rename_i hhead
                      rcases mem_drop_one hhead hb with rfl | hb
                      · exact Or.inl rfl
                      · split at h
                        · cases h
                        · split at h
                          · rename_i hnil; rw [hnil] at hb; cases hb
                          · exact ih h b hb
                    · exact ih h b hb

theorem parseIPv6Groups_addrByte {s : GoString} {ip : IP} (h : parseIPv6Groups s = some ip) :
    ∀ b ∈ s, addrByte b = true := by
  -- whatever the loop leaves over is rejected afterwards
  have hloop : ∀ {e : Option Nat} {t : GoString},
      (ipv6Loop 8 [] e t).bind expandEllipsis = some ip → ∀ b ∈ t, addrByte b = true := by
    intro e t ht b hb
    obtain ⟨⟨ip', e', rest⟩, hl, he⟩ := Option.bind_eq_some_iff.mp ht
    rcases ipv6Loop_addrByte hl b hb with hb | hb
    · exact hb
    · simp only [expandEllipsis, if_pos (List.ne_nil_of_mem hb)] at he
      cases he
  unfold parseIPv6Groups at h
  split at h
  · rename_i hlead
    have hdrop : ∀ b ∈ s.drop 2, addrByte b = true := by
      split at h
      · rename_i hnil; intro b hb; rw [hnil] at hb; cases hb
      · exact hloop h
    intro b hb
    rw [← List.take_append_drop 2 s, hlead] at hb
    rcases List.mem_append.mp hb with hb | hb
    · have : b = colon := by simpa using hb
      rw [this]; rfl
    · exact hdrop b hb
  · exact hloop h

theorem parseIP_addrByte {s : GoString} {ip : IP} (h : parseIP s = some ip) :
    ∀ b ∈ s, addrByte b = true := by
  unfold parseIP at h
  split at h
  · rename_i ip' hp
    unfold parseAddr at hp
    split at hp
    · cases hp
    · split at hp
      · obtain ⟨ip'', hb, -⟩ := Option.map_eq_some_iff.mp hp
        obtain ⟨fields, hf, -⟩ := Option.bind_eq_some_iff.mp hb
        exact ipv4Loop_addrByte hf
      · split at hp
        · unfold parseIPv6 at hp
          split at hp
          · obtain ⟨ip'', hg, -⟩ := Option.map_eq_some_iff.mp hp
            exact parseIPv6Groups_addrByte hg
          · split at hp
            · cases hp
            · -- a zone is not empty, and ParseIP wants an empty one
              rename_i hz
              obtain ⟨ip'', hg, he⟩ := Option.map_eq_some_iff.mp hp
              exact absurd (Prod.mk.inj he).2 hz
        · cases hp
  · cases h

theorem parseIP_noBracket {s : GoString} {ip : IP} (h : parseIP s = some ip) :
    openBracket ∉ s ∧ closeBracket ∉ s := by
  constructor <;> intro hm <;> cases parseIP_addrByte h _ hm

example : (parseIP (bytes "::ffff:127.0.0.9")).map IP.isLoopback = some true := by decide
example : (parseIP (bytes "2001:db8::68")).map IP.isLoopback = some false := by decide
example : parseIP (bytes "127.0.0.01") = none := by decide

end WorkspaceProxy.Go
