import WorkspaceProxy.Proxy.Config
import WorkspaceProxy.Proxy.SessionManager

/-! # The capacity of the proxy

`NewSessionManager` narrows the configured limit to an `int32`. A manager admits
as many sessions as its limit says, so the capacity is the configured one
exactly where the narrowing keeps it. -/
namespace WorkspaceProxy.Proxy.SessionManager
open WorkspaceProxy.Conc

/-- `NewSessionManager`: the limit of the manager. -/
def newSessionManager (maxConnections : Int) : Int32 := .ofInt maxConnections

/-- A call of `Acquire` that succeeds at once. -/
def grantedCall (i : Nat) : List Act :=
  [.acquire i, .load i, .compareAndSwap i, .acquireReturns i true]

/-- A call of `Acquire` that is refused. -/
def refusedCall (i : Nat) : List Act := [.acquire i, .load i, .acquireReturns i false]

/-- `k` calls of `Acquire`, one after the other. -/
def grantedCalls (k : Nat) : List Act := (List.range k).flatMap grantedCall

/-- A new manager grants `k` calls of `Acquire` one after the other, and refuses
the next. -/
def Admits (maxConnections : Int32) (k : Nat) : Prop :=
  ∃ s t, (system maxConnections).exec initial (grantedCalls k) = some s ∧
    (system maxConnections).exec s (refusedCall k) = some t

/-- The first `k` callers hold a slot. -/
def holdingFirst (k : Nat) : State := ⟨.ofInt k, fun i => if i < k then .holding else .idle⟩

variable {maxConnections : Int32} {k : Nat}

theorem toInt_ofInt (n : Int) : (Int32.ofInt n).toInt = n.bmod (2 ^ 32) :=
  Int32.toInt_ofInt

theorem toInt_ofNat (hk : (k : Int) < 2 ^ 31) : (Int32.ofInt k).toInt = k := by
  rw [toInt_ofInt]
  exact Int.bmod_eq_of_le_mul_two (by omega) (by omega)

theorem callers_succ (k : Nat) :
    Function.update (holdingFirst k).callers k .holding = (holdingFirst (k + 1)).callers := by
  funext i
  by_cases hi : i = k
  · subst hi; simp [holdingFirst]
  · have : i < k ↔ i < k + 1 := by omega
    simp [holdingFirst, hi, this]

theorem ge_iff (hk : (k : Int) ≤ max 0 maxConnections.toInt) :
    (holdingFirst k).active ≥ maxConnections ↔ maxConnections.toInt ≤ k := by
  have hlt := maxConnections.toInt_lt
  rw [ge_iff_le, Int32.le_iff_toInt_le]
  show _ ≤ (Int32.ofInt k).toInt ↔ _
  rw [toInt_ofNat (by omega)]

/-- Below the limit a call is granted. -/
theorem exec_grantedCall (hk : (k : Int) ≤ max 0 maxConnections.toInt) :
    (system maxConnections).exec (holdingFirst k) (grantedCall k) =
      if (k : Int) < maxConnections.toInt then some (holdingFirst (k + 1)) else none := by
  have hidle : (holdingFirst k).callers k = .idle := by simp [holdingFirst]
  have hge := ge_iff hk
  split
  · rename_i hlt
    have hnot : ¬ (holdingFirst k).active ≥ maxConnections := by rw [hge]; omega
    have hactive : (holdingFirst k).active + 1 = (holdingFirst (k + 1)).active := by
      show Int32.ofInt k + 1 = Int32.ofInt ((k + 1 : Nat) : Int)
      push_cast
      rw [Int32.ofInt_add]
      rfl
    have hstate : holdingFirst (k + 1) = ⟨(holdingFirst k).active + 1,
        Function.update (holdingFirst k).callers k .holding⟩ := by
      rw [hactive, callers_succ]
    rw [hstate]
    simp [System.exec, grantedCall, system, step, hidle, hnot, State.goto, State.setActive]
  · have hyes : (holdingFirst k).active ≥ maxConnections := by rw [hge]; omega
    simp [System.exec, grantedCall, system, step, hidle, hyes, State.goto]

/-- At the limit a call is refused. -/
theorem exec_refusedCall (hk : (k : Int) ≤ max 0 maxConnections.toInt) :
    ((system maxConnections).exec (holdingFirst k) (refusedCall k)).isSome ↔
      maxConnections.toInt ≤ k := by
  have hidle : (holdingFirst k).callers k = .idle := by simp [holdingFirst]
  rw [← ge_iff hk]
  by_cases hge : (holdingFirst k).active ≥ maxConnections
  · simp [System.exec, refusedCall, system, step, hidle, hge, State.goto]
  · simp [System.exec, refusedCall, system, step, hidle, hge, State.goto]

theorem exec_grantedCalls (k : Nat) :
    (system maxConnections).exec initial (grantedCalls k) =
      if (k : Int) ≤ max 0 maxConnections.toInt then some (holdingFirst k) else none := by
  induction k with
  | zero =>
    have hinit : holdingFirst 0 = initial := by simp [holdingFirst, initial]
    rw [hinit]
    simp [grantedCalls, System.exec]
  | succ k ih =>
    have hsplit : grantedCalls (k + 1) = grantedCalls k ++ grantedCall k := by
      simp [grantedCalls, List.range_succ]
    rw [hsplit, System.exec_append, ih]
    by_cases hk : (k : Int) ≤ max 0 maxConnections.toInt
    · rw [if_pos hk, Option.bind_some, exec_grantedCall hk]
      by_cases hlt : (k : Int) < maxConnections.toInt
      · rw [if_pos hlt, if_pos (by push_cast; omega)]
      · rw [if_neg hlt, if_neg (by push_cast; omega)]
    · rw [if_neg hk, if_neg (by push_cast; omega)]
      rfl

/-- A manager admits as many sessions as its limit says. -/
theorem admits_iff : Admits maxConnections k ↔ (k : Int) = max 0 maxConnections.toInt := by
  unfold Admits
  rw [exec_grantedCalls]
  split
  · rename_i hk
    have hrefused := exec_refusedCall hk
    rw [Option.isSome_iff_exists] at hrefused
    constructor
    · rintro ⟨s, t, hs, ht⟩
      cases hs
      have := hrefused.mp ⟨t, ht⟩
      omega
    · intro he
      obtain ⟨t, ht⟩ := hrefused.mpr (by omega)
      exact ⟨_, t, rfl, ht⟩
  · rename_i hk
    exact iff_of_false (fun ⟨s, t, hs, _⟩ => by cases hs) (by omega)

/-- The narrowing keeps the capacity: the limit fits into 31 bits, and a negative
one is not turned into a positive one. -/
def Narrows (maxConnections : Int) : Prop :=
  maxConnections < 2 ^ 31 ∧ (0 ≤ maxConnections ∨ maxConnections.bmod (2 ^ 32) ≤ 0)

instance (n : Int) : Decidable (Narrows n) := inferInstanceAs (Decidable (_ ∧ _))

theorem narrows_iff (n : Int) : Narrows n ↔ max 0 n = max 0 (n.bmod (2 ^ 32)) := by
  have hlo : -(2 ^ 31) ≤ n.bmod (2 ^ 32) := Int.le_bmod (by omega)
  have hhi : n.bmod (2 ^ 32) < 2 ^ 31 := Int.bmod_lt (by omega)
  unfold Narrows
  by_cases h0 : 0 ≤ n
  · by_cases hlt : n < 2 ^ 31
    · have : n.bmod (2 ^ 32) = n := Int.bmod_eq_of_le_mul_two (by omega) (by omega)
      omega
    · omega
  · omega

/-- **The configured capacity is the enforced one exactly where the narrowing to
`int32` keeps it.** -/
theorem capacity_enforced_iff {env : Env} {c : Config} (h : loadConfig env = .ok c) :
    Admits (newSessionManager c.maxConnections) (max 0 c.maxConnections).toNat ↔
      ∀ n, Go.atoi (getenv env "MAX_CONNECTIONS") = .ok n → Narrows n := by
  obtain ⟨rfl, -⟩ := loadConfig_ok_iff.mp h
  have hkept : Admits (newSessionManager (readConfig env).maxConnections)
      (max 0 (readConfig env).maxConnections).toNat ↔ Narrows (readConfig env).maxConnections := by
    rw [admits_iff, narrows_iff, newSessionManager, toInt_ofInt]
    omega
  have hmax : (readConfig env).maxConnections = getParsedEnv Go.atoi env "MAX_CONNECTIONS" 10 := rfl
  rw [hkept, hmax]
  rcases getParsedEnv_cases Go.atoi env "MAX_CONNECTIONS" 10 with
    ⟨hdefault, hempty⟩ | ⟨n, hn, hvalue⟩
  · refine iff_of_true (by rw [hdefault]; decide) fun n hn => ?_
    rw [hempty n hn] at hn
    cases hn
  · rw [hvalue]
    refine ⟨fun hnarrow m hm => ?_, fun hall => hall n hn⟩
    rw [hn] at hm
    cases hm
    exact hnarrow

/-- A limit of -5 admits nobody, as it says. -/
theorem capacity_enforced_negative : ∃ c, loadConfig (only "MAX_CONNECTIONS" "-5") = .ok c ∧
    c.maxConnections = -5 ∧
    Admits (newSessionManager c.maxConnections) (max 0 c.maxConnections).toNat := by
  have hv : (readConfig (only "MAX_CONNECTIONS" "-5")).Valid := by decide
  have h := loadConfig_ok_iff.mpr ⟨rfl, hv⟩
  refine ⟨_, h, by decide, (capacity_enforced_iff h).mpr fun n hn => ?_⟩
  have hp : (Go.atoi (getenv (only "MAX_CONNECTIONS" "-5") "MAX_CONNECTIONS")).toOption =
    some (-5) := by decide
  rw [hn] at hp
  rw [Option.some.inj hp]
  decide

/-- `MAX_CONNECTIONS=4294967296` is accepted, and the manager admits nobody. -/
theorem capacity_wraps_to_zero :
    ¬ ∀ env c, loadConfig env = .ok c →
      Admits (newSessionManager c.maxConnections) (max 0 c.maxConnections).toNat := by
  intro h
  have hv : (readConfig (only "MAX_CONNECTIONS" "4294967296")).Valid := by decide
  have hadmits := admits_iff.mp (h _ _ (loadConfig_ok_iff.mpr ⟨rfl, hv⟩))
  have hmax : (readConfig (only "MAX_CONNECTIONS" "4294967296")).maxConnections = 2 ^ 32 := by
    decide
  rw [hmax, newSessionManager, toInt_ofInt] at hadmits
  exact absurd hadmits (by decide)

end WorkspaceProxy.Proxy.SessionManager
