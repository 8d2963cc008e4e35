import WorkspaceProxy.Go.Json
import WorkspaceProxy.Proxy.Config
import WorkspaceProxy.Proxy.Probe
import WorkspaceProxy.Proxy.TargetHealthStop

/-! # What the health endpoint reports

`probeOnce` writes the outcome of a probe to two places, `targetHealth` and the
gauge `TargetReachable`, and `handleTargetHealth` answers from the first. After any
sequence of calls all of them agree with the last probe that was not cancelled
(`report_follows_last_probe`); the goroutine of the prober does the same in
several steps (`exec_shows`). The error of a greeting is quoted twice on its way
to the endpoint, and is a JSON string there (`greeting_error_is_json`). -/
namespace WorkspaceProxy.Proxy.TargetHealth
open WorkspaceProxy.Conc WorkspaceProxy.Go WorkspaceProxy.Proxy.Probe

/-! ## Probes in sequence -/

/-- What a call of `probeOnce` writes. -/
structure Sinks where
  targetHealth : Health
  targetReachable : Nat
  deriving DecidableEq

def Sinks.fresh : Sinks := ⟨⟨false, false, 0, []⟩, 0⟩

/-- The error of a probe, whether its context was cancelled when it was over, and
the time at which it is recorded. -/
structure Outcome where
  err : Option GoString
  canceled : Bool
  now : Nat

/-- `targetHealth.record`. -/
def record (now : Nat) (reachable : Bool) (err : Option GoString) : Health :=
  ⟨true, reachable, now, err.getD []⟩

/-- The writes of `probeOnce`. -/
def written (now : Nat) (err : Option GoString) : Sinks where
  targetHealth := record now err.isNone err
  targetReachable := if err.isSome then 0 else 1

/-- `probeOnce` from the return of `probeTarget` on. -/
def Sinks.observe (s : Sinks) (o : Outcome) : Sinks :=
  if o.canceled then s else written o.now o.err

/-- What a call of `probeOnce` meets: the network, `ctx.Err()` after the probe, and
the time. -/
structure Attempt where
  dialTCP : GoString → Dial
  ctxErr : Option CtxErr
  now : Nat

section
variable (table : Nat → Bool) (config : Config)

/-- The error of `probeTarget`. -/
def Attempt.err (a : Attempt) : Option GoString :=
  probeTarget table a.dialTCP config.targetAddr config.targetHealthBannerPrefix

def Attempt.outcome (a : Attempt) : Outcome :=
  ⟨a.err table config, a.ctxErr == some .canceled, a.now⟩

def probeOnce (s : Sinks) (a : Attempt) : Sinks := s.observe (a.outcome table config)

/-- Calls of `probeOnce` one after the other. -/
def probes (as : List Attempt) : Sinks := as.foldl (probeOnce table config) .fresh

/-! ## The endpoint -/

structure Response where
  status : Nat
  contentType : GoString
  body : GoString

/-- `handleTargetHealth`; `format` is the time in UTC as of RFC 3339. -/
def handleTargetHealth (format : Nat → GoString) (result : Health) : Response :=
  let target := config.targetAddr
  let json := bytes "application/json"
  if result.checked = false then
    ⟨503, json, bytes "\x7b\"status\":\"unknown\",\"target\":" ++ quote table target ++
      bytes "\x7d"⟩
  else if result.reachable = true then
    ⟨200, json, bytes "\x7b\"status\":\"ok\",\"target\":" ++ quote table target ++
      bytes ",\"checkedAt\":" ++ quote table (format result.time) ++ bytes "\x7d"⟩
  else
    ⟨503, json, bytes "\x7b\"status\":\"unreachable\",\"target\":" ++ quote table target ++
      bytes ",\"checkedAt\":" ++ quote table (format result.time) ++
      bytes ",\"error\":" ++ quote table result.err ++ bytes "\x7d"⟩

/-! ## The last probe -/

/-- The last call whose context was not cancelled. -/
def lastReal (as : List Attempt) : Option Attempt :=
  (as.filter (·.ctxErr ≠ some .canceled)).getLast?

variable {table config}

theorem lastReal_canceled {a : Attempt} (h : a.ctxErr = some .canceled) (as : List Attempt) :
    lastReal (as ++ [a]) = lastReal as := by
  simp [lastReal, h]

theorem lastReal_real {a : Attempt} (h : a.ctxErr ≠ some .canceled) (as : List Attempt) :
    lastReal (as ++ [a]) = some a := by
  simp [lastReal, h]

theorem probeOnce_canceled {a : Attempt} (h : a.ctxErr = some .canceled) (s : Sinks) :
    probeOnce table config s a = s := by
  simp [probeOnce, Attempt.outcome, Sinks.observe, h]

theorem probeOnce_real {a : Attempt} (h : a.ctxErr ≠ some .canceled) (s : Sinks) :
    probeOnce table config s a = written a.now (a.err table config) := by
  simp [probeOnce, Attempt.outcome, Sinks.observe, h]

theorem probes_concat (as : List Attempt) (a : Attempt) :
    probes table config (as ++ [a]) = probeOnce table config (probes table config as) a :=
  List.foldl_concat ..

/-- A sequence of calls leaves what its last call that was not cancelled has
written. -/
theorem probes_eq (as : List Attempt) : probes table config as =
    (lastReal as).elim .fresh fun a => written a.now (a.err table config) := by
  induction as using List.reverseRecOn with
  | nil => rfl
  | append_singleton as a ih =>
    rw [probes_concat]
    by_cases h : a.ctxErr = some .canceled
    · rw [probeOnce_canceled h, lastReal_canceled h, ih]
    · rw [probeOnce_real h, lastReal_real h, Option.elim_some]

variable (table config)

/-- The health, the endpoint and the gauge after a probe with the given error. -/
structure Reports (format : Nat → GoString) (s : Sinks) (now : Nat) (err : Option GoString) :
    Prop where
  health : s.targetHealth = ⟨true, err.isNone, now, err.getD []⟩
  status : (handleTargetHealth table config format s.targetHealth).status =
    if err.isNone then 200 else 503
  gauge : s.targetReachable = if err.isNone then 1 else 0

variable {table config} in
theorem reports_written (format : Nat → GoString) (now : Nat) (err : Option GoString) :
    Reports table config format (written now err) now err := by
  cases err with
  | none => exact ⟨rfl, rfl, rfl⟩
  | some err => exact ⟨rfl, rfl, rfl⟩

/-- What the health, the endpoint and the gauge are after a sequence of calls. -/
structure ReportsLast (format : Nat → GoString) (as : List Attempt) : Prop where
  unknown : lastReal as = none →
    handleTargetHealth table config format (probes table config as).targetHealth =
      ⟨503, bytes "application/json", bytes "\x7b\"status\":\"unknown\",\"target\":" ++
        quote table config.targetAddr ++ bytes "\x7d"⟩ ∧
    (probes table config as).targetReachable = Sinks.fresh.targetReachable
  known : ∀ a, lastReal as = some a →
    Reports table config format (probes table config as) a.now (a.err table config)
  canceled : ∀ a, a.ctxErr = some .canceled →
    probes table config (as ++ [a]) = probes table config as
  /-- The case of `known` in which the last probe ran into its deadline. -/
  deadline : ∀ a err, a.ctxErr = some .deadlineExceeded → a.err table config = some err →
    Reports table config format (probes table config (as ++ [a])) a.now (some err)

/-- **The report is that of the last probe that was not cancelled.** A probe that
ran into its deadline is one of those. -/
theorem report_follows_last_probe (format : Nat → GoString) (as : List Attempt) :
    ReportsLast table config format as where
  unknown hlast := by
    rw [probes_eq, hlast]
    exact ⟨rfl, rfl⟩
  known a hlast := by
    rw [probes_eq, hlast, Option.elim_some]
    exact reports_written format a.now _
  canceled a h := by rw [probes_concat, probeOnce_canceled h]
  deadline a err h herr := by
    rw [probes_concat, probeOnce_real (by rw [h]; nofun), herr]
    exact reports_written format a.now _

/-- A probe that found the target, one that ran into its deadline and one that was
cancelled. -/
def threeProbes : List Attempt :=
  [⟨fun _ => .connected none openLine, none, 1⟩,
    ⟨fun _ => .failed (bytes "i/o timeout"), some .deadlineExceeded, 2⟩,
    ⟨fun _ => .failed (bytes "operation was canceled"), some .canceled, 3⟩]

theorem report_follows_last_probe_deadline :
    (probes (fun _ => true) (readConfig fun _ => none) threeProbes).targetHealth =
      ⟨true, false, 2, bytes "i/o timeout"⟩ ∧
    (probes (fun _ => true) (readConfig fun _ => none) threeProbes).targetReachable = 0 := by
  have h := (report_follows_last_probe (fun _ => true) (readConfig fun _ => none) (fun _ => [])
    threeProbes).known _ rfl
  exact ⟨h.health, h.gauge⟩

end

/-! ## The goroutine -/

section
variable {s s' : State} {t : Sinks} {i : Nat}

/-- What the step of a goroutine records. -/
def recorded (s : State) : Act → Option Outcome
  | .prober i (.record now) =>
    match s.probers i with
    | .recording err => some ⟨err, false, now⟩
    | _ => none
  | _ => none

/-- What a run records. -/
def recordings (s : State) : List Act → List Outcome
  | [] => []
  | a :: as => (recorded s a).toList ++ match step s a with
    | some s' => recordings s' as
    | none => []

/-- The health is that of `t`, and so is the gauge, but for a goroutine that has
still to set it. -/
structure Shows (s : State) (t : Sinks) : Prop where
  health : s.targetHealth = t.targetHealth
  gauging : ∀ i err, s.probers i = .gauging err →
    t.targetReachable = if err.isSome then 0 else 1
  settled : (∀ i err, s.probers i ≠ .gauging err) → s.targetReachable = t.targetReachable

/-- A step that writes nothing and leaves the goroutines that have a gauge to
set. -/
theorem Shows.unwritten (h : Shows s t) (hhealth : s'.targetHealth = s.targetHealth)
    (hgauge : s'.targetReachable = s.targetReachable)
    (hsame : ∀ i err, s'.probers i = .gauging err ↔ s.probers i = .gauging err) : Shows s' t where
  health := hhealth.trans h.health
  gauging i err hi := h.gauging i err ((hsame i err).mp hi)
  settled hno := hgauge.trans (h.settled fun i err hi => hno i err ((hsame i err).mpr hi))

theorem gauging_update {p : Prober} (hold : ∀ err, s.probers i ≠ .gauging err)
    (hnew : ∀ err, p ≠ .gauging err) (j : Nat) (err : Option GoString) :
    Function.update s.probers i p j = .gauging err ↔ s.probers j = .gauging err := by
  by_cases hji : j = i
  · subst hji
    rw [Function.update_self]
    exact iff_of_false (hnew err) (hold err)
  · rw [Function.update_of_ne hji]

theorem Shows.callerStep {op : CallerOp} (h : Shows s t) (hi : Inv s)
    (hst : CallerStep s i op s') : Shows s' t := by
  obtain ⟨hhealth, hgauge⟩ := hst.unwritten
  refine h.unwritten hhealth hgauge ?_
  cases hst with
  | spawn hspawn =>
    have hok := hi.callers i
    rw [hspawn] at hok
    have hunborn : ∀ err, s.probers i ≠ .gauging err := by
      rw [hok.2]
      nofun
    exact gauging_update hunborn nofun
  | _ => exact fun _ _ => Iff.rfl

/-- No goroutine but the one that is started. -/
theorem Inv.other_unborn (hi : Inv s) (hborn : s.probers i ≠ .unborn) {j : Nat} (hj : j ≠ i) :
    s.probers j = .unborn := by
  by_contra hother
  exact hj (Option.some.inj ((hi.born j hother).symm.trans (hi.born i hborn)))

theorem Shows.record {err : Option GoString} {now : Nat} (hi : Inv s)
    (hp : s.probers i = .recording err) :
    Shows { s.run i (.gauging err) with targetHealth := ⟨true, err.isNone, now, err.getD []⟩ }
      (t.observe ⟨err, false, now⟩) where
  health := rfl
  gauging j err' hj := by
    change Function.update s.probers i (.gauging err) j = .gauging err' at hj
    by_cases hji : j = i
    · rw [hji, Function.update_self, Prober.gauging.injEq] at hj
      rw [← hj]
      rfl
    · rw [Function.update_of_ne hji, hi.other_unborn (by rw [hp]; nofun) hji] at hj
      cases hj
  settled hno := absurd (Function.update_self ..) (hno i err)

theorem Shows.setGauge {err : Option GoString} (h : Shows s t)
    (hp : s.probers i = .gauging err) :
    Shows { s.run i .selecting with targetReachable := if err.isSome then 0 else 1 } t where
  health := h.health
  gauging j err' hj := by
    change Function.update s.probers i .selecting j = .gauging err' at hj
    by_cases hji : j = i
    · rw [hji, Function.update_self] at hj
      cases hj
    · rw [Function.update_of_ne hji] at hj
      exact h.gauging j err' hj
  settled _ := (h.gauging i err hp).symm

theorem Shows.proberStep {op : ProberOp} (h : Shows s t) (hi : Inv s)
    (hst : ProberStep s i op s') :
    Shows s' ((recorded s (.prober i op)).elim t t.observe) := by
  cases hst with
  | record hp =>
    simp only [recorded, hp, Option.elim_some]
    exact Shows.record hi hp
  | setGauge hp => exact h.setGauge hp
  | timeout hp => exact h.unwritten rfl rfl fun _ _ => Iff.rfl
  | withTimeout hp | probeTarget hp | canceled hp | notCanceled hp | ctxDone hp | tick hp
  | close hp => exact h.unwritten rfl rfl (gauging_update (by rw [hp]; nofun) nofun)

theorem Shows.step {a : Act} (h : Shows s t) (hi : Inv s)
    (hst : TargetHealth.step s a = some s') :
    Shows s' ((recorded s a).elim t t.observe) := by
  cases a with
  | caller i op => exact h.callerStep hi (caller_cases hst)
  | prober i op => exact h.proberStep hi (prober_cases hst)

theorem Shows.exec {as : List Act} (h : Shows s t) (hi : Inv s)
    (he : system.exec s as = some s') : Shows s' ((recordings s as).foldl Sinks.observe t) := by
  induction as generalizing s t with
  | nil => cases he; exact h
  | cons a as ih =>
    obtain ⟨u, hu, hr⟩ := System.exec_cons he
    have hu' : TargetHealth.step s a = some u := hu
    have hnext := ih (h.step hi hu') (inv_stable.step s a u hi hu) hr
    rw [recordings, hu', List.foldl_append]
    cases hrec : recorded s a with
    | none => rwa [hrec] at hnext
    | some o => rwa [hrec] at hnext

/-- **The goroutine does what `probeOnce` does.** When it has no gauge to set, the
health and the gauge are those of the probes it has recorded, one after the
other, whatever the callers of start and stop do in between. -/
theorem exec_shows {as : List Act} (he : system.exec initial as = some s) :
    Shows s ((recordings initial as).foldl Sinks.observe .fresh) := by
  have hstart : Shows initial .fresh := ⟨rfl, nofun, fun _ => rfl⟩
  exact hstart.exec (inv_stable.init _ rfl) he

end

/-! ## The error of a greeting -/

section
variable {table : Nat → Bool} {config : Config} {a : Attempt} {arrivals : Arrivals}

theorem printableText_greetingError (banner bannerPrefix : GoString) :
    PrintableText table (greetingError table banner bannerPrefix) :=
  (((printableText_ascii rfl).append (printableText_quote _)).append
    (printableText_ascii rfl)).append (printableText_quote _)

theorem printableText_noGreetingError {err : ReadErr} (h : PrintableText table err.text) :
    PrintableText table (noGreetingError err) :=
  (printableText_ascii rfl).append h

/-- The error of a probe that has read from its target is printable. -/
theorem printableText_of_err (hdial : a.dialTCP config.targetAddr = .connected none arrivals)
    (hsilent : arrivals.received = [] → PrintableText table arrivals.ending.text) {err : GoString}
    (herr : a.err table config = some err) : PrintableText table err := by
  have hne : config.targetHealthBannerPrefix ≠ [] := by
    intro hempty
    simp [Attempt.err, probeTarget, hdial, hempty] at herr
  rw [Attempt.err, probeTarget_connected hdial hne] at herr
  split at herr
  · rename_i hnone
    cases herr
    exact printableText_noGreetingError (hsilent hnone)
  · split at herr <;> cases herr
    exact printableText_greetingError _ _

/-- **What the endpoint reports of a greeting is a JSON string for the error that
was recorded.** The error has the greeting and what was expected of it as quoted
texts, so all of it is printable, and quoting it again only escapes quotes and
backslashes. If the target sent nothing at all, the error has the text of the
read error, which does not come from the target. -/
theorem greeting_error_is_json (format : Nat → GoString) (s : Sinks)
    (hreal : a.ctxErr ≠ some .canceled)
    (hdial : a.dialTCP config.targetAddr = .connected none arrivals)
    (hsilent : arrivals.received = [] → PrintableText table arrivals.ending.text) {err : GoString}
    (herr : a.err table config = some err) :
    (probeOnce table config s a).targetHealth.err = err ∧
    (∃ head, (handleTargetHealth table config format
        (probeOnce table config s a).targetHealth).body =
      head ++ bytes ",\"error\":" ++ quote table err ++ bytes "\x7d") ∧
    jsonString (quote table err) = some err := by
  rw [probeOnce_real hreal, herr]
  exact ⟨rfl, ⟨_, rfl⟩, jsonString_quote (printableText_of_err hdial hsilent herr)⟩

/-- A bell, a quote, a backslash and a byte that is not UTF-8. -/
def hostile : Arrivals where
  pieces := [[7, 34], [92, 255, 10]]
  nonempty := by decide
  ending := .eof

def hostileProbe : Attempt := ⟨fun _ => .connected none hostile, none, 1⟩

theorem greeting_error_is_json_hostile : ∃ err,
    hostileProbe.err (fun _ => true) (readConfig fun _ => none) = some err ∧
    jsonString (quote (fun _ => true) err) = some err := by
  have hdial : hostileProbe.dialTCP (readConfig fun _ => none).targetAddr =
      .connected none hostile := rfl
  have herr : hostileProbe.err (fun _ => true) (readConfig fun _ => none) =
      some (greetingError (fun _ => true) (greeting hostile.received) (bytes "SSH-2.0-")) := by
    rw [Attempt.err, probeTarget_connected hdial (by decide), if_neg (by decide),
      if_neg (by decide)]
    rfl
  have hsent : hostile.received ≠ [] := by decide
  exact ⟨_, herr, (greeting_error_is_json (fun _ => []) .fresh (by decide) hdial
    (fun h => absurd h hsent) herr).2.2⟩

end
end WorkspaceProxy.Proxy.TargetHealth
