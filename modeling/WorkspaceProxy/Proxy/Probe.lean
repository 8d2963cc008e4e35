import Mathlib.Data.List.DropRight
import WorkspaceProxy.Go.Bufio
import WorkspaceProxy.Go.Quote

/-! # The probe

`probeTarget` dials the target and reads its greeting: one line, of at most
`targetBannerReadLimit` bytes, through a buffered and limited reader. Its result
is a function of the greeting (`probeTarget_connected`), so how the bytes arrive,
how the stream ends and what follows the greeting do not matter. -/
namespace WorkspaceProxy.Proxy.Probe
open WorkspaceProxy.Go

def targetBannerReadLimit : Nat := 255

def newline : UInt8 := 10

/-- What comes of dialling an address. A connection has the error of
`SetReadDeadline`, if there is one; the deadline and the end of the context are
errors of its reads. -/
inductive Dial
  | failed (err : GoString)
  | connected (deadline : Option GoString) (arrivals : Arrivals)

/-- `strings.TrimRight(s, "\r\n")`. -/
def trimRight (s : GoString) : GoString := s.rdropWhile (· ∈ bytes "\r\n")

/-- `bufio.NewReader(io.LimitReader(conn, targetBannerReadLimit)).ReadString('\n')`. -/
def readBanner (arrivals : Arrivals) : Line (Arrivals × Nat) :=
  (Reader.newReader (arrivals, targetBannerReadLimit)).readString (limitReader conn) newline

section
variable (table : Nat → Bool)

def noGreetingError (err : ReadErr) : GoString :=
  bytes "connected but read no greeting: " ++ err.text

def greetingError (banner bannerPrefix : GoString) : GoString :=
  bytes "greeting " ++ quote table (trimRight banner) ++ bytes " does not start with " ++
    quote table bannerPrefix

/-- `probeTarget`; the result is the text of the error. -/
def probeTarget (dialTCP : GoString → Dial) (addr bannerPrefix : GoString) : Option GoString :=
  match dialTCP addr with
  | .failed err => some err
  | .connected deadline arrivals =>
    if bannerPrefix = [] then none
    else match deadline with
      | some err => some (bytes "failed to set read deadline: " ++ err)
      | none =>
        let line := readBanner arrivals
        match line.err, line.text with
        | some err, [] => some (noGreetingError err)
        | _, banner =>
          if bannerPrefix <+: banner then none else some (greetingError table banner bannerPrefix)

end

/-! ## The greeting -/

/-- The bytes of a stream up to and including the first newline, at most
`targetBannerReadLimit` of them. -/
def greeting (stream : GoString) : GoString := (through newline stream).take targetBannerReadLimit

/-- What a probe can read of its target. -/
def Dial.stream : Dial → GoString
  | .failed _ | .connected (some _) _ => []
  | .connected none arrivals => arrivals.received

theorem greeting_eq_nil {s : GoString} : greeting s = [] ↔ s = [] := by
  cases s with
  | nil => simp [greeting, through]
  | cons c s =>
    unfold greeting through
    split <;> simp [targetBannerReadLimit]

/-- The limit and the search for the newline can be swapped. -/
theorem greeting_eq_through_take (s : GoString) :
    greeting s = through newline (s.take targetBannerReadLimit) :=
  (through_take newline s _).symm

theorem readBanner_text (arrivals : Arrivals) :
    (readBanner arrivals).text = greeting arrivals.received := by
  rw [readBanner, (Reader.readString_spec _ _ _).1, greeting_eq_through_take]
  rfl

/-- A target that sends nothing. -/
theorem readBanner_err {arrivals : Arrivals} (h : arrivals.received = []) :
    (readBanner arrivals).err = some arrivals.ending := by
  rw [readBanner, (Reader.readString_spec _ _ _).2]
  simp [Reader.content, Reader.ending, Reader.newReader, limitReader, limitContent, limitEnding,
    conn, h, targetBannerReadLimit]

section
variable {table : Nat → Bool} {dialTCP dialTCP' : GoString → Dial}
  {addr bannerPrefix : GoString} {arrivals : Arrivals}

/-- The result of a probe that reads, by the greeting. -/
theorem probeTarget_connected (hdial : dialTCP addr = .connected none arrivals)
    (hne : bannerPrefix ≠ []) : probeTarget table dialTCP addr bannerPrefix =
      if arrivals.received = [] then some (noGreetingError arrivals.ending)
      else if bannerPrefix <+: greeting arrivals.received then none
      else some (greetingError table (greeting arrivals.received) bannerPrefix) := by
  simp only [probeTarget, hdial, if_neg hne, readBanner_text]
  by_cases hempty : arrivals.received = []
  · rw [if_pos hempty, readBanner_err hempty, greeting_eq_nil.mpr hempty]
  · rw [if_neg hempty]
    have hgreeting : greeting arrivals.received ≠ [] := mt greeting_eq_nil.mp hempty
    split
    · rename_i hnil
      exact absurd hnil hgreeting
    · rfl

theorem probeTarget_eq_none_iff (hne : bannerPrefix ≠ []) :
    probeTarget table dialTCP addr bannerPrefix = none ↔
      bannerPrefix <+: greeting (dialTCP addr).stream := by
  have hnil : ¬ bannerPrefix <+: greeting [] := fun h => hne (List.prefix_nil.mp h)
  cases hdial : dialTCP addr with
  | failed err => simpa [probeTarget, hdial, Dial.stream] using hnil
  | connected deadline arrivals =>
    cases deadline with
    | some err => simpa [probeTarget, hdial, hne, Dial.stream] using hnil
    | none =>
      rw [probeTarget_connected hdial hne, Dial.stream]
      split
      · rename_i hempty
        simpa [hempty] using hnil
      · split <;> simp_all

/-- Two connections with the same greeting. -/
theorem probeTarget_congr {arrivals' : Arrivals} (hdial : dialTCP addr = .connected none arrivals)
    (hdial' : dialTCP' addr = .connected none arrivals') (hne : arrivals.received ≠ [])
    (hsame : greeting arrivals.received = greeting arrivals'.received) :
    probeTarget table dialTCP addr bannerPrefix = probeTarget table dialTCP' addr bannerPrefix := by
  by_cases hp : bannerPrefix = []
  · simp [probeTarget, hdial, hdial', hp]
  · have hne' : arrivals'.received ≠ [] := by
      rw [ne_eq, ← greeting_eq_nil, ← hsame, greeting_eq_nil]
      exact hne
    rw [probeTarget_connected hdial hp, probeTarget_connected hdial' hp, if_neg hne, if_neg hne',
      hsame]

end

/-- Nothing after a newline or beyond the limit is part of the greeting. -/
theorem greeting_append {s : GoString} (h : newline ∈ s ∨ targetBannerReadLimit ≤ s.length)
    (t : GoString) : greeting (s ++ t) = greeting s := by
  rcases h with hmem | hlen
  · rw [greeting, through_of_mem hmem, greeting]
  · rw [greeting_eq_through_take, List.take_append_of_le_length hlen, ← greeting_eq_through_take]

theorem greeting_of_short {s : GoString} (hnew : newline ∉ s)
    (hlen : s.length ≤ targetBannerReadLimit) : greeting s = s := by
  have hthrough := through_of_not_mem hnew []
  rw [List.append_nil, through, List.append_nil] at hthrough
  rw [greeting, hthrough, List.take_of_length_le hlen]

/-- What decides the result of a probe that looks for a greeting. -/
structure GreetingDecides (table : Nat → Bool) (addr bannerPrefix : GoString) : Prop where
  verdict : ∀ dialTCP, probeTarget table dialTCP addr bannerPrefix = none ↔
    bannerPrefix <+: greeting (dialTCP addr).stream
  chunks : ∀ dialTCP dialTCP', (dialTCP addr).stream = (dialTCP' addr).stream →
    (probeTarget table dialTCP addr bannerPrefix = none ↔
      probeTarget table dialTCP' addr bannerPrefix = none)
  cutOff : ∀ dialTCP, newline ∉ (dialTCP addr).stream →
    (dialTCP addr).stream.length ≤ targetBannerReadLimit →
    bannerPrefix <+: (dialTCP addr).stream → probeTarget table dialTCP addr bannerPrefix = none
  rest : ∀ dialTCP dialTCP' arrivals arrivals' s t t',
    dialTCP addr = .connected none arrivals → dialTCP' addr = .connected none arrivals' →
    arrivals.received = s ++ t → arrivals'.received = s ++ t' →
    newline ∈ s ∨ targetBannerReadLimit ≤ s.length →
    probeTarget table dialTCP addr bannerPrefix = probeTarget table dialTCP' addr bannerPrefix

/-- **The verdict of a probe depends only on the greeting.** It does not depend
on how the bytes are cut or on how the stream ends; a greeting that is cut off
after what is expected is accepted, and bytes after the greeting change nothing,
not even the text of an error. -/
theorem greeting_decides (table : Nat → Bool) (addr : GoString) {bannerPrefix : GoString}
    (hne : bannerPrefix ≠ []) : GreetingDecides table addr bannerPrefix where
  verdict _ := probeTarget_eq_none_iff hne
  chunks dialTCP dialTCP' hsame := by
    rw [probeTarget_eq_none_iff hne, probeTarget_eq_none_iff hne, hsame]
  cutOff dialTCP hnew hlen hp := by
    rw [probeTarget_eq_none_iff hne, greeting_of_short hnew hlen]
    exact hp
  rest dialTCP dialTCP' arrivals arrivals' s t t' hdial hdial' hs hs' hend := by
    have hne : s ≠ [] := by
      rintro rfl
      simp [targetBannerReadLimit] at hend
    refine probeTarget_congr hdial hdial' (by simp [hs, hne]) ?_
    rw [hs, hs', greeting_append hend, greeting_append hend]

/-- An identification that comes in two pieces and never ends its line. -/
def openLine : Arrivals where
  pieces := [bytes "SS", bytes "H-2.0-server"]
  nonempty := by decide
  ending := .other (bytes "i/o timeout")

theorem greeting_decides_open_line :
    probeTarget (fun _ => true) (fun _ => .connected none openLine) (bytes "localhost:2222")
      (bytes "SSH-2.0-") = none :=
  (greeting_decides _ _ (by decide)).cutOff _ (by decide) (by decide) (by decide)

end WorkspaceProxy.Proxy.Probe
