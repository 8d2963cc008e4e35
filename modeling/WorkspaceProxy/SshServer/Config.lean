import WorkspaceProxy.Go.NetIP

/-! # Which hosts are loopback

`isLoopback` of config.go guards the listen address and both directions of
port forwarding. -/
namespace WorkspaceProxy.SshServer
open WorkspaceProxy.Go

def loopbackIPv4 : GoString := bytes "127.0.0.1"
def localhostHost : GoString := bytes "localhost"

/-- Reports whether `host` names only the loopback interface. An empty host
and `*` are rejected because both mean every interface to `net.Listen`. -/
def isLoopback (host : GoString) : Bool :=
  if host = [] ∨ host = bytes "*" then false
  else if host = localhostHost then true
  else match parseIP host with
    | none => false
    | some ip => ip.isLoopback

/-- The name localhost, or a literal of a loopback address. -/
def LoopbackHost (host : GoString) : Prop :=
  host = localhostHost ∨ ∃ ip, parseIP host = some ip ∧ ip.LoopbackValue

theorem isLoopback_iff (host : GoString) : isLoopback host = true ↔ LoopbackHost host := by
  constructor
  · intro h
    unfold isLoopback at h
    split at h
    · cases h
    · split at h
      · rename_i hl; exact Or.inl hl
      · split at h
        · cases h
        · rename_i ip hp
          exact Or.inr ⟨ip, hp, IP.loopbackValue_iff.mp h⟩
  · rintro (rfl | ⟨ip, hp, hv⟩)
    · decide
    · have hne : ¬(host = [] ∨ host = bytes "*") := by
        rintro (rfl | rfl) <;> cases hp
      unfold isLoopback
      rw [if_neg hne]
      split
      · rfl
      · rw [hp]; exact IP.loopbackValue_iff.mpr hv

/-- No loopback host has a bracket, so joining it with a port and splitting
the result gives it back. -/
theorem LoopbackHost.noBracket {host : GoString} (h : LoopbackHost host) :
    openBracket ∉ host ∧ closeBracket ∉ host := by
  rcases h with rfl | ⟨ip, hp, -⟩
  · decide
  · exact parseIP_noBracket hp

end WorkspaceProxy.SshServer
