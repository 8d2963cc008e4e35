import WorkspaceProxy.SshServer.Environment

/-! # The home directory of the server and that of its sessions

`homeDir` decides where the host key is kept, and `withPasswdFallback` which
HOME a session runs with. Both use the passwd entry for what the environment
does not have, but the first tests whether HOME is empty and the second whether
it is there. They differ where HOME is set to the empty string. -/
namespace WorkspaceProxy.SshServer.Environment
open WorkspaceProxy.Go

/-- `os.UserHomeDir`, which fails where HOME is unset or empty. -/
def userHomeDir (envs : List GoString) : Option GoString :=
  (lookupEnviron envs envHome).bind nonEmpty

/-- `homeDir`, with the block that the process was started with and the result of
`user.Current`. -/
def homeDir (envs : List GoString) (current : Option Passwd) : GoString :=
  match userHomeDir envs with
  | some home => if home ≠ [] then home else (current.map Passwd.homeDir).getD []
  | none => (current.map Passwd.homeDir).getD []

theorem nonEmpty_of_ne {s : GoString} (h : s ≠ []) : nonEmpty s = some s := if_neg h

theorem homeDir_set {envs : List GoString} {current : Option Passwd} {home : GoString}
    (h : lookupEnviron envs envHome = some home) (hne : home ≠ []) :
    homeDir envs current = home := by
  simp [homeDir, userHomeDir, h, nonEmpty_of_ne hne, hne]

/-- Unset and empty are the same to `homeDir`. -/
theorem homeDir_passwd {envs : List GoString} {p : Passwd}
    (h : lookupEnviron envs envHome = none ∨ lookupEnviron envs envHome = some []) :
    homeDir envs (some p) = p.homeDir := by
  rcases h with h | h <;> simp [homeDir, userHomeDir, h, nonEmpty]

/-- The HOME of a session whose client sends none. -/
theorem session_home {envs sessionEnv out : List GoString} {p : Passwd} (hp : p.homeDir ≠ [])
    (hclient : Absent sessionEnv envHome) (hout : MergeEnv (environ envs) sessionEnv out) :
    lookupEnv (withPasswdFallback (some p) out) envHome =
      (lookupEnviron envs envHome).or (some p.homeDir) := by
  have hlists := hout.lists.withPasswdFallback (some p)
  have hmerged : merged (environ envs) sessionEnv envHome = lookupEnviron envs envHome := by
    rw [merged_apply, lastValue_append, lastValue_eq_none.mpr hclient, Option.none_or,
      lastValue_environ envs (by decide)]
  have haccount : account (some p) envHome = some p.homeDir := by
    rw [account, if_pos rfl, nonEmpty_of_ne hp]
  rw [hlists.lookupEnv equals_not_mem_envHome, hmerged, haccount]

/-- **A session has the home directory of the server exactly if HOME is not set
to the empty string.** Where it is, the session keeps the empty value and the
host key is kept in the home directory of the passwd entry. -/
theorem session_home_iff {envs sessionEnv out : List GoString} {p : Passwd}
    (hp : p.homeDir ≠ []) (hclient : Absent sessionEnv envHome)
    (hout : MergeEnv (environ envs) sessionEnv out) :
    (lookupEnv (withPasswdFallback (some p) out) envHome = some (homeDir envs (some p)) ↔
      lookupEnviron envs envHome ≠ some []) ∧
    (lookupEnviron envs envHome = some [] →
      lookupEnv (withPasswdFallback (some p) out) envHome = some [] ∧
      homeDir envs (some p) = p.homeDir) := by
  rw [session_home hp hclient hout]
  cases hhome : lookupEnviron envs envHome with
  | none => simp [homeDir_passwd (.inl hhome)]
  | some home =>
    by_cases hempty : home = []
    · subst hempty
      simp [homeDir_passwd (.inr hhome), Ne.symm hp]
    · simp [homeDir_set hhome hempty, hempty]

theorem session_home_unset : ∃ out, MergeEnv (environ [bytes "PATH=/bin"]) [] out ∧
    lookupEnv (withPasswdFallback (some ⟨bytes "ide", bytes "/home/ide"⟩) out) envHome =
      some (homeDir [bytes "PATH=/bin"] (some ⟨bytes "ide", bytes "/home/ide"⟩)) := by
  have hout := mergeEnv_foldl (environ [bytes "PATH=/bin"]) []
  have hhome : (⟨bytes "ide", bytes "/home/ide"⟩ : Passwd).homeDir ≠ [] := by decide
  exact ⟨_, hout, (session_home_iff hhome (lastValue_eq_none.mp rfl) hout).1.mpr (by decide)⟩

/-- `HOME=` in the environment of the server. -/
theorem empty_home_differs : ¬ ∀ (envs sessionEnv out : List GoString) (p : Passwd),
    p.homeDir ≠ [] → Absent sessionEnv envHome → MergeEnv (environ envs) sessionEnv out →
    lookupEnv (withPasswdFallback (some p) out) envHome = some (homeDir envs (some p)) := by
  intro h
  have hout := mergeEnv_foldl (environ [bytes "HOME="]) []
  have hhome := h _ [] _ ⟨bytes "ide", bytes "/home/ide"⟩ (by decide) (lastValue_eq_none.mp rfl) hout
  revert hhome
  decide

end WorkspaceProxy.SshServer.Environment
