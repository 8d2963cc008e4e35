import WorkspaceProxy.Go.Utf8
import WorkspaceProxy.SshServer.Environment

/-! # The command of a session

`handleSession` builds the command that it runs from the client's request, the environment
of the server, the passwd entry and the files of the image; `runWithPty` adds the terminal
to its environment. What the process gets is stated here for the command as a whole. -/
namespace WorkspaceProxy.SshServer.Command
open WorkspaceProxy.Go Environment

def shellBash : GoString := bytes "/bin/bash"
def shellSh : GoString := bytes "/bin/sh"

/-- The fields of an `exec.Cmd` that the server sets. The first of `args` is the name. -/
structure Cmd where
  args : List GoString
  env : List GoString
  dir : GoString

/-- `unicode.IsSpace`. -/
def isSpace (r : Nat) : Bool :=
  (9 ≤ r && r ≤ 13) || r == 0x20 || r == 0x85 || r == 0xA0 || r == 0x1680 ||
    (0x2000 ≤ r && r ≤ 0x200A) || r == 0x2028 || r == 0x2029 || r == 0x202F || r == 0x205F ||
    r == 0x3000

/-- Whether `strings.TrimSpace` leaves nothing of a text: each of its runes is a space. -/
def blank (s : GoString) : Bool :=
  (runes s).all fun
    | .rune r => isSpace r
    | .bad _ => false

/-- The arguments of `buildShellCommand`. -/
def buildShellCommand (shell : GoString) (loginShell : Bool) (rawCmd : GoString) :
    List GoString :=
  if blank rawCmd then
    if loginShell then [shell, bytes "-l"] else [shell]
  else
    if loginShell then [shell, bytes "-lc", rawCmd] else [shell, bytes "-c", rawCmd]

/-- What the machine has for a session: the block of variables that the server was
started with, what `os.Stat` finds to be a file or a directory, and the result of
`user.Current`. -/
structure Image where
  envs : List GoString
  isFile : GoString → Bool
  isDir : GoString → Bool
  current : Option Passwd

/-- The loop of `resolveShell`. -/
def firstShell (isFile : GoString → Bool) : List GoString → GoString
  | [] => shellSh
  | candidate :: rest =>
    if candidate = [] then firstShell isFile rest
    else if isFile candidate then candidate
    else firstShell isFile rest

/-- `os.Getenv("SHELL")`. -/
def Image.shell (i : Image) : GoString := (lookupEnviron i.envs (bytes "SHELL")).getD []

def resolveShell (i : Image) : GoString := firstShell i.isFile [i.shell, shellBash, shellSh]

/-- The command of `handleSession`, for a result `out` of `mergeEnv`. -/
def sessionCmd (i : Image) (loginShell : Bool) (rawCmd : GoString) (out : List GoString) : Cmd :=
  let env := withPasswdFallback i.current out
  { args := buildShellCommand (resolveShell i) loginShell rawCmd
    env := env
    dir := sessionWorkingDir i.isDir env }

def termKey : GoString := bytes "TERM"
def colortermKey : GoString := bytes "COLORTERM"
def truecolor : GoString := bytes "truecolor"

/-- The command that is started, with the `Term` of a client that asked for a terminal. -/
def Cmd.started (c : Cmd) : Option GoString → Cmd
  | none => c
  | some term =>
    { c with env := c.env ++ [entry (termKey, term), entry (colortermKey, truecolor)] }

/-! ## The shell -/

def Usable (isFile : GoString → Bool) (c : GoString) : Prop := c ≠ [] ∧ isFile c = true

instance (isFile : GoString → Bool) (c : GoString) : Decidable (Usable isFile c) :=
  inferInstanceAs (Decidable (_ ∧ _))

theorem firstShell_cons (isFile : GoString → Bool) (c : GoString) (l : List GoString) :
    firstShell isFile (c :: l) = if Usable isFile c then c else firstShell isFile l := by
  by_cases hempty : c = []
  · simp [firstShell, Usable, hempty]
  · simp [firstShell, Usable, hempty]

/-- The shell is the first candidate that is a file, or `/bin/sh` where none is. -/
theorem firstShell_eq_find (isFile : GoString → Bool) (l : List GoString) :
    firstShell isFile l = (l.find? fun c => Usable isFile c).getD shellSh := by
  induction l with
  | nil => rfl
  | cons c l ih =>
    rw [firstShell_cons, List.find?_cons, ih]
    by_cases husable : Usable isFile c <;> simp [husable]

theorem buildShellCommand_blank {rawCmd : GoString} (shell : GoString) (loginShell : Bool)
    (h : blank rawCmd = true) :
    buildShellCommand shell loginShell rawCmd = shell :: if loginShell then [bytes "-l"] else [] := by
  unfold buildShellCommand
  rw [if_pos h]
  cases loginShell <;> rfl

theorem buildShellCommand_exec {rawCmd : GoString} (shell : GoString) (loginShell : Bool)
    (h : ¬ blank rawCmd = true) :
    buildShellCommand shell loginShell rawCmd =
      [shell, if loginShell then bytes "-lc" else bytes "-c", rawCmd] := by
  unfold buildShellCommand
  rw [if_neg h]
  cases loginShell <;> rfl

/-! ## The environment -/

/-- What a terminal sets. -/
def terminal (term : Option GoString) (key : GoString) : Option GoString :=
  match term with
  | none => none
  | some term =>
    if key = termKey then some term else if key = colortermKey then some truecolor else none

theorem equals_not_mem_termKey : equals ∉ termKey := by decide
theorem equals_not_mem_colortermKey : equals ∉ colortermKey := by decide

theorem lastValue_started (c : Cmd) (term : Option GoString) (key : GoString) :
    lastValue (c.started term).env key = (terminal term key).or (lastValue c.env key) := by
  cases term with
  | none => exact Option.none_or.symm
  | some term =>
    have hne : colortermKey ≠ termKey := by decide
    simp only [Cmd.started, lastValue_append, lastValue_cons, terminal,
      valueFor_entry equals_not_mem_termKey, valueFor_entry equals_not_mem_colortermKey]
    by_cases hterm : key = termKey
    · subst hterm
      simp [hne, lastValue, firstValue]
    · by_cases hcolor : key = colortermKey
      · subst hcolor
        simp [hne, lastValue, firstValue]
      · simp [hterm, hcolor, Ne.symm hterm, Ne.symm hcolor, lastValue, firstValue]

/-! ## The command -/

/-- `$SHELL` where it is a file, else `/bin/bash` where that is one, else `/bin/sh`. -/
inductive ShellOf (i : Image) : GoString → Prop
  | env : Usable i.isFile i.shell → ShellOf i i.shell
  | bash : ¬ Usable i.isFile i.shell → Usable i.isFile shellBash → ShellOf i shellBash
  | sh : ¬ Usable i.isFile i.shell → ¬ Usable i.isFile shellBash → ShellOf i shellSh

/-- What the process of a session gets, given the request `rawCmd` and `term`. -/
structure Prepared (i : Image) (sessionEnv : List GoString) (loginShell : Bool)
    (rawCmd : GoString) (term : Option GoString) (c : Cmd) : Prop where
  /-- The shell, and what the client sent as one argument, or nothing but the shell. -/
  args : ∃ shell, ShellOf i shell ∧ c.args = shell ::
    if blank rawCmd then (if loginShell then [bytes "-l"] else [])
    else [if loginShell then bytes "-lc" else bytes "-c", rawCmd]
  /-- The terminal wins over the client, the client over the server, and the server over
  the passwd entry. Of the block of the server the first entry for the key counts. -/
  env : ∀ key, lastValue c.env key =
    (terminal term key).or ((lastValue sessionEnv key).or
      ((firstValue i.envs key).or (account i.current key)))
  dir : c.dir = [] ∨ (i.isDir c.dir = true ∧ lastValue c.env envHome = some c.dir)

theorem shellOf_resolveShell (i : Image) : ShellOf i (resolveShell i) := by
  rw [resolveShell, firstShell_eq_find]
  by_cases henv : Usable i.isFile i.shell
  · simpa [henv] using ShellOf.env henv
  · by_cases hbash : Usable i.isFile shellBash
    · simpa [henv, hbash] using ShellOf.bash henv hbash
    · -- the last candidate is also what the loop falls back to
      by_cases hsh : Usable i.isFile shellSh <;>
        simpa [henv, hbash, hsh] using ShellOf.sh henv hbash

theorem sessionWorkingDir_isDir (isDir : GoString → Bool) (env : List GoString) :
    sessionWorkingDir isDir env = [] ∨ isDir (sessionWorkingDir isDir env) = true := by
  unfold sessionWorkingDir
  split
  · exact .inl rfl
  · split
    · exact .inl rfl
    · split
      · exact .inr ‹_›
      · exact .inl rfl

/-- **The command of a session.** Whatever order the merge takes: the client's command
reaches the shell as one argument, as it was sent, and the shell is `$SHELL`, else
`/bin/bash`, else `/bin/sh`; each variable has the value of the terminal, else of the
client, else of the server, else of the passwd entry; and the directory is one, that of
the `HOME` that the process sees. -/
theorem session_command {sessionEnv out : List GoString} (i : Image) (loginShell : Bool)
    (rawCmd : GoString) (term : Option GoString)
    (hout : MergeEnv (environ i.envs) sessionEnv out) :
    Prepared i sessionEnv loginShell rawCmd term
      ((sessionCmd i loginShell rawCmd out).started term) := by
  have hlists := hout.lists.withPasswdFallback i.current
  have henv : ∀ key, lastValue (sessionCmd i loginShell rawCmd out).env key =
      (lastValue sessionEnv key).or ((firstValue i.envs key).or (account i.current key)) := by
    intro key
    refine (hlists.lastValue key).trans ?_
    rw [merged_apply, lastValue_append, Option.or_assoc, environ, lastValue_environFrom,
      if_neg List.not_mem_nil]
  have hargs : ((sessionCmd i loginShell rawCmd out).started term).args =
      buildShellCommand (resolveShell i) loginShell rawCmd := by cases term <;> rfl
  have hdir : ((sessionCmd i loginShell rawCmd out).started term).dir =
      (sessionCmd i loginShell rawCmd out).dir := by cases term <;> rfl
  refine ⟨⟨_, shellOf_resolveShell i, ?_⟩, fun key => ?_, ?_⟩
  · rw [hargs]
    by_cases hblank : blank rawCmd = true
    · rw [buildShellCommand_blank _ _ hblank, if_pos hblank]
    · rw [buildShellCommand_exec _ _ hblank, if_neg hblank]
  · rw [lastValue_started, henv]
  · -- a terminal does not set HOME
    have hhome : terminal term envHome = none := by cases term <;> rfl
    rw [hdir, lastValue_started, hhome, Option.none_or]
    obtain hnil | hvalue :=
      (sessionEnvironment_of_lists hlists).workingDir i.isDir
    · exact .inl hnil
    · exact (sessionWorkingDir_isDir i.isDir _).imp_right fun hisDir => ⟨hisDir, hvalue⟩

/-- An image whose `$SHELL` is not there, with `/bin/bash` and a home directory, and no
passwd entry. -/
def bashImage : Image :=
  { envs := [bytes "HOME=/home/ide", bytes "SHELL=/bin/zsh"]
    isFile := fun f => f == shellBash
    isDir := fun d => d == bytes "/home/ide"
    current := none }

/-- A client that sends a `TERM` of its own and asks for a terminal. -/
theorem session_command_terminal : ∃ out,
    MergeEnv (environ bashImage.envs) [bytes "TERM=dumb"] out ∧
    Prepared bashImage [bytes "TERM=dumb"] false (bytes "ls -l") (some (bytes "xterm"))
      ((sessionCmd bashImage false (bytes "ls -l") out).started (some (bytes "xterm"))) ∧
    lastValue ((sessionCmd bashImage false (bytes "ls -l") out).started
      (some (bytes "xterm"))).env termKey = some (bytes "xterm") ∧
    ((sessionCmd bashImage false (bytes "ls -l") out).started (some (bytes "xterm"))).args =
      [shellBash, bytes "-c", bytes "ls -l"] := by
  have hout := mergeEnv_foldl (environ bashImage.envs) [bytes "TERM=dumb"]
  have hcmd := session_command bashImage false (bytes "ls -l") (some (bytes "xterm")) hout
  exact ⟨_, hout, hcmd, hcmd.env termKey, rfl⟩

end WorkspaceProxy.SshServer.Command
