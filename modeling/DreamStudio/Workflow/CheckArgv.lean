import DreamStudio.Library.Dict
import DreamStudio.Library.Except
import DreamStudio.Library.Strip

namespace DreamStudio.Workflow

open Library

section Tables

/-- `_SHELL_METACHARACTERS`. -/
def shellMetacharacters : List Char := ['|', ';', '&', '>', '<', '\x60', '$', '\n']

/-- `_ESCAPE_CHARACTER`. -/
def escapeCharacter : Char := '\\'

/-- `_SHELL_DELEGATING_SUFFIXES`. -/
def shellDelegatingSuffixes : List String := [".bat", ".cmd"]

/-- `_SHELL_INTERPRETERS`. -/
def shellInterpreters : List String :=
  ["cmd", "cmd.exe", "command.com", "powershell", "powershell.exe", "pwsh", "pwsh.exe", "sh",
    "bash", "dash", "zsh",
    "ksh", "csh", "tcsh", "fish", "wscript", "wscript.exe", "cscript", "cscript.exe"]

/-- `_UNIVERSAL_CODE_MARKERS`. -/
def universalCodeMarkers : List String := ["-c", "-e", "--eval", "--exec", "--command"]

/-- `_PROGRAM_CODE_MARKERS`. -/
def programCodeMarkers : Dict String (List String) :=
  [("node", ["-p", "--print"]), ("bun", ["-p", "--print"]), ("deno", ["eval"]), ("php", ["-r"])]

/-- `_PROGRAM_ALIASES`. -/
def programAliases : Dict String String := [("nodejs", "node")]

/-- `_INDIRECTION_COMMANDS`. -/
def indirectionCommands : List String :=
  ["env", "nice", "ionice", "timeout", "nohup", "setsid", "stdbuf", "unshare", "chroot", "xargs",
    "sudo", "doas", "su",
    "runuser", "start", "time", "command", "exec", "busybox", "winpty", "docker", "podman", "ssh",
      "wsl", "watch",
    "flock", "parallel", "strace", "ltrace", "valgrind", "script"]

end Tables

section Markers

/-- `_program_key`. -/
def programKey (program : String) : String :=
  let key := rstrip (removeSuffix program ".exe") "0123456789."
  (programAliases.get key).getD key

/-- `_code_markers_for`. -/
def codeMarkersFor (program : String) : List String :=
  universalCodeMarkers ++ (programCodeMarkers.get (programKey program)).getD []

/-- `"{{" in token`. -/
def templated (token : String) : Bool := contains token "\x7b\x7b"

variable (lower : String → String)

/-- The loop of `_templated_code_argument`. -/
def codeArgument (markers attached : List String) : List String → Option String
  | [] => none
  | token :: following =>
    let low := lower token
    if templated token ∧ attached.any (startsWith low ·) then
      let flag := String.ofList (beforePart "\x7b\x7b".toList low.toList)
      some (if flag = "" then token else flag)
    else if low ∈ markers ∧ templated (following.headD "") then some token
    else codeArgument markers attached following

/-- `_templated_code_argument`. -/
def templatedCodeArgument (tokens : List String) (program : String) : Option String :=
  let markers := codeMarkersFor program
  let short := markers.filter fun m => m.length = 2 && startsWith m "-"
  let assigned := (markers.filter (startsWith · "--")).map (· ++ "=")
  codeArgument lower markers (short ++ assigned) tokens

end Markers

section CheckArgv

-- `shlex.split(raw, posix=True)`, `PureWindowsPath(token).name`, `str.lower` and `repr`.
variable (split : String → Except String (List String)) (fileName lower repr : String → String)

/-- `_executable_name`. -/
def executableName (token : String) : String := rstrip (lower (fileName token)) ". "

/-- What `check_argv` says of the program that a check names. -/
def programRefusal (program : String) : Option String :=
  let executable := executableName fileName lower program
  if ':' ∈ executable.toList then
    some ("completion_check names an NTFS alternate data stream (" ++ repr program ++ "), which" ++
      " executes what is stored in the stream rather than the file it is attached" ++
      " to -- so the program name says nothing about what runs. Name the executable" ++
        " directly.")
  else if executable = "" then
    some ("completion_check names no program: " ++ repr program ++ " normalises to nothing once" ++
      " its path and trailing dots and spaces are removed. This already failed, but" ++
      " on a missing-file error rather than on the check being malformed.")
  else if shellDelegatingSuffixes.any (endsWith executable ·) then
    some ("completion_check runs " ++ repr program ++ ", and Windows hands a .bat/.cmd to" ++
      " cmd.exe even with shell=False -- which would let cmd's own syntax (%VAR%," ++
      " ^, !) be reinterpreted in an interpolated value. Invoke the underlying" ++
        " program directly.")
  else if programKey executable ∈ indirectionCommands then
    some ("completion_check runs " ++ repr program ++ ", whose job is to run another program --" ++
      " so the program this check names is not the program that executes, and the" ++
      " code-eval markers for the real one are never consulted (`env node -p" ++
      " <template>` was accepted for exactly this reason). Name the program" ++
      " directly; a check is a cheap read and has no reason to run one program in" ++
        " order to run another.")
  else if executable ∈ shellInterpreters then
    some ("completion_check runs " ++ repr program ++ ", which is a shell: it re-parses its own" ++
      " arguments as a command string, so an interpolated value would become code" ++
      " again -- the exact injection running with shell=False closes. Invoke the" ++
      " program directly, or move the logic into a module the check can call.")
  else none

/-- What `check_argv` says of the tokens. -/
def tokensRefusal (program : String) (tokens : List String) : Option String :=
  if templated program then
    some ("completion_check names its executable with a template. The author of the" ++
      " check must name the program: running with shell=False stops an interpolated" ++
      " value from becoming code or an extra argument, but it does nothing about a" ++
      " value that IS the program. Put the template in an argument instead.")
  else
    match programRefusal fileName lower repr program with
    | some reason => some reason
    | none =>
      let executable := executableName fileName lower program
      (templatedCodeArgument lower tokens executable).map fun flag =>
        "completion_check interpolates a template into the argument of " ++ repr flag ++ "," ++
          " which is source code to " ++ repr executable ++ " -- so a node's output would be the" ++
          " program rather than data. Running with shell=False makes an interpolated" ++
          " ARGUMENT inert; it does nothing when that argument is what gets executed." ++
          " Pass the value as a plain positional argument to something that reads it as" ++
          " data, which is the shape every shipped check already uses."

/-- What `check_argv` says of the text of the check. -/
def textRefusal (raw : String) : Option String :=
  if raw = "" then some "empty check"
  else
    match shellMetacharacters.find? (· ∈ raw.toList) with
    | some c =>
      let shown := if c = '\n' then "a newline" else repr (String.singleton c)
      some ("completion_check contains the shell metacharacter " ++ shown ++ ", and a check" ++
        " is argv rather than shell -- it names an executable and its arguments," ++
        " and is run with shell=False so that a node's output can never become" ++
        " code. Rewrite it as a single command, or move the logic into a module" ++
          " the check can invoke.")
    | none =>
      if escapeCharacter ∈ raw.toList then
        some ("completion_check contains a backslash, which is consumed as an escape when" ++
          " the check is split into arguments -- an unquoted Windows path would silently" ++
          " lose its separators and the check would run against a path that does not" ++
          " exist, reporting the effect as absent for the wrong reason. Use forward" ++
          " slashes, which work on every platform, or quote the argument.")
      else none

/-- `check_argv` up to the resolver. -/
def checkTokens (rawCheck : String) : Except String (List String) :=
  let raw := pyStrip rawCheck
  match textRefusal repr raw with
  | some reason => .error reason
  | none =>
    match split raw with
    | .error exc => .error ("completion_check could not be split into arguments (" ++
      exc ++ "): " ++ raw)
    | .ok [] => .error "empty check"
    | .ok (program :: arguments) =>
      match tokensRefusal fileName lower repr program (program :: arguments) with
      | some reason => .error reason
      | none => .ok (program :: arguments)

abbrev Resolver := String → Except (String × String) String

def resolveToken (resolver : Resolver) (token : String) : Except String String :=
  match resolver token with
  | .ok resolved => .ok resolved
  | .error (name, exc) =>
    .error ("completion_check could not resolve " ++ repr token ++ " (" ++ name ++ ": " ++ exc ++
      "). A verifier reports a reason rather" ++
        " than raising, so the node blocks and names this.")

/-- `check_argv`. -/
def checkArgv (rawCheck : String) (resolver : Option Resolver) : Except String (List String) := do
  let tokens ← checkTokens split fileName lower repr rawCheck
  match resolver with
  | none => return tokens
  | some resolver => tokens.mapM (resolveToken repr resolver)

end CheckArgv

section Inert

variable {split : String → Except String (List String)} {fileName lower repr : String → String}

/-- No token that is a marker has a templated one behind it. -/
def Guarded (lower : String → String) (markers tokens : List String) : Prop :=
  ∀ before marker next after, tokens = before ++ marker :: next :: after → lower marker ∈ markers →
    templated next = false

theorem codeArgument_none {markers attached tokens : List String}
    (unfound : codeArgument lower markers attached tokens = none) :
    Guarded lower markers tokens := by
  induction tokens with
  | nil =>
    intro before marker next after whole
    cases before <;> cases whole
  | cons token following ih =>
    rw [codeArgument] at unfound
    split at unfound
    · cases unfound
    · split at unfound
      · cases unfound
      next unmarked =>
        intro before marker next after whole listed
        cases before with
        | nil =>
          obtain ⟨rfl, rfl⟩ := List.cons.inj whole
          apply Bool.eq_false_iff.mpr
          intro template
          exact unmarked ⟨listed, template⟩
        | cons token' before =>
          exact ih unfound before marker next after (List.cons.inj whole).2 listed

/-- What `check_argv` has found of the tokens it goes on with. -/
structure Checked (split : String → Except String (List String)) (fileName lower : String → String)
    (rawCheck : String) (tokens : List String) : Prop where
  splits : split (pyStrip rawCheck) = .ok tokens
  named : ∃ program arguments, tokens = program :: arguments ∧ templated program = false ∧
    Guarded lower (codeMarkersFor (executableName fileName lower program)) tokens

theorem checkTokens_ok {rawCheck : String} {tokens : List String}
    (accepted : checkTokens split fileName lower repr rawCheck = .ok tokens) :
    Checked split fileName lower rawCheck tokens := by
  rw [checkTokens] at accepted
  split at accepted
  · cases accepted
  · split at accepted
    · cases accepted
    · cases accepted
    next program arguments splits =>
      split at accepted
      · cases accepted
      next unrefused =>
        cases accepted
        apply Checked.mk splits
        refine ⟨program, arguments, rfl, ?_⟩
        rw [tokensRefusal] at unrefused
        split at unrefused
        · cases unrefused
        next plain =>
          apply And.intro (Bool.eq_false_iff.mpr plain)
          split at unrefused
          · cases unrefused
          · exact codeArgument_none (Option.map_eq_none_iff.mp unrefused)

/-- A resolver that does not raise and leaves a token without a template as it is. -/
def Plain (resolver : Option Resolver) : Prop :=
  ∀ resolve ∈ resolver, ∀ token, ∃ resolved, resolve token = .ok resolved ∧
    (templated token = false → resolved = token)

def FilledIn : List String → List String → Prop :=
  List.Forall₂ fun token argument => templated token = false → argument = token

theorem resolve_filledIn (repr : String → String) {resolver : Resolver}
    (plain : Plain (some resolver)) (tokens : List String) :
    ∃ argv, tokens.mapM (resolveToken repr resolver) = .ok argv ∧ FilledIn tokens argv := by
  induction tokens with
  | nil => exact ⟨[], rfl, .nil⟩
  | cons token tokens ih =>
    obtain ⟨resolved, resolves, same⟩ := plain resolver rfl token
    obtain ⟨argv, ran, kept⟩ := ih
    have here : resolveToken repr resolver token = .ok resolved := by rw [resolveToken, resolves]
    rw [List.mapM_cons, here, ran]
    exact ⟨resolved :: argv, rfl, .cons same kept⟩

theorem checkArgv_cases {resolver : Option Resolver} (plain : Plain resolver) (rawCheck : String) :
    (∃ reason, checkTokens split fileName lower repr rawCheck = .error reason ∧
      checkArgv split fileName lower repr rawCheck resolver = .error reason) ∨
    ∃ tokens argv, checkTokens split fileName lower repr rawCheck = .ok tokens ∧
      checkArgv split fileName lower repr rawCheck resolver = .ok argv ∧ FilledIn tokens argv := by
  rw [checkArgv]
  cases checked : checkTokens split fileName lower repr rawCheck with
  | error reason => exact Or.inl ⟨reason, rfl, rfl⟩
  | ok tokens =>
    apply Or.inr
    rw [ok_bind]
    cases resolver with
    | none => exact ⟨tokens, tokens, rfl, rfl, List.forall₂_same.mpr fun _ _ _ => rfl⟩
    | some resolver =>
      obtain ⟨argv, ran, kept⟩ := resolve_filledIn repr plain tokens
      exact ⟨tokens, argv, rfl, ran, kept⟩

/-- Two fillings of the same tokens have the same length and program, and differ at templates
only. -/
structure Alike (tokens argv argv' : List String) : Prop where
  length : argv.length = argv'.length
  program : ∃ program, argv[0]? = some program ∧ argv'[0]? = some program
  plain : ∀ (i : Nat) (token : String), tokens[i]? = some token → templated token = false →
    argv[i]? = argv'[i]?

theorem FilledIn.get {tokens argv : List String} (kept : FilledIn tokens argv) {i : Nat}
    {token : String} (held : tokens[i]? = some token) (plain : templated token = false) :
    argv[i]? = some token := by
  induction kept generalizing i with
  | nil => cases held
  | cons same kept ih =>
    cases i with
    | zero =>
      cases held
      exact congrArg some (same plain)
    | succ i => exact ih held

theorem alike_of_filledIn {rawCheck : String} {tokens argv argv' : List String}
    (checked : Checked split fileName lower rawCheck tokens) (kept : FilledIn tokens argv)
    (kept' : FilledIn tokens argv') :
    Alike tokens argv argv' where
  length := kept.length_eq.symm.trans kept'.length_eq
  program := by
    obtain ⟨program, arguments, rfl, plain, -⟩ := checked.named
    exact ⟨program, kept.get rfl plain, kept'.get rfl plain⟩
  plain _ _ held plain := (kept.get held plain).trans (kept'.get held plain).symm

end Inert

/-- Whatever fills in the templates, a check is refused for the same reason or goes through with as
many arguments, the same program and the same arguments outside of templates; and where it goes
through, no template stands behind a marker of code. -/
theorem checkArgv_inert (split : String → Except String (List String))
    (fileName lower repr : String → String) (rawCheck : String) :
    (∀ resolver resolver', Plain resolver → Plain resolver' →
      (∃ reason, checkArgv split fileName lower repr rawCheck resolver = .error reason ∧
        checkArgv split fileName lower repr rawCheck resolver' = .error reason) ∨
      ∃ tokens argv argv', split (pyStrip rawCheck) = .ok tokens ∧
        checkArgv split fileName lower repr rawCheck resolver = .ok argv ∧
        checkArgv split fileName lower repr rawCheck resolver' = .ok argv' ∧
          Alike tokens argv argv') ∧
    ∀ resolver argv, checkArgv split fileName lower repr rawCheck resolver = .ok argv →
      ∃ program arguments, split (pyStrip rawCheck) = .ok (program :: arguments) ∧
        Guarded lower (codeMarkersFor (executableName fileName lower program))
          (program :: arguments) := by
  apply And.intro
  · intro resolver resolver' plain plain'
    cases checkArgv_cases plain rawCheck with
    | inl refused =>
      obtain ⟨reason, refuses, here⟩ := refused
      cases checkArgv_cases plain' rawCheck with
      | inl refused' =>
        obtain ⟨reason', refuses', there⟩ := refused'
        obtain rfl := Except.error.inj (refuses.symm.trans refuses')
        exact Or.inl ⟨reason, here, there⟩
      | inr accepted' =>
        obtain ⟨tokens, -, passes, -⟩ := accepted'
        cases refuses.symm.trans passes
    | inr accepted =>
      obtain ⟨tokens, argv, passes, here, kept⟩ := accepted
      cases checkArgv_cases plain' rawCheck with
      | inl refused' =>
        obtain ⟨reason, refuses, -⟩ := refused'
        cases refuses.symm.trans passes
      | inr accepted' =>
        obtain ⟨tokens', argv', passes', there, kept'⟩ := accepted'
        obtain rfl := Except.ok.inj (passes.symm.trans passes')
        have checked := checkTokens_ok passes
        exact Or.inr ⟨tokens, argv, argv', checked.splits, here, there,
          alike_of_filledIn checked kept kept'⟩
  · intro resolver argv accepted
    obtain ⟨tokens, checked, -⟩ := bind_eq_ok.mp accepted
    have found := checkTokens_ok checked
    obtain ⟨program, arguments, rfl, -, guarded⟩ := found.named
    exact ⟨program, arguments, found.splits, guarded⟩

section Filled

/-- What stands between blanks: `shlex.split` of a check without quotes. -/
def words (raw : String) : Except String (List String) :=
  .ok ((raw.toList.splitOnP (· = ' ')).map String.ofList)

def quoted (text : String) : String := "'" ++ text ++ "'"

def filling (output : String) : Resolver :=
  fun token => .ok (if templated token then output else token)

theorem filling_plain (output : String) : Plain (some (filling output)) := by
  rintro resolver ⟨⟩ token
  exact ⟨_, rfl, fun plain => if_neg (Bool.eq_false_iff.mp plain)⟩

/-- An output that reads as a command stays an argument. -/
theorem checkArgv_inert_output : ∃ tokens argv argv',
    checkArgv words id pyLower quoted "py -m gate {{a.output}}"
      (some (filling "x; rm -rf /")) = .ok argv ∧
      checkArgv words id pyLower quoted "py -m gate {{a.output}}"
        (some (filling "ok")) = .ok argv' ∧
      Alike tokens argv argv' := by
  have accepted : (checkArgv words id pyLower quoted "py -m gate {{a.output}}"
      (some (filling "ok"))).isOk = true := by decide +kernel
  have runs := (checkArgv_inert words id pyLower quoted "py -m gate {{a.output}}").1 _ _
    (filling_plain "x; rm -rf /") (filling_plain "ok")
  cases runs with
  | inl refused =>
    obtain ⟨reason, -, refuses⟩ := refused
    rw [refuses] at accepted
    cases accepted
  | inr both =>
    obtain ⟨tokens, argv, argv', -, here, there, alike⟩ := both
    exact ⟨tokens, argv, argv', here, there, alike⟩

end Filled

end DreamStudio.Workflow
