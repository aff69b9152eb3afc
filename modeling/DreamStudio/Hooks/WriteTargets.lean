import DreamStudio.Hooks.Native
import DreamStudio.Library.Scan
import Mathlib.Data.Bool.AllAny

namespace DreamStudio.Hooks

open Library Regex

structure Command where
  text : String
  ascii : ∀ c ∈ text.toList, c.val < 128

section Patterns

def oneOf (cs : String) : Regex Char := .one (cs.toList.contains ·)

def word (c : Char) : Bool := c.isAlphanum || c = '_'

/-- `\b`. -/
def boundary : Regex Char := .look fun a b => a.any word != b.any word

/-- `(?i)` before a text. -/
def caseless (text : String) : Regex Char :=
  text.toList.foldr (fun c r => .seq (.one fun d => d.toLower = c.toLower) r) .empty

def anyOf : List (Regex Char) → Regex Char
  | [] => .one fun _ => false
  | [r] => r
  | r :: s :: rs => .alt r (anyOf (s :: rs))

variable (space : Char → Bool)

/-- `(?:\"([^\"]+)\"|'([^']+)'|([^\s;|&<>\"']+))`. -/
def quotedOrBare : Regex Char :=
  anyOf [.seq (.one (· = '"')) (.seq (.group 1 (plus (.one (· ≠ '"')))) (.one (· = '"'))),
    .seq (.one (· = '\'')) (.seq (.group 2 (plus (.one (· ≠ '\'')))) (.one (· = '\''))),
    .group 3 (plus (.one fun c => !(space c || [';', '|', '&', '<', '>', '"', '\''].contains c)))]

/-- `>{1,2}\s*` and the target. -/
def redirectTarget : Regex Char :=
  .seq (.one (· = '>')) (.seq (opt (.one (· = '>')))
    (.seq (.star (.one space)) (quotedOrBare space)))

/-- `\btee\s+(?:-a\s+)?` and the target. -/
def teeTarget : Regex Char :=
  .seq boundary (.seq (caseless "tee") (.seq (plus (.one space))
    (.seq (opt (.seq (caseless "-a") (plus (.one space)))) (quotedOrBare space))))

/-- `\b(?:Set-Content|Add-Content|Out-File)\s+(?:-Path\s+)?` and the target. -/
def psTarget : Regex Char :=
  .seq boundary (.seq (anyOf [caseless "Set-Content", caseless "Add-Content", caseless "Out-File"])
    (.seq (plus (.one space))
      (.seq (opt (.seq (caseless "-Path") (plus (.one space)))) (quotedOrBare space))))

def bounded (text : String) : Regex Char := .seq boundary (.seq (caseless text) boundary)

/-- `_WRITE_INDICATORS`. -/
def writeIndicators : Regex Char :=
  .alt
    (.seq (.alt (.look fun a _ => a.isNone)
      (.one fun c => space c || [';', '|', '&', '('].contains c))
      (.group 1
        (anyOf [.seq (.one (· = '>')) (opt (.one (· = '>'))), bounded "tee", bounded "Set-Content",
        bounded "Add-Content", bounded "Out-File",
        .seq boundary
          (.seq (caseless "git") (.seq (plus (.one space)) (.seq (caseless "apply") boundary))),
        bounded "cp", bounded "mv", bounded "copy", bounded "move"])))
    (.seq (caseless "open(") (.seq (.star (.one (· ≠ ')'))) (.seq (oneOf "'\"")
      (.one fun c => ['w', 'a', 'x'].contains c.toLower))))

end Patterns

section Targets

/-- `match.group(1) or match.group(2) or match.group(3) or ""`. -/
def rawTarget (groups : List (Nat × List Char)) : List Char :=
  ((groups.lookup 1).or ((groups.lookup 2).or (groups.lookup 3))).getD []

def resolved (raw : String) : Option String :=
  if raw = "" ∨ raw ∈ ["/dev/null", "NUL", "nul", "&1", "&2"] then none
  else if raw.toList.any fun c => ['$', '%', '\x60', '*'].contains c then none
  else some raw

/-- What `(?<![<>0-9])` forbids. -/
def forbidden (s : Spot Char) : Bool := s.last.any fun c => c = '<' || c = '>' || c.isDigit

def targets (strip : String → String) (found : List (Hit Char (List (Nat × List Char)))) :
    List String :=
  found.filterMap fun h => resolved (strip (String.ofList (rawTarget h.found)))

end Targets

/-- `(?<![<>0-9])` before a pattern. -/
def lookbehind (r : Regex Char) : Regex Char :=
  .seq (.look fun a _ => !a.any fun c => c = '<' || c = '>' || c.isDigit) r

/-- What the three patterns of `enforcement.py` match. -/
def Enforcement.found (text : String) : List (Hit Char (List (Nat × List Char))) :=
  [lookbehind (redirectTarget pySpace), teeTarget pySpace, psTarget pySpace].flatMap
    fun pattern => hits (find pattern) 0 none text.toList

/-- `extract_write_targets` of `enforcement.py`. -/
def Enforcement.extractWriteTargets (command : Command) : List String × Bool :=
  if command.text = "" then ([], false)
  else
    ((targets pyStrip (Enforcement.found command.text)).eraseDups,
      (search (writeIndicators pySpace) none command.text.toList).isSome)

/-- `s.trim()`. -/
def Native.trimmed (s : String) : String := String.ofList (trim s.toList)

/-- What the patterns of `decision.rs` match, without the redirections it discards. -/
def Native.found (text : String) : List (Hit Char (List (Nat × List Char))) :=
  [(redirectTarget whitespace, true), (teeTarget whitespace, false),
    (psTarget whitespace, false)].flatMap fun (pattern, needsLookbehind) =>
      (hits (find pattern) 0 none text.toList).filter fun h =>
        !(needsLookbehind && forbidden h.place)

/-- `extract_write_targets` of `decision.rs`. -/
def Native.extractWriteTargets (command : Command) : List String × Bool :=
  if command.text = "" then ([], false)
  else
    ((targets trimmed (Native.found command.text)).foldl
        (fun targets raw => if raw ∈ targets then targets else targets ++ [raw]) [],
      (search (writeIndicators whitespace) none command.text.toList).isSome)

section Agreement

theorem foldl_push (found kept : List String) :
    found.foldl (fun targets raw => if raw ∈ targets then targets else targets ++ [raw])
      kept.eraseDups =
      (kept ++ found).eraseDups := by
  induction found generalizing kept with
  | nil => rw [List.append_nil]; rfl
  | cons raw found ih =>
    have next : (if raw ∈ kept.eraseDups then kept.eraseDups else kept.eraseDups ++ [raw]) =
        (kept ++ [raw]).eraseDups := by
      rw [List.eraseDups_append, List.cons_removeAll, List.nil_removeAll]
      by_cases old : raw ∈ kept
      · rw [if_pos (List.mem_eraseDups.mpr old), if_neg (by simpa using old), List.eraseDups_nil,
          List.append_nil]
      · rw [if_neg fun member => old (List.mem_eraseDups.mp member), if_pos (by simpa using old)]
        rfl
    rw [List.foldl_cons, next, ih, List.append_assoc]
    rfl

theorem find_lookbehind (r : Regex Char) : find (lookbehind r) = barred forbidden (find r) := by
  funext s
  rw [lookbehind, find_look, barred, barred]
  simp only [Bool.not_not]
  rfl

/-- The two readers' patterns do the same wherever one of them is tried, both trims take the same
from a target, and no redirection that the lookbehind forbids holds another it admits. -/
structure Command.Unmixed (command : Command) : Prop where
  redirects : ∀ s ∈ visits (barred forbidden (find (redirectTarget Native.whitespace))) 0 none
    command.text.toList, forbidden s = false →
      Alike (redirectTarget Native.whitespace) (redirectTarget pySpace) s
  tees : ∀ s ∈ visits (find (teeTarget Native.whitespace)) 0 none command.text.toList,
    Alike (teeTarget Native.whitespace) (teeTarget pySpace) s
  cmdlets : ∀ s ∈ visits (find (psTarget Native.whitespace)) 0 none command.text.toList,
    Alike (psTarget Native.whitespace) (psTarget pySpace) s
  indicators : ∀ s ∈ tries (writeIndicators Native.whitespace) none command.text.toList,
    Alike (writeIndicators Native.whitespace) (writeIndicators pySpace) s
  trims : ∀ h ∈ Native.found command.text, pyStrip (String.ofList (rawTarget h.found)) =
    Native.trimmed (String.ofList (rawTarget h.found))
  quiet : ∀ h ∈ hits (find (redirectTarget Native.whitespace)) 0 none command.text.toList,
    forbidden h.place = true →
      Quiet (barred forbidden (find (redirectTarget Native.whitespace))) h.size h.place

variable {command : Command}

theorem targets_congr {strip strip' : String → String}
    {found : List (Hit Char (List (Nat × List Char)))}
    (same : ∀ h ∈ found, strip (String.ofList (rawTarget h.found)) =
      strip' (String.ofList (rawTarget h.found))) :
    targets strip found = targets strip' found := by
  rw [targets, targets]
  apply List.filterMap_congr
  intro h member
  rw [same h member]

theorem redirects_eq (unmixed : command.Unmixed) :
    hits (find (lookbehind (redirectTarget pySpace))) 0 none command.text.toList =
      (hits (find (redirectTarget Native.whitespace)) 0 none command.text.toList).filter
        (!forbidden ·.place) := by
  rw [find_lookbehind, ← hits_barred unmixed.quiet]
  symm
  apply hits_congr
  intro s visited
  rw [barred, barred]
  by_cases refused : forbidden s = true
  · rw [if_pos refused, if_pos refused]
  · have alike := unmixed.redirects s visited (Bool.eq_false_iff.mpr refused)
    rw [if_neg refused, if_neg refused, alike.find_eq]

theorem matched_alike (unmixed : command.Unmixed) :
    Enforcement.found command.text = Native.found command.text := by
  have tees := hits_congr fun s visited => (unmixed.tees s visited).find_eq
  have cmdlets := hits_congr fun s visited => (unmixed.cmdlets s visited).find_eq
  simp only [Enforcement.found, Native.found, List.flatMap_cons, List.flatMap_nil,
    List.append_nil, Bool.true_and, Bool.false_and, Bool.not_false, List.filter_true,
    redirects_eq unmixed, tees, cmdlets]

/-- On such a command the two readers find the same targets in the same order, and the same flag. -/
theorem extractWriteTargets_eq (command : Command) (unmixed : command.Unmixed) :
    Enforcement.extractWriteTargets command = Native.extractWriteTargets command := by
  by_cases empty : command.text = ""
  · rw [Enforcement.extractWriteTargets, Native.extractWriteTargets, if_pos empty, if_pos empty]
  · have flag := search_congr fun s tried => (unmixed.indicators s tried).first_eq
    have pushed := foldl_push (targets Native.trimmed (Native.found command.text)) []
    rw [Enforcement.extractWriteTargets, Native.extractWriteTargets, if_neg empty, if_neg empty,
      flag, matched_alike unmixed, targets_congr unmixed.trims]
    exact congrArg (·, _) pushed.symm

def buildCommand : Command :=
  ⟨"> 'a b' cat x 2>e | tee y", List.all_iff_forall_prop.mp (by decide +kernel)⟩

theorem extractWriteTargets_eq_build :
    Enforcement.extractWriteTargets buildCommand = Native.extractWriteTargets buildCommand :=
  extractWriteTargets_eq buildCommand
    { redirects := by decide +kernel
      tees := by decide +kernel
      cmdlets := by decide +kernel
      indicators := by decide +kernel
      trims := by decide +kernel
      quiet := by decide +kernel }

/-- What a forbidden redirection quotes is lost to one reader. -/
theorem quoted_redirect_lost :
    ¬∀ command : Command, Enforcement.extractWriteTargets command =
      Native.extractWriteTargets command := by
  intro all
  have same := congrArg Prod.fst
    (all ⟨"2>\"a >b\"", List.all_iff_forall_prop.mp (by decide +kernel)⟩)
  revert same
  decide +kernel

end Agreement

end DreamStudio.Hooks
