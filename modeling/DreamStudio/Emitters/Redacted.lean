import DreamStudio.Emitters.Redactor
import DreamStudio.Library.JsonEq

namespace DreamStudio.Emitters

open Library

section Protected

/-- `NAME=value`, as a shell takes it in front of a program. -/
def assignment (word : String) : Bool :=
  match word.toList with
  | [] => false
  | c :: cs => (c.isAlpha || c = '_') &&
    (cs.dropWhile fun d => d.isAlphanum || d = '_').head? = some '='

def leading (command : String) : List String := (words command).takeWhile assignment

def program (command : String) : Option String := ((words command).dropWhile assignment).head?

structure SameCommand (c c' : String) : Prop where
  count : (words c).length = (words c').length
  place : (leading c).length = (leading c').length
  program : program c = program c'

def hostPort (netloc : String) : String :=
  String.ofList (netloc.toList.reverse.takeWhile (· ≠ '@')).reverse

def userInfo (netloc : String) : String :=
  String.ofList (netloc.toList.reverse.dropWhile (· ≠ '@')).reverse

variable (py : Python)

def isUrl (text : String) : Bool := (py.urlparse text).any (·.1 ≠ "")

inductive SameAddress (u u' : String) : Prop
  | url {netloc path netloc' path' : String} (parsed : py.urlparse u = some (netloc, path))
      (parsed' : py.urlparse u' = some (netloc', path')) (located : netloc ≠ "")
      (located' : netloc' ≠ "") (host : hostPort netloc = hostPort netloc')
  | query (plain : isUrl py u = false) (plain' : isUrl py u' = false)

inductive SameOutput : Json → Json → Prop
  | same (v : Json) : SameOutput v v
  | text {s s' : String} (bytes : s.utf8ByteSize = s'.utf8ByteSize)
    (lines : newlines s = newlines s') :
      SameOutput (.str s) (.str s')
  | obj {fields fields' : Fields}
    (bytes : (py.dumps (.obj fields)).utf8ByteSize = (py.dumps (.obj fields')).utf8ByteSize) :
      SameOutput (.obj fields) (.obj fields')
  | arr {xs xs' : List Json}
    (bytes : (py.dumps (.arr xs)).utf8ByteSize = (py.dumps (.arr xs')).utf8ByteSize) :
      SameOutput (.arr xs) (.arr xs')

inductive SameInput (name : Json) : Json → Json → Prop
  | same (v : Json) : SameInput name v v
  | bash {tool : String} {fields fields' : Fields} (named : name = .str tool)
    (kind : toolKind py tool = .bash)
    (others : ∀ key, key ≠ "command" → Json.lookup fields key = Json.lookup fields' key)
    (command : SameCommand (commandOf py fields) (commandOf py fields')) :
    SameInput name (.obj fields) (.obj fields')
  | web {tool : String} {fields fields' : Fields} (named : name = .str tool)
    (kind : toolKind py tool = .web)
    (others : ∀ key, key ∉ ["url", "query"] → Json.lookup fields key = Json.lookup fields' key)
    (address : SameAddress py (addressOf py fields) (addressOf py fields')) :
    SameInput name (.obj fields) (.obj fields')

/-- Payloads that differ in protected text only. -/
structure Alike (p p' : Fields) : Prop where
  name : toolName p = toolName p'
  error : isError p = isError p'
  output : SameOutput py (toolResponse p) (toolResponse p')
  input : SameInput py (toolName p) (toolInput p) (toolInput p')

/-- What of a text is left over beside host and port: the user info of a URL, the first segment of
another text. -/
def exposed (text : String) : String :=
  match py.urlparse text with
  | some (netloc, path) => if netloc ≠ "" then userInfo netloc else if path ≠ "" then firstSegment
    path else "unknown"
  | none => "unknown"

/-- What the summaries keep of the protected text is the same in both. -/
structure Unexposed (p p' : Fields) : Prop where
  bash : ∀ tool fields fields', toolName p = .str tool → toolKind py tool = .bash →
    toolInput p = .obj fields →
    toolInput p' = .obj fields' →
      (leading (commandOf py fields)).head? = (leading (commandOf py fields')).head?
  web : ∀ tool fields fields', toolName p = .str tool → toolKind py tool = .web →
    toolInput p = .obj fields →
    toolInput p' = .obj fields' →
      exposed py (addressOf py fields) = exposed py (addressOf py fields')

end Protected

section Output

variable {py : Python}

theorem empty_iff (s : String) : s = "" ↔ s.utf8ByteSize = 0 := String.utf8ByteSize_eq_zero_iff.symm

theorem redactToolOutput_eq {v v' : Json} (same : SameOutput py v v') (isError : Bool) :
    redactToolOutput py v isError = redactToolOutput py v' isError := by
  cases same with
  | same => rfl
  | text bytes lines =>
    cases isError with
    | true => rfl
    | false => simp only [redactToolOutput, empty_iff, bytes, lines, Bool.false_eq_true, ↓reduceIte]
  | obj bytes =>
    cases isError with
    | true => rfl
    | false => simp only [redactToolOutput, bytes, Bool.false_eq_true, ↓reduceIte]
  | arr bytes =>
    cases isError with
    | true => rfl
    | false => simp only [redactToolOutput, bytes, Bool.false_eq_true, ↓reduceIte]

end Output

section Input

variable {py : Python}

theorem head_words (command : String) :
    (words command).head? = (leading command).head?.or (program command) := by
  have split : leading command ++ (words command).dropWhile assignment = words command :=
    List.takeWhile_append_dropWhile
  rw [program, ← List.head?_append, split]

theorem redactBashCommand_eq_iff {c c' : String} (same : SameCommand c c') :
    redactBashCommand c = redactBashCommand c' ↔ (leading c).head? = (leading c').head? := by
  have binary : redactBashCommand c = redactBashCommand c' ↔
      (words c).head?.getD "" = (words c').head?.getD "" := by
    simp only [redactBashCommand, same.count, List.cons.injEq, Prod.mk.injEq, Json.str.injEq,
      true_and, and_true]
  have named : (words c).head?.getD "" = (words c').head?.getD "" ↔
      (words c).head? = (words c').head? := by
    have count := same.count
    cases here : words c with
    | nil =>
      rw [here] at count
      rw [List.eq_nil_of_length_eq_zero count.symm]
      exact iff_of_true rfl rfl
    | cons w ws =>
      cases there : words c' with
      | nil =>
        rw [here, there] at count
        cases count
      | cons w' ws' => exact Option.some_inj.symm
  rw [binary, named, head_words, head_words, same.program]
  have place := same.place
  cases here : leading c with
  | nil =>
    rw [here] at place
    rw [List.eq_nil_of_length_eq_zero place.symm]
    exact iff_of_true rfl rfl
  | cons a as =>
    cases there : leading c' with
    | nil =>
      rw [here, there] at place
      cases place
    | cons a' as' => rfl

theorem userInfo_append_hostPort (netloc : String) :
    userInfo netloc ++ hostPort netloc = netloc := by
  rw [userInfo, hostPort, ← String.ofList_append, ← List.reverse_append,
    List.takeWhile_append_dropWhile,
    List.reverse_reverse, String.ofList_toList]

theorem redactUrl_of_query {u : String} (plain : isUrl py u = false) :
    redactUrl py u = [("domain", .str (exposed py u)), ("path_retained", .bool false)] := by
  rw [redactUrl, exposed]
  rw [isUrl] at plain
  cases parsed : py.urlparse u with
  | none => rfl
  | some parts =>
    rw [parsed, Option.any_some] at plain
    have nowhere : ¬parts.1 ≠ "" := of_decide_eq_false plain
    simp only [if_neg nowhere]

theorem redactUrl_eq_iff {u u' : String} (same : SameAddress py u u') :
    redactUrl py u = redactUrl py u' ↔ exposed py u = exposed py u' := by
  cases same with
  | @url netloc path netloc' path' parsed parsed' located located' host =>
    have split := userInfo_append_hostPort netloc
    have split' := userInfo_append_hostPort netloc'
    simp only [redactUrl, exposed, parsed, parsed', if_pos located, if_pos located',
      List.cons.injEq, Prod.mk.injEq,
      Json.str.injEq, true_and, and_true]
    exact ⟨congrArg userInfo, fun same => by rw [← split, ← split', same, host]⟩
  | query plain plain' =>
    rw [redactUrl_of_query plain, redactUrl_of_query plain']
    simp only [List.cons.injEq, Prod.mk.injEq, Json.str.injEq, true_and, and_true]

end Input

section Summaries

/-- Two payloads that differ in protected text only have the same summaries exactly where nothing of
that text stands where the summaries keep it. -/
theorem summaries_eq_iff (py : Python) (p p' : Fields) (alike : Alike py p p') :
    summaries py p = summaries py p' ↔ Unexposed py p p' := by
  have output := redactToolOutput_eq alike.output (isError p)
  have same : summaries py p = summaries py p' ↔
      redactToolInput py (toolName p) (toolInput p) =
        redactToolInput py (toolName p) (toolInput p') := by
    rw [summaries, summaries, ← alike.name, ← alike.error, output]
    exact (Option.map_injective fun a b both => (Prod.mk.inj both).1).eq_iff
  rw [same]
  have input := alike.input
  generalize here : toolInput p = v, there : toolInput p' = v' at input
  cases input with
  | same =>
    refine ⟨fun _ => ⟨?_, ?_⟩, fun _ => rfl⟩
    · intro tool fields fields' _ _ first second
      rw [Json.obj.inj (first.symm.trans (here.trans (there.symm.trans second)))]
    · intro tool fields fields' _ _ first second
      rw [Json.obj.inj (first.symm.trans (here.trans (there.symm.trans second)))]
  | @bash tool fields fields' named kind others command =>
    simp only [redactToolInput, named, kind, Option.some.injEq]
    rw [redactBashCommand_eq_iff command]
    constructor
    · intro first
      refine ⟨?_, ?_⟩
      · intro tool' f f' named' _ one two
        obtain rfl := Json.obj.inj (here.symm.trans one)
        obtain rfl := Json.obj.inj (there.symm.trans two)
        exact first
      · intro tool' f f' named' kind' _ _
        obtain rfl := Json.str.inj (named.symm.trans named')
        cases kind.symm.trans kind'
    · exact fun unexposed => unexposed.bash tool fields fields' named kind here there
  | @web tool fields fields' named kind others address =>
    simp only [redactToolInput, named, kind, Option.some.injEq]
    rw [redactUrl_eq_iff address]
    constructor
    · intro first
      refine ⟨?_, ?_⟩
      · intro tool' f f' named' kind' _ _
        obtain rfl := Json.str.inj (named.symm.trans named')
        cases kind.symm.trans kind'
      · intro tool' f f' named' _ one two
        obtain rfl := Json.obj.inj (here.symm.trans one)
        obtain rfl := Json.obj.inj (there.symm.trans two)
        exact first
    · exact fun unexposed => unexposed.web tool fields fields' named kind here there

def plainPython : Python where
  lower := pyLower
  repr _ := ""
  dumps _ := ""
  urlparse text := some ("", text)

def bashPayload (command : String) : Fields :=
  [("tool_name", .str "Bash"), ("tool_input", .obj [("command", .str command)]),
    ("tool_response", .str "ok")]

theorem bashPayload_alike {c c' : String} (same : SameCommand c c') :
    Alike plainPython (bashPayload c) (bashPayload c') where
  name := rfl
  error := rfl
  output := .same _
  input := .bash rfl (by decide +kernel) (fun key other => by simp [Json.lookup, other.symm]) same

theorem summaries_eq_iff_commit :
    summaries plainPython (bashPayload "git commit -m secret") =
      summaries plainPython (bashPayload "git push -f origin") ↔
      Unexposed plainPython (bashPayload "git commit -m secret")
        (bashPayload "git push -f origin") :=
  summaries_eq_iff plainPython _ _
    (bashPayload_alike ⟨by decide +kernel, by decide +kernel, by decide +kernel⟩)

/-- An assignment in front of the program is kept as the binary. -/
theorem assignment_exposed :
    ¬∀ (py : Python) (p p' : Fields), Alike py p p' → summaries py p = summaries py p' := by
  intro all
  have same := all plainPython _ _ (@bashPayload_alike "TOKEN=s3cret make" "TOKEN=x make"
    ⟨by decide +kernel, by decide +kernel, by decide +kernel⟩)
  revert same
  decide +kernel

end Summaries

end DreamStudio.Emitters
