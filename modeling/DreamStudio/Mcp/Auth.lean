import DreamStudio.Library.Dict
import DreamStudio.Library.Json
import Mathlib.Data.List.Dedup
import Mathlib.Data.List.Sort

namespace DreamStudio.Mcp

open Library

/-- `KNOWN_CAPABILITIES`. -/
def knownCapabilities : List String :=
  ["work_order:start", "work_order:task_mutate", "work_order:close", "work_order:create",
    "work_order:advance",
    "work_order:add_task", "milestone:create", "project:create", "review:dispatch", "review:run",
      "review:record"]

/-- `_MUTUALLY_EXCLUSIVE`. -/
def mutuallyExclusive : List String := ["review:dispatch", "review:record"]

structure ClientRecord where
  tokenHash : String
  capabilities : List String
  createdAt : String
  rotatedAt : Option String := none
  deriving DecidableEq

/-- The token file, as `_read_doc` returns it. -/
structure Doc where
  token : Option String := none
  clients : Dict String ClientRecord := []
  deriving DecidableEq

/-- `_read_doc`. A read that fails counts as a file that holds nothing. -/
def Doc.read (doc : Doc) (fails : Bool) : Doc := if fails then {} else doc

/-- `str.isascii`. -/
def isAscii (s : String) : Bool := s.toList.all (·.val < 128)

/-- `sha256(token.encode("utf-8")).hexdigest()`. -/
structure Sha256 where
  digest : String → String
  injective : digest.Injective
  ascii : ∀ s, isAscii (digest s) = true

inductive AuthError
  | emptyName
  | unknownCapabilities (unknown : List String)
  | bothRounds
  | alreadyExists (name : String)
  | noSuchClient (name : String)
  | notAscii
  deriving DecidableEq

def sortedSet (capabilities : List String) : List String := capabilities.dedup.insertionSort (· ≤ ·)

/-- `_validate_capabilities`. -/
def validateCapabilities (capabilities : List String) : Except AuthError (List String) :=
  let unknown := capabilities.filter (· ∉ knownCapabilities)
  if unknown ≠ [] then .error (.unknownCapabilities (sortedSet unknown))
  else if ∀ cap ∈ mutuallyExclusive, cap ∈ capabilities then .error .bothRounds
  else .ok (sortedSet capabilities)

/-- The calls that change the file, each with the token `secrets` gives it and the time it asks
for. -/
inductive Call
  | ensureToken (fresh : String)
  | rotateToken (fresh : String)
  | addClient (name : String) (capabilities : List String) (fresh now : String)
  | revokeClient (name : String)
  | rotateClient (name fresh now : String)
  deriving DecidableEq

inductive Outcome
  | raises (error : AuthError)
  | returns (token : String)
  | writes (doc : Doc) (token : Option String)

def ensureToken (fresh : String) (doc : Doc) : Outcome :=
  match doc.token with
  | some existing => if existing ≠ "" then .returns existing else .writes
    { doc with token := some fresh } (some fresh)
  | none => .writes { doc with token := some fresh } (some fresh)

def rotateToken (fresh : String) (doc : Doc) : Outcome :=
  .writes { doc with token := some fresh } (some fresh)

/-- `del d[key]`. -/
def erase {ν : Type} (d : Dict String ν) (key : String) : Dict String ν := d.filter (·.1 ≠ key)

section Clients

variable (sha : Sha256)

/-- `add_client`. Its name and its capabilities are checked before it reads. -/
def addClient (name : String) (capabilities : List String) (fresh now : String) (doc : Doc) :
    Outcome :=
  if pyStrip name = "" then .raises .emptyName
  else
    match validateCapabilities capabilities with
    | .error e => .raises e
    | .ok caps =>
      if name ∈ Dict.keys doc.clients then .raises (.alreadyExists name)
      else
        .writes { doc with clients := Dict.set doc.clients name ⟨sha.digest fresh, caps, now, none⟩ }
          (some fresh)

def revokeClient (name : String) (doc : Doc) : Outcome :=
  if name ∉ Dict.keys doc.clients then .raises (.noSuchClient name)
  else .writes { doc with clients := erase doc.clients name } none

def rotateClient (name fresh now : String) (doc : Doc) : Outcome :=
  match Dict.get doc.clients name with
  | none => .raises (.noSuchClient name)
  | some record =>
    .writes { doc with
      clients := Dict.set doc.clients name
        { record with tokenHash := sha.digest fresh, rotatedAt := some now } }
      (some fresh)

def Call.outcome : Call → Doc → Outcome
  | .ensureToken fresh => Mcp.ensureToken fresh
  | .rotateToken fresh => Mcp.rotateToken fresh
  | .addClient name capabilities fresh now => Mcp.addClient sha name capabilities fresh now
  | .revokeClient name => Mcp.revokeClient name
  | .rotateClient name fresh now => Mcp.rotateClient sha name fresh now

def Call.fresh : Call → Option String
  | .ensureToken fresh | .rotateToken fresh | .addClient _ _ fresh _ | .rotateClient _ fresh
    _ => some fresh
  | .revokeClient _ => none

structure Identity where
  name : String
  capabilities : Option (List String)
  deriving DecidableEq

def operator : Identity := ⟨"operator", none⟩

/-- `secrets.compare_digest` on two strings. -/
def compareDigest (a b : String) : Except AuthError Bool :=
  if isAscii a && isAscii b then .ok (a = b) else .error .notAscii

/-- The token a header presents: stripped, and not empty. -/
def presented : Option String → Option String
  | none => none
  | some header =>
    if startsWith header "Bearer " then
      let token := pyStrip (removePrefix header "Bearer ")
      if token = "" then none else some token
    else none

def matchRoot (presented : String) (doc : Doc) : Except AuthError Bool :=
  match doc.token with
  | some root => if root ≠ "" then compareDigest presented root else .ok false
  | none => .ok false

def matchClient (presentedHash : String) :
    Dict String ClientRecord → Except AuthError (Option Identity)
  | [] => .ok none
  | (name, record) :: rest => do
    if ← compareDigest presentedHash record.tokenHash then .ok (some ⟨name, some record.capabilities⟩)
    else matchClient presentedHash rest

/-- `authenticate`. -/
def authenticate (doc : Doc) (header : Option String) : Except AuthError (Option Identity) :=
  match presented header with
  | none => .ok none
  | some token => do
    if ← matchRoot token doc then .ok (some operator) else matchClient (sha.digest token) doc.clients

end Clients

section Cases

theorem ensureToken_cases (fresh : String) (doc : Doc) :
    (∃ existing, doc.token = some existing ∧ ensureToken fresh doc = .returns existing) ∨
      ensureToken fresh doc = .writes { doc with token := some fresh } (some fresh) := by
  unfold ensureToken
  cases doc.token with
  | none => exact Or.inr rfl
  | some existing =>
    by_cases empty : existing ≠ ""
    · exact Or.inl ⟨existing, rfl, if_pos empty⟩
    · exact Or.inr (if_neg empty)

variable (sha : Sha256)

theorem addClient_cases (name : String) (capabilities : List String)
    (fresh now : String) (doc : Doc) :
    (∃ e, addClient sha name capabilities fresh now doc = .raises e) ∨
      ∃ caps, validateCapabilities capabilities = .ok caps ∧ name ∉ Dict.keys doc.clients ∧
        addClient sha name capabilities fresh now doc =
          .writes { doc with clients := Dict.set doc.clients name ⟨sha.digest fresh, caps, now, none⟩ }
            (some fresh) := by
  unfold addClient
  by_cases empty : pyStrip name = ""
  · exact Or.inl ⟨_, if_pos empty⟩
  rw [if_neg empty]
  cases validateCapabilities capabilities with
  | error e => exact Or.inl ⟨e, rfl⟩
  | ok caps =>
    by_cases held : name ∈ Dict.keys doc.clients
    · exact Or.inl ⟨_, if_pos held⟩
    · exact Or.inr ⟨caps, rfl, held, if_neg held⟩

theorem revokeClient_cases (name : String) (doc : Doc) :
    (∃ e, revokeClient name doc = .raises e) ∨ name ∈ Dict.keys doc.clients ∧
      revokeClient name doc = .writes { doc with clients := erase doc.clients name } none := by
  unfold revokeClient
  by_cases held : name ∈ Dict.keys doc.clients
  · exact Or.inr ⟨held, if_neg (not_not.mpr held)⟩
  · exact Or.inl ⟨_, if_pos held⟩

theorem rotateClient_cases (name fresh now : String) (doc : Doc) :
    (∃ e, rotateClient sha name fresh now doc = .raises e) ∨
      ∃ record, Dict.get doc.clients name = some record ∧
        rotateClient sha name fresh now doc = .writes { doc with
          clients := Dict.set doc.clients name
            { record with tokenHash := sha.digest fresh, rotatedAt := some now } }
          (some fresh) := by
  unfold rotateClient
  cases Dict.get doc.clients name with
  | none => exact Or.inl ⟨_, rfl⟩
  | some record => exact Or.inr ⟨record, rfl, rfl⟩

theorem validateCapabilities_ok {capabilities caps : List String}
    (valid : validateCapabilities capabilities = .ok caps) :
    caps = sortedSet capabilities ∧ ¬∀ cap ∈ mutuallyExclusive, cap ∈ caps := by
  unfold validateCapabilities at valid
  by_cases known : capabilities.filter (· ∉ knownCapabilities) ≠ []
  · simp only [if_pos known] at valid
    cases valid
  by_cases both : ∀ cap ∈ mutuallyExclusive, cap ∈ capabilities
  · simp only [if_neg known, if_pos both] at valid
    cases valid
  simp only [if_neg known, if_neg both] at valid
  cases valid
  refine ⟨rfl, fun all => both fun cap hcap => ?_⟩
  have mem := all cap hcap
  rwa [sortedSet, List.mem_insertionSort, List.mem_dedup] at mem

end Cases

end DreamStudio.Mcp
