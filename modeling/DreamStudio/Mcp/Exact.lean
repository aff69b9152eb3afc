import DreamStudio.Library.Except
import DreamStudio.Mcp.Auth

namespace DreamStudio.Mcp

open Library

/-- What the calls have handed out and not taken back: the root token, and for each client its token
and what it was added with. -/
structure Issued where
  root : Option String := none
  clients : Dict String (String × List String) := []

abbrev Returned := Except AuthError (Option String)

/-- A call that returned, in terms of what it handed out. -/
def Issued.after (i : Issued) : Call → Returned → Issued
  | .ensureToken _, .ok (some token) | .rotateToken _,
    .ok (some token) => { i with root := some token }
  | .addClient name capabilities _ _, .ok (some token) =>
    { i with clients := Dict.set i.clients name (token, sortedSet capabilities) }
  | .revokeClient name, .ok _ => { i with clients := erase i.clients name }
  | .rotateClient name _ _, .ok (some token) =>
    match Dict.get i.clients name with
    | some (_, capabilities) => { i with clients := Dict.set i.clients name (token, capabilities) }
    | none => i
  | _, _ => i

variable (sha : Sha256)

def Doc.perform (doc : Doc) (call : Call) : Doc × Returned :=
  match call.outcome sha doc with
  | .raises e => (doc, .error e)
  | .returns token => (doc, .ok (some token))
  | .writes doc' token => (doc', .ok token)

structure History where
  doc : Doc
  issued : Issued

def History.start (token : Option String) : History := ⟨{ token := token }, { root := token }⟩

def History.next (h : History) (call : Call) : History :=
  ⟨(h.doc.perform sha call).1, h.issued.after call (h.doc.perform sha call).2⟩

/-- Calls one after another, from a file that is not there or holds a token and no clients. -/
def History.after (token : Option String) (calls : List Call) : History :=
  calls.foldl (History.next sha) (.start token)

/-- The operator for the root token, a client for its own, with what it was added with, and nobody
for any other. No client is both chair and reviewer. -/
def Exact (i : Issued) (token : Option String) (answer : Except AuthError (Option Identity)) :
    Prop :=
  ∃ who, answer = .ok who ∧
    (who = some operator ↔ ∃ t, token = some t ∧ i.root = some t) ∧
    (∀ name capabilities, who = some ⟨name, some capabilities⟩ ↔
      ∃ t, token = some t ∧ Dict.get i.clients name = some (t, capabilities)) ∧
    ∀ id, who = some id → id = operator ∨
      ∃ capabilities, id.capabilities = some capabilities ∧
        ¬∀ cap ∈ mutuallyExclusive, cap ∈ capabilities

/-- There is a root token to compare with, and it or the presented token is not ASCII. -/
def Chokes (i : Issued) (token : Option String) : Prop :=
  ∃ t root, token = some t ∧ i.root = some root ∧ root ≠ "" ∧ ¬(isAscii t ∧ isAscii root)

variable {sha}

section Lookup

variable {ν : Type} {d : Dict String ν}

theorem get_erase (d : Dict String ν) (key k : String) :
    Dict.get (erase d key) k = if k = key then none else Dict.get d k := by
  induction d with
  | nil => simp [erase]
  | cons item d ih =>
    unfold erase at ih ⊢
    rw [List.filter_cons, Dict.get_cons]
    by_cases here : item.1 = key
    · rw [if_neg (by simpa using here), ih]
      by_cases same : k = key
      · rw [if_pos same, if_pos same]
      · rw [if_neg same, if_neg same, if_neg fun other => same (other.symm.trans here)]
    · rw [if_pos (by simpa using here), Dict.get_cons, ih]
      by_cases same : k = key
      · rw [if_neg fun other => here (other.trans same), if_pos same, if_pos same]
      · rw [if_neg same, if_neg same]

theorem keys_erase_nodup (nodup : (Dict.keys d).Nodup) (key : String) :
    (Dict.keys (erase d key)).Nodup :=
  nodup.sublist (List.filter_sublist.map _)

end Lookup

def ClientRecord.held (r : ClientRecord) : String × List String := (r.tokenHash, r.capabilities)

/-- The file holds what has been handed out, in hashes. Of what has been handed out every token is
one of `used`, and no token is handed out twice. -/
structure History.Sound (sha : Sha256) (used : List String) (h : History) : Prop where
  root : h.doc.token = h.issued.root
  clients : ∀ name, (Dict.get h.doc.clients name).map (·.held) =
    (Dict.get h.issued.clients name).map fun (token, capabilities) =>
      (sha.digest token, capabilities)
  keys : (Dict.keys h.doc.clients).Nodup
  rootUsed : ∀ t, h.issued.root = some t → t ∈ used
  clientUsed : ∀ name t capabilities, Dict.get h.issued.clients name = some (t, capabilities) →
    t ∈ used
  apart : ∀ name t capabilities, Dict.get h.issued.clients name = some (t, capabilities) →
    h.issued.root ≠ some t
  once : ∀ name other t capabilities capabilities', Dict.get h.issued.clients name =
    some (t, capabilities) →
    Dict.get h.issued.clients other = some (t, capabilities') → name = other
  separate : ∀ name t capabilities, Dict.get h.issued.clients name = some (t, capabilities) →
    ¬∀ cap ∈ mutuallyExclusive, cap ∈ capabilities

theorem sound_start (token : Option String) : (History.start token).Sound sha token.toList where
  root := rfl
  clients _ := rfl
  keys := List.nodup_nil
  rootUsed _ same := Option.mem_toList.mpr same
  clientUsed := nofun
  apart := nofun
  once := nofun
  separate := nofun

section Step

variable {used : List String} {h : History} {t : String}

theorem History.Sound.mono {used' : List String} (sound : h.Sound sha used) (sub : used ⊆ used') :
    h.Sound sha used' :=
  { sound with
    rootUsed := fun t same => sub (sound.rootUsed t same)
    clientUsed := fun name t capabilities held => sub (sound.clientUsed name t capabilities held) }

theorem History.Sound.setRoot (sound : h.Sound sha used) (fresh : t ∉ used) :
    History.Sound sha (used ++ [t])
      ⟨{ h.doc with token := some t }, { h.issued with root := some t }⟩ where
  root := rfl
  clients := sound.clients
  keys := sound.keys
  rootUsed _ same := List.mem_append_right _ (List.mem_singleton.mpr (Option.some.inj same).symm)
  clientUsed name s capabilities held :=
    List.mem_append_left _ (sound.clientUsed name s capabilities held)
  apart name s capabilities held same :=
    fresh ((Option.some.inj same) ▸ sound.clientUsed name s capabilities held)
  once := sound.once
  separate := sound.separate

theorem History.Sound.setClient (sound : h.Sound sha used) (fresh : t ∉ used) {name : String}
    {record : ClientRecord} {capabilities : List String}
    (held : record.held = (sha.digest t, capabilities))
    (separate : ¬∀ cap ∈ mutuallyExclusive, cap ∈ capabilities) :
    History.Sound sha (used ++ [t]) ⟨{ h.doc with clients := Dict.set h.doc.clients name record },
      { h.issued with clients := Dict.set h.issued.clients name (t, capabilities) }⟩ := by
  have cases_ : ∀ n s caps, Dict.get (Dict.set h.issued.clients name (t, capabilities)) n =
      some (s, caps) →
      (n = name ∧ s = t ∧ caps = capabilities) ∨ Dict.get h.issued.clients n = some (s, caps) := by
    intro n s caps found
    rw [Dict.get_set] at found
    split at found
    next here =>
      obtain ⟨rfl, rfl⟩ := Prod.mk.inj (Option.some.inj found)
      exact Or.inl ⟨here, rfl, rfl⟩
    next => exact Or.inr found
  refine ⟨sound.root, fun n => ?_, Dict.keys_set_nodup sound.keys name record,
    fun s same => ?_, ?_, ?_, ?_, ?_⟩
  · rw [Dict.get_set, Dict.get_set]
    split
    · exact congrArg some held
    · exact sound.clients n
  · exact List.mem_append_left _ (sound.rootUsed s same)
  · intro n s caps found
    rcases cases_ n s caps found with ⟨-, rfl, -⟩ | old
    · exact List.mem_append_right _ (List.mem_singleton.mpr rfl)
    · exact List.mem_append_left _ (sound.clientUsed n s caps old)
  · intro n s caps found same
    rcases cases_ n s caps found with ⟨-, rfl, -⟩ | old
    · exact fresh (sound.rootUsed s same)
    · exact sound.apart n s caps old same
  · intro n m s caps caps' found found'
    rcases cases_ n s caps found with ⟨rfl, rfl, -⟩ | old
    · rcases cases_ m s caps' found' with ⟨rfl, -, -⟩ | old'
      · rfl
      · exact absurd (sound.clientUsed m s caps' old') fresh
    · rcases cases_ m s caps' found' with ⟨-, rfl, -⟩ | old'
      · exact absurd (sound.clientUsed n s caps old) fresh
      · exact sound.once n m s caps caps' old old'
  · intro n s caps found
    rcases cases_ n s caps found with ⟨-, -, rfl⟩ | old
    · exact separate
    · exact sound.separate n s caps old

theorem History.Sound.erase (sound : h.Sound sha used) (name : String) :
    History.Sound sha used ⟨{ h.doc with clients := Mcp.erase h.doc.clients name },
      { h.issued with clients := Mcp.erase h.issued.clients name }⟩ := by
  have old : ∀ n s caps, Dict.get (Mcp.erase h.issued.clients name) n = some (s, caps) →
      Dict.get h.issued.clients n = some (s, caps) := by
    intro n s caps found
    rw [get_erase] at found
    split at found
    · cases found
    · exact found
  refine ⟨sound.root, fun n => ?_, keys_erase_nodup sound.keys name, sound.rootUsed,
    fun n s caps found => sound.clientUsed n s caps (old n s caps found),
    fun n s caps found => sound.apart n s caps (old n s caps found),
    fun n m s caps caps' found found' => sound.once n m s caps caps' (old n s caps found)
      (old m s caps' found'),
    fun n s caps found => sound.separate n s caps (old n s caps found)⟩
  rw [get_erase, get_erase]
  split
  · rfl
  · exact sound.clients n

theorem History.Sound.next (sound : h.Sound sha used) (call : Call)
    (fresh : ∀ t, call.fresh = some t → t ∉ used) :
    (h.next sha call).Sound sha (used ++ call.fresh.toList) := by
  unfold History.next Doc.perform
  cases call with
  | ensureToken t =>
    rcases ensureToken_cases t h.doc with ⟨existing, held, returns⟩ | writes
    · have same : h.issued = { h.issued with root := some existing } := by
        rw [← held, sound.root]
      simp only [Call.outcome, returns, Issued.after]
      rw [← same]
      exact sound.mono (List.subset_append_left _ _)
    · simp only [Call.outcome, writes]
      exact sound.setRoot (fresh t rfl)
  | rotateToken t => exact sound.setRoot (fresh t rfl)
  | addClient name capabilities t now =>
    rcases addClient_cases sha name capabilities t now
      h.doc with ⟨e, raises⟩ | ⟨caps, valid, -, writes⟩
    · simp only [Call.outcome, raises, Issued.after]
      exact sound.mono (List.subset_append_left _ _)
    · obtain ⟨rfl, separate⟩ := validateCapabilities_ok valid
      simp only [Call.outcome, writes, Issued.after]
      exact sound.setClient (fresh t rfl) rfl separate
  | revokeClient name =>
    rcases revokeClient_cases name h.doc with ⟨e, raises⟩ | ⟨-, writes⟩
    · simp only [Call.outcome, raises, Issued.after]
      exact sound.mono (List.subset_append_left _ _)
    · simp only [Call.outcome, writes, Issued.after]
      exact (sound.erase name).mono (List.subset_append_left _ _)
  | rotateClient name t now =>
    rcases rotateClient_cases sha name t now h.doc with ⟨e, raises⟩ | ⟨record, held, writes⟩
    · simp only [Call.outcome, raises, Issued.after]
      exact sound.mono (List.subset_append_left _ _)
    · have mirrored := sound.clients name
      rw [held] at mirrored
      obtain ⟨⟨s, capabilities⟩, issued, same⟩ := Option.map_eq_some_iff.mp mirrored.symm
      simp only [Call.outcome, writes, Issued.after, issued]
      apply sound.setClient (fresh t rfl)
      · exact congrArg (sha.digest t, ·) (congrArg Prod.snd same).symm
      · exact sound.separate name s capabilities issued

theorem sound_after (sha : Sha256) (token : Option String) (calls : List Call)
    (fresh : (token.toList ++ calls.filterMap Call.fresh).Nodup) :
    (History.after sha token calls).Sound sha (token.toList ++ calls.filterMap Call.fresh) := by
  induction calls using List.reverseRecOn with
  | nil => simpa [History.after] using sound_start token
  | append_singleton calls call ih =>
    have split : (calls ++ [call]).filterMap Call.fresh = calls.filterMap Call.fresh ++
        call.fresh.toList := by
      rw [List.filterMap_append]
      cases call <;> rfl
    rw [split, ← List.append_assoc] at fresh ⊢
    obtain ⟨before, -, apart⟩ := List.nodup_append.mp fresh
    have step := (ih before).next call fun t new used =>
      apart t used t (Option.mem_toList.mpr new) rfl
    simpa [History.after] using step

end Step

section Authenticate

variable {used : List String} {h : History}

theorem compareDigest_ascii {a b : String} (ha : isAscii a = true) (hb : isAscii b = true) :
    compareDigest a b = .ok (decide (a = b)) := by
  simp [compareDigest, ha, hb]

theorem matchClient_eq {hash : String} (ascii : isAscii hash = true)
    {clients : Dict String ClientRecord} (all : ∀ item ∈ clients, isAscii item.2.tokenHash = true) :
    matchClient hash clients = .ok ((clients.find? (hash = ·.2.tokenHash)).map fun item =>
      ⟨item.1, some item.2.capabilities⟩) := by
  induction clients with
  | nil => rfl
  | cons item clients ih =>
    obtain ⟨here, later⟩ := List.forall_mem_cons.mp all
    unfold matchClient
    rw [compareDigest_ascii ascii here, List.find?_cons]
    by_cases same : hash = item.2.tokenHash
    · simp [same, ok_bind]
    · simp only [same, decide_false]
      exact ih later

theorem ne_empty_of_presented {header : Option String} {t : String}
    (presents : presented header = some t) :
    t ≠ "" := by
  cases header with
  | none => cases presents
  | some text =>
    by_cases bearer : startsWith text "Bearer " = true
    · by_cases empty : pyStrip (removePrefix text "Bearer ") = ""
      · simp only [presented, if_pos bearer, if_pos empty, reduceCtorEq] at presents
      · simp only [presented, if_pos bearer, if_neg empty, Option.some.injEq] at presents
        exact presents ▸ empty
    · simp only [presented, if_neg bearer, reduceCtorEq] at presents

theorem matchRoot_eq (sound : h.Sound sha used) {t : String} (nonempty : t ≠ "")
    (calm : ¬Chokes h.issued (some t)) :
    matchRoot t h.doc = .ok (decide (h.issued.root = some t)) := by
  unfold matchRoot
  rw [sound.root]
  cases held : h.issued.root with
  | none => simp
  | some root =>
    by_cases empty : root = ""
    · subst empty
      simp [nonempty.symm]
    · have ascii : isAscii t = true ∧ isAscii root = true := by
        by_contra strange
        exact calm ⟨t, root, rfl, held, empty, strange⟩
      simp only [if_pos (show root ≠ "" from empty), compareDigest_ascii ascii.1 ascii.2,
        Option.some.injEq, eq_comm]

theorem matchRoot_error (sound : h.Sound sha used) {t : String}
    (chokes : Chokes h.issued (some t)) :
    matchRoot t h.doc = .error .notAscii := by
  obtain ⟨s, root, ⟨⟩, held, nonempty, strange⟩ := chokes
  unfold matchRoot compareDigest
  rw [sound.root, held]
  simp only [if_pos nonempty, Bool.and_eq_true]
  exact if_neg strange

theorem History.Sound.issued_of_hash (sound : h.Sound sha used) {name t : String}
    {record : ClientRecord} (member : (name, record) ∈ h.doc.clients)
    (hash : sha.digest t = record.tokenHash) :
    Dict.get h.issued.clients name = some (t, record.capabilities) := by
  have mirrored := sound.clients name
  rw [Dict.get_of_mem sound.keys member] at mirrored
  obtain ⟨⟨s, capabilities⟩, issued, same⟩ := Option.map_eq_some_iff.mp mirrored.symm
  obtain ⟨hash', caps⟩ := Prod.mk.inj same
  rw [issued, sha.injective (hash'.trans hash.symm), caps]

theorem History.Sound.hash_of_issued (sound : h.Sound sha used) {name t : String}
    {capabilities : List String}
    (issued : Dict.get h.issued.clients name = some (t, capabilities)) :
    ∃ record, (name, record) ∈ h.doc.clients ∧ sha.digest t = record.tokenHash := by
  have mirrored := sound.clients name
  rw [issued] at mirrored
  obtain ⟨record, held, same⟩ := Option.map_eq_some_iff.mp mirrored
  exact ⟨record, Dict.mem_of_get held, (congrArg Prod.fst same).symm⟩

theorem History.Sound.hash_ascii (sound : h.Sound sha used) :
    ∀ item ∈ h.doc.clients, isAscii item.2.tokenHash = true := by
  intro item member
  have mirrored := sound.clients item.1
  rw [Dict.get_of_mem sound.keys member] at mirrored
  obtain ⟨⟨s, capabilities⟩, -, same⟩ := Option.map_eq_some_iff.mp mirrored.symm
  rw [← show sha.digest s = item.2.tokenHash from congrArg Prod.fst same]
  exact sha.ascii s

theorem History.Sound.exact_iff (sound : h.Sound sha used) (header : Option String) :
    Exact h.issued (presented header) (authenticate sha h.doc header) ↔
      ¬Chokes h.issued (presented header) := by
  unfold authenticate
  cases presents : presented header with
  | none =>
    refine iff_of_true ⟨none, rfl, ?_, ?_, nofun⟩ ?_
    · simp
    · simp
    · rintro ⟨t, root, ⟨⟩, -⟩
  | some t =>
    by_cases chokes : Chokes h.issued (some t)
    · refine iff_of_false ?_ (not_not.mpr chokes)
      rintro ⟨who, answer, -⟩
      simp only [matchRoot_error sound chokes] at answer
      cases answer
    · refine iff_of_true ?_ chokes
      simp only [matchRoot_eq sound (ne_empty_of_presented presents) chokes, ok_bind]
      by_cases root : h.issued.root = some t
      · refine ⟨some operator, by simp [root], by simp [root], ?_, ?_⟩
        · intro name capabilities
          refine iff_of_false nofun ?_
          rintro ⟨s, ⟨⟩, issued⟩
          exact sound.apart name t capabilities issued root
        · rintro id ⟨⟩
          exact Or.inl rfl
      · have client := matchClient_eq (sha.ascii t) sound.hash_ascii
        cases found : h.doc.clients.find? (sha.digest t = ·.2.tokenHash) with
        | none =>
          rw [found] at client
          refine ⟨none, by simpa [root] using client, by simp [root], ?_, nofun⟩
          intro name capabilities
          refine iff_of_false nofun ?_
          rintro ⟨s, ⟨⟩, issued⟩
          obtain ⟨record, member, hash⟩ := sound.hash_of_issued issued
          exact List.find?_eq_none.mp found _ member (by simpa using hash)
        | some item =>
          rw [found] at client
          have hash : sha.digest t = item.2.tokenHash := by simpa using List.find?_some found
          have issued := sound.issued_of_hash (List.mem_of_find?_eq_some found) hash
          refine ⟨some ⟨item.1, some item.2.capabilities⟩, by simpa [root] using client, ?_, ?_, ?_⟩
          · simp [root, operator]
          · intro name capabilities
            constructor
            · rintro ⟨⟩
              exact ⟨t, rfl, issued⟩
            · rintro ⟨s, ⟨⟩, other⟩
              obtain rfl := sound.once _ _ _ _ _ issued other
              rw [other] at issued
              rw [(Prod.mk.inj (Option.some.inj issued)).2]
          · rintro id ⟨⟩
            exact Or.inr ⟨_, rfl, sound.separate _ _ _ issued⟩

end Authenticate

/-- After any calls the file answers exactly for what they handed out, unless it has to compare a
token that is not ASCII. -/
theorem authenticate_exact_iff (sha : Sha256) (token : Option String) (calls : List Call)
    (fresh : (token.toList ++ calls.filterMap Call.fresh).Nodup) (header : Option String) :
    Exact (History.after sha token calls).issued (presented header)
        (authenticate sha (History.after sha token calls).doc header) ↔
      ¬Chokes (History.after sha token calls).issued (presented header) :=
  (sound_after sha token calls fresh).exact_iff header

section Unary

def unaryCode (c : Char) : List Char := List.replicate c.toNat '0' ++ ['1']

theorem unaryCode_append {n m : Nat} {rest rest' : List Char}
    (same : List.replicate n '0' ++ '1' :: rest = List.replicate m '0' ++ '1' :: rest') :
    n = m ∧ rest = rest' := by
  induction n generalizing m with
  | zero =>
    cases m with
    | zero => exact ⟨rfl, (List.cons.inj same).2⟩
    | succ m => exact absurd (List.cons.inj same).1 (by decide)
  | succ n ih =>
    cases m with
    | zero => exact absurd (List.cons.inj same).1 (by decide)
    | succ m =>
      obtain ⟨rfl, rest⟩ := ih (List.cons.inj same).2
      exact ⟨rfl, rest⟩

theorem unaryCodes_injective {cs ds : List Char}
    (same : cs.flatMap unaryCode = ds.flatMap unaryCode) : cs = ds := by
  induction cs generalizing ds with
  | nil =>
    cases ds with
    | nil => rfl
    | cons d ds => simp [unaryCode] at same
  | cons c cs ih =>
    cases ds with
    | nil => simp [unaryCode] at same
    | cons d ds =>
      simp only [List.flatMap_cons, unaryCode, List.append_assoc, List.singleton_append] at same
      obtain ⟨code, rest⟩ := unaryCode_append same
      rw [Char.toNat_inj.mp code, ih rest]

def unary : Sha256 where
  digest s := String.ofList (s.toList.flatMap unaryCode)
  injective a b same := String.toList_inj.mp (unaryCodes_injective (String.ofList_injective same))
  ascii s := by
    simp only [isAscii, String.toList_ofList, List.all_eq_true, List.mem_flatMap, unaryCode,
      List.mem_append,
      List.mem_replicate, List.mem_singleton]
    rintro c ⟨d, -, ⟨-, rfl⟩ | rfl⟩ <;> decide

end Unary

def leasedCalls : List Call :=
  [.addClient "lane" ["review:record"] "u" "2026-09-24", .rotateToken "v"]

theorem authenticate_exact_leased :
    Exact (History.after unary (some "t") leasedCalls).issued (presented (some "Bearer u"))
        (authenticate unary (History.after unary (some "t") leasedCalls).doc (some "Bearer u")) ↔
      ¬Chokes (History.after unary (some "t") leasedCalls).issued (presented (some "Bearer u")) :=
  authenticate_exact_iff unary (some "t") leasedCalls (by decide) (some "Bearer u")

/-- A header that is not ASCII makes it raise. -/
theorem authenticate_raises :
    ¬∀ (sha : Sha256) (token : Option String) (calls : List Call),
      (token.toList ++ calls.filterMap Call.fresh).Nodup → ∀ header : Option String,
        Exact (History.after sha token calls).issued (presented header)
          (authenticate sha (History.after sha token calls).doc header) := by
  intro exact_
  have calm :=
    ((sound_after unary none [.ensureToken "r"] (by decide)).exact_iff (some "Bearer é")).mp
    (exact_ unary none [.ensureToken "r"] (by decide) _)
  exact calm ⟨"é", "r", by decide +kernel, rfl, by decide, by decide +kernel⟩

end DreamStudio.Mcp
