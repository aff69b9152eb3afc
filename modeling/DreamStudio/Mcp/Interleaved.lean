import DreamStudio.Library.Except
import DreamStudio.Library.Machine
import DreamStudio.Mcp.Exact
import Mathlib.Data.List.Perm.Basic

namespace DreamStudio.Mcp

open Library

structure Pending where
  call : Call
  copy : Doc
  deriving DecidableEq

/-- The file, the calls that are yet to write and those that have written. A call that has
written has returned: `replaced` are the hashes of what such calls replaced, `added` the clients
they added. -/
structure Server where
  doc : Doc := {}
  pending : List Pending := []
  done : List Call := []
  replaced : List String := []
  added : List String := []
  revoked : List String := []
  deriving DecidableEq

inductive Access
  | read (call : Call) (fails : Bool)
  | write (i : Nat)
  deriving DecidableEq

def Call.client : Call → Option String
  | .ensureToken _ | .rotateToken _ => none
  | .addClient name _ _ _ | .revokeClient name | .rotateClient name _ _ => some name

def Call.adds : Call → Option String
  | .addClient name _ _ _ => some name
  | _ => none

def Call.revokes : Call → Option String
  | .revokeClient name => some name
  | _ => none

def Server.generated (s : Server) : List String :=
  (s.done ++ s.pending.map (·.call)).filterMap Call.fresh

section Machine

variable (sha : Sha256)

def Call.replaces (call : Call) (doc : Doc) : List String :=
  match call with
  | .rotateToken _ => doc.token.toList.map sha.digest
  | .revokeClient name | .rotateClient name _ _ =>
    (Dict.get doc.clients name).toList.map (·.tokenHash)
  | .ensureToken _ | .addClient _ _ _ _ => []

/-- Any number of calls, the read and the write of each a step. A token is not generated twice. -/
def server : Machine Server Access where
  step s
    | .read call fails =>
      if call.fresh.any (· ∈ s.generated) then none
      else
        let s := { s with revoked := s.revoked ++ call.revokes.toList }
        match call.outcome sha (s.doc.read fails) with
        | .writes _ _ => some { s with pending := s.pending ++ [⟨call, s.doc.read fails⟩] }
        | _ => some s
    | .write i =>
      match s.pending[i]? with
      | none => none
      | some p =>
        match p.call.outcome sha p.copy with
        | .writes doc _ => some {
            doc := doc
            pending := s.pending.eraseIdx i
            done := s.done ++ [p.call]
            replaced := s.replaced ++ (p.call.replaces sha p.copy ++ p.call.replaces sha s.doc)
            added := s.added ++ p.call.adds.toList
            revoked := s.revoked }
        | _ => none

/-- A file that is not there, or that holds a token and no clients. -/
def Server.start (token : Option String) : Server where
  doc := { token := token }
  done := token.toList.map .rotateToken

/-- What was replaced is not accepted, whether the read for it fails or not, and a client that was
added and that no call has revoked is there. -/
structure Server.Upheld (s : Server) : Prop where
  replaced : ∀ header t, presented header = some t → sha.digest t ∈ s.replaced →
    ∀ fails who, authenticate sha (s.doc.read fails) header ≠ .ok (some who)
  kept : ∀ name ∈ s.added, name ∉ s.revoked → name ∈ Dict.keys s.doc.clients

/-- A copy that, but for what the call is about, has the document's token, every client of it and no
credential that it does not have. -/
structure Current (call : Call) (copy doc : Doc) : Prop where
  token : call.client = none ∨ copy.token = doc.token
  keeps : ∀ name ∈ Dict.keys doc.clients, call.client = some name ∨ name ∈ Dict.keys copy.clients
  brings : ∀ item ∈ copy.clients, call.client = some item.1 ∨
    ∃ other ∈ doc.clients, other.1 = item.1 ∧ other.2.tokenHash = item.2.tokenHash

/-- A write is made from a copy that is current. -/
def Server.Writes (s : Server) : Access → Prop
  | .read _ _ => True
  | .write i => ∀ p ∈ s.pending[i]?, Current p.call p.copy s.doc

instance (call : Call) (copy doc : Doc) : Decidable (Current call copy doc) :=
  decidable_of_iff (_ ∧ _ ∧ _) ⟨fun ⟨token, keeps, brings⟩ => ⟨token, keeps, brings⟩,
    fun ⟨token, keeps, brings⟩ => ⟨token, keeps, brings⟩⟩

instance (s : Server) : (l : Access) → Decidable (s.Writes l)
  | .read _ _ => inferInstanceAs (Decidable True)
  | .write _ => inferInstanceAs (Decidable (∀ p ∈ _, _))

end Machine

variable {sha : Sha256}

theorem Call.writes_cases {call : Call} {copy doc : Doc} {token : Option String}
    (writes : call.outcome sha copy = .writes doc token) :
    (∃ t, call.client = none ∧ call.fresh = some t ∧ doc = { copy with token := some t }) ∨
      (∃ name, call = .revokeClient name ∧ doc = { copy with clients := erase copy.clients name }) ∨
      ∃ name t record, call.client = some name ∧ call.revokes = none ∧ call.fresh = some t ∧
        record.tokenHash = sha.digest t ∧ (call.adds = none → name ∈ Dict.keys copy.clients) ∧
        doc = { copy with clients := Dict.set copy.clients name record } := by
  cases call with
  | ensureToken t =>
    rcases ensureToken_cases t copy with ⟨existing, -, returns⟩ | same
    · cases returns.symm.trans writes
    · cases same.symm.trans writes
      exact Or.inl ⟨t, rfl, rfl, rfl⟩
  | rotateToken t =>
    cases writes
    exact Or.inl ⟨t, rfl, rfl, rfl⟩
  | addClient name capabilities t now =>
    rcases addClient_cases sha name capabilities t now copy with ⟨e, raises⟩ | ⟨caps, -, -, same⟩
    · cases raises.symm.trans writes
    · cases same.symm.trans writes
      exact Or.inr (Or.inr ⟨name, t, _, rfl, rfl, rfl, rfl, nofun, rfl⟩)
  | revokeClient name =>
    rcases revokeClient_cases name copy with ⟨e, raises⟩ | ⟨-, same⟩
    · cases raises.symm.trans writes
    · cases same.symm.trans writes
      exact Or.inr (Or.inl ⟨name, rfl, rfl⟩)
  | rotateClient name t now =>
    rcases rotateClient_cases sha name t now copy with ⟨e, raises⟩ | ⟨record, held, same⟩
    · cases raises.symm.trans writes
    · cases same.symm.trans writes
      refine Or.inr (Or.inr ⟨name, t, _, rfl, rfl, rfl, rfl, fun _ => ?_, rfl⟩)
      exact List.mem_map.mpr ⟨_, Dict.mem_of_get held, rfl⟩

section Holds

variable {call : Call} {copy doc doc' : Doc} {token : Option String} {hash t : String}

def Doc.Holds (sha : Sha256) (doc : Doc) (hash : String) : Prop :=
  (∃ t, doc.token = some t ∧ sha.digest t = hash) ∨ ∃ item ∈ doc.clients, item.2.tokenHash = hash

theorem mem_set_cases {ν : Type} {d : Dict String ν} {key : String} {value : ν} {item : String × ν}
    (member : item ∈ Dict.set d key value) : item = (key, value) ∨ item ∈ d ∧ item.1 ≠ key := by
  unfold Dict.set at member
  split at member
  · obtain ⟨old, hold, rfl⟩ := List.mem_map.mp member
    split
    · exact Or.inl rfl
    next other => exact Or.inr ⟨hold, other⟩
  next absent =>
    rcases List.mem_append.mp member with old | new
    · refine Or.inr ⟨old, fun same => absent ?_⟩
      exact Dict.any_key.mpr (List.mem_map.mpr ⟨item, old, same⟩)
    · exact Or.inl (List.mem_singleton.mp new)

theorem mem_erase {ν : Type} {d : Dict String ν} {key : String} {item : String × ν}
    (member : item ∈ erase d key) : item ∈ d ∧ item.1 ≠ key := by
  obtain ⟨old, other⟩ := List.mem_filter.mp member
  exact ⟨old, by simpa using other⟩

theorem held_of_matchClient {clients : Dict String ClientRecord} {who : Identity}
    (found : matchClient hash clients = .ok (some who)) :
    ∃ item ∈ clients, item.2.tokenHash = hash := by
  induction clients with
  | nil => cases found
  | cons item clients ih =>
    obtain ⟨name, record⟩ := item
    obtain ⟨same, compared, rest⟩ := bind_eq_ok.mp found
    cases same with
    | true =>
      unfold compareDigest at compared
      split at compared
      · exact ⟨_, List.mem_cons_self, (show hash = _ by simpa using compared).symm⟩
      · cases compared
    | false =>
      obtain ⟨other, member, hash⟩ := ih rest
      exact ⟨other, List.mem_cons_of_mem _ member, hash⟩

theorem holds_of_authenticate {header : Option String} {who : Identity}
    (presents : presented header = some t)
    (accepts : authenticate sha doc header = .ok (some who)) : doc.Holds sha (sha.digest t) := by
  unfold authenticate at accepts
  rw [presents] at accepts
  obtain ⟨isRoot, root, client⟩ := bind_eq_ok.mp accepts
  cases isRoot with
  | true =>
    unfold matchRoot at root
    cases held : doc.token with
    | none =>
      rw [held] at root
      cases root
    | some r =>
      rw [held] at root
      by_cases empty : r ≠ ""
      · simp only [if_pos empty, compareDigest] at root
        split at root
        · refine Or.inl ⟨r, held, ?_⟩
          rw [show t = r by simpa using root]
        · cases root
      · simp only [if_neg empty] at root
        cases root
  | false => exact Or.inr (held_of_matchClient client)

theorem holds_of_writes (current : Current call copy doc)
    (writes : call.outcome sha copy = .writes doc' token) (holds : doc'.Holds sha hash) :
    doc.Holds sha hash ∨ ∃ t, call.fresh = some t ∧ hash = sha.digest t := by
  have brought : ∀ item ∈ copy.clients, call.client ≠ some item.1 → item.2.tokenHash = hash →
      doc.Holds sha hash := by
    rintro item member other rfl
    obtain ⟨same, hsame, -, hash⟩ := (current.brings item member).resolve_left other
    exact Or.inr ⟨same, hsame, hash⟩
  rcases Call.writes_cases writes with ⟨f, none_, fresh, rfl⟩ | ⟨name, rfl, rfl⟩ |
    ⟨name, f, record, about, -, fresh, own, -, rfl⟩
  · rcases holds with ⟨t, ⟨⟩, rfl⟩ | ⟨item, member, same⟩
    · exact Or.inr ⟨f, fresh, rfl⟩
    · exact Or.inl (brought item member (by rw [none_]; exact nofun) same)
  · rcases holds with ⟨t, held, rfl⟩ | ⟨item, member, same⟩
    · exact Or.inl (Or.inl ⟨t, (current.token.resolve_left nofun) ▸ held, rfl⟩)
    · obtain ⟨member, other⟩ := mem_erase member
      exact Or.inl (brought item member (fun same => other (Option.some.inj same).symm) same)
  · rcases holds with ⟨t, held, rfl⟩ | ⟨item, member, same⟩
    · exact Or.inl
        (Or.inl ⟨t, (current.token.resolve_left (by rw [about]; exact nofun)) ▸ held, rfl⟩)
    · rcases mem_set_cases member with rfl | ⟨member, other⟩
      · exact Or.inr ⟨f, fresh, same.symm.trans own⟩
      · refine Or.inl (brought item member (fun same => other ?_) same)
        exact (Option.some.inj (about.symm.trans same)).symm

theorem keys_of_writes (writes : call.outcome sha copy = .writes doc' token) {name : String}
    (held : name ∈ Dict.keys copy.clients) (other : call.revokes ≠ some name) :
    name ∈ Dict.keys doc'.clients := by
  rcases Call.writes_cases writes with ⟨f, -, -, rfl⟩ | ⟨revoked, rfl, rfl⟩ | ⟨set, f, record, -,
    -, -, -, -, rfl⟩
  · exact held
  · obtain ⟨item, member, rfl⟩ := List.mem_map.mp held
    refine List.mem_map.mpr ⟨item, List.mem_filter.mpr ⟨member, ?_⟩, rfl⟩
    exact decide_eq_true fun same => other (congrArg some same.symm)
  · rw [Dict.keys_set]
    split
    · exact held
    · exact List.mem_append_left _ held

theorem client_of_writes (writes : call.outcome sha copy = .writes doc' token) {name : String}
    (about : call.client = some name) (other : call.revokes ≠ some name) :
    name ∈ Dict.keys doc'.clients := by
  rcases Call.writes_cases writes with ⟨f, none_, -⟩ | ⟨revoked, rfl, -⟩ |
    ⟨set, f, record, about', -, -, -, -, rfl⟩
  · cases none_.symm.trans about
  · exact absurd about other
  · obtain rfl := Option.some.inj (about.symm.trans about')
    rw [Dict.keys_set]
    split
    next held => exact held
    · exact List.mem_append_right _ (List.mem_singleton.mpr rfl)

end Holds

/-- Every credential of the document is of a call that has written, for the root or for its
client. -/
structure Doc.Traced (sha : Sha256) (done : List Call) (doc : Doc) : Prop where
  token : ∀ t, doc.token = some t → ∃ call ∈ done, call.client = none ∧ call.fresh = some t
  clients : ∀ item ∈ doc.clients, ∃ call ∈ done, call.client = some item.1 ∧
    ∃ t, call.fresh = some t ∧ item.2.tokenHash = sha.digest t

/-- What every interleaving keeps. -/
structure Server.Traced (sha : Sha256) (s : Server) : Prop where
  doc : s.doc.Traced sha s.done
  copies : ∀ p ∈ s.pending, p.copy.Traced sha s.done
  fresh : s.generated.Nodup
  replaced : ∀ hash ∈ s.replaced, ∃ call ∈ s.done, ∃ t, call.fresh = some t ∧ hash = sha.digest t
  revoked : ∀ p ∈ s.pending, ∀ name, p.call.revokes = some name → name ∈ s.revoked

section Trace

variable {s : Server} {done done' : List Call} {call : Call} {copy doc doc' : Doc}
    {token : Option String}

theorem Doc.Traced.mono (traced : doc.Traced sha done) (sub : done ⊆ done') :
    doc.Traced sha done' where
  token t held :=
    have ⟨call, member, rest⟩ := traced.token t held
    ⟨call, sub member, rest⟩
  clients item held :=
    have ⟨call, member, rest⟩ := traced.clients item held
    ⟨call, sub member, rest⟩

theorem Doc.Traced.read (traced : doc.Traced sha done) (fails : Bool) :
    (doc.read fails).Traced sha done := by
  cases fails with
  | true => exact ⟨nofun, nofun⟩
  | false => exact traced

theorem Doc.Traced.write (traced : copy.Traced sha done)
    (writes : call.outcome sha copy = .writes doc token) :
    doc.Traced sha (done ++ [call]) := by
  have old := traced.mono (List.subset_append_left done [call])
  have own : call ∈ done ++ [call] := List.mem_append_right _ (List.mem_singleton.mpr rfl)
  rcases Call.writes_cases writes with ⟨f, none_, fresh, rfl⟩ | ⟨name, rfl, rfl⟩ |
    ⟨name, f, record, about, -, fresh, hash, -, rfl⟩
  · refine ⟨?_, old.clients⟩
    rintro t ⟨⟩
    exact ⟨call, own, none_, fresh⟩
  · exact ⟨old.token, fun item member => old.clients item (mem_erase member).1⟩
  · refine ⟨old.token, fun item member => ?_⟩
    rcases mem_set_cases member with rfl | ⟨member, -⟩
    · exact ⟨call, own, about, f, fresh, hash⟩
    · exact old.clients item member

theorem nodup_filterMap_inj {α β : Type} {f : α → Option β} {xs ys : List α}
    (nodup : ((xs ++ ys).filterMap f).Nodup) {x y : α} {b : β} (hx : x ∈ xs) (hy : y ∈ ys)
    (fx : f x = some b) : f y ≠ some b := by
  intro fy
  rw [List.filterMap_append] at nodup
  exact (List.nodup_append.mp nodup).2.2 b (List.mem_filterMap.mpr ⟨x, hx, fx⟩) b
    (List.mem_filterMap.mpr ⟨y, hy, fy⟩) rfl

theorem inj_of_nodup_filterMap {α β : Type} {f : α → Option β} {xs : List α}
    (nodup : (xs.filterMap f).Nodup) {x y : α} {b : β} (hx : x ∈ xs) (hy : y ∈ xs)
    (fx : f x = some b) (fy : f y = some b) : x = y := by
  induction xs with
  | nil => cases hx
  | cons z xs ih =>
    have apart : ∀ w ∈ xs, f z = some b → f w ≠ some b := fun w hw =>
      nodup_filterMap_inj (show (([z] ++ xs).filterMap f).Nodup from nodup) List.mem_cons_self hw
    rcases List.mem_cons.mp hx with rfl | hx'
    · rcases List.mem_cons.mp hy with rfl | hy'
      · rfl
      · exact absurd fy (apart y hy' fx)
    · rcases List.mem_cons.mp hy with rfl | hy'
      · exact absurd fx (apart x hx' fy)
      · exact ih (nodup.sublist (List.Sublist.filterMap f (List.sublist_cons_self z xs))) hx' hy'

theorem traced_of_replaces (traced : doc.Traced sha done) {hash : String}
    (member : hash ∈ call.replaces sha doc) :
    ∃ issuer ∈ done, issuer.client = call.client ∧ ∃ t, issuer.fresh = some t ∧
      hash = sha.digest t := by
  have client : ∀ name, hash ∈ (Dict.get doc.clients name).toList.map (·.tokenHash) →
      ∃ issuer ∈ done, issuer.client = some name ∧ ∃ t, issuer.fresh = some t ∧
        hash = sha.digest t := by
    intro name member
    obtain ⟨record, held, rfl⟩ := List.mem_map.mp member
    exact traced.clients (name, record) (Dict.mem_of_get (Option.mem_toList.mp held))
  cases call with
  | ensureToken => cases member
  | addClient => cases member
  | rotateToken =>
    obtain ⟨t, held, rfl⟩ := List.mem_map.mp member
    obtain ⟨issuer, hissuer, none_, fresh⟩ := traced.token t (Option.mem_toList.mp held)
    exact ⟨issuer, hissuer, none_, t, fresh, rfl⟩
  | revokeClient name => exact client name member
  | rotateClient name => exact client name member

theorem not_holds_replaced (traced : copy.Traced sha done)
    (fresh : ((done ++ [call]).filterMap Call.fresh).Nodup)
    (writes : call.outcome sha copy = .writes doc' token) {issuer : Call} {t : String}
    (member : issuer ∈ done) (about : issuer.client = call.client)
    (issued : issuer.fresh = some t) :
    ¬doc'.Holds sha (sha.digest t) := by
  have before : (done.filterMap Call.fresh).Nodup :=
    fresh.sublist (List.Sublist.filterMap _ (List.sublist_append_left done [call]))
  have own : call.fresh ≠ some t := nodup_filterMap_inj fresh member List.mem_cons_self issued
  have same : ∀ other ∈ done, ∀ u, other.fresh = some u → sha.digest u = sha.digest t →
      other = issuer := by
    intro other hother u issued' digest
    obtain rfl := sha.injective digest
    exact inj_of_nodup_filterMap before hother member issued' issued
  have token_ : ∀ u, copy.token = some u → call.client ≠ none → sha.digest u ≠ sha.digest t := by
    intro u held some_ digest
    obtain ⟨other, hother, none_, issued'⟩ := traced.token u held
    obtain rfl := same other hother u issued' digest
    exact some_ (about.symm.trans none_)
  have client : ∀ item ∈ copy.clients, call.client ≠ some item.1 →
      item.2.tokenHash ≠ sha.digest t := by
    intro item held other_ hash
    obtain ⟨other, hother, client, u, issued', digest⟩ := traced.clients item held
    obtain rfl := same other hother u issued' (digest.symm.trans hash)
    exact other_ (about.symm.trans client)
  rcases Call.writes_cases writes with ⟨f, none_, fresh', rfl⟩ | ⟨name, rfl, rfl⟩ |
    ⟨name, f, record, about', -, fresh', hash, -, rfl⟩
  · rintro (⟨u, ⟨⟩, digest⟩ | ⟨item, held, same⟩)
    · exact own (fresh'.trans (congrArg some (sha.injective digest)))
    · exact client item held (by rw [none_]; exact nofun) same
  · rintro (⟨u, held, digest⟩ | ⟨item, held, same⟩)
    · exact token_ u held nofun digest
    · obtain ⟨held, other⟩ := mem_erase held
      exact client item held (fun same => other (Option.some.inj same).symm) same
  · rintro (⟨u, held, digest⟩ | ⟨item, held, same⟩)
    · exact token_ u held (by rw [about']; exact nofun) digest
    · rcases mem_set_cases held with rfl | ⟨held, other⟩
      · exact own (fresh'.trans (congrArg some (sha.injective (hash.symm.trans same))))
      · exact client item held (fun same => other (Option.some.inj (about'.symm.trans same)).symm)
          same

end Trace

section Run

variable {s s' : Server} {l : Access}

/-- What the guarded steps keep. -/
structure Server.Sound (sha : Sha256) (s : Server) : Prop where
  traced : s.Traced sha
  gone : ∀ hash ∈ s.replaced, ¬s.doc.Holds sha hash
  kept : ∀ name ∈ s.added, name ∉ s.revoked → name ∈ Dict.keys s.doc.clients

theorem sound_started (token : Option String) : (Server.start token).Sound sha where
  traced := {
    doc :=
      ⟨fun t held => ⟨.rotateToken t, by cases held; exact List.mem_cons_self, rfl, rfl⟩, nofun⟩
    copies := nofun
    fresh := by cases token <;> simp [Server.generated, Server.start, Call.fresh]
    replaced := nofun
    revoked := nofun }
  gone := nofun
  kept := nofun

theorem server_step_cases (step : (server sha).step s l = some s') :
    (∃ call fails, l = .read call fails ∧ (∀ t, call.fresh = some t → t ∉ s.generated) ∧
      (s' = { s with revoked := s.revoked ++ call.revokes.toList } ∨
        s' = { s with
          revoked := s.revoked ++ call.revokes.toList
          pending := s.pending ++ [⟨call, s.doc.read fails⟩] })) ∨
      ∃ i p doc token, l = .write i ∧ s.pending[i]? = some p ∧ p.call.outcome sha p.copy =
        .writes doc token ∧
        s' = {
          doc := doc, pending := s.pending.eraseIdx i, done := s.done ++ [p.call]
          replaced := s.replaced ++ (p.call.replaces sha p.copy ++ p.call.replaces sha s.doc)
          added := s.added ++ p.call.adds.toList, revoked := s.revoked } := by
  cases l with
  | read call fails =>
    refine Or.inl ⟨call, fails, rfl, ?_⟩
    simp only [server] at step
    split at step
    · cases step
    next fresh =>
      refine ⟨fun t same used => fresh (by rw [same]; simpa using used), ?_⟩
      split at step
      · exact Or.inr (Option.some.inj step).symm
      · exact Or.inl (Option.some.inj step).symm
  | write i =>
    simp only [server] at step
    split at step
    · cases step
    next p found =>
      split at step
      next doc token writes =>
        exact Or.inr ⟨i, p, doc, token, rfl, found, writes, (Option.some.inj step).symm⟩
      · cases step

theorem Server.Sound.read (sound : s.Sound sha) (call : Call) :
    Server.Sound sha { s with revoked := s.revoked ++ call.revokes.toList } where
  traced := { sound.traced with
    revoked := fun p hp name revokes =>
      List.mem_append_left _ (sound.traced.revoked p hp name revokes) }
  gone := sound.gone
  kept name added still := sound.kept name added fun old => still (List.mem_append_left _ old)

theorem Server.Sound.start (sound : s.Sound sha) {call : Call} (fails : Bool)
    (fresh : ∀ t, call.fresh = some t → t ∉ s.generated) :
    Server.Sound sha { s with
      revoked := s.revoked ++ call.revokes.toList
      pending := s.pending ++ [⟨call, s.doc.read fails⟩] } where
  traced := {
    doc := sound.traced.doc
    copies := fun p hp => (List.mem_append.mp hp).elim (sound.traced.copies p) fun new => by
      rw [List.mem_singleton.mp new]
      exact sound.traced.doc.read fails
    fresh := by
      have more :
          (s.done ++ (s.pending ++ [Pending.mk call (s.doc.read fails)]).map (·.call)).filterMap
          Call.fresh =
          s.generated ++ call.fresh.toList := by
        rw [List.map_append, ← List.append_assoc, List.filterMap_append]
        cases call <;> rfl
      rw [Server.generated, more]
      refine List.nodup_append.mpr ⟨sound.traced.fresh, ?_, ?_⟩
      · cases call.fresh <;> simp
      · rintro t used u own rfl
        exact fresh t (Option.mem_toList.mp own) used
    replaced := sound.traced.replaced
    revoked := fun p hp name revokes => (List.mem_append.mp hp).elim
      (fun old => List.mem_append_left _ (sound.traced.revoked p old name revokes)) fun new => by
        rw [List.mem_singleton.mp new] at revokes
        exact List.mem_append_right _ (Option.mem_toList.mpr revokes) }
  gone := sound.gone
  kept name added still := sound.kept name added fun old => still (List.mem_append_left _ old)

theorem Server.Sound.write (sound : s.Sound sha) {i : Nat} {p : Pending} {doc : Doc}
    {token : Option String} (found : s.pending[i]? = some p)
    (writes : p.call.outcome sha p.copy = .writes doc token)
    (current : Current p.call p.copy s.doc) :
    Server.Sound sha {
      doc := doc, pending := s.pending.eraseIdx i, done := s.done ++ [p.call]
      replaced := s.replaced ++ (p.call.replaces sha p.copy ++ p.call.replaces sha s.doc)
      added := s.added ++ p.call.adds.toList, revoked := s.revoked } := by
  have hp : p ∈ s.pending := List.mem_of_getElem? found
  have copy := sound.traced.copies p hp
  obtain ⟨bound, at_⟩ := List.getElem?_eq_some_iff.mp found
  have perm :
      (s.done ++ s.pending.map (·.call)).Perm
      (s.done ++ [p.call] ++ (s.pending.eraseIdx i).map (·.call)) := by
    rw [List.append_assoc]
    refine List.Perm.append_left _ ?_
    have here := (List.getElem_cons_eraseIdx_perm bound).symm.map (·.call)
    rw [at_] at here
    exact here
  have fresh :
      ((s.done ++ [p.call] ++ (s.pending.eraseIdx i).map (·.call)).filterMap Call.fresh).Nodup :=
    (perm.filterMap _).nodup_iff.mp sound.traced.fresh
  have own : ((s.done ++ [p.call]).filterMap Call.fresh).Nodup :=
    fresh.sublist (List.Sublist.filterMap _ (List.sublist_append_left _ _))
  have replaced : ∀ hash ∈ p.call.replaces sha p.copy ++
      p.call.replaces sha s.doc, ∃ issuer ∈ s.done,
      issuer.client = p.call.client ∧ ∃ t, issuer.fresh = some t ∧ hash = sha.digest t :=
        fun hash member =>
    (List.mem_append.mp member).elim (traced_of_replaces copy) (traced_of_replaces sound.traced.doc)
  refine ⟨⟨copy.write writes, fun q hq => ?_, fresh, fun hash member => ?_, fun q hq => ?_⟩,
    fun hash member => ?_,
    fun name added still => ?_⟩
  · exact (sound.traced.copies q (List.mem_of_mem_eraseIdx hq)).mono (List.subset_append_left _ _)
  · rcases List.mem_append.mp member with old | new
    · obtain ⟨call, hcall, rest⟩ := sound.traced.replaced hash old
      exact ⟨call, List.mem_append_left _ hcall, rest⟩
    · obtain ⟨issuer, hissuer, -, rest⟩ := replaced hash new
      exact ⟨issuer, List.mem_append_left _ hissuer, rest⟩
  · exact sound.traced.revoked q (List.mem_of_mem_eraseIdx hq)
  · rcases List.mem_append.mp member with old | new
    · intro holds
      obtain ⟨call, hcall, t, issued, rfl⟩ := sound.traced.replaced hash old
      rcases holds_of_writes current writes holds with held | ⟨u, fresh', digest⟩
      · exact sound.gone _ old held
      · refine nodup_filterMap_inj own hcall List.mem_cons_self issued ?_
        rw [fresh', sha.injective digest]
    · obtain ⟨issuer, hissuer, about, t, issued, rfl⟩ := replaced hash new
      exact not_holds_replaced copy own writes hissuer about issued
  · have unrevoked : p.call.revokes ≠ some name := fun revokes =>
      still (sound.traced.revoked p hp name revokes)
    rcases List.mem_append.mp added with old | new
    · rcases current.keeps name (sound.kept name old still) with about | held
      · exact client_of_writes writes about unrevoked
      · exact keys_of_writes writes held unrevoked
    · refine client_of_writes writes ?_ unrevoked
      have adds := Option.mem_toList.mp new
      cases hcall : p.call with
      | addClient n c t m => rw [hcall] at adds; exact adds
      | ensureToken | rotateToken | revokeClient | rotateClient => rw [hcall] at adds; cases adds

theorem Server.Sound.step (sound : s.Sound sha) (current : s.Writes l)
    (step : (server sha).step s l = some s') :
    s'.Sound sha := by
  rcases server_step_cases step with ⟨call, fails, rfl, fresh, rfl | rfl⟩ | ⟨i, p, doc, token, rfl,
    found, writes, rfl⟩
  · exact sound.read call
  · exact sound.start fails fresh
  · exact sound.write found writes (current p found)

theorem Server.Sound.upheld (sound : s.Sound sha) : s.Upheld sha where
  replaced header t presents member fails who accepts := by
    apply sound.gone _ member
    cases fails with
    | false => exact holds_of_authenticate presents accepts
    | true =>
      rcases holds_of_authenticate presents accepts with ⟨u, held, -⟩ | ⟨item, held, -⟩
      · cases held
      · cases held
  kept := sound.kept

/-- In a run whose writes are all made from copies that are current, every state upholds what the
calls that returned have done. -/
theorem upheld_of_current (sha : Sha256) (token : Option String) (accesses : List Access)
    (current : ∀ x ∈ (server sha).transitions (.start token) accesses, x.before.Writes x.label) :
    ∀ x ∈ (server sha).transitions (.start token) accesses, x.after.Upheld sha := by
  intro x hx
  have sound := (server sha).invariant_of_guarded (J := Server.Sound sha)
    (G := fun s l _ => s.Writes l)
    (fun s l t sound guard step => sound.step guard step) (sound_started token) current x hx
  exact sound.2.upheld

def servedRun : List Access :=
  [.read (.addClient "lane" ["review:record"] "u" "2026-09-24") false, .write 0,
    .read (.rotateToken "v") false,
    .read (.rotateClient "lane" "x" "2026-09-25") false, .write 1,
      .read (.revokeClient "lane") true]

theorem servedRun_runs : (server unary).transitions (.start (some "t")) servedRun ≠ [] := by
  decide +kernel

def served : Server :=
  (((server unary).transitions (.start (some "t")) servedRun).getLast servedRun_runs).after

theorem upheld_served : served.Upheld unary :=
  upheld_of_current unary (some "t") servedRun (by decide +kernel)
    _ (List.getLast_mem servedRun_runs)

/-- Of two clients added at once the file keeps one. -/
theorem lost_client :
    ¬∀ (sha : Sha256) (token : Option String) (accesses : List Access),
      ∀ x ∈ (server sha).transitions (.start token) accesses, x.after.Upheld sha := by
  intro upheld
  have lost : ∃ x ∈ (server unary).transitions (.start none)
      [.read (.addClient "a" [] "u" "2026-09-24") false,
        .read (.addClient "b" [] "v" "2026-09-24") false,
        .write 0, .write 0],
      "a" ∈ x.after.added ∧ "a" ∉ x.after.revoked ∧ "a" ∉ Dict.keys x.after.doc.clients := by
        decide +kernel
  obtain ⟨x, hx, added, still, gone⟩ := lost
  exact gone ((upheld unary none _ x hx).kept "a" added still)

end Run

end DreamStudio.Mcp
