import DreamStudio.Review.Trail
import Mathlib.Data.List.Pairwise

namespace DreamStudio.Review

open Library

def Event.issued : Event → List String
  | .opened _ credentials => credentials.map (·.2)
  | .added .. => []

def issued (log : List Event) : List String := log.flatMap (·.issued)

/-- No token is issued twice, and none is empty. -/
def Fresh (log : List Event) : Prop := (issued log).Nodup ∧ "" ∉ issued log

instance (log : List Event) : Decidable (Fresh log) :=
  inferInstanceAs (Decidable (_ ∧ _))

def Event.round? : Event → Option Nat
  | .opened doc _ => some doc.round
  | .added .. => none

def openedRounds (log : List Event) : List Nat := log.filterMap (·.round?)

/-- A submission presented by `reviewer` with `credential`, on lanes it was asked in the round. -/
structure Vouched (log : List Event) (reviewer : String) (credential : Option String)
    (s : Submission) (doc : Dispatch) (credentials : Dict String String) : Prop where
  opened : .opened doc credentials ∈ log
  round : doc.round = s.round
  issued : Dict.get credentials reviewer = some (credential.getD "")
  added : .added reviewer credential s ∈ log
  asked : ∀ e ∈ s.lanes, e.lane ∈ dispatchedLanes (some doc) reviewer
  once : (s.lanes.map Entry.lane).Nodup

structure Audited (env : Env) (t : Trail) : Prop where
  standing : ∀ d, t.ledger.dispatch = some d → ∃ credentials, .opened d credentials ∈ t.log ∧
    d.credentialHashes = credentials.map fun (name, c) => (name, env.credentialHash c)
  behind : ∀ n ∈ openedRounds t.log, n < t.ledger.nextRound
  rounds : (openedRounds t.log).Nodup
  vouched : ∀ r, ∀ s ∈ t.ledger.history r, ∃ credential doc credentials,
    Vouched t.log r credential s doc credentials

theorem Vouched.mono {log log' : List Event} {reviewer : String} {credential : Option String}
    {s : Submission} {doc : Dispatch} {credentials : Dict String String} (sub : log ⊆ log')
    (h : Vouched log reviewer credential s doc credentials) :
    Vouched log' reviewer credential s doc credentials :=
  { h with opened := sub h.opened, added := sub h.added }

theorem audited_start (env : Env) (project : Option String) : Audited env (.start project) where
  standing := nofun
  behind := nofun
  rounds := List.nodup_nil
  vouched := nofun

section Step

variable {env : Env} {t u : Trail} {a : Action}

theorem credential_issued (injective : Function.Injective env.credentialHash) {c : Call}
    {p : Prepared} (audited : Audited env t) (admitted : Admitted env t.ledger c p) :
    ∃ credentials, .opened p.dispatch credentials ∈ t.log ∧
      Dict.get credentials c.reviewer = some (c.credential.getD "") := by
  obtain ⟨credentials, opened, hashes⟩ := audited.standing _ admitted.dispatch
  refine ⟨credentials, opened, ?_⟩
  have found := admitted.credential
  rw [hashes, Dict.get_map_values] at found
  obtain ⟨token, issued, same⟩ := Option.map_eq_some_iff.mp found
  rw [issued, injective same]

theorem audited_step (injective : Function.Injective env.credentialHash) (audited : Audited env t)
    (h : (reviews env).step t a = some u) : Audited env u := by
  cases step_cases h with
  | same => exact audited
  | @opened q assignments carried resolves =>
    have grows : t.log ⊆ t.log ++ [.opened (openRound env t.ledger q assignments carried)
      (issueCredentials q.token assignments)] := List.subset_append_left ..
    constructor
    · rintro _ ⟨⟩
      exact ⟨_, List.mem_append_right _ (List.mem_singleton_self _), rfl⟩
    · intro n hn
      simp only [openedRounds, List.filterMap_append, List.mem_append] at hn
      rcases hn with hn | hn
      · exact Nat.lt_succ_of_lt (audited.behind n hn)
      · simp only [List.filterMap_cons, Event.round?, List.filterMap_nil, List.mem_singleton] at hn
        exact hn ▸ Nat.lt_succ_self _
    · simp only [openedRounds, List.filterMap_append, List.filterMap_cons, Event.round?,
        List.filterMap_nil]
      refine List.nodup_append.mpr ⟨audited.rounds, List.nodup_singleton _, ?_⟩
      intro n hn m hm same
      have new : m = t.ledger.nextRound := List.mem_singleton.mp hm
      exact absurd (audited.behind n hn) (by omega)
    · intro r s hs
      obtain ⟨credential, doc, credentials, vouched⟩ := audited.vouched r s hs
      exact ⟨credential, doc, credentials, vouched.mono grows⟩
  | @added c p s prepared _ appended =>
    have admitted := prepare_ok prepared
    have grows : t.log ⊆ t.log ++ [.added c.reviewer c.credential s] := List.subset_append_left ..
    have same : openedRounds (t.log ++ [.added c.reviewer c.credential s]) =
        openedRounds t.log := by
      simp [openedRounds, Event.round?]
    constructor
    · intro d hd
      obtain ⟨credentials, opened, hashes⟩ := audited.standing d hd
      exact ⟨credentials, grows opened, hashes⟩
    · rw [same]
      exact audited.behind
    · rw [same]
      exact audited.rounds
    · intro r x hx
      have older : x ∈ t.ledger.history r → ∃ credential doc credentials,
          Vouched (t.log ++ [.added c.reviewer c.credential s]) r credential x doc credentials := by
        intro hx
        obtain ⟨credential, doc, credentials, vouched⟩ := audited.vouched r x hx
        exact ⟨credential, doc, credentials, vouched.mono grows⟩
      rw [history_write] at hx
      split at hx
      next whose =>
        subst whose
        rcases List.mem_append.mp hx with hx | hx
        · exact older hx
        · obtain rfl := List.mem_singleton.mp hx
          obtain ⟨credentials, opened, issued⟩ := credential_issued injective audited admitted
          obtain ⟨asked, once⟩ := accepted_sound admitted
          have one : p.submissions c = [x] := appended
          rcases submissions_cases p c with none | some
          · simp [none] at one
          · obtain rfl : _ = x := by simpa [some] using one
            refine ⟨c.credential, p.dispatch, credentials, grows opened, rfl, issued,
              List.mem_append_right _ (List.mem_singleton_self _), ?_, verify_lanes_nodup _ once⟩
            intro e he
            rw [← admitted.assigned]
            exact asked _ (mem_verify he).1
      next => exact older hx

end Step

section Runs

variable {env : Env} {project : Option String} {ls : List Action} {t : Trail}

theorem log_prefix_step {t u : Trail} {a : Action} (h : (reviews env).step t a = some u) :
    t.log <+: u.log := by
  cases step_cases h with
  | same => exact List.prefix_rfl
  | opened => exact List.prefix_append ..
  | added => exact List.prefix_append ..

theorem Fresh.of_prefix {log log' : List Event} (h : log <+: log') (fresh : Fresh log') :
    Fresh log := by
  have sub : (issued log).Sublist (issued log') := by
    obtain ⟨rest, rfl⟩ := h
    rw [issued, issued, List.flatMap_append]
    exact List.sublist_append_left ..
  exact ⟨fresh.1.sublist sub, fun h => fresh.2 (sub.subset h)⟩

theorem Fresh.unique {log : List Event} (fresh : Fresh log) {doc doc' : Dispatch}
    {credentials credentials' : Dict String String} {r r' token : String}
    (opened : .opened doc credentials ∈ log) (issued : Dict.get credentials r = some token)
    (opened' : .opened doc' credentials' ∈ log) (issued' : Dict.get credentials' r' = some token) :
    doc = doc' ∧ r = r' := by
  obtain ⟨nodup, disjoint⟩ := List.nodup_flatMap.mp fresh.1
  have here := Dict.mem_of_get issued
  have there := Dict.mem_of_get issued'
  have same : Event.opened doc credentials = .opened doc' credentials' := by
    by_contra apart
    have : Std.Symm (Function.onFun List.Disjoint fun x : Event => x.issued) :=
      ⟨fun _ _ h => List.Disjoint.symm h⟩
    exact disjoint.forall opened opened' apart (List.mem_map.mpr ⟨_, here, rfl⟩)
      (List.mem_map.mpr ⟨_, there, rfl⟩)
  cases same
  have once := List.inj_on_of_nodup_map (nodup _ opened) here there rfl
  exact ⟨rfl, congrArg Prod.fst once⟩

/-- Every stored submission carries the credential that the dispatch opening its round returned for
its reviewer, and answers lanes of that round, each once; with any other credential a call leaves
the ledger as it was. -/
theorem submissions_vouched (injective : Function.Injective env.credentialHash)
    (reach : (reviews env).run (.start project) ls = some t) (fresh : Fresh t.log) :
    (openedRounds t.log).Nodup ∧
      (∀ r, ∀ s ∈ t.ledger.history r, ∃ token doc credentials,
        Vouched t.log r (some token) s doc credentials) ∧
      ∀ x ∈ (reviews env).transitions (.start project) ls, ∀ c, x.label = .record c →
        ∀ doc credentials r token, .opened doc credentials ∈ x.before.log →
          Dict.get credentials r = some token → c.credential = some token →
          r ≠ c.reviewer ∨ x.before.ledger.dispatch.map (·.round) ≠ some doc.round →
          x.after.ledger = x.before.ledger := by
  have audited : Audited env t :=
    (reviews env).run_invariant (fun _ _ _ h step => audited_step injective h step)
      (audited_start env project) reach
  refine ⟨audited.rounds, ?_, ?_⟩
  · intro r s hs
    obtain ⟨credential, doc, credentials, vouched⟩ := audited.vouched r s hs
    cases credential with
    | some token => exact ⟨token, doc, credentials, vouched⟩
    | none =>
      have empty : "" ∈ issued t.log := by
        refine List.mem_flatMap.mpr ⟨_, vouched.opened, ?_⟩
        exact List.mem_map.mpr ⟨_, Dict.mem_of_get vouched.issued, rfl⟩
      exact absurd empty fresh.2
  · rintro ⟨s, _, u⟩ hx c rfl doc credentials r token opened issued carries other
    have before : Audited env s :=
      ((reviews env).invariant (fun _ _ _ h step => audited_step injective h step)
        (audited_start env project) ls _ hx).1
    have step : (reviews env).step s (.record c) = some u :=
      (reviews env).step_of_mem_transitions hx
    have later : u.log <+: t.log :=
      ((reviews env).rel_of_mem_transitions (R := fun t u => t.log <+: u.log)
        (fun _ => List.prefix_rfl) (fun _ _ _ => List.IsPrefix.trans)
        (fun _ _ _ => log_prefix_step) reach).2 _ hx
    have fresh : Fresh s.log := fresh.of_prefix ((log_prefix_step step).trans later)
    cases step_cases step with
    | same => rfl
    | added prepared =>
      have admitted := prepare_ok prepared
      obtain ⟨credentials', opened', issued'⟩ := credential_issued injective before admitted
      rw [carries, Option.getD_some] at issued'
      obtain ⟨rfl, rfl⟩ := fresh.unique opened issued opened' issued'
      rcases other with other | other
      · exact absurd rfl other
      · exact absurd (by rw [admitted.dispatch]; rfl) other

def reusedRun : List Action := [
  dispatchTo "a1" [("ada", ["ui"]), ("ben", ["api"])],
  recordBy "ada" "a1/ada" (fun _ _ => { exitCode := some 1 }) [answerOn "ui" "finding" "pytest" 1],
  dispatchTo "b2" [("ada", ["ui"]), ("ben", ["api"])],
  recordBy "ada" "a1/ada" (fun _ _ => { exitCode := some 0 }) [answerOn "ui" "pass" "pytest" 0],
  recordBy "ada" "b2/ada" (fun _ _ => { exitCode := some 0 }) [answerOn "ui" "pass" "pytest" 0]]

theorem submissions_vouched_reusedRun :
    ∃ t, (reviews sampleEnv).run (.start (some "p")) reusedRun = some t ∧
      (t.ledger.history "ada").map (·.round) = [1, 2] ∧
      ∀ r, ∀ s ∈ t.ledger.history r, ∃ token doc credentials,
        Vouched t.log r (some token) s doc credentials := by
  have reach : (reviews sampleEnv).run (.start (some "p")) reusedRun = some _ := rfl
  exact ⟨_, reach, by decide, (submissions_vouched sampleEnv_injective reach (by decide)).2.1⟩

end Runs

end DreamStudio.Review
