import DreamStudio.Findings.Spine
import DreamStudio.Library.Dict
import DreamStudio.Library.Json
import DreamStudio.Library.Pairing

namespace DreamStudio.Findings

open Library

section Scans

/-- A finding as `_get_scan_findings` hands it over. -/
structure ScanFinding where
  findingId : String
  ruleId : Option String
  filePath : Option String
  startLine : Option Int
  severity : Option String
  description : Option String
  findingHash : Option String := none
  deriving DecidableEq

/-- A row of `_get_resolved_links`. -/
structure ResolvedLink where
  prevFindingId : Option String
  currFindingId : Option String
  verdict : Option String

/-- `ScanDelta`. -/
structure ScanDelta where
  currScanId : String
  prevScanId : Option String
  projectId : String
  new : List ScanFinding := []
  fixed : List ScanFinding := []
  persisting : List ScanFinding := []
  requiresAdjudication : List (ScanFinding × ScanFinding) := []

/-- `_normalized_path`. -/
def normalizedPath : Option String → String
  | none => ""
  | some p => pyStrip (String.ofList (p.toList.map fun c => if c = '\\' then '/' else c))

/-- `_line_proximity`. -/
def lineProximity (window : Int) : Option Int → Option Int → Bool
  | some a, some b => ((a - b).natAbs : Int) ≤ window
  | _, _ => true

/-- What makes two findings a candidate pair. -/
def plausiblePair (window : Int) (prev curr : ScanFinding) : Bool :=
  prev.ruleId = curr.ruleId && normalizedPath prev.filePath = normalizedPath curr.filePath &&
    lineProximity window prev.startLine curr.startLine

def ScanFinding.hashKey (f : ScanFinding) : Option String := f.findingHash.filter (· ≠ "")

/-- `prev_by_hash` and `curr_by_hash`. -/
def byHash (findings : List ScanFinding) : Dict String ScanFinding :=
  findings.foldl (fun d f => match f.hashKey with
    | some h => d.set h f
    | none => d) []

end Scans

section Pairs

/-- `candidate_pairs`, `paired_prev_ids` and `paired_curr_ids`. -/
structure Candidates where
  pairs : List (ScanFinding × ScanFinding) := []
  prevIds : List String := []
  currIds : List String := []

variable (window : Int) (possiblyNew : List ScanFinding)

def Candidates.add (c : Candidates) (prev : ScanFinding) : Candidates :=
  match possiblyNew.find? fun curr => plausiblePair window prev curr &&
      decide (prev.findingId ∉ c.prevIds) && decide (curr.findingId ∉ c.currIds) with
  | some curr =>
    { pairs := c.pairs ++ [(prev, curr)]
      prevIds := c.prevIds ++ [prev.findingId]
      currIds := c.currIds ++ [curr.findingId] }
  | none => c

end Pairs

section Compute

variable (window : Int) (links : List ResolvedLink) (prevFindings currFindings : List ScanFinding)

/-- `exact_match_hashes`, whose order a set leaves open. -/
def exactHashes : List String :=
  (byHash prevFindings).keys.filter (· ∈ (byHash currFindings).keys)

def matched (hashes : List String) (findings : List ScanFinding) : List ScanFinding :=
  hashes.filterMap (byHash findings).get

def without (ids : List String) (findings : List ScanFinding) : List ScanFinding :=
  findings.filter (·.findingId ∉ ids)

def sameEdited : List ResolvedLink := links.filter (·.verdict = some "same_edited")

def resolvedPrevIds : List String := (sameEdited links).filterMap (·.prevFindingId)

def resolvedCurrIds : List String := (sameEdited links).filterMap (·.currFindingId)

/-- `compute_scan_delta`, on what it has read. -/
def computeDelta (currScanId : String) (prevScanId : Option String) (projectId : String) :
    ScanDelta :=
  let hashes := exactHashes prevFindings currFindings
  let exact := matched hashes currFindings
  let possiblyFixed := without ((matched hashes prevFindings).map (·.findingId)) prevFindings
  let possiblyNew := without (exact.map (·.findingId)) currFindings
  let edited := possiblyNew.filter (·.findingId ∈ resolvedCurrIds links)
  let possiblyFixed := without (resolvedPrevIds links) possiblyFixed
  let possiblyNew := without (resolvedCurrIds links) possiblyNew
  let candidates := possiblyFixed.foldl (Candidates.add window possiblyNew) {}
  { currScanId, prevScanId, projectId
    new := without candidates.currIds possiblyNew
    fixed := without candidates.prevIds possiblyFixed
    persisting := exact ++ edited
    requiresAdjudication := candidates.pairs }

end Compute

section Loop

variable {window : Int}

abbrev idsOf (findings : List ScanFinding) : List String := findings.map (·.findingId)

theorem without_nil (findings : List ScanFinding) : without [] findings = findings :=
  List.filter_eq_self.mpr fun _ _ => rfl

theorem without_append (ids more : List String) (findings : List ScanFinding) :
    without (ids ++ more) findings = without more (without ids findings) := by
  rw [without, without, without, List.filter_filter]
  apply List.filter_congr
  intro f _
  rw [Bool.eq_iff_iff]
  simp only [List.mem_append, not_or, decide_eq_true_eq, Bool.and_eq_true]
  exact And.comm

theorem nodup_without {findings : List ScanFinding} (nodup : (idsOf findings).Nodup)
    (ids : List String) :
    (idsOf (without ids findings)).Nodup :=
  nodup.sublist (List.filter_sublist.map _)

theorem foldl_add {prevs currs : List ScanFinding} (nodup : (idsOf currs).Nodup)
    (distinct : (idsOf prevs).Nodup) (c : Candidates)
    (free : ∀ f ∈ prevs, f.findingId ∉ c.prevIds) :
    prevs.foldl (Candidates.add window currs) c =
      let paired := (Pairing.greedy (plausiblePair window) prevs (without c.currIds currs)).pairs
      { pairs := c.pairs ++ paired
        prevIds := c.prevIds ++ paired.map (·.1.findingId)
        currIds := c.currIds ++ paired.map (·.2.findingId) } := by
  induction prevs generalizing c with
  | nil => simp [Pairing.greedy]
  | cons p ps ih =>
    rw [idsOf, List.map_cons, List.nodup_cons] at distinct
    rw [List.forall_mem_cons] at free
    have scan : (currs.find? fun curr => plausiblePair window p curr &&
        decide (p.findingId ∉ c.prevIds) && decide (curr.findingId ∉ c.currIds)) =
        (without c.currIds currs).find? (plausiblePair window p) := by
      rw [without, List.find?_filter]
      congr 1
      funext curr
      rw [decide_eq_true free.1, Bool.and_true, Bool.and_comm, Bool.eq_iff_iff]
      simp
    rw [List.foldl_cons]
    cases found : (without c.currIds currs).find? (plausiblePair window p) with
    | none =>
      have skip : Candidates.add window currs c p = c := by
        rw [Candidates.add, scan, found]
      rw [skip, Pairing.greedy_cons_none found]
      exact ih distinct.2 c free.2
    | some curr =>
      have take : Candidates.add window currs c p =
          ⟨c.pairs ++ [(p, curr)], c.prevIds ++ [p.findingId], c.currIds ++ [curr.findingId]⟩ := by
        rw [Candidates.add, scan, found]
      have fewer : (without c.currIds currs).eraseP (plausiblePair window p) =
          without (c.currIds ++ [curr.findingId]) currs := by
        rw [Pairing.eraseP_eq_filter (nodup_without nodup c.currIds) found, without_append, without]
        apply List.filter_congr
        intro f _
        simp
      have fresh : ∀ f ∈ ps, f.findingId ∉ c.prevIds ++ [p.findingId] := by
        intro f member inside
        cases List.mem_append.mp inside with
        | inl before => exact free.2 f member before
        | inr here =>
          exact distinct.1 (List.mem_singleton.mp here ▸ List.mem_map_of_mem member)
      rw [take, Pairing.greedy_cons_some found, fewer, ih distinct.2 _ fresh]
      simp

end Loop

section Account

variable {window : Int} {links : List ResolvedLink} {prevFindings currFindings : List ScanFinding}

structure ByHash (findings : List ScanFinding) (d : Dict String ScanFinding) : Prop where
  nodup : d.keys.Nodup
  own : ∀ item ∈ d, item.2 ∈ findings ∧ item.2.hashKey = some item.1

theorem ByHash.set {findings : List ScanFinding} {d : Dict String ScanFinding}
    (here : ByHash findings d) {f : ScanFinding} {h : String} (member : f ∈ findings)
    (keyed : f.hashKey = some h) :
    ByHash findings (d.set h f) where
  nodup := Dict.keys_set_nodup here.nodup h f
  own item inside := by
    cases Dict.mem_set inside with
    | inl before => exact here.own item before
    | inr new =>
      rw [new]
      exact ⟨member, keyed⟩

theorem byHash_spec (findings : List ScanFinding) : ByHash findings (byHash findings) := by
  have step (fs : List ScanFinding) (d : Dict String ScanFinding) (here : ByHash findings d)
      (sub : ∀ f ∈ fs, f ∈ findings) :
      ByHash findings (fs.foldl (fun d f => match f.hashKey with
        | some h => d.set h f
        | none => d) d) := by
    induction fs generalizing d with
    | nil => exact here
    | cons f fs ih =>
      rw [List.forall_mem_cons] at sub
      rw [List.foldl_cons]
      cases keyed : f.hashKey with
      | none => exact ih d here sub.2
      | some h => exact ih _ (here.set sub.1 keyed) sub.2
  exact step findings [] ⟨List.nodup_nil, nofun⟩ fun _ => id

theorem mem_of_byHash {findings : List ScanFinding} {h : String} {f : ScanFinding}
    (held : (byHash findings).get h = some f) : f ∈ findings ∧ f.hashKey = some h :=
  (byHash_spec findings).own _ (Dict.mem_of_get held)

theorem nodup_matched {hashes : List String} (nodup : hashes.Nodup) (findings : List ScanFinding) :
    (matched hashes findings).Nodup := by
  apply List.Nodup.filterMap _ nodup
  intro h h' f held held'
  have own := (mem_of_byHash held).2
  have own' := (mem_of_byHash held').2
  exact Option.some.inj (own.symm.trans own')

theorem nodup_exactHashes (prevs currs : List ScanFinding) : (exactHashes prevs currs).Nodup :=
  (byHash_spec prevs).nodup.filter _

theorem mem_matched {hashes : List String} {findings : List ScanFinding} {f : ScanFinding}
    (member : f ∈ matched hashes findings) : f ∈ findings ∧ ∃ h ∈ hashes, f.hashKey = some h := by
  obtain ⟨h, inside, held⟩ := List.mem_filterMap.mp member
  exact ⟨(mem_of_byHash held).1, h, inside, (mem_of_byHash held).2⟩

theorem eq_of_id {findings : List ScanFinding} (distinct : (idsOf findings).Nodup)
    {f g : ScanFinding} (hf : f ∈ findings) (hg : g ∈ findings) (same : f.findingId = g.findingId) :
    f = g :=
  List.inj_on_of_nodup_map distinct hf hg same

theorem perm_without {part findings : List ScanFinding} (distinct : (idsOf findings).Nodup)
    (nodup : part.Nodup) (sub : ∀ f ∈ part, f ∈ findings) :
    (part ++ without (idsOf part) findings).Perm findings := by
  have same : part.Perm (findings.filter fun f => !decide (f.findingId ∉ idsOf part)) := by
    apply (List.perm_ext_iff_of_nodup nodup (distinct.of_map.filter _)).mpr
    intro f
    rw [List.mem_filter, Bool.not_eq_true', decide_eq_false_iff_not, not_not]
    constructor
    · exact fun member => ⟨sub f member, List.mem_map_of_mem member⟩
    · rintro ⟨member, named⟩
      obtain ⟨g, inside, own⟩ := List.mem_map.mp named
      rwa [eq_of_id distinct member (sub g inside) own.symm]
  exact (same.append_right _).trans
    (List.perm_append_comm.trans (List.filter_append_perm _ findings))

theorem perm_split (ids : List String) (findings : List ScanFinding) :
    (findings.filter (·.findingId ∈ ids) ++ without ids findings).Perm findings := by
  have split := List.filter_append_perm (fun f : ScanFinding => decide (f.findingId ∈ ids)) findings
  simpa [without] using split

/-- Where the findings of two scans have gone: each of the current ones persists, is pending or is
new, once, and each of the previous ones is settled, pending or fixed. -/
structure ScanDelta.Accounts (d : ScanDelta) (prevFindings currFindings : List ScanFinding)
    (Settled : ScanFinding → Prop) : Prop where
  current : (d.persisting ++ (d.requiresAdjudication.map Prod.snd ++ d.new)).Perm currFindings
  previous : ∃ settled, (settled ++ (d.requiresAdjudication.map Prod.fst ++ d.fixed)).Perm
    prevFindings ∧ ∀ f ∈ settled, Settled f

/-- A previous finding that the current scan has by its hash, or that a link resolves. -/
def Settled (links : List ResolvedLink) (currFindings : List ScanFinding) (f : ScanFinding) :
    Prop :=
  (f.hashKey ≠ none ∧ ∃ g ∈ currFindings, g.hashKey = f.hashKey) ∨
    f.findingId ∈ resolvedPrevIds links

theorem matched_settled {f : ScanFinding}
    (member : f ∈ matched (exactHashes prevFindings currFindings) prevFindings) :
    Settled links currFindings f := by
  obtain ⟨-, h, inside, keyed⟩ := mem_matched member
  have there := of_decide_eq_true (List.mem_filter.mp inside).2
  obtain ⟨item, held, rfl⟩ := List.mem_map.mp there
  have own := (byHash_spec currFindings).own item held
  exact Or.inl ⟨by simp [keyed], item.2, own.1, own.2.trans keyed.symm⟩

section Greedy

variable (window links prevFindings currFindings)

def residualPrev : List ScanFinding :=
  without (resolvedPrevIds links)
    (without (idsOf (matched (exactHashes prevFindings currFindings) prevFindings)) prevFindings)

def residualCurr : List ScanFinding :=
  without (resolvedCurrIds links)
    (without (idsOf (matched (exactHashes prevFindings currFindings) currFindings)) currFindings)

def settledPrev : List ScanFinding :=
  matched (exactHashes prevFindings currFindings) prevFindings ++
    (without (idsOf (matched (exactHashes prevFindings currFindings) prevFindings))
      prevFindings).filter (·.findingId ∈ resolvedPrevIds links)

def residualPairing : Pairing ScanFinding ScanFinding :=
  Pairing.greedy (plausiblePair window) (residualPrev links prevFindings currFindings)
    (residualCurr links prevFindings currFindings)

end Greedy

variable (currScanId : String) (prevScanId : Option String) (projectId : String)

variable (window links) in
theorem computeDelta_pairing (hprev : (idsOf prevFindings).Nodup)
    (hcurr : (idsOf currFindings).Nodup) :
    let d := computeDelta window links prevFindings currFindings currScanId prevScanId projectId
    let pairing := residualPairing window links prevFindings currFindings
    d.requiresAdjudication = pairing.pairs ∧ d.fixed = pairing.left ∧ d.new = pairing.right := by
  have leftNodup : (idsOf (residualPrev links prevFindings currFindings)).Nodup :=
    nodup_without (nodup_without hprev _) _
  have rightNodup : (idsOf (residualCurr links prevFindings currFindings)).Nodup :=
    nodup_without (nodup_without hcurr _) _
  have loop := @foldl_add window _ _ rightNodup leftNodup {} fun _ _ => List.not_mem_nil
  rw [without_nil] at loop
  have marked := (congrArg Candidates.prevIds loop).trans (List.nil_append _)
  have marked' := (congrArg Candidates.currIds loop).trans (List.nil_append _)
  refine ⟨(congrArg Candidates.pairs loop).trans (List.nil_append _), ?_, ?_⟩
  · exact (congrArg (without · _) marked).trans (Pairing.greedy_left_eq leftNodup _).symm
  · exact (congrArg (without · _) marked').trans (Pairing.greedy_right_eq rightNodup).symm

theorem accounts_compute (hprev : (idsOf prevFindings).Nodup) (hcurr : (idsOf currFindings).Nodup) :
    (computeDelta window links prevFindings currFindings currScanId prevScanId projectId).Accounts
      prevFindings currFindings (Settled links currFindings) := by
  obtain ⟨pairs, fixed, new⟩ :=
    computeDelta_pairing window links currScanId prevScanId projectId hprev hcurr
  have hashes := nodup_exactHashes prevFindings currFindings
  constructor
  · have whole := perm_without hcurr (nodup_matched hashes _) fun f member => (mem_matched member).1
    have split := perm_split (resolvedCurrIds links)
      (without (idsOf (matched (exactHashes prevFindings currFindings) currFindings)) currFindings)
    have paired := Pairing.greedy_right (plausiblePair window)
      (residualPrev links prevFindings currFindings) (residualCurr links prevFindings currFindings)
    have all := (((paired.append_left _).trans split).append_left _).trans whole
    rw [pairs, new]
    rwa [← List.append_assoc] at all
  · refine ⟨settledPrev links prevFindings currFindings, ?_, ?_⟩
    · have whole := perm_without hprev (nodup_matched hashes _) fun f member =>
        (mem_matched member).1
      have split := perm_split (resolvedPrevIds links)
        (without (idsOf (matched (exactHashes prevFindings currFindings) prevFindings))
          prevFindings)
      have paired := Pairing.greedy_left (plausiblePair window)
        (residualPrev links prevFindings currFindings)
          (residualCurr links prevFindings currFindings)
      have all := (((paired.append_left _).trans split).append_left _).trans whole
      rw [pairs, fixed]
      rwa [← List.append_assoc] at all
    · intro f member
      cases List.mem_append.mp member with
      | inl exact => exact matched_settled exact
      | inr linked => exact Or.inr (of_decide_eq_true (List.mem_filter.mp linked).2)

/-- What is compared is accounted for, only plausible pairs are pending, and nothing that counts as
fixed could be paired with anything that counts as new. -/
theorem computeDelta_accounts (hprev : (idsOf prevFindings).Nodup)
    (hcurr : (idsOf currFindings).Nodup) :
    (computeDelta window links prevFindings currFindings currScanId prevScanId projectId).Accounts
        prevFindings currFindings (Settled links currFindings) ∧
      (∀ pair ∈ (computeDelta window links prevFindings currFindings currScanId prevScanId
        projectId).requiresAdjudication, plausiblePair window pair.1 pair.2 = true) ∧
      ∀ f ∈ (computeDelta window links prevFindings currFindings currScanId prevScanId
        projectId).fixed, ∀ g ∈ (computeDelta window links prevFindings currFindings currScanId
          prevScanId projectId).new, plausiblePair window f g = false := by
  obtain ⟨pairs, fixed, new⟩ :=
    computeDelta_pairing window links currScanId prevScanId projectId hprev hcurr
  refine ⟨accounts_compute currScanId prevScanId projectId hprev hcurr, ?_, ?_⟩
  · rw [pairs]
    exact Pairing.greedy_close
  · rw [fixed, new]
    exact fun f hf g hg => Pairing.greedy_apart hf hg

def finding (findingId ruleId : String) (startLine : Int) (hash : Option String) : ScanFinding :=
  ⟨findingId, some ruleId, some "src/auth.ts", some startLine, some "medium", none, hash⟩

def scanned : List ScanFinding :=
  [finding "a" "sec-013" 42 (some "h-1"), finding "b" "sec-013" 53 (some "h-2"),
    finding "c" "sec-001" 7 none]

def rescanned : List ScanFinding :=
  [finding "d" "sec-013" 44 (some "h-1"), finding "e" "sec-013" 55 (some "h-3"),
    finding "f" "sec-002" 9 none]

theorem computeDelta_accounts_edited :
    (computeDelta 10 [] scanned rescanned "s-2" (some "s-1") "p").Accounts scanned rescanned
      (Settled [] rescanned) :=
  (computeDelta_accounts "s-2" (some "s-1") "p" (by decide) (by decide)).1

end Account

section Finalize

structure Adjudication where
  prevFindingId : String
  currFindingId : String
  verdict : Option String := some "distinct"

abbrev PairKey := String × String

def pairKey (pair : ScanFinding × ScanFinding) : PairKey := (pair.1.findingId, pair.2.findingId)

/-- `verdict_map`. -/
def verdictMap (adjudications : List Adjudication) : Dict PairKey (Option String) :=
  adjudications.foldl (fun d a => d.set (a.prevFindingId, a.currFindingId) a.verdict) []

/-- `pair_lookup`. -/
def pairLookup (pairs : List (ScanFinding × ScanFinding)) :
    Dict PairKey (ScanFinding × ScanFinding) :=
  pairs.foldl (fun d pair => d.set (pairKey pair) pair) []

def verdictOn (adjudications : List Adjudication) (key : PairKey) : Option String :=
  ((verdictMap adjudications).get key).join

/-- A round of the loop over `pair_lookup`. -/
def applyVerdict (adjudications : List Adjudication) (d : ScanDelta)
    (item : PairKey × ScanFinding × ScanFinding) : ScanDelta :=
  if verdictOn adjudications item.1 = some "same_edited" then
    { d with persisting := d.persisting ++ [item.2.2] }
  else if verdictOn adjudications item.1 = some "distinct" then
    { d with fixed := d.fixed ++ [item.2.1], new := d.new ++ [item.2.2] }
  else { d with requiresAdjudication := d.requiresAdjudication ++ [item.2] }

/-- `finalize_adjudications`, what it stores apart. -/
def finalizeAdjudications (d : ScanDelta) (adjudications : List Adjudication) : ScanDelta :=
  (pairLookup d.requiresAdjudication).foldl (applyVerdict adjudications)
    { d with requiresAdjudication := [] }

def saysSame (adjudications : List Adjudication) (pair : ScanFinding × ScanFinding) : Bool :=
  verdictOn adjudications (pairKey pair) = some "same_edited"

def saysDistinct (adjudications : List Adjudication) (pair : ScanFinding × ScanFinding) : Bool :=
  verdictOn adjudications (pairKey pair) = some "distinct"

def undecided (adjudications : List Adjudication) (pair : ScanFinding × ScanFinding) : Bool :=
  !saysSame adjudications pair && !saysDistinct adjudications pair

theorem foldl_pairLookup (pairs : List (ScanFinding × ScanFinding))
    (d : Dict PairKey (ScanFinding × ScanFinding)) (nodup : (d.keys ++ pairs.map pairKey).Nodup) :
    pairs.foldl (fun d pair => d.set (pairKey pair) pair) d =
      d ++ pairs.map fun pair => (pairKey pair, pair) := by
  induction pairs generalizing d with
  | nil => exact (List.append_nil d).symm
  | cons pair pairs ih =>
    have absent : d.any (·.1 = pairKey pair) = false := by
      rw [List.any_eq_false]
      intro item member
      rw [decide_eq_true_eq]
      intro same
      exact (List.nodup_append.mp nodup).2.2 item.1 (List.mem_map_of_mem member) item.1
        (same ▸ List.mem_cons_self) rfl
    have fresh : d.set (pairKey pair) pair = d ++ [(pairKey pair, pair)] := by
      rw [Dict.set, absent, if_neg Bool.false_ne_true]
    rw [List.foldl_cons, fresh, ih]
    · simp
    · simpa [Dict.keys] using nodup

theorem pairLookup_eq {pairs : List (ScanFinding × ScanFinding)}
    (nodup : (pairs.map pairKey).Nodup) :
    pairLookup pairs = pairs.map fun pair => (pairKey pair, pair) :=
  foldl_pairLookup pairs [] nodup

theorem foldl_applyVerdict (adjudications : List Adjudication)
    (pairs : List (ScanFinding × ScanFinding)) (d : ScanDelta) :
    (pairs.map fun pair => (pairKey pair, pair)).foldl (applyVerdict adjudications) d =
      { d with
        persisting := d.persisting ++ (pairs.filter (saysSame adjudications)).map Prod.snd
        fixed := d.fixed ++ (pairs.filter (saysDistinct adjudications)).map Prod.fst
        new := d.new ++ (pairs.filter (saysDistinct adjudications)).map Prod.snd
        requiresAdjudication := d.requiresAdjudication ++
          pairs.filter (undecided adjudications) } := by
  induction pairs generalizing d with
  | nil => simp
  | cons pair pairs ih =>
    rw [List.map_cons, List.foldl_cons, ih, applyVerdict]
    by_cases same : verdictOn adjudications (pairKey pair) = some "same_edited"
    · simp [same, saysSame, saysDistinct, undecided]
    · by_cases apart : verdictOn adjudications (pairKey pair) = some "distinct"
      · simp [apart, saysSame, saysDistinct, undecided]
      · simp [same, apart, saysSame, saysDistinct, undecided]

variable {d : ScanDelta} {prevFindings currFindings : List ScanFinding} {P : ScanFinding → Prop}
  {adjudications : List Adjudication}

theorem ScanDelta.Accounts.nodup_pairs (accounts : d.Accounts prevFindings currFindings P)
    (hcurr : (idsOf currFindings).Nodup) : (d.requiresAdjudication.map pairKey).Nodup := by
  have ids : (idsOf (d.persisting ++ (d.requiresAdjudication.map Prod.snd ++ d.new))).Nodup :=
    (accounts.current.map ScanFinding.findingId).nodup_iff.mpr hcurr
  rw [idsOf, List.map_append, List.map_append] at ids
  have pending := (List.nodup_append.mp (List.nodup_append.mp ids).2.1).1
  rw [List.map_map] at pending
  apply List.Nodup.of_map Prod.snd
  rwa [List.map_map]

theorem finalizeAdjudications_eq (nodup : (d.requiresAdjudication.map pairKey).Nodup)
    (adjudications : List Adjudication) :
    finalizeAdjudications d adjudications =
      { d with
        persisting := d.persisting ++
          (d.requiresAdjudication.filter (saysSame adjudications)).map Prod.snd
        fixed := d.fixed ++ (d.requiresAdjudication.filter (saysDistinct adjudications)).map
          Prod.fst
        new := d.new ++ (d.requiresAdjudication.filter (saysDistinct adjudications)).map Prod.snd
        requiresAdjudication := d.requiresAdjudication.filter (undecided adjudications) } := by
  rw [finalizeAdjudications, pairLookup_eq nodup, foldl_applyVerdict]
  rfl

theorem perm_decided (adjudications : List Adjudication)
    (pairs : List (ScanFinding × ScanFinding)) :
    (pairs.filter (saysSame adjudications) ++ (pairs.filter (saysDistinct adjudications) ++
      pairs.filter (undecided adjudications))).Perm pairs := by
  induction pairs with
  | nil => exact .nil
  | cons pair pairs ih =>
    cases same : saysSame adjudications pair with
    | true =>
      have notDistinct : saysDistinct adjudications pair = false := by
        simp only [saysSame, decide_eq_true_eq] at same
        simp [saysDistinct, same]
      simp only [List.filter_cons, same, notDistinct, undecided]
      exact ih.cons pair
    | false =>
      cases apart : saysDistinct adjudications pair with
      | true =>
        simp only [List.filter_cons, same, apart, undecided]
        exact List.perm_middle.trans (ih.cons pair)
      | false =>
        simp only [List.filter_cons, same, apart, undecided]
        rw [← List.append_assoc]
        apply List.perm_middle.trans
        rw [List.append_assoc]
        exact ih.cons pair

theorem ScanDelta.Accounts.finalize (accounts : d.Accounts prevFindings currFindings P)
    (hcurr : (idsOf currFindings).Nodup) (adjudications : List Adjudication)
    (settles : ∀ pair, saysSame adjudications pair = true → P pair.1) :
    (finalizeAdjudications d adjudications).Accounts prevFindings currFindings P := by
  rw [finalizeAdjudications_eq (accounts.nodup_pairs hcurr)]
  have decided := perm_decided adjudications d.requiresAdjudication
  obtain ⟨settled, previous, given⟩ := accounts.previous
  constructor
  · apply List.Perm.trans _ accounts.current
    have seconds := decided.map Prod.snd
    rw [List.perm_iff_count] at seconds ⊢
    intro f
    have here := seconds f
    simp only [List.map_append, List.count_append] at here ⊢
    omega
  · refine ⟨settled ++ (d.requiresAdjudication.filter (saysSame adjudications)).map Prod.fst, ?_,
      ?_⟩
    · apply List.Perm.trans _ previous
      have firsts := decided.map Prod.fst
      rw [List.perm_iff_count] at firsts ⊢
      intro f
      have here := firsts f
      simp only [List.map_append, List.count_append] at here ⊢
      omega
    · intro f member
      cases List.mem_append.mp member with
      | inl before => exact given f before
      | inr same =>
        obtain ⟨pair, inside, rfl⟩ := List.mem_map.mp same
        exact settles pair (List.mem_filter.mp inside).2

theorem ScanDelta.Accounts.mono {Q : ScanFinding → Prop}
    (accounts : d.Accounts prevFindings currFindings P) (weaker : ∀ f, P f → Q f) :
    d.Accounts prevFindings currFindings Q := by
  obtain ⟨settled, previous, given⟩ := accounts.previous
  exact ⟨accounts.current, settled, previous, fun f member => weaker f (given f member)⟩

theorem mem_of_verdictOn {key : PairKey} {verdict : String}
    (stated : verdictOn adjudications key = some verdict) :
    ∃ a ∈ adjudications, (a.prevFindingId, a.currFindingId) = key ∧ a.verdict = some verdict := by
  have fold : verdictMap adjudications = (adjudications.map fun a =>
      ((a.prevFindingId, a.currFindingId), a.verdict)).foldl
        (fun d item => Dict.set d item.1 item.2) [] := by
    rw [List.foldl_map]
    rfl
  rw [verdictOn, fold, Dict.get_foldl_set, Dict.get_nil, Option.or_none,
    Option.join_eq_some_iff] at stated
  have member := List.mem_reverse.mp (Dict.mem_of_get stated)
  obtain ⟨a, inside, same⟩ := List.mem_map.mp member
  exact ⟨a, inside, congrArg Prod.fst same, congrArg Prod.snd same⟩

/-- A batch among those of a run says that a finding lives on in another. -/
def Superseded (batches : List (List Adjudication)) (f : ScanFinding) : Prop :=
  ∃ adjudications ∈ batches, ∃ a ∈ adjudications, a.prevFindingId = f.findingId ∧
    a.verdict = some "same_edited"

/-- However many batches of verdicts arrive, in whatever order, every finding of both scans stays
accounted for, and what is pending is what no batch has decided. -/
theorem finalize_run (accounts : d.Accounts prevFindings currFindings P)
    (hcurr : (idsOf currFindings).Nodup) (batches : List (List Adjudication)) :
    (batches.foldl finalizeAdjudications d).Accounts prevFindings currFindings
        (fun f => P f ∨ Superseded batches f) ∧
      (batches.foldl finalizeAdjudications d).requiresAdjudication =
        d.requiresAdjudication.filter fun pair => batches.all (undecided · pair) := by
  induction batches generalizing d P with
  | nil =>
    refine ⟨accounts.mono fun f => Or.inl, ?_⟩
    exact (List.filter_eq_self.mpr fun _ _ => rfl).symm
  | cons batch batches ih =>
    have settles : ∀ pair, saysSame batch pair = true →
        (P pair.1 ∨ Superseded (batch :: batches) pair.1) := by
      intro pair stated
      obtain ⟨a, inside, own, verdict⟩ := mem_of_verdictOn (of_decide_eq_true stated)
      exact Or.inr ⟨batch, List.mem_cons_self, a, inside, congrArg Prod.fst own, verdict⟩
    have step := (accounts.mono fun f => Or.inl).finalize hcurr batch settles
    obtain ⟨later, pending⟩ := ih step
    constructor
    · apply later.mono
      rintro f (before | ⟨other, member, rest⟩)
      · exact before
      · exact Or.inr ⟨other, List.mem_cons_of_mem batch member, rest⟩
    · rw [List.foldl_cons, pending, finalizeAdjudications_eq (accounts.nodup_pairs hcurr),
        List.filter_filter]
      apply List.filter_congr
      intro pair _
      rw [List.all_cons, Bool.and_comm]

theorem finalize_run_edited : ([[⟨"b", "e", some "same_edited"⟩]].foldl finalizeAdjudications
    (computeDelta 10 [] scanned rescanned "s-2" (some "s-1") "p")).Accounts scanned
      rescanned (fun f =>
      Settled [] rescanned f ∨ Superseded [[⟨"b", "e", some "same_edited"⟩]] f) :=
  (finalize_run (accounts_compute "s-2" (some "s-1") "p" (by decide) (by decide)) (by decide) _).1

end Finalize

section Stored

def SecurityEvent.scanFinding (r : SecurityEvent) : ScanFinding :=
  ⟨r.eventId, r.vulnClass, r.filePath, r.lineNumber, r.severity, r.title, none⟩

def SecurityEvent.under (r : SecurityEvent) (scanId : Option String) : Bool :=
  r.isFinding && scanId.isSome && decide (r.parentEventId = scanId)

namespace Spine

variable (s : Spine)

/-- `_get_scan_findings`, which selects NULL for every hash. -/
def scanFindings (scanId : Option String) : List ScanFinding :=
  (s.rows.filter fun r => r.under scanId && scanId.any (· ∈ s.ids) &&
    decide ((s.statusRow r).currentStatus ≠ "resolved")).map (·.scanFinding)

/-- `_get_resolved_links`, which selects NULL for the current finding and the body for the
verdict. -/
def resolvedLinks (prevScanId : Option String) : List ResolvedLink :=
  (s.rows.filter fun e => e.eventKind = .findingResolved &&
    e.parentEventId.any fun p => s.rows.any fun r => r.eventId = p && r.under prevScanId).map
      fun e => ⟨e.parentEventId, none, e.body⟩

/-- `compute_scan_delta`. -/
def computeScanDelta (window : Int) (currScanId : String) (prevScanId : Option String)
    (projectId : String) : ScanDelta :=
  computeDelta window (s.resolvedLinks prevScanId) (s.scanFindings prevScanId)
    (s.scanFindings (some currScanId)) currScanId prevScanId projectId

theorem nodup_scanFindings (scanId : Option String) : (idsOf (s.scanFindings scanId)).Nodup := by
  rw [scanFindings, idsOf, List.map_map]
  exact s.ids_nodup.sublist (List.filter_sublist.map _)

theorem hashKey_scanFindings {scanId : Option String} {f : ScanFinding}
    (member : f ∈ s.scanFindings scanId) : f.hashKey = none := by
  obtain ⟨r, -, rfl⟩ := List.mem_map.mp member
  rfl

end Spine

theorem byHash_of_none {findings : List ScanFinding} (bare : ∀ f ∈ findings, f.hashKey = none) :
    byHash findings = [] := by
  apply List.eq_nil_iff_forall_not_mem.mpr
  intro item member
  have own := (byHash_spec findings).own item member
  rw [bare item.2 own.1] at own
  cases own.2

theorem resolvedCurrIds_resolvedLinks (s : Spine) (prevScanId : Option String) :
    resolvedCurrIds (s.resolvedLinks prevScanId) = [] := by
  apply List.filterMap_eq_nil_iff.mpr
  intro link member
  obtain ⟨e, -, rfl⟩ := List.mem_map.mp (List.mem_of_mem_filter member)
  rfl

/-- A delta that is computed from the spine never reports a finding as persisting, whatever the
spine holds. It accounts for the findings of both scans. -/
theorem computeScanDelta_persisting (s : Spine) (window : Int) (currScanId : String)
    (prevScanId : Option String) (projectId : String) :
    (s.computeScanDelta window currScanId prevScanId projectId).persisting = [] ∧
      (s.computeScanDelta window currScanId prevScanId projectId).Accounts
        (s.scanFindings prevScanId) (s.scanFindings (some currScanId))
        (Settled (s.resolvedLinks prevScanId) (s.scanFindings (some currScanId))) := by
  constructor
  · have bare : byHash (s.scanFindings prevScanId) = [] :=
      byHash_of_none fun f member => s.hashKey_scanFindings member
    have hashes : exactHashes (s.scanFindings prevScanId) (s.scanFindings (some currScanId)) =
        [] := by
      rw [exactHashes, bare]
      rfl
    rw [Spine.computeScanDelta, computeDelta]
    simp only [hashes, resolvedCurrIds_resolvedLinks, matched, List.filterMap_nil, List.nil_append]
    exact List.filter_eq_nil_iff.mpr fun f _ => by simp
  · exact accounts_compute currScanId prevScanId projectId (s.nodup_scanFindings prevScanId)
      (s.nodup_scanFindings (some currScanId))

theorem scanFindings_of_plain {s : Spine} (plain : ∀ e ∈ s.rows, e.Plain) (scanId : Option String) :
    s.scanFindings scanId = [] := by
  rw [Spine.scanFindings, List.map_eq_nil_iff, List.filter_eq_nil_iff]
  intro r member under
  simp only [SecurityEvent.under, Bool.and_eq_true, decide_eq_true_eq] at under
  obtain ⟨⟨⟨⟨finding, given⟩, parent⟩, -⟩, -⟩ := under
  rw [(plain r member).root finding] at parent
  rw [← parent] at given
  cases given

/-- No call that writes to the spine records a finding under a scan: in every run, every delta
between any two scans is empty. -/
theorem scan_run {st : Surface} (plain : ∀ e ∈ st.spine.rows, e.Plain) (writes : List Write)
    (window : Int) (currScanId : String) (prevScanId : Option String) (projectId : String) :
    (st.run writes).spine.computeScanDelta window currScanId prevScanId projectId =
      { currScanId, prevScanId, projectId } := by
  obtain ⟨new, rows, added⟩ := st.grows_run writes
  have all : ∀ e ∈ (st.run writes).spine.rows, e.Plain := by
    intro e member
    rw [rows] at member
    exact (List.mem_append.mp member).elim (plain e) (added e)
  rw [Spine.computeScanDelta, scanFindings_of_plain all, scanFindings_of_plain all]
  rfl

theorem scan_run_leak :
    (({} : Surface).run [.record owned leak "f-1" "t-1"]).spine.computeScanDelta 10
    "s-2" (some "s-1") "p" = { currScanId := "s-2", prevScanId := some "s-1", projectId := "p" } :=
  scan_run (List.forall_mem_nil _) _ 10 "s-2" (some "s-1") "p"

end Stored

end DreamStudio.Findings
