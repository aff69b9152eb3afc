import DreamStudio.Library.Dict

namespace DreamStudio.WorkOrders

open Library

/-- What git answers about a repository: the commits of a range, whether a commit is an ancestor of
HEAD, the commit on HEAD that absorbed one, and when a commit was made. -/
structure Repository where
  commitsIn : String → List String
  isReachable : String → Bool
  resolveSquashed : String → Option String
  commitTimestamp : String → Option Nat

/-- The commits the work orders have recorded as their own, a row a work order. -/
structure Ownership where
  rows : Dict String (List String)
  nodup : (Dict.keys rows).Nodup

structure Attribution where
  own : List String := []
  excluded : Dict String String := []
  note : String := ""
  ownEvidence : Bool := true

variable (repo : Repository) (recorded : Ownership)

def readOwnedCommits (workOrderId : String) : List String :=
  (Dict.get recorded.rows workOrderId).getD []

/-- A recorded commit in `reachable_ownership`: an ancestor of HEAD, absorbed by a squash, or
lost. -/
def followOwn (acc : List String × Dict String String × List String) (sha : String) :
    List String × Dict String String × List String :=
  if repo.isReachable sha then (acc.1 ++ [sha], acc.2)
  else
    match (repo.resolveSquashed sha).filter (· ≠ "") with
    | some target => (acc.1, Dict.set acc.2.1 sha target, acc.2.2)
    | none => (acc.1, acc.2.1, acc.2.2 ++ [sha])

def reachableOwnership (owned : List String) : List String × Dict String String × List String :=
  owned.foldl (followOwn repo) ([], [], [])

/-- A row of another work order in `_ownership_index`. -/
def indexRow (exclude : String) (index : Dict String String) (row : String × List String) :
    Dict String String :=
  if row.1 = exclude then index
  else row.2.foldl (fun index sha => Dict.setDefault index sha row.1) index

def ownershipIndex (exclude : String) : Dict String String :=
  recorded.rows.foldl (indexRow exclude) []

/-- A neighbour's commit in `_squash_aware_index`. -/
def followNeighbour (inRange : List String) (acc : Dict String String × List String)
    (item : String × String) : Dict String String × List String :=
  if item.1 ∈ inRange ∨ repo.isReachable item.1 then acc
  else
    match repo.resolveSquashed item.1 with
    | none => (acc.1, acc.2 ++ [item.1])
    | some target =>
      (if target ∈ inRange then Dict.setDefault acc.1 target item.2 else acc.1, acc.2)

def squashAwareIndex (index : Dict String String) (inRange : List String) :
    Dict String String × List String :=
  index.foldl (followNeighbour repo inRange) (index, [])

/-- `_partition_by_range_floor`: the commits that could be in the range, and those made before
it. -/
def partitionByRangeFloor (shas rangeCommits : List String) : List String × List String :=
  match (rangeCommits.filterMap fun s => (repo.commitTimestamp s).filter (· ≠ 0)).min? with
  | none => (shas, [])
  | some floor =>
    shas.partition fun sha =>
      match repo.commitTimestamp sha with
      | some stamp => floor ≤ stamp
      | none => true

/-- `sorted({wo[:8] for wo in excluded.values()})`. -/
def othersOf (excluded : Dict String String) : List String :=
  ((excluded.map fun item => String.ofList (item.2.toList.take 8)).dedup).mergeSort

def lostNote (squashed lost couldBeHere predate : Nat) : String :=
  (if squashed ≠ 0 then
    " " ++ toString squashed ++
      " of this work order's recorded commits were squashed away and were" ++
      " followed to the merge commit that absorbed them."
  else "") ++
  (if lost ≠ 0 then
    " " ++ toString lost ++
      " recorded commit(s) are no longer reachable from HEAD and could not be" ++
      " mapped to a merge commit, so this work order's own claim over them cannot be applied."
  else "") ++
  (if couldBeHere ≠ 0 then
    " " ++ toString couldBeHere ++ " commit(s) recorded by OTHER work orders are unreachable and" ++
      " unmappable, so their claims could not be applied to this range — a neighbour's work may be" ++
      " graded here."
  else "") ++
  if predate ≠ 0 then
    " " ++ toString predate ++
      " further unmappable neighbour commit(s) predate this range's oldest" ++
      " commit and so cannot be inside it."
  else ""

def mineOf (owned : List String) : List String :=
  if owned.isEmpty then []
  else
    let (reachable, squashed, _) := reachableOwnership repo owned
    reachable ++ squashed.map Prod.snd

def noteOf (expr : String) (allCommits own : List String) (excluded : Dict String String)
    (mine : List String) (lost : String) : String :=
  let others := othersOf excluded
  let names := String.intercalate ", " others
  let unattributed := own.filter (· ∉ mine)
  if excluded ≠ [] ∧ (allCommits.any (· ∈ mine)) = false then
    "Range NOT narrowed to this work order's own commits -- it has NO recorded commit inside " ++
      expr ++
      ", so nothing here carries its claim. What remains is the " ++
        toString own.length ++ " of " ++
      toString allCommits.length ++
        " commit(s) that no OTHER work order claimed, after removing " ++
      toString excluded.length ++ " recorded by " ++ toString others.length ++
      " other work order(s) (" ++ names ++
        "). That is a weaker basis than ownership and must not be" ++
      " read as one: grading it can report a miss for work that is present but was attributed" ++
      " elsewhere. Ownership is recorded at each task-done, so a range whose commits predate this" ++
      " work order's first task-done has none." ++ lost
  else if excluded ≠ [] then
    "Range narrowed to this work order's commits: " ++ toString own.length ++ " of " ++
      toString allCommits.length ++ " in " ++ expr ++ ". " ++ toString excluded.length ++
      " commit(s) were recorded as belonging to " ++ toString others.length ++
      " other work order(s) (" ++ names ++ ") and are not graded here." ++
      (if unattributed ≠ [] then
        " " ++ toString unattributed.length ++
          " of the remaining commits have no recorded owner and are included on that basis alone."
      else "") ++ lost
  else
    "Range NOT narrowed: none of the " ++ toString allCommits.length ++ " commits in " ++ expr ++
      " is recorded as belonging to another work order, so all are graded. Commit ownership is" ++
      " recorded going forward at each task-done; a range predating that carries its full width," ++
      " which may include a branch neighbour's work." ++ lost

def attributeRange (workOrderId expr : String) : Attribution :=
  let allCommits := repo.commitsIn expr
  if allCommits.isEmpty then {}
  else
    let ownedRaw := readOwnedCommits recorded workOrderId
    let mine := mineOf repo ownedRaw
    let (_, squashed, lost) := reachableOwnership repo ownedRaw
    let (owners, unmappableNeighbours) :=
      squashAwareIndex repo (ownershipIndex recorded workOrderId) allCommits
    let (couldBeHere, predate) := partitionByRangeFloor repo unmappableNeighbours allCommits
    let excluded := owners.filter fun item => item.1 ∈ allCommits ∧ item.1 ∉ mine
    let own := allCommits.filter (· ∉ Dict.keys excluded)
    { own := own, excluded := excluded
      note := noteOf expr allCommits own excluded mine
        (lostNote squashed.length lost.length couldBeHere.length predate.length)
      ownEvidence := allCommits.any (· ∈ mine) }

variable {repo} {recorded}

def Records (recorded : Ownership) (workOrderId sha : String) : Prop :=
  sha ∈ readOwnedCommits recorded workOrderId

theorem mem_rows_iff {workOrderId sha : String} :
    Records recorded workOrderId sha ↔
      ∃ row ∈ recorded.rows, row.1 = workOrderId ∧ sha ∈ row.2 := by
  unfold Records readOwnedCommits
  constructor
  · intro member
    cases found : Dict.get recorded.rows workOrderId with
    | none => simp [found] at member
    | some commits =>
      rw [found] at member
      exact ⟨_, Dict.mem_of_get found, rfl, member⟩
  · rintro ⟨⟨woId, commits⟩, row, rfl, member⟩
    rw [Dict.get_of_mem recorded.nodup row]
    exact member

theorem mem_keys_foldl_setDefault {index : Dict String String} {commits : List String}
    {woId sha : String} :
    sha ∈ Dict.keys (commits.foldl (fun index sha => Dict.setDefault index sha woId) index) ↔
      sha ∈ Dict.keys index ∨ sha ∈ commits := by
  induction commits generalizing index with
  | nil => simp
  | cons c commits ih =>
    rw [List.foldl_cons, ih, Dict.mem_keys_setDefault, List.mem_cons, or_assoc]

theorem mem_keys_ownershipIndex {exclude sha : String} :
    sha ∈ Dict.keys (ownershipIndex recorded exclude) ↔
      ∃ other ≠ exclude, Records recorded other sha := by
  have scan : ∀ (rows : Dict String (List String)) (index : Dict String String),
      sha ∈ Dict.keys (rows.foldl (indexRow exclude) index) ↔
        sha ∈ Dict.keys index ∨ ∃ row ∈ rows, row.1 ≠ exclude ∧ sha ∈ row.2 := by
    intro rows index
    induction rows generalizing index with
    | nil => simp
    | cons row rows ih =>
      rw [List.foldl_cons, ih, List.exists_mem_cons_iff]
      unfold indexRow
      split
      next own => simp [own]
      next other =>
        rw [mem_keys_foldl_setDefault, or_assoc]
        simp [other]
  unfold ownershipIndex
  rw [scan]
  simp only [mem_rows_iff]
  constructor
  · rintro (none | ⟨row, member, other, sha⟩)
    · cases none
    · exact ⟨row.1, other, row, member, rfl, sha⟩
  · rintro ⟨other, ne, row, member, rfl, sha⟩
    exact Or.inr ⟨row, member, ne, sha⟩

def ResolvesTo (repo : Repository) (inRange : List String) (c sha : String) : Prop :=
  c ∉ inRange ∧ repo.isReachable c = false ∧ repo.resolveSquashed c = some sha

theorem mem_keys_followNeighbour {inRange : List String} {acc : Dict String String × List String}
    {item : String × String} {sha : String} (member : sha ∈ inRange) :
    sha ∈ Dict.keys (followNeighbour repo inRange acc item).1 ↔
      sha ∈ Dict.keys acc.1 ∨ ResolvesTo repo inRange item.1 sha := by
  unfold followNeighbour ResolvesTo
  split
  next skipped =>
    have no : ¬(item.1 ∉ inRange ∧ repo.isReachable item.1 = false ∧
        repo.resolveSquashed item.1 = some sha) := fun ⟨outside, unreachable, _⟩ =>
      skipped.elim outside fun reachable => nomatch unreachable.symm.trans reachable
    simp only [no, or_false]
  next followed =>
    obtain ⟨outside, unreachable⟩ := not_or.mp followed
    have unreachable : repo.isReachable item.1 = false := by simpa using unreachable
    simp only [outside, unreachable, not_false_eq_true, true_and]
    split
    next unresolved => simp [unresolved]
    next target resolved =>
      rw [resolved, Option.some.injEq]
      split
      next => rw [Dict.mem_keys_setDefault, eq_comm (a := sha)]
      next absent =>
        have other : ¬target = sha := fun same => absent (same ▸ member)
        simp only [other, or_false]

theorem mem_keys_squashAwareIndex {index : Dict String String} {inRange : List String}
    {sha : String} (member : sha ∈ inRange) :
    sha ∈ Dict.keys (squashAwareIndex repo index inRange).1 ↔
      sha ∈ Dict.keys index ∨ ∃ c ∈ Dict.keys index, ResolvesTo repo inRange c sha := by
  have scan : ∀ (items : Dict String String) (acc : Dict String String × List String),
      sha ∈ Dict.keys (items.foldl (followNeighbour repo inRange) acc).1 ↔
        sha ∈ Dict.keys acc.1 ∨ ∃ c ∈ Dict.keys items, ResolvesTo repo inRange c sha := by
    intro items acc
    induction items generalizing acc with
    | nil => simp [Dict.keys]
    | cons item items ih =>
      have keys : Dict.keys (item :: items) = item.1 :: Dict.keys items := rfl
      rw [List.foldl_cons, ih, mem_keys_followNeighbour member, keys,
        List.exists_mem_cons_iff, or_assoc]
  exact scan index (index, [])

def Absorbs (repo : Repository) (c sha : String) : Prop :=
  repo.isReachable c = false ∧ (repo.resolveSquashed c).filter (· ≠ "") = some sha

theorem mem_followOwn {acc : List String × Dict String String × List String} {o : String}
    (sound : ∀ item ∈ acc.2.1, Absorbs repo item.1 item.2) (sha : String) :
    (sha ∈ (followOwn repo acc o).1 ↔ sha ∈ acc.1 ∨ sha = o ∧ repo.isReachable sha = true) ∧
      ∀ c, (c, sha) ∈ (followOwn repo acc o).2.1 ↔
        (c, sha) ∈ acc.2.1 ∨ c = o ∧ Absorbs repo c sha := by
  unfold followOwn
  split
  next reachable =>
    constructor
    · rw [List.mem_append, List.mem_singleton]
      exact or_congr_right ⟨fun same => ⟨same, same ▸ reachable⟩, And.left⟩
    · intro c
      have no : ¬(c = o ∧ Absorbs repo c sha) := by
        rintro ⟨rfl, unreachable, -⟩
        exact nomatch unreachable.symm.trans reachable
      simp only [no, or_false]
  next unreachable =>
    have first : sha ∈ acc.1 ↔ sha ∈ acc.1 ∨ sha = o ∧ repo.isReachable sha = true := by
      have no : ¬(sha = o ∧ repo.isReachable sha = true) := by
        rintro ⟨rfl, reachable⟩
        exact unreachable reachable
      simp only [no, or_false]
    have unreachable : repo.isReachable o = false := by simpa using unreachable
    split
    next target resolved =>
      refine ⟨first, fun c => ?_⟩
      have agree : ∀ v, (o, v) ∈ acc.2.1 → v = target := fun v member =>
        Option.some.inj ((sound _ member).2.symm.trans resolved)
      rw [Dict.mem_set_of_agree agree, Prod.mk.injEq]
      refine or_congr_right (and_congr_right ?_)
      rintro rfl
      unfold Absorbs
      rw [resolved, Option.some.injEq]
      exact ⟨fun same => ⟨unreachable, same.symm⟩, fun absorbed => absorbed.2.symm⟩
    next unresolved =>
      refine ⟨first, fun c => ?_⟩
      have no : ¬(c = o ∧ Absorbs repo c sha) := by
        rintro ⟨rfl, -, resolved⟩
        exact nomatch resolved.symm.trans unresolved
      simp only [no, or_false]

theorem mem_reachableOwnership {owned : List String} {sha : String} :
    (sha ∈ (reachableOwnership repo owned).1 ↔ sha ∈ owned ∧ repo.isReachable sha = true) ∧
      ∀ c, (c, sha) ∈ (reachableOwnership repo owned).2.1 ↔ c ∈ owned ∧ Absorbs repo c sha := by
  have scan : ∀ (owned : List String) (acc : List String × Dict String String × List String),
      (∀ item ∈ acc.2.1, Absorbs repo item.1 item.2) →
      (sha ∈ (owned.foldl (followOwn repo) acc).1 ↔
        sha ∈ acc.1 ∨ sha ∈ owned ∧ repo.isReachable sha = true) ∧
      ∀ c, (c, sha) ∈ (owned.foldl (followOwn repo) acc).2.1 ↔
        (c, sha) ∈ acc.2.1 ∨ c ∈ owned ∧ Absorbs repo c sha := by
    intro owned acc sound
    induction owned generalizing acc with
    | nil => simp
    | cons o owned ih =>
      have sound' : ∀ item ∈ (followOwn repo acc o).2.1, Absorbs repo item.1 item.2 :=
        fun item member =>
        (((mem_followOwn sound item.2).2 item.1).mp member).elim (sound item) And.right
      obtain ⟨reachable, squashed⟩ := ih _ sound'
      obtain ⟨here, there⟩ := mem_followOwn (o := o) sound sha
      constructor
      · rw [List.foldl_cons, reachable, here, List.mem_cons, or_and_right, or_assoc]
      · intro c
        rw [List.foldl_cons, squashed, there, List.mem_cons, or_and_right, or_assoc]
  obtain ⟨reachable, squashed⟩ := scan owned ([], [], []) (by simp)
  exact ⟨reachable.trans (by simp), fun c => (squashed c).trans (by simp)⟩

theorem mem_mineOf {owned : List String} {sha : String} :
    sha ∈ mineOf repo owned ↔
      sha ∈ owned ∧ repo.isReachable sha = true ∨ ∃ c ∈ owned, Absorbs repo c sha := by
  unfold mineOf
  split
  next none =>
    rw [List.isEmpty_iff.mp none]
    simp
  next =>
    rw [List.mem_append, mem_reachableOwnership.1, List.mem_map]
    apply or_congr_right
    constructor
    · rintro ⟨⟨c, target⟩, member, rfl⟩
      exact ⟨c, (mem_reachableOwnership.2 c).mp member⟩
    · rintro ⟨c, member⟩
      exact ⟨(c, sha), (mem_reachableOwnership.2 c).mpr member, rfl⟩

section Ranges

variable (repo) (recorded) (w expr : String)

/-- Each commit of the range is the work order's own or excluded, and not both. -/
def Partitions : Prop :=
  let a := attributeRange repo recorded w expr
  (∀ sha ∈ repo.commitsIn expr, sha ∈ a.own ↔ sha ∉ Dict.keys a.excluded) ∧
    a.own ⊆ repo.commitsIn expr ∧ Dict.keys a.excluded ⊆ repo.commitsIn expr

/-- A commit is excluded only if another work order recorded it, or one that resolves to it. -/
def ExcludesClaimed : Prop :=
  ∀ sha ∈ Dict.keys (attributeRange repo recorded w expr).excluded,
    ∃ other ≠ w, Records recorded other sha ∨
      ∃ c, Records recorded other c ∧ repo.resolveSquashed c = some sha

/-- No commit of the range that the work order recorded is excluded. -/
def KeepsOwn : Prop :=
  ∀ sha ∈ repo.commitsIn expr, Records recorded w sha →
    sha ∉ Dict.keys (attributeRange repo recorded w expr).excluded

def Claimed (sha : String) : Prop :=
  ∃ other ≠ w, Records recorded other sha ∨
    ∃ c, Records recorded other c ∧ ResolvesTo repo (repo.commitsIn expr) c sha

/-- Each commit of the range that the work order recorded is an ancestor of HEAD, absorbed one of
its own, or claimed by nobody else. -/
def Defended : Prop :=
  ∀ sha ∈ repo.commitsIn expr, Records recorded w sha →
    repo.isReachable sha = true ∨ (∃ c, Records recorded w c ∧ Absorbs repo c sha) ∨
      ¬Claimed repo recorded w expr sha

variable {repo} {recorded} {w} {expr}

theorem attributeRange_fields :
    (attributeRange repo recorded w expr).own =
        (repo.commitsIn expr).filter
          (· ∉ Dict.keys (attributeRange repo recorded w expr).excluded) ∧
      (attributeRange repo recorded w expr).excluded =
        if repo.commitsIn expr = [] then []
        else (squashAwareIndex repo (ownershipIndex recorded w)
          (repo.commitsIn expr)).1.filter fun item =>
            item.1 ∈ repo.commitsIn expr ∧ item.1 ∉ mineOf repo (readOwnedCommits recorded w) := by
  unfold attributeRange
  cases repo.commitsIn expr with
  | nil => exact ⟨rfl, rfl⟩
  | cons c commits => exact ⟨rfl, rfl⟩

theorem mem_excluded {sha : String} :
    sha ∈ Dict.keys (attributeRange repo recorded w expr).excluded ↔
      sha ∈ repo.commitsIn expr ∧ Claimed repo recorded w expr sha ∧
        sha ∉ mineOf repo (readOwnedCommits recorded w) := by
  rw [attributeRange_fields.2]
  split
  next none => simp [none, Dict.keys]
  next =>
    have keys : ∀ d : Dict String String,
        sha ∈ Dict.keys (d.filter fun item => item.1 ∈ repo.commitsIn expr ∧
          item.1 ∉ mineOf repo (readOwnedCommits recorded w)) ↔
        sha ∈ repo.commitsIn expr ∧ sha ∈ Dict.keys d ∧
          sha ∉ mineOf repo (readOwnedCommits recorded w) := fun d => by
      simp only [Dict.keys, List.mem_map, List.mem_filter, decide_eq_true_eq]
      constructor
      · rintro ⟨item, ⟨member, inRange, other⟩, rfl⟩
        exact ⟨inRange, ⟨item, member, rfl⟩, other⟩
      · rintro ⟨inRange, ⟨item, member, rfl⟩, other⟩
        exact ⟨item, ⟨member, inRange, other⟩, rfl⟩
    rw [keys]
    refine and_congr_right fun inRange => and_congr_left' ?_
    rw [mem_keys_squashAwareIndex inRange, mem_keys_ownershipIndex]
    simp only [mem_keys_ownershipIndex, Claimed]
    constructor
    · rintro (⟨other, ne, records⟩ | ⟨c, ⟨other, ne, records⟩, follows⟩)
      · exact ⟨other, ne, Or.inl records⟩
      · exact ⟨other, ne, Or.inr ⟨c, records, follows⟩⟩
    · rintro ⟨other, ne, records | ⟨c, records, follows⟩⟩
      · exact Or.inl ⟨other, ne, records⟩
      · exact Or.inr ⟨c, ⟨other, ne, records⟩, follows⟩

theorem partitions : Partitions repo recorded w expr := by
  refine ⟨fun sha member => ?_, ?_, fun sha member => (mem_excluded.mp member).1⟩
  · rw [attributeRange_fields.1, List.mem_filter, decide_eq_true_eq, and_iff_right member]
  · rw [attributeRange_fields.1]
    exact List.filter_sublist.subset

theorem excludesClaimed : ExcludesClaimed repo recorded w expr := by
  intro sha member
  obtain ⟨other, ne, claim⟩ := (mem_excluded.mp member).2.1
  exact ⟨other, ne, claim.imp_right fun ⟨c, records, follows⟩ => ⟨c, records, follows.2.2⟩⟩

theorem keepsOwn_iff : KeepsOwn repo recorded w expr ↔ Defended repo recorded w expr := by
  unfold KeepsOwn Defended
  refine forall_congr' fun sha => forall_congr' fun inRange => forall_congr' fun records => ?_
  rw [mem_excluded, mem_mineOf, and_iff_right inRange]
  have own : sha ∈ readOwnedCommits recorded w := records
  rw [and_iff_right own, not_and_not_right, imp_iff_not_or, or_comm, or_assoc]
  rfl

end Ranges

/-- Attribution parts a range into own and excluded commits and excludes only what another work
order has a claim to; it keeps every commit the work order recorded exactly if each is an ancestor
of HEAD, absorbed one of its own, or is claimed by nobody else. -/
theorem attributeRange_keeps_iff (repo : Repository) (recorded : Ownership) (w expr : String) :
    (Partitions repo recorded w expr ∧ ExcludesClaimed repo recorded w expr ∧
      KeepsOwn repo recorded w expr) ↔ Defended repo recorded w expr := by
  rw [← keepsOwn_iff]
  exact ⟨fun h => h.2.2, fun keeps => ⟨partitions, excludesClaimed, keeps⟩⟩

def unmerged : Repository where
  commitsIn _ := ["c"]
  isReachable _ := false
  resolveSquashed _ := none
  commitTimestamp _ := some 1

def sharedCommit : Ownership where
  rows := [("mine", ["c"]), ("other", ["c"])]
  nodup := by decide

/-- The commit is excluded, though the work order recorded it. -/
theorem sharedCommit_dropped :
    ¬∀ (repo : Repository) (recorded : Ownership) (w expr : String),
      Partitions repo recorded w expr ∧ ExcludesClaimed repo recorded w expr ∧
        KeepsOwn repo recorded w expr := by
  intro holds
  have excluded : "c" ∈
      Dict.keys (attributeRange unmerged sharedCommit "mine" "main..branch").excluded := by
    decide +kernel
  have recorded : "c" ∈ readOwnedCommits sharedCommit "mine" := by decide
  have inRange : "c" ∈ unmerged.commitsIn "main..branch" := by decide
  exact (holds unmerged sharedCommit "mine" "main..branch").2.2 "c" inRange recorded excluded

end DreamStudio.WorkOrders
