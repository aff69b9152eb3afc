import DreamStudio.Library.Json
import Mathlib.Data.List.Pairwise
import Mathlib.Algebra.Group.Int.Defs

namespace DreamStudio.Library

/-- A value as SQLite stores it in a column of TEXT affinity. -/
abbrev Text := Option String

/-- Binding a Python value to a TEXT column. A bool is an int to SQLite, a NaN is stored as NULL,
a list or dict has no binding and an int past 64 bits overflows: both raise. -/
def bindText : Json → Except String Text
  | .null => .ok none
  | .bool b => .ok (some (if b then "1" else "0"))
  | .int n =>
    if -2 ^ 63 ≤ n ∧ n < 2 ^ 63 then .ok (some (toString n))
    else .error "Python int too large to convert to SQLite INTEGER"
  | .float .nan => .ok none
  | .float (.number _ text) => .ok (some text)
  | .str s => .ok (some s)
  | .arr _ => .error "type 'list' is not supported"
  | .obj _ => .error "type 'dict' is not supported"

/-- `text LIKE pattern`: `%` is any run of characters, `_` any one, ASCII case is ignored. -/
def like : List Char → List Char → Bool
  | [], text => text.isEmpty
  | p :: ps, text =>
    if p = '%' then text.tails.any (like ps)
    else
      match text with
      | [] => false
      | c :: cs => (p = '_' || p.toLower = c.toLower) && like ps cs

namespace Table

variable {ρ : Type*} {κ : Type*} (key : ρ → Option κ)

def SameKey (r s : ρ) : Prop := key r = key s ∧ key r ≠ none

instance [DecidableEq κ] (r s : ρ) : Decidable (SameKey key r s) :=
  inferInstanceAs (Decidable (_ ∧ _))

def Unique (rows : List ρ) : Prop := rows.Pairwise fun r s => ¬ SameKey key r s

instance [DecidableEq κ] (rows : List ρ) : Decidable (Unique key rows) :=
  inferInstanceAs (Decidable (List.Pairwise _ _))

/-- `INSERT OR IGNORE`: a row that meets a key already held, or that `admits` refuses (a NULL in a
NOT NULL column, a failed CHECK), is dropped in silence. -/
def insertOrIgnore [DecidableEq κ] (admits : ρ → Bool) (rows : List ρ) (row : ρ) : List ρ :=
  if admits row && !rows.any (fun r => SameKey key r row) then rows ++ [row] else rows

/-- `UPDATE … WHERE`. -/
def update (p : ρ → Bool) (f : ρ → ρ) (rows : List ρ) : List ρ :=
  rows.map fun r => if p r then f r else r

/-- The row a primary key picks. -/
def lookup [DecidableEq κ] (k : κ) (rows : List ρ) : Option ρ := rows.find? fun r => key r = some k

/-- `INSERT … ON CONFLICT(key) DO UPDATE`: `set` writes the columns the statement names, `blank`
carries the key and the defaults of the others. -/
def upsert [DecidableEq κ] (blank : ρ) (set : ρ → ρ) (rows : List ρ) : List ρ :=
  if rows.any (fun r => SameKey key r blank) then
    update (fun r => SameKey key r blank) set rows
  else rows ++ [set blank]

/-- A row with the key is there. No row has the key NULL. -/
def Holds (rows : List ρ) (k : Option κ) : Prop := ∃ r ∈ rows, key r = k ∧ k ≠ none

instance [DecidableEq κ] (rows : List ρ) (k : Option κ) : Decidable (Holds key rows k) :=
  inferInstanceAs (Decidable (∃ r ∈ rows, _))

def newer (id : ρ → Nat) : Option ρ → ρ → Option ρ
  | none, r => some r
  | some best, r => if id best ≤ id r then some r else some best

/-- `ORDER BY id DESC LIMIT 1`. -/
def newest (id : ρ → Nat) (rows : List ρ) : Option ρ := rows.foldl (newer id) none

variable {key}

@[simp] theorem newest_nil (id : ρ → Nat) : newest id [] = none := rfl

@[simp] theorem newest_singleton (id : ρ → Nat) (r : ρ) : newest id [r] = some r := rfl

theorem mem_of_foldl_newer {id : ρ → Nat} {rows : List ρ} {start : Option ρ} {r : ρ}
    (h : rows.foldl (newer id) start = some r) : start = some r ∨ r ∈ rows := by
  induction rows generalizing start with
  | nil => exact Or.inl h
  | cons q rows ih =>
    rcases ih h with found | found
    · cases start with
      | none => exact Or.inr (Option.some.inj found ▸ List.mem_cons_self)
      | some best =>
        simp only [newer] at found
        split at found
        · exact Or.inr (Option.some.inj found ▸ List.mem_cons_self)
        · exact Or.inl found
    · exact Or.inr (List.mem_cons_of_mem _ found)

theorem mem_of_newest {id : ρ → Nat} {rows : List ρ} {r : ρ} (h : newest id rows = some r) :
    r ∈ rows := (mem_of_foldl_newer h).resolve_left nofun

theorem SameKey.symm {r s : ρ} (h : SameKey key r s) : SameKey key s r := ⟨h.1.symm, h.1 ▸ h.2⟩

instance : Std.Symm fun r s => ¬ SameKey key r s := ⟨fun _ _ h hs => h hs.symm⟩

theorem append_unique_iff {rows : List ρ} (h : Unique key rows) (row : ρ) :
    Unique key (rows ++ [row]) ↔ ∀ r ∈ rows, ¬ SameKey key r row := by
  simp [Unique, List.pairwise_append, show rows.Pairwise _ from h]

theorem filter_unique {rows : List ρ} (h : Unique key rows) (p : ρ → Bool) :
    Unique key (rows.filter p) := List.Pairwise.filter p h

theorem Holds.mono {rows rows' : List ρ} {k : Option κ} (h : Holds key rows k)
    (sub : rows ⊆ rows') :
    Holds key rows' k := by
  obtain ⟨r, hr, hk⟩ := h
  exact ⟨r, sub hr, hk⟩

section Insert

variable [DecidableEq κ]

theorem mem_insertOrIgnore {admits : ρ → Bool} {rows : List ρ} {row r : ρ} :
    r ∈ insertOrIgnore key admits rows row ↔
      r ∈ rows ∨ r = row ∧ admits row = true ∧ ∀ q ∈ rows, ¬ SameKey key q row := by
  unfold insertOrIgnore
  split
  next h =>
    simp only [Bool.and_eq_true, Bool.not_eq_true', List.any_eq_false, decide_eq_true_eq] at h
    simp only [List.mem_append, List.mem_singleton]
    exact or_congr_right ⟨fun hr => ⟨hr, h.1, h.2⟩, fun hr => hr.1⟩
  next h =>
    refine ⟨Or.inl, ?_⟩
    rintro (hr | ⟨rfl, ha, hq⟩)
    · exact hr
    · exact absurd (by simpa [ha] using hq) h

theorem subset_insertOrIgnore (admits : ρ → Bool) (rows : List ρ) (row : ρ) :
    rows ⊆ insertOrIgnore key admits rows row := fun _ h => mem_insertOrIgnore.mpr (Or.inl h)

theorem insertOrIgnore_unique {admits : ρ → Bool} {rows : List ρ} (h : Unique key rows) (row : ρ) :
    Unique key (insertOrIgnore key admits rows row) := by
  unfold insertOrIgnore
  split
  next hc =>
    simp only [Bool.and_eq_true, Bool.not_eq_true', List.any_eq_false, decide_eq_true_eq] at hc
    exact (append_unique_iff h row).mpr hc.2
  next => exact h

theorem holds_insertOrIgnore {admits : ρ → Bool} {rows : List ρ} {row : ρ} :
    Holds key (insertOrIgnore key admits rows row) (key row) ↔
      key row ≠ none ∧ (Holds key rows (key row) ∨ admits row = true) := by
  constructor
  · rintro ⟨r, hr, hkey, some⟩
    rcases mem_insertOrIgnore.mp hr with hr | ⟨-, ha, -⟩
    · exact ⟨some, Or.inl ⟨r, hr, hkey, some⟩⟩
    · exact ⟨some, Or.inr ha⟩
  · rintro ⟨some, held | ha⟩
    · exact held.mono (subset_insertOrIgnore _ _ _)
    · by_cases held : ∃ r ∈ rows, SameKey key r row
      · obtain ⟨r, hr, hs⟩ := held
        exact ⟨r, subset_insertOrIgnore _ _ _ hr, hs.1, some⟩
      · have fresh : ∀ q ∈ rows, ¬ SameKey key q row := fun q hq hs => held ⟨q, hq, hs⟩
        exact ⟨row, mem_insertOrIgnore.mpr (Or.inr ⟨rfl, ha, fresh⟩), rfl, some⟩

end Insert

theorem eq_of_key_eq {rows : List ρ} (h : Unique key rows) {r s : ρ} (hr : r ∈ rows) (hs : s ∈ rows)
    (hk : key r = key s) (hn : key r ≠ none) : r = s := by
  by_contra hne
  exact List.Pairwise.forall h hr hs hne ⟨hk, hn⟩

theorem countP_apart [DecidableEq κ] {rows : List ρ} (unique : Unique key rows) {r : ρ}
    (member : r ∈ rows) {k : κ} (own : key r = some k) (p : ρ → Bool) :
    rows.countP p = (rows.countP fun s => p s && key s ≠ some k) + if p r then 1 else 0 := by
  obtain ⟨front, back, rfl⟩ := List.append_of_mem member
  have others {s : ρ} (h : s ∈ front ∨ s ∈ back) : key s ≠ some k := by
    intro same
    have apart := List.pairwise_append.mp unique
    cases h with
    | inl inFront =>
      exact apart.2.2 s inFront r List.mem_cons_self
        ⟨same.trans own.symm, same.trans_ne (Option.some_ne_none _)⟩
    | inr inBack =>
      exact (List.pairwise_cons.mp apart.2.1).1 s inBack
        ⟨own.trans same.symm, own.trans_ne (Option.some_ne_none _)⟩
  have kept (part : List ρ) (h : ∀ s ∈ part, s ∈ front ∨ s ∈ back) :
      part.countP p = part.countP fun s => p s && key s ≠ some k := by
    apply List.countP_congr
    intro s inPart
    simp only [others (h s inPart), ne_eq, not_false_iff, decide_true, Bool.and_true]
  rw [List.countP_append, List.countP_append, List.countP_cons, List.countP_cons,
    kept front fun _ => Or.inl,
    kept back fun _ => Or.inr]
  simp only [own, ne_eq, not_true, decide_false, Bool.and_false, Bool.false_eq_true, if_false]
  omega

theorem mem_update {p : ρ → Bool} {f : ρ → ρ} {rows : List ρ} {r : ρ} :
    r ∈ update p f rows ↔ ∃ q ∈ rows, (if p q then f q else q) = r := List.mem_map

theorem lookup_key [DecidableEq κ] {k : κ} {rows : List ρ} {r : ρ}
    (h : lookup key k rows = some r) :
    r ∈ rows ∧ key r = some k :=
  ⟨List.mem_of_find?_eq_some h, by simpa using List.find?_some h⟩

theorem exists_lookup [DecidableEq κ] {k : κ} {rows : List ρ} {r : ρ} (hr : r ∈ rows)
    (hk : key r = some k) : ∃ q, lookup key k rows = some q :=
  Option.isSome_iff_exists.mp (List.find?_isSome.mpr ⟨r, hr, decide_eq_true hk⟩)

theorem lookup_insertOrIgnore [DecidableEq κ] {admits : ρ → Bool} {row : ρ}
    (admitted : admits row = true) (k : κ) (rows : List ρ) :
    lookup key k (insertOrIgnore key admits rows row) =
      (lookup key k rows).or (if key row = some k then some row else none) := by
  unfold insertOrIgnore lookup
  by_cases held : rows.any (fun r => SameKey key r row) = true
  · rw [if_neg (by simp [held])]
    split
    next hk =>
      obtain ⟨r, hr, same⟩ := List.any_eq_true.mp held
      have hr' : key r = some k := by rw [← hk]; exact (of_decide_eq_true same).1
      obtain ⟨q, hq⟩ := exists_lookup hr hr'
      unfold lookup at hq
      simp [hq]
    next => simp
  · rw [if_pos (by simp [admitted, held]), List.find?_append]
    simp [List.find?_cons]
    split <;> simp_all

theorem lookup_update [DecidableEq κ] {p : ρ → Bool} {f : ρ → ρ} (hf : ∀ r, key (f r) = key r)
    (k : κ) (rows : List ρ) :
    lookup key k (update p f rows) = (lookup key k rows).map fun r => if p r then f r else r := by
  unfold lookup update
  rw [List.find?_map]
  congr 2
  funext r
  simp only [Function.comp]
  split <;> simp [hf]

theorem lookup_upsert [DecidableEq κ] {blank : ρ} {set : ρ → ρ} (hset : ∀ r, key (set r) = key r)
    {k : κ} (hk : key blank = some k) (rows : List ρ) :
    lookup key k (upsert key blank set rows) = some (set ((lookup key k rows).getD blank)) := by
  unfold upsert
  split
  next held =>
    obtain ⟨r, hr, same⟩ := List.any_eq_true.mp held
    have hr' : key r = some k := hk ▸ (of_decide_eq_true same).1
    obtain ⟨q, hq⟩ := exists_lookup hr hr'
    have hqk : key q = key blank := (lookup_key hq).2.trans hk.symm
    rw [lookup_update hset, hq]
    simp [SameKey, hqk, hk]
  next absent =>
    have none_held : lookup key k rows = none := by
      refine List.find?_eq_none.mpr fun r hr hrk => absent ?_
      have hr' : key r = key blank := (of_decide_eq_true hrk).trans hk.symm
      exact List.any_eq_true.mpr ⟨r, hr, decide_eq_true ⟨hr', by simp [hr', hk]⟩⟩
    rw [none_held]
    unfold lookup at none_held ⊢
    rw [List.find?_append, none_held]
    simp [hset, hk]

theorem lookup_upsert_of_ne [DecidableEq κ] {blank : ρ} {set : ρ → ρ}
    (hset : ∀ r, key (set r) = key r) {k : κ} (hk : key blank ≠ some k) (rows : List ρ) :
    lookup key k (upsert key blank set rows) = lookup key k rows := by
  unfold upsert
  split
  next =>
    rw [lookup_update hset]
    cases found : lookup key k rows with
    | none => rfl
    | some r =>
      have other : key r ≠ key blank := fun same => hk (same ▸ (lookup_key found).2)
      simp [SameKey, other]
  next =>
    unfold lookup
    rw [List.find?_append]
    simp [hset, hk]

theorem update_eq_self {p : ρ → Bool} {rows : List ρ} (h : ∀ r ∈ rows, p r = false) (f : ρ → ρ) :
    update p f rows = rows := by
  refine (List.map_congr_left fun r hr => ?_).trans (List.map_id' rows)
  simp [h r hr]

theorem filter_update {p q : ρ → Bool} {f : ρ → ρ} (h : ∀ r, q (f r) = q r) (rows : List ρ) :
    (update p f rows).filter q = update p f (rows.filter q) := by
  induction rows with
  | nil => rfl
  | cons r rows ih =>
    have hq : q (if p r then f r else r) = q r := by split <;> simp [h]
    simp only [update, List.map_cons, List.filter_cons, hq] at ih ⊢
    split <;> simp [ih]

theorem any_update {p q : ρ → Bool} {f : ρ → ρ} {rows : List ρ}
    (h : ∀ r ∈ rows, p r = true → q (f r) = q r) : (update p f rows).any q = rows.any q := by
  induction rows with
  | nil => rfl
  | cons r rows ih =>
    have hq : q (if p r then f r else r) = q r := by
      split
      next hp => exact h r List.mem_cons_self hp
      next => rfl
    simp only [update, List.map_cons, List.any_cons, hq] at ih ⊢
    rw [ih fun s hs => h s (List.mem_cons_of_mem _ hs)]

theorem update_unique {p : ρ → Bool} {f : ρ → ρ} {rows : List ρ} (h : Unique key rows)
    (hf : ∀ r ∈ rows, key (f r) = key r) : Unique key (update p f rows) := by
  have hkey : ∀ r ∈ rows, key (if p r then f r else r) = key r := fun r hr => by
    split
    · exact hf r hr
    · rfl
  refine List.pairwise_map.mpr (h.imp_of_mem ?_)
  intro r s hr hs hrs hsame
  rw [SameKey, hkey r hr, hkey s hs] at hsame
  exact hrs hsame

theorem upsert_unique [DecidableEq κ] {rows : List ρ} (h : Unique key rows) {set : ρ → ρ}
    (hset : ∀ r, key (set r) = key r) (blank : ρ) : Unique key (upsert key blank set rows) := by
  unfold upsert
  split
  next => exact update_unique h fun r _ => hset r
  next absent =>
    refine (append_unique_iff h _).mpr fun r hr same => absent (List.any_eq_true.mpr ⟨r, hr, ?_⟩)
    rw [SameKey, hset] at same
    exact decide_eq_true same

theorem mem_upsert_cases [DecidableEq κ] {rows : List ρ} {set : ρ → ρ} {blank r : ρ}
    (h : r ∈ upsert key blank set rows) :
    r ∈ rows ∧ ¬SameKey key r blank ∨ r = set blank ∨ ∃ q ∈ rows, SameKey key q blank ∧
      r = set q := by
  unfold upsert at h
  split at h
  next =>
    obtain ⟨q, hq, rfl⟩ := mem_update.mp h
    split
    next same => exact Or.inr (Or.inr ⟨q, hq, of_decide_eq_true same, rfl⟩)
    next other => exact Or.inl ⟨hq, fun same => other (decide_eq_true same)⟩
  next absent =>
    rcases List.mem_append.mp h with h | h
    · exact Or.inl ⟨h, fun same => absent (List.any_eq_true.mpr ⟨r, h, decide_eq_true same⟩)⟩
    · exact Or.inr (Or.inl (List.mem_singleton.mp h))

theorem mem_upsert [DecidableEq κ] {rows : List ρ} {set : ρ → ρ} {blank r : ρ}
    (h : r ∈ upsert key blank set rows) :
    r ∈ rows ∨ r = set blank ∨ ∃ q ∈ rows, SameKey key q blank ∧ r = set q :=
  (mem_upsert_cases h).imp_left And.left

theorem lookup_insertOrIgnore_of_ne [DecidableEq κ] {admits : ρ → Bool} {row : ρ} {k : κ}
    (other : key row ≠ some k) (rows : List ρ) :
    lookup key k (insertOrIgnore key admits rows row) = lookup key k rows := by
  unfold insertOrIgnore
  split
  · simp [lookup, other]
  · rfl

theorem lookup_merge [DecidableEq κ] {admits : ρ → Bool} {row : ρ} {k : κ} (hrow : key row = some k)
    {f : ρ → ρ} (hf : ∀ r, key (f r) = key r) {p : ρ → Bool} (hp : ∀ r, p r = true ↔ key r = some k)
    (rows : List ρ) :
    lookup key k (update p f (insertOrIgnore key admits rows row)) =
      ((lookup key k rows).or (if admits row then some row else none)).map f := by
  have inserted : lookup key k (insertOrIgnore key admits rows row) =
      (lookup key k rows).or (if admits row then some row else none) := by
    cases ha : admits row with
    | true =>
      have same : lookup key k (insertOrIgnore key (fun _ => true) rows row) = _ :=
        lookup_insertOrIgnore rfl k rows
      rw [if_pos hrow] at same
      rw [if_pos rfl, ← same]
      simp [insertOrIgnore, ha]
    | false => simp [insertOrIgnore, ha]
  rw [lookup_update hf, inserted]
  refine Option.map_congr fun r found => if_pos ((hp r).mpr ?_)
  rcases Option.or_eq_some_iff.mp found with held | ⟨-, held⟩
  · exact (lookup_key held).2
  · split at held
    · cases held
      exact hrow
    · cases held

theorem forall_insertOrIgnore [DecidableEq κ] {admits : ρ → Bool} {rows : List ρ} {row : ρ}
    {P : ρ → Prop} (h : ∀ r ∈ rows, P r) (hrow : P row) :
    ∀ r ∈ insertOrIgnore key admits rows row, P r := by
  intro r hr
  rcases mem_insertOrIgnore.mp hr with hr | ⟨rfl, -⟩
  · exact h r hr
  · exact hrow

theorem forall_update {p : ρ → Bool} {f : ρ → ρ} {rows : List ρ} {P : ρ → Prop}
    (h : ∀ r ∈ rows, P r) (hf : ∀ r, P r → P (f r)) : ∀ r ∈ update p f rows, P r := by
  intro r hr
  obtain ⟨q, hq, rfl⟩ := mem_update.mp hr
  split
  · exact hf q (h q hq)
  · exact h q hq

end Table

end DreamStudio.Library
