import DreamStudio.Library.Dict
import Mathlib.Data.List.Induction

namespace DreamStudio.Library.Dict

universe u v

variable {α : Type u} {κ : Type v} [DecidableEq κ] (key : α → Option κ) (rows : List α)

/-- `groups.setdefault(key(r), []).append(r)` over the rows that have a key. -/
def group : Dict κ (List α) :=
  rows.foldl
    (fun groups r =>
      match key r with
      | none => groups
      | some k => set groups k ((get groups k).getD [] ++ [r]))
    []

def ofKey (k : κ) : List α := rows.filter fun r => key r = some k

/-- The rows that come after another of their key. -/
def later : List α := (group key rows).flatMap (·.2.tail)

theorem group_concat (r : α) :
    group key (rows ++ [r]) =
      match key r with
      | none => group key rows
      | some k => set (group key rows) k ((get (group key rows) k).getD [] ++ [r]) := by
  rw [group, List.foldl_append]
  rfl

theorem get_group (k : κ) :
    get (group key rows) k = if ofKey key rows k = [] then none else some (ofKey key rows k) := by
  induction rows using List.reverseRecOn with
  | nil => rfl
  | append_singleton rows r ih =>
    have split : ofKey key (rows ++ [r]) k = ofKey key rows k ++
        if key r = some k then [r] else [] := by
      by_cases same : key r = some k <;> simp [ofKey, List.filter_append, same]
    rw [group_concat, split]
    cases own : key r with
    | none => simpa using ih
    | some k' =>
      dsimp only
      rw [get_set]
      by_cases same : k = k'
      · subst same
        have nonempty : ¬ofKey key rows k ++ [r] = [] := by simp
        rw [if_pos rfl, ih, if_pos rfl, if_neg nonempty]
        by_cases empty : ofKey key rows k = [] <;> simp [empty]
      · have apart : ¬some k' = some k := fun h => same (Option.some.inj h).symm
        rw [if_neg same, if_neg apart, List.append_nil, ih]

theorem keys_group_nodup : (keys (group key rows)).Nodup := by
  induction rows using List.reverseRecOn with
  | nil => exact List.nodup_nil
  | append_singleton rows r ih =>
    rw [group_concat]
    cases key r with
    | none => exact ih
    | some k => exact keys_set_nodup ih _ _

theorem mem_group {item : κ × List α} :
    item ∈ group key rows ↔ item.2 = ofKey key rows item.1 ∧ item.2 ≠ [] := by
  have found : item ∈ group key rows ↔ get (group key rows) item.1 = some item.2 :=
    ⟨get_of_mem (keys_group_nodup key rows), mem_of_get⟩
  rw [found, get_group]
  by_cases empty : ofKey key rows item.1 = []
  · rw [if_pos empty, empty]
    exact ⟨nofun, fun ⟨same, held⟩ => absurd same held⟩
  · rw [if_neg empty, Option.some.injEq]
    constructor
    · rintro same
      exact ⟨same.symm, same ▸ empty⟩
    · rintro ⟨same, -⟩
      exact same.symm

theorem mem_ofKey {r : α} {k : κ} : r ∈ ofKey key rows k ↔ r ∈ rows ∧ key r = some k := by
  simp [ofKey]

theorem mem_later {r : α} : r ∈ later key rows ↔ ∃ k, r ∈ (ofKey key rows k).tail := by
  simp only [later, List.mem_flatMap, mem_group, Prod.exists]
  constructor
  · rintro ⟨k, members, ⟨rfl, -⟩, member⟩
    exact ⟨k, member⟩
  · rintro ⟨k, member⟩
    exact ⟨k, _, ⟨rfl, fun empty => by rw [empty] at member; cases member⟩, member⟩

theorem not_later_iff (nodup : rows.Nodup) {r : α} {k : κ} (member : r ∈ rows)
    (own : key r = some k) :
    r ∉ later key rows ↔ (ofKey key rows k).head? = some r := by
  have held : r ∈ ofKey key rows k := (mem_ofKey key rows).mpr ⟨member, own⟩
  have distinct : (ofKey key rows k).Nodup := nodup.filter _
  cases members : ofKey key rows k with
  | nil =>
    rw [members] at held
    cases held
  | cons first rest =>
    rw [members] at held distinct
    rw [List.head?_cons, Option.some.injEq]
    constructor
    · intro absent
      rcases List.mem_cons.mp held with same | after
      · exact same.symm
      · exact absurd ((mem_later key rows).mpr ⟨k, by rw [members]; exact after⟩) absent
    · rintro rfl after
      obtain ⟨k', tail⟩ := (mem_later key rows).mp after
      have same : key first = some k' := ((mem_ofKey key rows).mp (List.mem_of_mem_tail tail)).2
      obtain rfl : k = k' := Option.some.inj (own.symm.trans same)
      rw [members] at tail
      exact (List.nodup_cons.mp distinct).1 tail

end DreamStudio.Library.Dict
