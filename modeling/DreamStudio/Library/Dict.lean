import Mathlib.Data.List.Nodup

namespace DreamStudio.Library

universe u v w

/-- A dict, its items in the order of insertion. -/
abbrev Dict (κ : Type u) (ν : Type v) := List (κ × ν)

namespace Dict

variable {κ : Type u} {ν : Type v} [DecidableEq κ]

/-- `d.get(key)`. -/
def get (d : Dict κ ν) (key : κ) : Option ν := (d.find? (·.1 = key)).map (·.2)

/-- `d[key] = value`: a key that is there keeps its place. -/
def set (d : Dict κ ν) (key : κ) (value : ν) : Dict κ ν :=
  if d.any (·.1 = key) then d.map fun item => if item.1 = key then (key, value) else item
  else d ++ [(key, value)]

def keys (d : Dict κ ν) : List κ := d.map (·.1)

/-- `d.setdefault(key, value)`. -/
def setDefault (d : Dict κ ν) (key : κ) (value : ν) : Dict κ ν :=
  if d.any (·.1 = key) then d else d ++ [(key, value)]

/-- `d.pop(key, None)`. -/
def erase (d : Dict κ ν) (key : κ) : Dict κ ν := d.filter (·.1 ≠ key)

@[simp] theorem get_nil (key : κ) : get ([] : Dict κ ν) key = none := rfl

theorem get_cons (item : κ × ν) (d : Dict κ ν) (key : κ) :
    get (item :: d) key = if item.1 = key then some item.2 else get d key := by
  unfold get
  rw [List.find?_cons]
  by_cases h : item.1 = key <;> simp [h]

theorem get_append (d e : Dict κ ν) (key : κ) : get (d ++ e) key = (get d key).or (get e key) := by
  unfold get
  rw [List.find?_append]
  cases d.find? (·.1 = key) <;> simp

theorem get_eq_none_iff {d : Dict κ ν} {key : κ} : get d key = none ↔ key ∉ keys d := by
  simp only [get, keys, Option.map_eq_none_iff, List.find?_eq_none, List.mem_map, decide_eq_true_eq,
    not_exists, not_and]

theorem mem_of_get {d : Dict κ ν} {key : κ} {value : ν} (h : get d key = some value) :
    (key, value) ∈ d := by
  obtain ⟨⟨k, v⟩, found, rfl⟩ := Option.map_eq_some_iff.mp h
  have same : k = key := by simpa using List.find?_some found
  exact same ▸ List.mem_of_find?_eq_some found

theorem get_of_mem {d : Dict κ ν} (nodup : (keys d).Nodup) {key : κ} {value : ν}
    (h : (key, value) ∈ d) : get d key = some value := by
  induction d with
  | nil => cases h
  | cons item d ih =>
    obtain ⟨absent, nodup⟩ := List.nodup_cons.mp nodup
    rw [get_cons]
    rcases List.mem_cons.mp h with rfl | h
    · simp
    · have apart : item.1 ≠ key := fun same => absent (List.mem_map.mpr ⟨_, h, same.symm⟩)
      rw [if_neg apart, ih nodup h]

@[simp] theorem any_key {d : Dict κ ν} {key : κ} : d.any (·.1 = key) = true ↔ key ∈ keys d := by
  simp [keys]

theorem get_map_set {d : Dict κ ν} {key : κ} (value : ν) (h : key ∈ keys d) (k : κ) :
    get (d.map fun item => if item.1 = key then (key, value) else item) k =
      if k = key then some value else get d k := by
  induction d with
  | nil => cases h
  | cons item d ih =>
    rw [List.map_cons, get_cons, get_cons]
    by_cases here : item.1 = key
    · rw [if_pos here]
      by_cases same : k = key
      · simp [same]
      · rw [if_neg same, if_neg (Ne.symm same), if_neg (fun h => same (h.symm.trans here))]
        by_cases later : key ∈ keys d
        · rw [ih later, if_neg same]
        · congr 1
          refine (List.map_congr_left fun other hother => ?_).trans (List.map_id' d)
          have apart : other.1 ≠ key := fun same => later (List.mem_map.mpr ⟨other, hother, same⟩)
          exact if_neg apart
    · rw [if_neg here]
      have later : key ∈ keys d := (List.mem_cons.mp h).resolve_left (Ne.symm here)
      rw [ih later]
      by_cases same : k = key
      · subst same
        rw [if_neg here]
        simp
      · simp [same]

theorem get_set (d : Dict κ ν) (key : κ) (value : ν) (k : κ) :
    get (set d key value) k = if k = key then some value else get d k := by
  unfold set
  by_cases h : key ∈ keys d
  · rw [if_pos (any_key.mpr h), get_map_set value h]
  · rw [if_neg (any_key.not.mpr h), get_append, get_cons]
    by_cases same : k = key
    · subst same
      rw [get_eq_none_iff.mpr h]
      simp
    · simp [same, Ne.symm same]

@[simp] theorem get_set_self (d : Dict κ ν) (key : κ) (value : ν) :
    get (set d key value) key = some value := by
  simp [get_set]

theorem get_set_of_ne (d : Dict κ ν) {key k : κ} (value : ν) (h : k ≠ key) :
    get (set d key value) k = get d k := by
  simp [get_set, h]

theorem keys_set (d : Dict κ ν) (key : κ) (value : ν) :
    keys (set d key value) = if key ∈ keys d then keys d else keys d ++ [key] := by
  unfold set
  by_cases h : key ∈ keys d
  · rw [if_pos (any_key.mpr h), if_pos h]
    unfold keys
    rw [List.map_map]
    refine List.map_congr_left fun item _ => ?_
    simp only [Function.comp_apply]
    split
    next same => exact same.symm
    next => rfl
  · rw [if_neg (any_key.not.mpr h), if_neg h]
    simp [keys]

theorem mem_keys_setDefault {d : Dict κ ν} {key : κ} {value : ν} {k : κ} :
    k ∈ keys (setDefault d key value) ↔ k ∈ keys d ∨ k = key := by
  unfold setDefault
  by_cases h : key ∈ keys d
  · rw [if_pos (any_key.mpr h)]
    refine ⟨Or.inl, fun mem => mem.elim id ?_⟩
    rintro rfl
    exact h
  · rw [if_neg (any_key.not.mpr h)]
    simp [keys]

theorem keys_set_nodup {d : Dict κ ν} (h : (keys d).Nodup) (key : κ) (value : ν) :
    (keys (set d key value)).Nodup := by
  rw [keys_set]
  split
  · exact h
  next absent => exact List.nodup_append.mpr ⟨h, List.nodup_singleton key, by
      rintro a ha _ hb rfl
      exact absent (List.mem_singleton.mp hb ▸ ha)⟩

theorem mem_set {d : Dict κ ν} {key : κ} {value : ν} {item : κ × ν} (h : item ∈ set d key value) :
    item ∈ d ∨ item = (key, value) := by
  unfold set at h
  split at h
  · obtain ⟨other, hother, rfl⟩ := List.mem_map.mp h
    split
    · exact Or.inr rfl
    · exact Or.inl hother
  · rcases List.mem_append.mp h with h | h
    · exact Or.inl h
    · exact Or.inr (List.mem_singleton.mp h)

theorem mem_set_of_agree {d : Dict κ ν} {key : κ} {value : ν}
    (agree : ∀ v, (key, v) ∈ d → v = value) {item : κ × ν} : item ∈ set d key value ↔
      item ∈ d ∨ item = (key, value) := by
  refine ⟨mem_set, fun h => ?_⟩
  have here : (key, value) ∈ set d key value := mem_of_get (get_set_self d key value)
  rcases h with member | rfl
  · obtain ⟨k, v⟩ := item
    by_cases same : k = key
    · subst same
      rw [agree v member]
      exact here
    · unfold set
      split
      · exact List.mem_map.mpr ⟨(k, v), member, if_neg same⟩
      · exact List.mem_append_left _ member
  · exact here

theorem get_erase (d : Dict κ ν) (key k : κ) :
    get (erase d key) k = if k = key then none else get d k := by
  induction d with
  | nil => simp [erase]
  | cons item d ih =>
    by_cases gone : item.1 = key
    · have skip : erase (item :: d) key = erase d key := by simp [erase, gone]
      rw [skip, ih, get_cons]
      by_cases same : k = key
      · simp [same]
      · rw [if_neg same, if_neg same, if_neg (fun here => same (here.symm.trans gone))]
    · have keep : erase (item :: d) key = item :: erase d key := by simp [erase, gone]
      rw [keep, get_cons, get_cons, ih]
      by_cases same : k = key
      · rw [if_pos same, if_pos same, if_neg (fun here => gone (here.trans same))]
      · rw [if_neg same, if_neg same]

theorem get_map_values {ω : Type w} (d : Dict κ ν) (f : ν → ω) (key : κ) :
    get (d.map fun (k, value) => (k, f value)) key = (get d key).map f := by
  induction d with
  | nil => rfl
  | cons item d ih =>
    rw [List.map_cons, get_cons, get_cons]
    by_cases here : item.1 = key <;> simp [here, ih]

theorem get_foldl_set (items d : Dict κ ν) (key : κ) :
    get (items.foldl (fun d item => set d item.1 item.2) d) key =
      (get items.reverse key).or (get d key) := by
  induction items generalizing d with
  | nil => rfl
  | cons item items ih =>
    rw [List.foldl_cons, ih, get_set, List.reverse_cons, get_append, get_cons, get_nil,
      Option.or_assoc]
    congr 1
    by_cases same : item.1 = key
    · simp [same]
    · simp [same, Ne.symm same]

theorem get_eq_some_iff {d : Dict κ ν} (nodup : (keys d).Nodup) {key : κ} {value : ν} :
    get d key = some value ↔ (key, value) ∈ d :=
  ⟨mem_of_get, get_of_mem nodup⟩

theorem get_reverse {d : Dict κ ν} (nodup : (keys d).Nodup) (key : κ) :
    get d.reverse key = get d key := by
  have turned : (keys d.reverse).Nodup := by
    rw [keys, List.map_reverse]
    exact List.nodup_reverse.mpr nodup
  apply Option.ext
  intro value
  rw [get_eq_some_iff turned, get_eq_some_iff nodup, List.mem_reverse]

end Dict

end DreamStudio.Library
