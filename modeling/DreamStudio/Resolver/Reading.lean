import DreamStudio.Resolver.Steady

namespace DreamStudio.Resolver

open Library

section Kinds

variable {σ σ' : State} {x : String} {v : Value} {t : Target}

theorem kindOf_set (σ : State) (name : String) (v : Value) (x : String) :
    kindOf (σ.set name v) x = if x = name then some v.kind else kindOf σ x := by
  rw [kindOf, Dict.get_set]
  split
  · rfl
  · rfl

theorem kindOf_erase (σ : State) (name x : String) :
    kindOf (σ.erase name) x = if x = name then none else kindOf σ x := by
  rw [kindOf, Dict.get_erase]
  split
  · rfl
  · rfl

def Target.kindFor : Target → Value → Kind
  | .name _, v => v.kind
  | _, _ => .item

theorem kindOf_foldl_item {bound : List (String × Value)} (items : ∀ b ∈ bound, b.2.kind = .item)
    (σ : State) (x : String) :
    kindOf (bound.foldl (fun σ item => σ.set item.1 item.2) σ) x =
      if x ∈ bound.map Prod.fst then some .item else kindOf σ x := by
  induction bound generalizing σ with
  | nil => rfl
  | cons b bound ih =>
    rw [List.forall_mem_cons] at items
    rw [List.foldl_cons, ih items.2, kindOf_set, List.map_cons, items.1]
    simp only [List.mem_cons]
    by_cases later : x ∈ bound.map Prod.fst
    · rw [if_pos later, if_pos (Or.inr later)]
    · rw [if_neg later]
      by_cases here : x = b.1
      · rw [if_pos here, if_pos (Or.inl here)]
      · rw [if_neg here, if_neg (not_or.mpr ⟨here, later⟩)]

namespace Python

variable {py : Python}

mutual

theorem unpack_item (t : Target) (l : Literal) {bound : List (String × Value)}
    (ran : py.unpack t (.item l) = some bound) :
    bound.map Prod.fst = t.names ∧ ∀ b ∈ bound, b.2.kind = .item := by
  cases t with
  | name id =>
    rw [unpack, Option.some.injEq] at ran
    rw [← ran]
    exact ⟨rfl, by simp [Value.kind]⟩
  | starred t =>
    rw [unpack] at ran
    exact unpack_item t l ran
  | sequence ts =>
    rw [unpack, Option.bind_eq_some_iff] at ran
    obtain ⟨items, -, ran⟩ := ran
    exact unpackAll_items ts items ran

theorem unpackAll_items (ts : List Target) (items : List Literal)
    {bound : List (String × Value)} (ran : py.unpackAll ts items = some bound) :
    bound.map Prod.fst = namesOf ts ∧ ∀ b ∈ bound, b.2.kind = .item := by
  cases ts with
  | nil =>
    cases items with
    | nil =>
      rw [unpackAll, Option.some.injEq] at ran
      rw [← ran]
      exact ⟨rfl, by simp⟩
    | cons item items => rw [unpackAll] at ran; cases ran
  | cons t ts =>
    have both : ∀ v rest, (py.unpack t (.item v)).bind (fun first =>
        (py.unpackAll ts rest).map (first ++ ·)) = some bound →
        bound.map Prod.fst = namesOf (t :: ts) ∧ ∀ b ∈ bound, b.2.kind = .item := by
      intro v rest both
      rw [Option.bind_eq_some_iff] at both
      obtain ⟨first, here, later⟩ := both
      rw [Option.map_eq_some_iff] at later
      obtain ⟨second, later, rfl⟩ := later
      obtain ⟨names, items⟩ := unpack_item t v here
      obtain ⟨names', items'⟩ := unpackAll_items ts rest later
      rw [List.map_append, names, names']
      refine ⟨rfl, fun b member => ?_⟩
      exact (List.mem_append.mp member).elim (items b) (items' b)
    unfold unpackAll at ran
    split at ran
    · split at ran
      · cases ran
      · exact both _ _ ran
    · split at ran
      · cases ran
      · exact both _ _ ran

end

theorem kindOf_assign (ran : py.assign σ t v = some σ') (x : String) :
    kindOf σ' x = if x ∈ t.names then some (t.kindFor v) else kindOf σ x := by
  rw [assign, Option.map_eq_some_iff] at ran
  obtain ⟨bound, ran, rfl⟩ := ran
  cases t with
  | name id =>
    rw [unpack, Option.some.injEq] at ran
    rw [← ran, List.foldl_cons, List.foldl_nil, kindOf_set]
    simp only [Target.names, List.mem_singleton]
    rfl
  | starred t =>
    cases v with
    | item l =>
      obtain ⟨names, items⟩ := unpack_item (.starred t) l ran
      rw [kindOf_foldl_item items, names]
      rfl
    | object made => cases ran
    | assigned l => cases ran
  | sequence ts =>
    rw [unpack, Option.bind_eq_some_iff] at ran
    obtain ⟨items, -, ran⟩ := ran
    obtain ⟨names, items⟩ := unpackAll_items ts items ran
    rw [kindOf_foldl_item items, names]
    rfl

theorem name_of_assign_object {made : Object} (ran : py.assign σ t (.object made) = some σ') :
    ∃ id, t = .name id := by
  rw [assign, Option.map_eq_some_iff] at ran
  obtain ⟨bound, ran, -⟩ := ran
  cases t with
  | name id => exact ⟨id, rfl⟩
  | starred t => cases ran
  | sequence ts => cases ran

end Python

end Kinds

/-- What is bound where the reading has a binding: `other` of a literal stands for that literal or
for a name that is deleted. -/
def Rel : Option Binding → Option Kind → Prop
  | some (.function node), kind => kind = some (.object (.function node))
  | some (.classDef node), kind => kind = some (.object (.classDef node))
  | some (.other (some l)), kind => kind = none ∨ kind = some (.literal l)
  | some (.other none), kind | none, kind => ∀ made, kind ≠ some (.object made)

def Follows (scope : Scope) (kinds : String → Option Kind) : Prop :=
  ∀ x, Rel (scope.get x) (kinds x)

namespace Rel

variable {b : Option Binding} {c : Binding} {k : Option Kind} {made : Object}

theorem object (rel : Rel b k) : (b.bind Binding.object?) = k.bind fun
    | .object made => some made
    | _ => none := by
  rcases b with - | (node | node | - | l)
  · cases k with
    | none => rfl
    | some k => cases k <;> first | rfl | exact absurd rfl (rel _)
  · rw [rel]
    rfl
  · rw [rel]
    rfl
  · cases k with
    | none => rfl
    | some k => cases k <;> first | rfl | exact absurd rfl (rel _)
  · rcases rel with rfl | rfl <;> rfl

theorem plain_of_other (rel : Rel (some c) k) (other : c.isOther = true) :
    k ≠ some (.object made) := by
  cases c with
  | function node => cases other
  | classDef node => cases other
  | other const =>
    cases const with
    | none => exact rel made
    | some l => rcases rel with rfl | rfl <;> nofun

theorem unknown (plain : ∀ made, k ≠ some (.object made)) : Rel (some (.other none)) k := plain

end Rel

section Bindings

variable {scope : Scope} {kinds kinds' : String → Option Kind} {cond : Bool} {b : Binding}
  {k : Kind} {id : String}

theorem get_setBinding (scope : Scope) (id : String) (b : Binding) (cond : Bool) (x : String) :
    (setBinding scope id b cond).get x = if x = id then (setBinding scope id b cond).get id else
      scope.get x := by
  split
  next same => rw [same]
  next other =>
    rw [setBinding]
    split
    · split
      · split
        · rw [Dict.get_set, if_neg other]
        · rfl
      · rw [Dict.get_set, if_neg other]
    · rw [Dict.get_set, if_neg other]

/-- `_set` leaves a reading of what is bound to the name. -/
theorem rel_setBinding (was : Rel (scope.get id) (kinds id)) (now : Rel (some b) (some k))
    (plain : cond = true → b.isOther = true → ∀ made, kinds id ≠ some (.object made)) :
    Rel ((setBinding scope id b cond).get id) (some k) := by
  rw [setBinding]
  split
  next bound held =>
    rw [held] at was
    split
    next kept =>
      obtain ⟨conditional, other⟩ := Bool.and_eq_true_iff.mp kept
      split
      next =>
        rw [Dict.get_set, if_pos rfl]
        exact Rel.unknown fun made => now.plain_of_other other
      next made =>
        have free := plain conditional other
        cases bound with
        | function node => exact absurd was (free _)
        | classDef node => exact absurd was (free _)
        | other const => exact absurd rfl made
    · rw [Dict.get_set, if_pos rfl]
      exact now
  · rw [Dict.get_set, if_pos rfl]
    exact now

theorem follows_setBinding (follows : Follows scope kinds) (now : Rel (some b) (some k))
    (plain : cond = true → b.isOther = true → ∀ made, kinds id ≠ some (.object made))
    (ran : ∀ x, kinds' x = if x = id then some k else kinds x) :
    Follows (setBinding scope id b cond) kinds' := by
  intro x
  rw [get_setBinding, ran]
  by_cases same : x = id
  · rw [if_pos same, if_pos same]
    exact rel_setBinding (follows id) now plain
  · rw [if_neg same, if_neg same]
    exact follows x

end Bindings

namespace Python

section Tests

variable {py : Python} {scope : Scope} {σ : State}

theorem truth_of_const (follows : Follows scope (kindOf σ)) {id : String} {l : Literal} {v : Value}
    (known : scope.get id = some (.other (some l))) (held : σ.get id = some v) :
    v.truth = l.truth := by
  have rel := follows id
  rw [known, kindOf, held] at rel
  rcases rel with none | same
  · cases none
  · cases v with
    | assigned literal => cases same; rfl
    | object made => cases same
    | item literal => cases same

mutual

theorem staticTruth_sound (follows : Follows scope (kindOf σ)) (t : Test) {b b' : Bool}
    (assumed : py.Assumed σ t)
    (decided : staticTruth scope t = some b) (ran : py.evalTest σ t = some b') : b' = b := by
  cases t with
  | literal value =>
    cases ran
    rw [staticTruth] at decided
    split at decided
    · exact Option.some.inj decided
    · cases decided
  | name id =>
    rw [evalTest, Option.map_eq_some_iff] at ran
    obtain ⟨v, held, rfl⟩ := ran
    rw [staticTruth] at decided
    split at decided
    next same =>
      cases decided
      exact assumed same v held
    next =>
      split at decided
      next l known =>
        cases decided
        exact truth_of_const follows known held
      · cases decided
  | typeChecking text =>
    cases decided
    cases b' with
    | false => rfl
    | true => exact absurd ran assumed
  | not t =>
    rw [staticTruth, Option.map_eq_some_iff] at decided
    rw [evalTest, Option.map_eq_some_iff] at ran
    obtain ⟨c, decided, rfl⟩ := decided
    obtain ⟨c', ran, rfl⟩ := ran
    rw [staticTruth_sound follows t assumed decided ran]
  | boolOp isOr ts =>
    rw [evalTest] at ran
    rw [staticTruth] at decided
    obtain ⟨decisive, neither⟩ := staticTruths_sound follows ts isOr assumed ran
    split at decided
    next one =>
      cases decided
      exact decisive one
    next no =>
      split at decided
      · cases decided
      next all =>
        cases decided
        exact neither no all
  | compareMain equal =>
    cases decided
    rw [evalTest, Option.map_eq_some_iff] at ran
    obtain ⟨v, held, rfl⟩ := ran
    split
    next name is =>
      have other := assumed v held name is
      cases equal <;> simp [other]
    · rfl
  | other text => cases decided

theorem staticTruths_sound (follows : Follows scope (kindOf σ)) (ts : List Test) (isOr : Bool)
    {b' : Bool} (assumed : py.AssumedAll σ ts) (ran : py.evalTests σ isOr ts = some b') :
    (some isOr ∈ staticTruths scope ts → b' = isOr) ∧
      (some isOr ∉ staticTruths scope ts → none ∉ staticTruths scope ts → b' = !isOr) := by
  cases ts with
  | nil =>
    cases ran
    exact ⟨nofun, fun _ _ => rfl⟩
  | cons t ts =>
    rw [evalTests, Option.bind_eq_some_iff] at ran
    obtain ⟨c, here, ran⟩ := ran
    rw [staticTruths, List.mem_cons, List.mem_cons, not_or, not_or]
    have sound : ∀ b, some b = staticTruth scope t → c = b := fun b decided =>
      staticTruth_sound follows t assumed.1 decided.symm here
    split at ran
    next same =>
      cases ran
      refine ⟨fun _ => rfl, fun no all => ?_⟩
      cases decided : staticTruth scope t with
      | none => exact absurd decided.symm all.1
      | some b =>
        have agrees := sound b decided.symm
        rw [decided, ← agrees, same] at no
        exact absurd rfl no.1
    next differ =>
      obtain ⟨decisive, neither⟩ := staticTruths_sound follows ts isOr assumed.2 ran
      refine ⟨?_, fun no all => neither no.2 all.2⟩
      rintro (first | later)
      · exact absurd (sound isOr first) differ
      · exact decisive later

end

end Tests

section Assignments

variable {py : Python} {scope : Scope} {σ σ' : State} {cond : Bool}

theorem follows_unknown {names : List String} {kinds : String → Option Kind}
    (follows : Follows scope kinds)
    (plain : cond = true → ∀ id ∈ names, ∀ made, kinds id ≠ some (.object made)) :
    Follows (names.foldl (fun scope id => setBinding scope id (.other none) cond) scope)
      fun x => if x ∈ names then some .item else kinds x := by
  induction names generalizing scope kinds with
  | nil => simpa using follows
  | cons id names ih =>
    have now : Follows (setBinding scope id (.other none) cond) fun x =>
        if x = id then some .item else kinds x := by
      apply follows_setBinding follows
        (Rel.unknown (k := some .item) fun made same => by cases same)
      · exact fun conditional _ => plain conditional id List.mem_cons_self
      · exact fun _ => rfl
    have later := ih now fun conditional x member made => by
      split
      · exact fun same => by cases same
      · exact plain conditional x (List.mem_cons_of_mem id member) made
    have same : (fun x => if x ∈ names then some Kind.item else
        if x = id then some .item else kinds x) =
        fun x => if x ∈ id :: names then some .item else kinds x := by
      funext x
      by_cases inside : x ∈ names
      · simp [inside]
      · simp [inside]
    rw [same] at later
    exact later

/-- The value of an assignment, while its targets are bound one after the other. -/
def Held (σ : State) : Expr → Value → Prop
  | .literal l, v => v = .assigned l
  | .name id, v =>
    kindOf σ id = some v.kind ∨ kindOf σ id = some .item ∧ ∀ made, v ≠ .object made

theorem held_of_evalExpr {e : Expr} {v : Value} (value : evalExpr σ e = some v) : Held σ e v := by
  cases e with
  | literal l =>
    cases value
    rfl
  | name id =>
    left
    rw [kindOf, show σ.get id = some v from value]
    rfl

theorem data_of_assign {t : Target} {v : Value} (ran : py.assign σ t v = some σ')
    (other : ∀ id, t ≠ .name id) (made : Object) : v ≠ .object made := by
  rintro rfl
  obtain ⟨id, named⟩ := name_of_assign_object ran
  exact other id named

theorem held_of_assign {e : Expr} {t : Target} {v : Value} (held : Held σ e v)
    (ran : py.assign σ t v = some σ') : Held σ' e v := by
  cases e with
  | literal l => exact held
  | name id =>
    rw [Held, kindOf_assign ran]
    split
    · cases t with
      | name id => exact Or.inl rfl
      | starred t => exact Or.inr ⟨rfl, data_of_assign ran nofun⟩
      | sequence ts => exact Or.inr ⟨rfl, data_of_assign ran nofun⟩
    · exact held

theorem kind_of_data {v : Value} (data : ∀ made, v ≠ .object made) (made : Object) :
    some v.kind ≠ some (.object made) := by
  cases v with
  | object made => exact absurd rfl (data made)
  | assigned l => nofun
  | item l => nofun

theorem rel_of_held {e : Expr} {v : Value} (follows : Follows scope (kindOf σ))
    (held : Held σ e v) :
    Rel (some ((aliasBinding (some e) scope).getD (.other (literalOf (some e)))))
      (some v.kind) := by
  cases e with
  | literal l =>
    cases held
    exact Or.inr rfl
  | name id =>
    have rel := follows id
    rcases held with same | ⟨item, data⟩
    · rw [same] at rel
      rw [aliasBinding]
      cases bound : scope.get id with
      | none => rw [bound] at rel; exact rel
      | some b => rw [bound] at rel; exact rel
    · have unknown : Rel (some (.other none)) (some v.kind) := kind_of_data data
      rw [item] at rel
      rw [aliasBinding]
      rcases bound : scope.get id with - | (node | node | - | l)
      · exact unknown
      · rw [bound] at rel; cases rel
      · rw [bound] at rel; cases rel
      · exact unknown
      · rw [bound] at rel
        rcases rel with gone | same
        · cases gone
        · cases same

theorem bindTarget_name (value : Option Expr) (id : String) :
    bindTarget (.name id) value scope cond =
      setBinding scope id ((aliasBinding value scope).getD (.other (literalOf value))) cond := by
  rw [bindTarget]
  cases aliasBinding value scope <;> rfl

theorem follows_bindTarget {e : Option Expr} {t : Target} {v : Value}
    (follows : Follows scope (kindOf σ)) (ran : py.assign σ t v = some σ')
    (rel : Rel (some ((aliasBinding e scope).getD (.other (literalOf e)))) (some v.kind))
    (plain : cond = true → (∀ made, v ≠ .object made) → ∀ id ∈ t.names, Plain σ id) :
    Follows (bindTarget t e scope cond) (kindOf σ') := by
  have data : ∀ made, v = .object made → ∃ id, t = .name id := by
    rintro made rfl
    exact name_of_assign_object ran
  have kinds : kindOf σ' = fun x => if x ∈ t.names then some (t.kindFor v) else kindOf σ x :=
    funext (kindOf_assign ran)
  rw [kinds]
  cases t with
  | name id =>
    rw [bindTarget_name]
    refine follows_setBinding follows rel ?_ fun x => ?_
    · intro conditional other
      apply plain conditional
      · rintro made rfl
        exact rel.plain_of_other other rfl
      · exact List.mem_singleton_self id
    · simp only [Target.names, List.mem_singleton]
      rfl
  | starred t =>
    apply follows_unknown follows
    intro conditional
    apply plain conditional
    intro made same
    obtain ⟨id, named⟩ := data made same
    cases named
  | sequence ts =>
    apply follows_unknown follows
    intro conditional
    apply plain conditional
    intro made same
    obtain ⟨id, named⟩ := data made same
    cases named

theorem follows_targets {e : Expr} {ts : List Target} {v : Value}
    (follows : Follows scope (kindOf σ)) (held : Held σ e v)
    (ran : ts.foldlM (fun σ target => py.assign σ target v) σ = some σ')
    (plain : cond = true → (∀ made, v ≠ .object made) → ∀ id ∈ namesOf ts, Plain σ id) :
    Follows (ts.foldl (fun scope target => bindTarget target (some e) scope cond) scope)
      (kindOf σ') := by
  induction ts generalizing scope σ with
  | nil =>
    cases ran
    exact follows
  | cons t ts ih =>
    rw [List.foldlM_cons] at ran
    obtain ⟨σ₁, here, later⟩ := Option.bind_eq_some_iff.mp ran
    have now := follows_bindTarget follows here (rel_of_held follows held) fun conditional
      data id inside =>
      plain conditional data id (List.mem_append_left _ inside)
    apply ih now (held_of_assign held here) later
    intro conditional data id inside made
    rw [kindOf_assign here]
    split
    · cases t with
      | name _ => exact kind_of_data data made
      | starred _ => nofun
      | sequence _ => nofun
    · exact plain conditional data id (List.mem_append_right _ inside) made

end Assignments

end Python

end DreamStudio.Resolver
