import DreamStudio.Resolver.Reading

namespace DreamStudio.Resolver

open Library

namespace Python

def Moved (σ σ' τ τ' : State) : Prop :=
  ∀ x, kindOf σ' x = kindOf σ x ∧ kindOf τ' x = kindOf τ x ∨ kindOf σ' x = kindOf τ' x

namespace Moved

variable {σ σ₁ σ₂ τ τ₁ τ₂ : State}

theorem refl (σ τ : State) : Moved σ σ τ τ := fun _ => Or.inl ⟨rfl, rfl⟩

theorem trans (first : Moved σ σ₁ τ τ₁) (second : Moved σ₁ σ₂ τ₁ τ₂) : Moved σ σ₂ τ τ₂ := by
  intro x
  rcases second x with ⟨left, right⟩ | same
  · rw [left, right]
    exact first x
  · exact Or.inr same

theorem of_kinds (moved : Moved σ σ₁ τ τ₁) (left : ∀ x, kindOf σ₂ x = kindOf σ₁ x)
    (right : ∀ x, kindOf τ₂ x = kindOf τ₁ x) : Moved σ σ₂ τ τ₂ := by
  intro x
  rw [left, right]
  exact moved x

end Moved

section Runs

variable {py : Python} {σ σ' τ τ' : State} {x : String}

theorem moved_set {name : String} {v : Value} :
    Moved σ (σ.set name v) τ (τ.set name v) := by
  intro x
  rw [kindOf_set, kindOf_set]
  by_cases same : x = name
  · rw [if_pos same, if_pos same]
    exact Or.inr rfl
  · rw [if_neg same, if_neg same]
    exact Or.inl ⟨rfl, rfl⟩

theorem moved_assign {t : Target} {v w : Value} (alike : v.kind = w.kind)
    (ran : py.assign σ t v = some σ') (ran' : py.assign τ t w = some τ') : Moved σ σ' τ τ' := by
  have same : t.kindFor v = t.kindFor w := by
    cases t with
    | name id => exact alike
    | starred t => rfl
    | sequence ts => rfl
  intro x
  rw [kindOf_assign ran, kindOf_assign ran', same]
  by_cases inside : x ∈ t.names
  · rw [if_pos inside, if_pos inside]
    exact Or.inr rfl
  · rw [if_neg inside, if_neg inside]
    exact Or.inl ⟨rfl, rfl⟩

theorem moved_targets {ts : List Target} {v w : Value} (alike : v.kind = w.kind)
    (ran : ts.foldlM (fun σ target => py.assign σ target v) σ = some σ')
    (ran' : ts.foldlM (fun σ target => py.assign σ target w) τ = some τ') : Moved σ σ' τ τ' := by
  induction ts generalizing σ τ with
  | nil =>
    cases ran
    cases ran'
    exact Moved.refl _ _
  | cons t ts ih =>
    rw [List.foldlM_cons] at ran ran'
    obtain ⟨σ₁, here, later⟩ := Option.bind_eq_some_iff.mp ran
    obtain ⟨τ₁, here', later'⟩ := Option.bind_eq_some_iff.mp ran'
    exact (moved_assign alike here here').trans (ih later later')

theorem kindOf_delete {name : String} (ran : delete σ name = some σ') (x : String) :
    kindOf σ' x = if x = name then none else kindOf σ x := by
  rw [delete] at ran
  split at ran
  · cases ran
    exact kindOf_erase σ name x
  · cases ran

theorem moved_delete {names : List String} (ran : names.foldlM delete σ = some σ')
    (ran' : names.foldlM delete τ = some τ') : Moved σ σ' τ τ' := by
  induction names generalizing σ τ with
  | nil =>
    cases ran
    cases ran'
    exact Moved.refl _ _
  | cons name names ih =>
    rw [List.foldlM_cons] at ran ran'
    obtain ⟨σ₁, here, later⟩ := Option.bind_eq_some_iff.mp ran
    obtain ⟨τ₁, here', later'⟩ := Option.bind_eq_some_iff.mp ran'
    apply Moved.trans _ (ih later later')
    intro x
    rw [kindOf_delete here, kindOf_delete here']
    by_cases same : x = name
    · rw [if_pos same, if_pos same]
      exact Or.inr rfl
    · rw [if_neg same, if_neg same]
      exact Or.inl ⟨rfl, rfl⟩

theorem kind_of_items {iter : Iter} {values : List Value} (found : items σ iter = some values)
    {v : Value} (member : v ∈ values) (data : ∀ made, v ≠ .object made) : v.kind = .item := by
  cases iter with
  | string text =>
    cases found
    obtain ⟨c, -, rfl⟩ := List.mem_map.mp member
    rfl
  | display elements =>
    rw [items] at found
    induction elements generalizing values with
    | nil => cases found; cases member
    | cons e elements ih =>
      rw [List.mapM_cons] at found
      obtain ⟨w, first, found⟩ := Option.bind_eq_some_iff.mp found
      obtain ⟨ws, rest, found⟩ := Option.bind_eq_some_iff.mp found
      cases found
      rcases List.mem_cons.mp member with rfl | later
      · obtain ⟨u, -, rfl⟩ := Option.map_eq_some_iff.mp first
        cases u with
        | object made => exact absurd rfl (data made)
        | assigned l => rfl
        | item l => rfl
      · exact ih later rest

theorem nonEmptyLiteral_eq (iter : Iter) : iter.nonEmptyLiteral = !iter.certainlyEmpty := by
  cases iter with
  | display elements => rfl
  | string text => simp [Iter.nonEmptyLiteral, Iter.certainlyEmpty]

theorem items_nil_iff {iter : Iter} {values : List Value} (found : items σ iter = some values) :
    values = [] ↔ iter.certainlyEmpty = true := by
  cases iter with
  | string text =>
    cases found
    rw [List.map_eq_nil_iff, String.toList_eq_nil_iff, Iter.certainlyEmpty, decide_eq_true_eq]
  | display elements =>
    rw [items] at found
    cases elements with
    | nil => cases found; exact iff_of_true rfl rfl
    | cons e elements =>
      rw [List.mapM_cons] at found
      obtain ⟨w, first, found⟩ := Option.bind_eq_some_iff.mp found
      obtain ⟨ws, rest, found⟩ := Option.bind_eq_some_iff.mp found
      cases found
      exact iff_of_false (List.cons_ne_nil w ws) Bool.false_ne_true

theorem kindOf_passes {bind : State → Value → Option State} {body : State → Option State}
    {meets : State → Prop} {values : List Value} {kinds : String → Option Kind}
    (passes : Passes bind body meets values σ)
    (ran : values.foldlM (fun σ value => (bind σ value).bind body) σ = some σ')
    (each : ∀ v ∈ values, ∀ τ τ₁ τ₂, bind τ v = some τ₁ → meets τ₁ → body τ₁ = some τ₂ →
      kindOf τ = kinds → kindOf τ₂ = kinds) (begins : kindOf σ = kinds) : kindOf σ' = kinds := by
  induction values generalizing σ with
  | nil =>
    cases ran
    exact begins
  | cons v values ih =>
    rw [List.foldlM_cons] at ran
    obtain ⟨σ₂, pass, later⟩ := Option.bind_eq_some_iff.mp ran
    obtain ⟨σ₁, binds, runs⟩ := Option.bind_eq_some_iff.mp pass
    obtain ⟨meets, rest⟩ := passes σ₁ binds
    rw [List.forall_mem_cons] at each
    exact ih (rest σ₂ runs) later each.2 (each.1 σ σ₁ σ₂ binds meets runs begins)

theorem loop_cons {target : Target} {iter : Iter} {body : List Stmt} {v : Value}
    {vs : List Value} {cond : Bool}
    (moved : ∀ {c c' σ τ σ' τ'}, py.AgainBody σ τ body → py.SteadyBody c σ body →
      py.SteadyBody c' τ body → py.execBody σ body = some σ' → py.execBody τ body = some τ' →
      Moved σ σ' τ τ')
    (found : items σ iter = some (v :: vs)) (data : ∀ value ∈ v :: vs, ∀ made, value ≠ .object made)
    (steady : ∀ σ₁, py.assign σ target v = some σ₁ → py.SteadyBody cond σ₁ body ∧
      ∀ σ₂, py.execBody σ₁ body = some σ₂ → Passes (py.assign · target) (py.execBody · body)
        (fun τ => py.AgainBody σ₁ τ body ∧ py.SteadyBody false τ body) vs σ₂)
    (ran : py.loop σ target iter (py.execBody · body) = some σ') :
    ∃ σ₁ σ₂, py.assign σ target v = some σ₁ ∧ py.execBody σ₁ body = some σ₂ ∧
      py.SteadyBody cond σ₁ body ∧ kindOf σ' = kindOf σ₂ := by
  rw [loop, found, Option.bind_some, List.foldlM_cons] at ran
  obtain ⟨σ₂, pass, later⟩ := Option.bind_eq_some_iff.mp ran
  obtain ⟨σ₁, binds, runs⟩ := Option.bind_eq_some_iff.mp pass
  obtain ⟨first, rest⟩ := steady σ₁ binds
  refine ⟨σ₁, σ₂, binds, runs, first, kindOf_passes (rest σ₂ runs) later ?_ rfl⟩
  rintro w member τ τ₁ τ₂ binds' ⟨again, steady'⟩ runs' begins
  have alike : v.kind = w.kind := by
    rw [kind_of_items found List.mem_cons_self (data v List.mem_cons_self),
      kind_of_items found (List.mem_cons_of_mem v member) (data w (List.mem_cons_of_mem v member))]
  have both := (moved_assign alike binds binds').trans (moved again first steady' runs runs')
  funext x
  rcases both x with ⟨left, right⟩ | same
  · rw [right, left, begins, ← left]
  · exact same.symm

mutual

theorem moved_stmt (s : Stmt) {c c' : Bool} {σ τ σ' τ' : State} (again : py.Again σ τ s)
    (steady : py.Steady c σ s) (steady' : py.Steady c' τ s) (ran : py.execStmt σ s = some σ')
    (ran' : py.execStmt τ s = some τ') : Moved σ σ' τ τ' := by
  cases s with
  | functionDef name node =>
    cases ran
    cases ran'
    exact moved_set
  | classDef name node =>
    cases ran
    cases ran'
    exact moved_set
  | assign ts e =>
    rw [execStmt, Option.bind_eq_some_iff] at ran ran'
    obtain ⟨v, value, ran⟩ := ran
    obtain ⟨w, value', ran'⟩ := ran'
    refine moved_targets ?_ ran ran'
    cases e with
    | literal l => rw [Option.some.inj (value.symm.trans value')]
    | name id =>
      have alike : kindOf σ id = kindOf τ id := again
      rw [kindOf, kindOf, show σ.get id = some v from value,
        show τ.get id = some w from value'] at alike
      exact Option.some.inj alike
  | delete names => exact moved_delete ran ran'
  | ifThen test body orelse =>
    rw [execStmt, Option.bind_eq_some_iff] at ran ran'
    obtain ⟨b, truth, ran⟩ := ran
    obtain ⟨b', truth', ran'⟩ := ran'
    cases (truth.symm.trans again.1).trans truth' |> Option.some.inj
    have inner := again.2 b truth
    have meets := steady.2 b truth
    have meets' := steady'.2 b truth'
    cases b with
    | true => exact moved_body body inner meets meets' ran ran'
    | false => exact moved_body orelse inner meets meets' ran ran'
  | forIn target iter body orelse =>
    rw [execStmt, Option.bind_eq_some_iff] at ran ran'
    obtain ⟨σₙ, loop, rest⟩ := ran
    obtain ⟨τₙ, loop', rest'⟩ := ran'
    have ends : Moved σ σₙ τ τₙ := by
      obtain ⟨values, found, -⟩ := Option.bind_eq_some_iff.mp loop
      obtain ⟨values', found', -⟩ := Option.bind_eq_some_iff.mp loop'
      obtain ⟨data, first⟩ := steady.1 values found
      obtain ⟨data', first'⟩ := steady'.1 values' found'
      have lengths := (items_nil_iff found).trans (items_nil_iff found').symm
      cases values with
      | nil =>
        cases lengths.mp rfl
        rw [Python.loop, found] at loop
        rw [Python.loop, found'] at loop'
        cases loop
        cases loop'
        exact Moved.refl _ _
      | cons v vs =>
        cases values' with
        | nil => exact absurd (lengths.mpr rfl) (List.cons_ne_nil v vs)
        | cons w ws =>
          obtain ⟨σ₁, σ₂, binds, runs, meets, kinds⟩ :=
            loop_cons (moved_body body) found data first.2 loop
          obtain ⟨τ₁, τ₂, binds', runs', meets', kinds'⟩ :=
            loop_cons (moved_body body) found' data' first'.2 loop'
          have alike : v.kind = w.kind := by
            rw [kind_of_items found List.mem_cons_self (data v List.mem_cons_self),
              kind_of_items found' List.mem_cons_self (data' w List.mem_cons_self)]
          have inner := again.1 v vs w ws found found' σ₁ τ₁ binds binds'
          exact ((moved_assign alike binds binds').trans
            (moved_body body inner meets meets' runs runs')).of_kinds (congrFun kinds)
              (congrFun kinds')
    have inner := again.2 σₙ τₙ loop loop'
    exact ends.trans (moved_body orelse inner (steady.2 σₙ loop) (steady'.2 τₙ loop') rest rest')

theorem moved_body (ss : List Stmt) {c c' : Bool} {σ τ σ' τ' : State}
    (again : py.AgainBody σ τ ss) (steady : py.SteadyBody c σ ss)
    (steady' : py.SteadyBody c' τ ss) (ran : py.execBody σ ss = some σ')
    (ran' : py.execBody τ ss = some τ') : Moved σ σ' τ τ' := by
  cases ss with
  | nil =>
    cases ran
    cases ran'
    exact Moved.refl _ _
  | cons s ss =>
    rw [execBody, Option.bind_eq_some_iff] at ran ran'
    obtain ⟨σ₁, here, later⟩ := ran
    obtain ⟨τ₁, here', later'⟩ := ran'
    have first := moved_stmt s again.1 steady.1 steady'.1 here here'
    exact first.trans (moved_body ss (again.2 σ₁ τ₁ here here') (steady.2 σ₁ here)
      (steady'.2 τ₁ here') later later')

end

theorem follows_set {scope : Scope} {name : String} {b : Binding} {v : Value}
    (follows : Follows scope (kindOf σ)) (rel : Rel (some b) (some v.kind)) :
    Follows (scope.set name b) (kindOf (σ.set name v)) := by
  intro x
  rw [Dict.get_set, kindOf_set]
  by_cases same : x = name
  · rw [if_pos same, if_pos same]
    exact rel
  · rw [if_neg same, if_neg same]
    exact follows x

theorem follows_delete {scope : Scope} {names : List String} (follows : Follows scope (kindOf σ))
    (ran : names.foldlM delete σ = some σ') :
    Follows (names.foldl Dict.erase scope) (kindOf σ') := by
  induction names generalizing scope σ with
  | nil =>
    cases ran
    exact follows
  | cons name names ih =>
    rw [List.foldlM_cons] at ran
    obtain ⟨σ₁, here, later⟩ := Option.bind_eq_some_iff.mp ran
    apply ih _ later
    intro x
    rw [Dict.get_erase, kindOf_delete here]
    by_cases same : x = name
    · rw [if_pos same, if_pos same]
      exact nofun
    · rw [if_neg same, if_neg same]
      exact follows x

theorem follows_kept {scope : Scope} {names : List String} (follows : Follows scope (kindOf σ))
    (plain : ∀ id ∈ names, Plain σ id) (ran : names.foldlM delete σ = some σ') :
    Follows scope (kindOf σ') := by
  induction names generalizing σ with
  | nil =>
    cases ran
    exact follows
  | cons name names ih =>
    rw [List.forall_mem_cons] at plain
    rw [List.foldlM_cons] at ran
    obtain ⟨σ₁, here, later⟩ := Option.bind_eq_some_iff.mp ran
    apply ih _ _ later
    · intro x
      rw [kindOf_delete here]
      by_cases same : x = name
      · rw [if_pos same]
        have rel := follows x
        rw [same] at rel ⊢
        rcases held : scope.get name with - | (node | node | - | l)
        · exact nofun
        · rw [held] at rel
          exact absurd rel (plain.1 _)
        · rw [held] at rel
          exact absurd rel (plain.1 _)
        · exact nofun
        · exact Or.inl rfl
      · rw [if_neg same]
        exact follows x
    · intro x member made
      rw [kindOf_delete here]
      split
      · nofun
      · exact plain.2 x member made

mutual

theorem follows_stmt (s : Stmt) {scope : Scope} {cond : Bool} {σ σ' : State}
    (follows : Follows scope (kindOf σ)) (decided : Decided scope cond s)
    (steady : py.Steady cond σ s) (ran : py.execStmt σ s = some σ') :
    Follows (bindStmt scope cond s) (kindOf σ') := by
  cases s with
  | functionDef name node =>
    cases ran
    exact follows_set follows rfl
  | classDef name node =>
    cases ran
    exact follows_set follows rfl
  | assign ts e =>
    rw [execStmt, Option.bind_eq_some_iff] at ran
    obtain ⟨v, value, ran⟩ := ran
    apply follows_targets follows (held_of_evalExpr value) ran
    intro conditional data
    apply steady conditional
    intro made same
    exact data made (Option.some.inj (value.symm.trans same))
  | delete names =>
    rw [bindStmt]
    cases cond with
    | true => exact follows_kept follows (steady rfl) ran
    | false => exact follows_delete follows ran
  | ifThen test body orelse =>
    rw [execStmt, Option.bind_eq_some_iff] at ran
    obtain ⟨b, truth, ran⟩ := ran
    have meets := steady.2 b truth
    rw [Decided] at decided
    rw [bindStmt]
    cases static : staticTruth scope test with
    | none => rw [static] at decided; exact absurd decided id
    | some b' =>
      cases staticTruth_sound follows test steady.1 static truth
      rw [static] at decided
      cases b with
      | true => exact follows_body body follows decided meets ran
      | false => exact follows_body orelse follows decided meets ran
  | forIn target iter body orelse =>
    rw [execStmt, Option.bind_eq_some_iff] at ran
    obtain ⟨σₙ, loop, rest⟩ := ran
    obtain ⟨values, found, passes⟩ := Option.bind_eq_some_iff.mp loop
    obtain ⟨data, first⟩ := steady.1 values found
    have after := steady.2 σₙ loop
    have empty := items_nil_iff found
    rw [Decided] at decided
    rw [bindStmt]
    cases values with
    | nil =>
      cases passes
      rw [empty.mp rfl] at decided after ⊢
      rw [Bool.not_true, Bool.or_false] at after
      exact follows_body orelse follows decided after rest
    | cons v vs =>
      have runs := Bool.eq_false_iff.mpr (mt empty.mpr (List.cons_ne_nil v vs))
      rw [runs, Bool.not_false, Bool.or_true] at after
      simp only [nonEmptyLiteral_eq, runs, Bool.not_false, Bool.not_true, Bool.or_false,
        Bool.false_eq_true, if_false] at decided ⊢
      obtain ⟨σ₁, σ₂, binds, once, meets, kinds⟩ :=
        loop_cons (moved_body body) found data first.2 loop
      have item := kind_of_items found List.mem_cons_self (data v List.mem_cons_self)
      have rel : Rel (some ((aliasBinding none scope).getD (.other (literalOf none))))
          (some v.kind) := by
        rw [item]
        exact fun made same => by cases same
      have bound := follows_bindTarget follows binds rel fun conditional _ => first.1 conditional
      have through := follows_body body bound decided.1 meets once
      rw [← kinds] at through
      exact follows_body orelse through decided.2 after rest

theorem follows_body (ss : List Stmt) {scope : Scope} {cond : Bool} {σ σ' : State}
    (follows : Follows scope (kindOf σ)) (decided : DecidedBody scope cond ss)
    (steady : py.SteadyBody cond σ ss) (ran : py.execBody σ ss = some σ') :
    Follows (bindBody scope cond ss) (kindOf σ') := by
  cases ss with
  | nil =>
    cases ran
    exact follows
  | cons s ss =>
    rw [execBody, Option.bind_eq_some_iff] at ran
    obtain ⟨σ₁, here, later⟩ := ran
    exact follows_body ss (follows_stmt s follows decided.1 steady.1 here) decided.2
      (steady.2 σ₁ here) later

end

end Runs

end Python

theorem agrees_of_follows {scope : Scope} {σ : State} (follows : Follows scope (kindOf σ)) :
    Agrees scope σ := by
  intro x
  rw [(follows x).object, kindOf]
  cases σ.get x with
  | none => rfl
  | some v => cases v <;> rfl

theorem follows_start (names : Dict String Literal) : Follows [] (kindOf (start names)) := by
  intro x made held
  rw [kindOf, Option.map_eq_some_iff] at held
  obtain ⟨v, held, same⟩ := held
  have member := Dict.mem_of_get held
  obtain ⟨item, -, made⟩ := List.mem_map.mp member
  cases made
  cases same

/-- In a run whose steps meet the conditions, the names bound to functions and classes, and the
nodes they are bound to, are those that are read. -/
theorem executes_of_steady (py : Python) (names : Dict String Literal) (body : List Stmt)
    (steady : py.SteadyBody false (start names) body) : py.Executes names body :=
  fun decided _ ran =>
    agrees_of_follows (py.follows_body body (follows_start names) decided steady ran)

def python : Python where
  iterate
    | .str value => some (value.toList.map fun c => .str (String.singleton c))
    | .tuple elements | .list elements => some elements
    | _ => none
  truth _ _ := none

/-- `g` is an alias of `f` in each pass. -/
def aliased : List Stmt :=
  [.functionDef "f" 1, .assign [.name "DEBUG"] (.literal (.bool false)),
    .ifThen (.name "DEBUG") [.functionDef "f" 2] [.functionDef "h" 3],
    .forIn (.name "x") (.display [.literal (.int 1), .literal (.int 2)])
      [.assign [.name "g"] (.name "f")] []]

theorem executes_aliased : python.Executes [("__name__", .str "test_a")] aliased := by
  apply executes_of_steady
  refine ⟨trivial, fun _ ran => ?_⟩
  cases ran
  refine ⟨nofun, fun _ ran => ?_⟩
  cases ran
  refine ⟨⟨fun same => absurd same (by decide), fun b truth => ?_⟩, fun _ ran => ?_⟩
  · cases truth
    exact ⟨trivial, fun _ _ => trivial⟩
  cases ran
  refine ⟨⟨fun values found => ?_, fun _ _ => trivial⟩, fun _ _ => trivial⟩
  cases found
  refine ⟨by simp [Value.taken], nofun, fun _ binds => ?_⟩
  cases binds
  refine ⟨⟨nofun, fun _ _ => trivial⟩, fun _ runs => ?_⟩
  cases runs
  intro _ binds
  cases binds
  exact ⟨⟨⟨rfl, fun _ _ _ _ => trivial⟩, nofun, fun _ _ => trivial⟩, fun _ _ => trivial⟩

/-- `b` is `a` as the pass before left it. -/
def rebound : List Stmt :=
  [.functionDef "f" 1, .functionDef "g" 2, .assign [.name "a"] (.name "f"),
    .forIn (.name "x") (.display [.literal (.int 1), .literal (.int 2)])
      [.assign [.name "b"] (.name "a"), .assign [.name "a"] (.name "g")] []]

theorem rebound_stale : ¬python.Executes [("__name__", .str "test_a")] rebound := by
  intro executes
  have decided : DecidedBody [] false rebound := by
    simp [rebound, DecidedBody, Decided, Iter.certainlyEmpty]
  have agrees := executes decided _ rfl "b"
  cases agrees

end DreamStudio.Resolver
