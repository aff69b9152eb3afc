import DreamStudio.Conftest.Frame
import Mathlib.Data.List.Induction

namespace DreamStudio.Conftest

open Library

variable {names : List String} {n : String} {values : Reports} {σ σ' : State} {stmt : Stmt}
  {body : List Stmt} {steps : List (Stmt × List Event)} {events : List Event}

def Node.Occurs (n : String) (node : Node) : Prop :=
  ∃ x, Within Node.children node x ∧ n ∈ x.candidates

instance {node : Node} : Decidable (node.Occurs n) :=
  decidable_of_iff (∃ x ∈ node.walk, n ∈ x.candidates) <| by simp only [Node.mem_walk, Node.Occurs]

theorem mention_eq_none : mention stmt names = none ↔ ∀ n ∈ names, ¬stmt.node.Occurs n := by
  simp only [mention, List.findSome?_eq_none_iff, List.find?_eq_none, Node.mem_walk,
    decide_eq_true_eq, Node.Occurs, not_exists, not_and]
  exact ⟨fun h n mem x below cand => h x below n cand mem,
    fun h x below n cand mem => h n mem x below cand⟩

theorem mention_some (h : mention stmt names = some n) : n ∈ names ∧ stmt.node.Occurs n := by
  obtain ⟨x, mem, found⟩ := List.exists_of_findSome?_eq_some h
  have cand := List.mem_of_find?_eq_some found
  have tracked := List.find?_some found
  exact ⟨of_decide_eq_true tracked, x, Node.mem_walk.mp mem, cand⟩

def Alone (names : List String) (stmt : Stmt) (n : String) : Prop :=
  stmt.node.Occurs n ∧ ∀ m ∈ names, stmt.node.Occurs m → m = n

theorem Alone.mention (alone : Alone names stmt n) (mem : n ∈ names) :
    mention stmt names = some n := by
  cases found : Conftest.mention stmt names with
  | none => exact absurd alone.1 (mention_eq_none.mp found n mem)
  | some m =>
    obtain ⟨mem, occurs⟩ := mention_some found
    rw [alone.2 m mem occurs]

def target? (names : List String) (stmt : Stmt) : Option String :=
  (form stmt.node).target?.filter (· ∈ names)

def Form.literal : Form → Bool
  | bind _ _ value => (literalStrings value).isSome
  | form => form.more.isSome

/-- The text of a statement puts a name in doubt: it is the name of its form, which has no literal,
or the one of the names that stands in another statement. -/
def Doubts (names : List String) (stmt : Stmt) (n : String) : Prop :=
  match target? names stmt with
  | some id => n = id ∧ (form stmt.node).literal = false
  | none => Alone names stmt n

/-- A form binds a name to a literal. -/
def Form.Settles (form : Form) (n : String) : Prop :=
  ∃ annot value, form = .bind n annot value ∧ (literalStrings value).isSome

/-- A statement put a name in doubt, and none has bound it to a literal since. -/
def InDoubt (names : List String) (body : List Stmt) (n : String) : Prop :=
  ∃ before stmt after, body = before ++ stmt :: after ∧ Doubts names stmt n ∧
    ∀ later ∈ after, ¬(form later.node).Settles n

/-- Where a statement does anything to one of the names, that name is in doubt after it. -/
def Noticed (names : List String) (steps : List (Stmt × List Event)) : Prop :=
  ∀ before step after, steps = before ++ step :: after → ∀ n ∈ names,
    (∃ e ∈ step.2, e.name? = some n) → InDoubt names (before.map (·.1) ++ [step.1]) n

theorem target?_eq_some : target? names stmt = some n ↔
    (form stmt.node).target? = some n ∧ n ∈ names := by
  simp [target?, Option.filter_eq_some_iff]

theorem target?_eq_none : target? names stmt = none ↔
    ∀ n ∈ names, (form stmt.node).target? ≠ some n := by
  simp only [target?, Option.filter_eq_none_iff, decide_eq_true_eq]
  exact ⟨fun h n mem same => h n same mem, fun h n same mem => h n mem same⟩

theorem InDoubt.concat (h : InDoubt names (body ++ [stmt]) n) :
    Doubts names stmt n ∨ InDoubt names body n ∧ ¬(form stmt.node).Settles n := by
  obtain ⟨before, doubtful, after, split, doubts, still⟩ := h
  cases after using List.reverseRecOn with
  | nil =>
    obtain ⟨-, same⟩ := List.append_inj' split rfl
    cases same
    exact .inl doubts
  | append_singleton after last =>
    rw [← List.cons_append, ← List.append_assoc] at split
    obtain ⟨same, last⟩ := List.append_inj' split rfl
    cases last
    obtain ⟨still, here⟩ := List.forall_mem_append.mp still
    exact .inr ⟨⟨before, doubtful, after, same, doubts, still⟩, here _ List.mem_cons_self⟩

theorem Noticed.init {step : Stmt × List Event} (h : Noticed names (steps ++ [step])) :
    Noticed names steps := by
  intro before other after split
  apply h before other (after ++ [step])
  rw [split, List.append_assoc, List.cons_append]

/-- What the reader makes of the name of a form: the literal that is bound, no more than a doubt, or
what is there with a literal behind it. -/
inductive Reads (values : Reports) (n : String) : Form → Report → Prop
  | bound {annot value items} (literal : literalStrings value = some items) :
    Reads values n (.bind n annot value) (.strings items)
  | doubt {form} (why : String) (opened : form.literal = false) :
    Reads values n form (.unevaluable why)
  | more {form items} (why : String) (about : form.target? = some n)
    (literal : form.more = some items) :
    Reads values n form (grown (values.get n) (some items) why)

theorem Form.literal_of_more {form : Form} {items : List String} (more : form.more = some items) :
    form.literal = true := by
  cases form with
  | bind => cases more
  | other => cases more
  | add | append | extend => exact Option.isSome_of_eq_some more

theorem reads_grown {form : Form} (why : String) (about : form.target? = some n)
    (grows : form.literal = form.more.isSome) :
    Reads values n form (grown (values.get n) form.more why) := by
  cases literal : form.more with
  | none =>
    have doubt : grown (values.get n) none why = .unevaluable why := by
      cases values.get n with
      | none => rfl
      | some report => cases report <;> rfl
    rw [doubt]
    exact .doubt why (by rw [grows, literal, Option.isSome_none])
  | some items => exact .more why about literal

theorem readStmt_of_some (values : Reports) (target : target? names stmt = some n) :
    ∃ report, Reads values n (form stmt.node) report ∧
      readStmt names values stmt = values.set n report := by
  obtain ⟨about, mem⟩ := target?_eq_some.mp target
  simp only [readStmt, applyLiteralForm]
  generalize form stmt.node = form at about
  cases form with
  | bind name annot value =>
    cases about
    simp only [if_pos mem]
    refine ⟨_, ?_, rfl⟩
    cases literal : literalStrings value with
    | none => exact .doubt _ (by rw [Form.literal, literal, Option.isSome_none])
    | some items => exact .bound literal
  | add name value | append name value | extend name value =>
    cases about
    simp only [if_pos mem]
    exact ⟨_, reads_grown _ rfl rfl, rfl⟩
  | other => cases about

theorem applyLiteralForm_of_none (free : target? names stmt = none) :
    applyLiteralForm stmt names values = none := by
  have apart := target?_eq_none.mp free
  unfold applyLiteralForm
  cases here : form stmt.node with
  | bind name | add name | append name | extend name =>
    exact if_neg fun mem => apart name mem (by rw [here]; rfl)
  | other => rfl

theorem readStmt_of_mention (values : Reports) {m : String} (free : target? names stmt = none)
    (touched : mention stmt names = some m) :
    ∃ why, readStmt names values stmt = values.set m (.unevaluable why) := by
  simp only [readStmt, applyLiteralForm_of_none free, touched]
  exact ⟨_, rfl⟩

theorem readStmt_of_silence (free : target? names stmt = none)
    (silent : mention stmt names = none) : readStmt names values stmt = values := by
  simp only [readStmt, applyLiteralForm_of_none free, silent]

def Unknown (values : Reports) (n : String) : Prop := ∃ why, values.get n = some (.unevaluable why)

theorem readStmt_of_ne (values : Reports) (apart : target? names stmt ≠ some n) :
    Unknown (readStmt names values stmt) n ∨
      (readStmt names values stmt).get n = values.get n := by
  cases target : target? names stmt with
  | some id =>
    obtain ⟨report, -, read⟩ := readStmt_of_some values target
    rw [read, Dict.get_set_of_ne]
    · exact .inr rfl
    · exact fun same => apart (same ▸ target)
  | none =>
    cases touched : mention stmt names with
    | none => exact .inr (by rw [readStmt_of_silence target touched])
    | some m =>
      obtain ⟨why, read⟩ := readStmt_of_mention values target touched
      rw [Unknown, read, Dict.get_set]
      split
      · exact .inl ⟨why, rfl⟩
      · exact .inr rfl

theorem unknown_of_doubts (mem : n ∈ names) (doubts : Doubts names stmt n) :
    Unknown (readStmt names values stmt) n := by
  cases target : target? names stmt with
  | none =>
    simp only [Doubts, target] at doubts
    obtain ⟨why, read⟩ := readStmt_of_mention values target (doubts.mention mem)
    exact ⟨why, by rw [read, Dict.get_set_self]⟩
  | some id =>
    simp only [Doubts, target] at doubts
    obtain ⟨rfl, opened⟩ := doubts
    obtain ⟨report, reads, read⟩ := readStmt_of_some values target
    rw [Unknown, read, Dict.get_set_self]
    generalize form stmt.node = form at opened reads
    cases reads with
    | bound literal => simp [Form.literal, literal] at opened
    | doubt why => exact ⟨why, rfl⟩
    | more why about literal =>
      rw [Form.literal_of_more literal] at opened
      cases opened

theorem Unknown.readStmt (unknown : Unknown values n) (still : ¬(form stmt.node).Settles n) :
    Unknown (readStmt names values stmt) n := by
  by_cases target : target? names stmt = some n
  · obtain ⟨report, reads, read⟩ := readStmt_of_some values target
    rw [Unknown, read, Dict.get_set_self]
    obtain ⟨old, unknown⟩ := unknown
    generalize form stmt.node = form at still reads
    cases reads with
    | bound literal => exact absurd ⟨_, _, rfl, Option.isSome_of_eq_some literal⟩ still
    | doubt why => exact ⟨why, rfl⟩
    | more why => exact ⟨why, by rw [unknown]; rfl⟩
  · cases readStmt_of_ne values target with
    | inl doubt => exact doubt
    | inr same => rwa [Unknown, same]

theorem stringLists_concat : stringLists (body ++ [stmt]) names =
    readStmt names (stringLists body names) stmt := by
  simp only [stringLists, List.foldl_append, List.foldl_cons, List.foldl_nil]

theorem unknown_of_inDoubt (mem : n ∈ names) (doubt : InDoubt names body n) :
    Unknown (stringLists body names) n := by
  induction body using List.reverseRecOn with
  | nil =>
    obtain ⟨before, stmt, after, split, -⟩ := doubt
    cases before <;> cases split
  | append_singleton body stmt ih =>
    rw [stringLists_concat]
    cases doubt.concat with
    | inl doubts => exact unknown_of_doubts mem doubts
    | inr old => exact (ih old.1).readStmt old.2

theorem settled_grown {tuple : Bool} {items : List String} {why : String}
    (settled : σ.Settled n (values.get n)) (went : σ.grow n items tuple events = some σ') :
    σ'.Settled n (some (grown (values.get n) (some items) why)) := by
  cases held : values.get n with
  | none => trivial
  | some report =>
    cases report with
    | strings =>
      rw [held] at settled
      exact State.Keeps.grow settled went
    | unevaluable => trivial

theorem grow_of_more {items : List String} (about : (form stmt.node).target? = some n)
    (literal : (form stmt.node).more = some items) (went : σ.execute stmt events = some σ') :
    ∃ tuple, σ.grow n items tuple events = some σ' := by
  simp only [State.execute] at went
  generalize form stmt.node = form at about literal went
  cases form with
  | bind => cases literal
  | add name value =>
    cases about
    obtain ⟨shown, held, rfl⟩ := Option.map_eq_some_iff.mp literal
    simp only [held] at went
    cases shown with
    | list => exact ⟨false, went⟩
    | tuple => exact ⟨true, went⟩
  | append name argument =>
    cases about
    obtain ⟨item, held, rfl⟩ := Option.map_eq_some_iff.mp literal
    simp only [held] at went
    exact ⟨false, went⟩
  | extend name argument =>
    cases about
    obtain ⟨shown, held, rfl⟩ := Option.map_eq_some_iff.mp literal
    simp only [held] at went
    exact ⟨false, went⟩
  | other => cases literal

theorem keeps_of_bound {annot : Option Node} {value : Node} {items : List String}
    (bound : form stmt.node = .bind n annot value)
    (literal : literalStrings value = some items) (other : ∀ e ∈ events, e.name? ≠ some n)
    (went : σ.execute stmt events = some σ') :
    σ'.Keeps n items := by
  obtain ⟨shown, held, rfl⟩ := Option.map_eq_some_iff.mp literal
  simp only [State.execute, bound, held] at went
  exact (State.keeps_bind shown).frame (.foldlM other went)

theorem settled_readStmt (mem : n ∈ names) (other : ∀ e ∈ events, e.name? ≠ some n)
    (went : σ.execute stmt events = some σ') (settled : σ.Settled n (values.get n)) :
    σ'.Settled n ((readStmt names values stmt).get n) := by
  by_cases target : target? names stmt = some n
  · obtain ⟨report, reads, read⟩ := readStmt_of_some values target
    rw [read, Dict.get_set_self]
    generalize here : form stmt.node = form at reads
    cases reads with
    | bound literal => exact keeps_of_bound here literal other went
    | doubt => trivial
    | more why about literal =>
      obtain ⟨tuple, went⟩ := grow_of_more (by rwa [here]) (by rwa [here]) went
      exact settled_grown settled went
  · have apart : (form stmt.node).target? ≠ some n := fun about =>
      target (target?_eq_some.mpr ⟨about, mem⟩)
    cases readStmt_of_ne values target with
    | inl doubt =>
      obtain ⟨why, doubt⟩ := doubt
      rw [doubt]
      trivial
    | inr same =>
      rw [same]
      exact settled.frame (.execute apart other went)

theorem settled_run (mem : n ∈ names) (noticed : Noticed names steps)
    (went : σ.run steps = some σ') (unbound : σ.names.get n = none) :
    σ'.Settled n ((stringLists (steps.map (·.1)) names).get n) := by
  induction steps using List.reverseRecOn generalizing σ' with
  | nil => exact Option.some.inj went ▸ unbound
  | append_singleton steps step ih =>
    rw [State.run, List.foldlM_append] at went
    obtain ⟨σ₁, first, went⟩ := Option.bind_eq_some_iff.mp went
    rw [List.foldlM_cons] at went
    obtain ⟨σ₂, last, same⟩ := Option.bind_eq_some_iff.mp went
    cases same
    rw [List.map_append, List.map_singleton]
    by_cases touched : ∃ e ∈ step.2, e.name? = some n
    · have doubt := noticed steps step [] rfl n mem touched
      obtain ⟨why, unknown⟩ := unknown_of_inDoubt mem doubt
      rw [unknown]
      trivial
    · rw [stringLists_concat]
      apply settled_readStmt mem _ last (ih noticed.init first)
      exact fun e done same => touched ⟨e, done, same⟩

/-- In every run in which the names that anything is done to are in doubt, what the reader reports
of the names is so. -/
theorem stringLists_bear (unbound : ∀ n ∈ names, σ.names.get n = none)
    (noticed : Noticed names steps) (went : σ.run steps = some σ') :
    ∀ n ∈ names, σ'.Bears n ((stringLists (steps.map (·.1)) names).get n) :=
  fun n mem => (settled_run mem noticed went (unbound n mem)).bears

instance : Decidable (Alone names stmt n) := inferInstanceAs (Decidable (_ ∧ _))

instance : Decidable (Doubts names stmt n) :=
  match h : target? names stmt with
  | some id =>
    decidable_of_iff (n = id ∧ (form stmt.node).literal = false) <| by simp only [Doubts, h]
  | none => decidable_of_iff (Alone names stmt n) <| by simp only [Doubts, h]

theorem noticed_nil : Noticed names [] := by
  intro before step after split
  cases before <;> cases split

theorem Noticed.concat {step : Stmt × List Event} (noticed : Noticed names steps)
    (last : ∀ n ∈ names, (∃ e ∈ step.2, e.name? = some n) → Doubts names step.1 n) :
    Noticed names (steps ++ [step]) := by
  intro before other after split n mem touched
  cases after using List.reverseRecOn with
  | nil =>
    obtain ⟨-, same⟩ := List.append_inj' split rfl
    cases same
    refine ⟨before.map (·.1), step.1, [], rfl, last n mem touched, ?_⟩
    exact fun later none => nomatch none
  | append_singleton after later =>
    rw [← List.cons_append, ← List.append_assoc] at split
    obtain ⟨same, -⟩ := List.append_inj' split rfl
    exact noticed before other after same n mem touched

def string (value : String) : Node := .constant (some value)

/-- `collect_ignore = ["a.py"]`, `collect_ignore.append("b.py")` and
`if flag: collect_ignore_glob = ["c*"]`. -/
def plain : List (Stmt × List Event) :=
  [(⟨1, .assign [.name "collect_ignore"] (.list [string "a.py"])⟩, []),
    (⟨2, .expr (.call (.attr (.name "collect_ignore") "append") [string "b.py"] [])⟩, []),
    (⟨3, .other [.name "flag", .assign [.name "collect_ignore_glob"] (.list [string "c*"])]⟩,
      [.load "flag", .create [.string "c*"], .store "collect_ignore_glob" (.list 1)])]

theorem plain_noticed : Noticed conftestLists plain := by
  show Noticed conftestLists ((([] ++ [_]) ++ [_]) ++ [_])
  refine ((noticed_nil.concat ?_).concat ?_).concat ?_
  · simp
  · simp
  · decide

theorem plain_bears : ∃ σ, State.start.run plain = some σ ∧ ∀ n ∈ conftestLists,
    σ.Bears n ((stringLists (plain.map (·.1)) conftestLists).get n) := by
  have went : State.start.run plain = some _ := rfl
  exact ⟨_, went, stringLists_bear (fun _ _ => rfl) plain_noticed went⟩

/-- `collect_ignore = collect_ignore_glob = ["a"]`. -/
def chained : List (Stmt × List Event) :=
  [(⟨1, .assign [.name "collect_ignore", .name "collect_ignore_glob"] (.list [string "a"])⟩,
    [.create [.string "a"], .store "collect_ignore" (.list 0),
      .store "collect_ignore_glob" (.list 0)])]

/-- A function `f` with `global collect_ignore` and `collect_ignore = ["b"]`, then
`collect_ignore = ["a"]` and `f()`. -/
def called : List (Stmt × List Event) :=
  [(⟨1, .definition "f" [.other [], .assign [.name "collect_ignore"] (.list [string "b"])]⟩,
      [.store "f" (.other 0)]),
    (⟨4, .assign [.name "collect_ignore"] (.list [string "a"])⟩, []),
    (⟨5, .expr (.call (.name "f") [] [])⟩,
      [.load "f", .create [.string "b"], .store "collect_ignore" (.list 1)])]

/-- Nothing is reported of a name that is bound, and strings of one that has others. -/
theorem chained_unreported :
    (∃ σ, State.start.run chained = some σ ∧ ¬σ.Bears "collect_ignore_glob"
      ((stringLists (chained.map (·.1)) conftestLists).get "collect_ignore_glob")) ∧
    ∃ σ, State.start.run called = some σ ∧ ¬σ.Bears "collect_ignore"
      ((stringLists (called.map (·.1)) conftestLists).get "collect_ignore") := by
  refine ⟨⟨_, rfl, ?_⟩, ⟨_, rfl, ?_⟩⟩
  · exact fun bears => nomatch (show some (Value.list 0) = none from bears)
  · intro bears
    have bears : _ ∨ ∃ ref, some (Value.list 1) = some (.list ref) ∧ _ := bears
    cases bears with
    | inl tuple => cases tuple
    | inr list =>
      obtain ⟨ref, has, items⟩ := list
      cases has
      have items : some [Item.string "b"] = some [Item.string "a"] := items
      simp at items

end DreamStudio.Conftest
