import DreamStudio.Spool.Lifecycle
import Mathlib.Data.List.Basic

namespace DreamStudio.Spool

open Library

def Content.HoldsEvent (c : Content) (p : String × List UInt8) : Prop :=
  ∃ entries, c = .zip entries true ∧ (p.1, .event p.2) ∈ entries

def Content.Shallow (c : Content) : Prop :=
  ∃ entries intact, c = .zip entries intact ∧ ∀ e ∈ entries, ∃ bytes, e.2 = .event bytes

/-- In a weekly archive, or in a weekly archive inside a yearly one. -/
def Content.Holds (c : Content) (p : String × List UInt8) : Prop :=
  c.HoldsEvent p ∨ ∃ weeks, c = .zip weeks true ∧ ∃ week ∈ weeks, week.2.HoldsEvent p

def Archived (archives : Directory) (p : String × List UInt8) : Prop :=
  ∃ name file, archives.get name = some file ∧ file.content.Holds p

def RetrievableIn (processed archives : Directory) (p : String × List UInt8) : Prop :=
  (∃ file, processed.get p.1 = some file ∧ file.content = .event p.2) ∨ Archived archives p

namespace Kind

def Fits (kind : Kind) (c : Content) : Prop :=
  match kind with
  | .week _ => ∃ bytes, c = .event bytes
  | .year _ => c.Shallow

/-- The event that goes where the file goes. -/
def Carries (kind : Kind) (name : String) (c : Content) (p : String × List UInt8) : Prop :=
  match kind with
  | .week _ => p.1 = name ∧ c = .event p.2
  | .year _ => c.HoldsEvent p

end Kind

namespace Shelves

def Retrievable (s : Shelves) (p : String × List UInt8) : Prop :=
  RetrievableIn s.processed s.archives p

def settled (s : Shelves) : Directory :=
  match s.job with
  | some ⟨_, .deleting _⟩ => s.archives
  | some ⟨kind, _⟩ => s.archives.erase kind.target
  | none => s.archives

/-- The files of `processed/` that the call under way has written and is to unlink. -/
def claimed (s : Shelves) : List String :=
  match s.job with
  | some ⟨.week _, .writing _ _ entries _⟩ => entries.map (·.1)
  | some ⟨.week _, .verifying picked⟩ => picked
  | some ⟨.week _, .deleting rest⟩ => rest
  | _ => []

/-- An arrival replaces no other bytes, or archived ones, and by archived ones where the file is to
be unlinked. -/
def Clear (s : Shelves) : Move → Prop
  | .arrive name _ bytes =>
    ∀ file ∈ s.processed.get name, ∀ old, file.content = .event old → old ≠ bytes →
      Archived s.settled (name, old) ∧ (name ∈ s.claimed → Archived s.settled (name, bytes))
  | _ => True

section Invariant

variable (s : Shelves) (kind : Kind)

def Listed (names : List String) : Prop :=
  names.Nodup ∧ ∀ n ∈ names, kind.finds n = true ∧
    ∃ file, (s.directory kind.folder).get n = some file

def Copied (entries : Entries) : Prop :=
  ∀ e ∈ entries, kind.Fits e.2 ∧
    ∀ p, kind.Carries e.1 e.2 p → RetrievableIn s.processed (s.archives.erase kind.target) p

def Disposable (archives : Directory) (entries : Entries) (names : List String) : Prop :=
  ∀ n ∈ names, ∀ file, (s.directory kind.folder).get n = some file →
    (n, file.content) ∈ entries ∨
      kind.folder = .processed ∧ ∀ p, kind.Carries n file.content p → Archived archives p

def Underway : Phase → Prop
  | .listing names picked => s.archives.get kind.target = none ∧ s.Listed kind (picked ++ names)
  | .writing picked rest entries _ =>
    s.archives.get kind.target = none ∧ s.Listed kind picked ∧
      entries.map (·.1) ++ rest = picked ∧ s.Copied kind entries ∧
      s.Disposable kind (s.archives.erase kind.target) entries (entries.map (·.1))
  | .verifying picked =>
    ∃ file entries intact, s.archives.get kind.target = some file ∧
      file.content = .zip entries intact ∧
      s.Listed kind picked ∧ s.Copied kind entries ∧
      s.Disposable kind (s.archives.erase kind.target) entries picked
  | .discarding =>
    ∃ file entries intact, s.archives.get kind.target = some file ∧
      file.content = .zip entries intact ∧
      s.Copied kind entries
  | .deleting rest =>
    ∃ file entries, s.archives.get kind.target = some file ∧ file.content = .zip entries true ∧
      s.Listed kind rest ∧ s.Disposable kind s.archives entries rest

/-- The claim, and what the two directories hold whatever call is under way. -/
structure Sound : Prop where
  retrievable : ∀ p ∈ s.placed, s.Retrievable p
  names : ∀ folder, (s.directory folder).keys.Nodup
  events : ∀ name file, s.processed.get name = some file → ∃ bytes, file.content = .event bytes
  weekly : ∀ year name file, s.archives.get name = some file → (Kind.year year).finds name = true →
    file.content.Shallow

structure Kept : Prop extends Sound s where
  underway : ∀ j ∈ s.job, s.Underway j.kind j.phase

end Invariant

end Shelves

section Names

theorem mem_toString_tail {n : Int} {c : Char} (member : c ∈ (toString n).toList.tail) :
    c.isDigit = true := by
  have digit {k : Nat} (inside : c ∈ (Nat.repr k).toList) : c.isDigit = true := by
    rw [Nat.repr, String.toList_ofList] at inside
    exact Nat.isDigit_of_mem_toDigits (by decide) (by decide) inside
  cases n with
  | ofNat k => exact digit (List.mem_of_mem_tail member)
  | negSucc k =>
    apply digit (k := k + 1)
    have whole : (toString (Int.negSucc k)).toList = '-' :: (Nat.repr (k + 1)).toList := by
      change (String.append "-" (Nat.repr (k + 1))).toList = _
      exact String.toList_append
    rwa [whole] at member

theorem toString_ne_nil (n : Int) : (toString n).toList ≠ [] := by
  cases n with
  | ofNat k =>
    change (Nat.repr k).toList ≠ []
    rw [Nat.repr, String.toList_ofList]
    exact Nat.toDigits_ne_nil
  | negSucc k =>
    change (String.append "-" (Nat.repr (k + 1))).toList ≠ []
    rw [show (String.append "-" (Nat.repr (k + 1))).toList = _ from String.toList_append]
    exact List.cons_ne_nil _ _

theorem not_finds_target (y z : Int) : (Kind.year y).finds (Kind.year z).target = false := by
  apply Bool.eq_false_iff.mpr
  intro found
  have within : startsWith ("spool-processed-" ++ toString z ++ ".zip")
      ("spool-processed-" ++ toString y ++ "-") = true := (Bool.and_eq_true_iff.mp found).1
  rw [startsWith, List.isPrefixOf_iff_prefix] at within
  simp only [String.toList_append, List.append_assoc, List.prefix_append_right_inj] at within
  obtain ⟨rest, same⟩ := within
  obtain ⟨head, tail, shape⟩ := List.exists_cons_of_ne_nil (toString_ne_nil y)
  obtain ⟨other, later, shape'⟩ := List.exists_cons_of_ne_nil (toString_ne_nil z)
  rw [shape, shape'] at same
  have dash : '-' ∈ later ++ ".zip".toList := by
    have tails : tail ++ "-".toList ++ rest = later ++ ".zip".toList := (List.cons.inj same).2
    rw [← tails]
    simp
  rcases List.mem_append.mp dash with inside | inside
  · have tail : '-' ∈ (toString z).toList.tail := by
      rw [shape']
      exact inside
    exact absurd (mem_toString_tail tail) (by decide)
  · exact absurd inside (by decide)

theorem finds_ne_target {kind : Kind} {name : String} (in_archives : kind.folder = .archives)
    (found : kind.finds name = true) : name ≠ kind.target := by
  rintro rfl
  cases kind with
  | week monday => cases in_archives
  | year year => rw [not_finds_target] at found; cases found

end Names

section Archives

variable {processed archives : Directory} {p : String × List UInt8} {name target : String}
  {file : Stored}

theorem Archived.of_erase (h : Archived (archives.erase target) p) : Archived archives p := by
  obtain ⟨n, f, held, inside⟩ := h
  rw [Dict.get_erase] at held
  split at held
  · cases held
  · exact ⟨n, f, held, inside⟩

theorem Archived.set (absent : archives.get target = none) (h : Archived archives p) :
    Archived (archives.set target file) p := by
  obtain ⟨n, f, held, inside⟩ := h
  refine ⟨n, f, ?_, inside⟩
  rw [Dict.get_set_of_ne]
  · exact held
  · rintro rfl
    rw [absent] at held
    cases held

theorem Archived.erase_or (h : Archived archives p) (target : String) :
    Archived (archives.erase target) p ∨
      ∃ file, archives.get target = some file ∧ file.content.Holds p := by
  obtain ⟨n, f, held, inside⟩ := h
  by_cases same : n = target
  · exact .inr ⟨f, same ▸ held, inside⟩
  · refine .inl ⟨n, f, ?_, inside⟩
    rw [Dict.get_erase, if_neg same]
    exact held

theorem Archived.congr {other : Directory} (same : ∀ n, other.get n = archives.get n)
    (h : Archived archives p) :    Archived other p := by
  obtain ⟨n, f, held, inside⟩ := h
  exact ⟨n, f, (same n).trans held, inside⟩

variable {kind : Kind} {entries : Entries} {c : Content}

theorem archived_of_entry (held : archives.get target = some file)
    (zip : file.content = .zip entries true) (member : (name, c) ∈ entries)
    (carries : kind.Carries name c p) : Archived archives p := by
  refine ⟨target, file, held, ?_⟩
  cases kind with
  | week monday =>
    obtain ⟨rfl, rfl⟩ := carries
    exact .inl ⟨entries, zip, member⟩
  | year year => exact .inr ⟨entries, zip, (name, c), member, carries⟩

theorem carried_of_holds (zip : c = .zip entries intact) (fits : ∀ e ∈ entries, kind.Fits e.2)
    (holds : c.Holds p) : ∃ e ∈ entries, kind.Carries e.1 e.2 p := by
  rcases holds with ⟨es, same, member⟩ | ⟨weeks, same, week, member, inner⟩
  · rw [zip] at same
    cases same
    have fit := fits _ member
    cases kind with
    | week monday => exact ⟨_, member, rfl, rfl⟩
    | year year =>
      obtain ⟨es, ok, shape, -⟩ := fit
      cases shape
  · rw [zip] at same
    cases same
    have fit := fits _ member
    cases kind with
    | week monday =>
      obtain ⟨bytes, shape⟩ := fit
      obtain ⟨es, shape', -⟩ := inner
      rw [shape] at shape'
      cases shape'
    | year year => exact ⟨week, member, inner⟩

theorem Content.Shallow.holdsEvent (flat : c.Shallow) (holds : c.Holds p) : c.HoldsEvent p := by
  refine holds.resolve_right ?_
  rintro ⟨weeks, same, week, member, inner⟩
  obtain ⟨entries, intact, shape, events⟩ := flat
  rw [shape] at same
  cases same
  obtain ⟨bytes, content⟩ := events week member
  obtain ⟨es, zip, -⟩ := inner
  rw [content] at zip
  cases zip

end Archives

namespace Shelves

variable {midnight : Ordinal → Int} {s : Shelves} {kind : Kind} {name : String} {file : Stored}

section Sources

variable (s) in
theorem retrievable_of_source (found : kind.finds name = true)
    (held : (s.directory kind.folder).get name = some file) {p : String × List UInt8}
    (carries : kind.Carries name file.content p) :
    RetrievableIn s.processed (s.archives.erase kind.target) p := by
  cases kind with
  | week monday =>
    obtain ⟨rfl, shape⟩ := carries
    exact .inl ⟨file, held, shape⟩
  | year year =>
    refine .inr ⟨name, file, ?_, .inl carries⟩
    rw [Dict.get_erase, if_neg (finds_ne_target rfl found)]
    exact held

theorem Sound.fits (h : Sound s) (found : kind.finds name = true)
    (held : (s.directory kind.folder).get name = some file) : kind.Fits file.content := by
  cases kind with
  | week monday => exact h.events name file held
  | year year => exact h.weekly year name file held found

theorem Sound.goes (h : Sound s) {phase : Phase} (there : s.Underway kind phase) :
    Kept (s.goes kind phase) where
  retrievable := h.retrievable
  names := h.names
  events := h.events
  weekly := h.weekly
  underway := by
    rintro j ⟨⟩
    exact there

theorem Sound.ends (h : Sound s) : Kept s.ends where
  retrievable := h.retrievable
  names := h.names
  events := h.events
  weekly := h.weekly
  underway := nofun

theorem Kept.init : Kept {} where
  retrievable := nofun
  names folder := by cases folder <;> exact List.nodup_nil
  events := nofun
  weekly := nofun
  underway := nofun

end Sources

section Listing

theorem listed_keys (h : Sound s) :
    s.Listed kind ((s.directory kind.folder).keys.filter kind.finds) := by
  refine ⟨(h.names kind.folder).filter _, fun n member => ?_⟩
  obtain ⟨there, found⟩ := List.mem_filter.mp member
  exact ⟨found, Option.ne_none_iff_exists'.mp fun absent => Dict.get_eq_none_iff.mp absent there⟩

theorem Kept.start (h : Kept s) (kind : Kind) : Kept (s.start kind) := by
  unfold Shelves.start
  split
  · exact h
  next absent =>
    apply h.toSound.goes
    exact ⟨Option.not_isSome_iff_eq_none.mp absent, listed_keys h.toSound⟩

theorem Listed.sublist {names names' : List String} (h : s.Listed kind names)
    (sub : names'.Sublist names) : s.Listed kind names' :=
  ⟨h.1.sublist sub, fun n member => h.2 n (sub.subset member)⟩

end Listing

section Steps

variable {o : Outcome} {names picked rest : List String} {entries : Entries} {intact : Bool}

theorem kept_listing (h : Sound s) (u : s.Underway kind (.listing (name :: names) picked)) :
    Kept (s.work midnight kind o (.listing (name :: names) picked)) := by
  obtain ⟨absent, listed⟩ := u
  simp only [work]
  split
  · split
    · exact h.ends
    · apply h.goes
      refine ⟨absent, ?_⟩
      split
      · rwa [List.append_assoc]
      · exact listed.sublist (List.sublist_append_right [name] names |>.append_left picked)
  · exact h.ends

theorem kept_picked (h : Sound s) (u : s.Underway kind (.listing [] picked)) :
    Kept (s.work midnight kind o (.listing [] picked)) := by
  obtain ⟨absent, listed⟩ := u
  rw [List.append_nil] at listed
  simp only [work]
  split
  · exact h.ends
  · exact h.goes ⟨absent, listed, rfl, nofun, nofun⟩

theorem kept_writing (h : Sound s)
    (u : s.Underway kind (.writing picked (name :: rest) entries intact)) :
    Kept (s.work midnight kind o (.writing picked (name :: rest) entries intact)) := by
  obtain ⟨absent, listed, split, copied, disposable⟩ := u
  have member : name ∈ picked := by
    rw [← split]
    simp
  have found := (listed.2 name member).1
  simp only [work]
  split
  next file held =>
    split
    · exact h.ends
    · apply h.goes
      refine ⟨absent, listed, by simpa using split, fun e there => ?_, fun n there f source => ?_⟩
      · rcases List.mem_append.mp there with there | there
        · exact copied e there
        · rw [List.mem_singleton.mp there]
          exact ⟨h.fits found held, fun p carries => s.retrievable_of_source found held carries⟩
      · rw [List.map_append] at there
        rcases List.mem_append.mp there with there | there
        · exact (disposable n there f source).imp (List.mem_append_left _) id
        · obtain rfl : n = name := List.mem_singleton.mp there
          rw [held] at source
          cases source
          exact .inl (List.mem_append_right _ (List.mem_singleton.mpr rfl))
  · exact h.ends

theorem directory_archive (other : name ≠ kind.target ∨ kind.folder = .processed) :
    ((s.archive kind file).directory kind.folder).get name =
      (s.directory kind.folder).get name := by
  cases kind with
  | week monday => rfl
  | year year => exact Dict.get_set_of_ne _ _ (other.resolve_right nofun)

theorem ne_target_or (found : kind.finds name = true) :
    name ≠ kind.target ∨ kind.folder = .processed := by
  cases kind with
  | week monday => exact .inr rfl
  | year year => exact .inl (finds_ne_target rfl found)

theorem kept_renaming (h : Sound s) (u : s.Underway kind (.writing picked [] entries intact)) :
    Kept (s.work midnight kind o (.writing picked [] entries intact)) := by
  obtain ⟨absent, listed, split, copied, disposable⟩ := u
  rw [List.append_nil] at split
  simp only [work]
  split
  · exact h.ends
  have same : ∀ n, ((s.archive kind ⟨0, .zip entries intact⟩).archives.erase kind.target).get n =
      (s.archives.erase kind.target).get n := by
    intro n
    rw [archive, Dict.get_erase, Dict.get_erase, Dict.get_set]
    split <;> rfl
  apply Sound.goes
  · refine ⟨fun p there => ?_, fun folder => ?_, h.events, ?_⟩
    · exact (h.retrievable p there).imp id (.set absent)
    · cases folder with
      | processed => exact h.names .processed
      | archives => exact Dict.keys_set_nodup (h.names .archives) _ _
    · intro year n f held found
      rw [archive, Dict.get_set] at held
      split at held
      next here =>
        cases held
        rw [here] at found
        cases kind with
        | week monday => exact ⟨entries, intact, rfl, fun e there => (copied e there).1⟩
        | year other => rw [not_finds_target] at found; cases found
      · exact h.weekly year n f held found
  · have held := Dict.get_set_self s.archives kind.target ⟨0, .zip entries intact⟩
    refine ⟨_, entries, intact, held, rfl, ⟨listed.1, fun n there => ?_⟩, ?_, ?_⟩
    · obtain ⟨found, f, held⟩ := listed.2 n there
      exact ⟨found, f, (directory_archive (ne_target_or found)).trans held⟩
    · exact fun e there => ⟨(copied e there).1, fun p carries =>
        ((copied e there).2 p carries).imp id (.congr same)⟩
    · intro n there f held
      rw [directory_archive (ne_target_or (listed.2 n there).1)] at held
      refine (disposable n (split ▸ there) f held).imp id fun ⟨week, all⟩ => ?_
      exact ⟨week, fun p carries => (all p carries).congr same⟩

theorem kept_verifying (h : Sound s) (u : s.Underway kind (.verifying picked)) :
    Kept (s.work midnight kind o (.verifying picked)) := by
  obtain ⟨file, entries, intact, held, zip, listed, copied, disposable⟩ := u
  simp only [work]
  split
  next good =>
    have whole : intact = true := by
      have verified := (Bool.and_eq_true_iff.mp good).2
      simp only [verifyZip, held, Option.map_some, zip] at verified
      exact (Bool.and_eq_true_iff.mp verified).1
    apply h.goes
    refine ⟨file, entries, held, whole ▸ zip, listed, fun n there f source => ?_⟩
    refine (disposable n there f source).imp id fun ⟨week, all⟩ => ?_
    exact ⟨week, fun p carries => (all p carries).of_erase⟩
  · exact h.goes ⟨file, entries, intact, held, zip, copied⟩

theorem kept_discarding (h : Sound s) (u : s.Underway kind .discarding) :
    Kept (s.work midnight kind o .discarding) := by
  obtain ⟨file, entries, intact, held, zip, copied⟩ := u
  simp only [work]
  split
  · exact h.ends
  refine Sound.ends ⟨fun p there => ?_, fun folder => ?_, h.events, fun year n f there found => ?_⟩
  · rcases h.retrievable p there with source | archived
    · exact .inl source
    · rcases archived.erase_or kind.target with other | ⟨f, held', holds⟩
      · exact .inr other
      · rw [held] at held'
        cases held'
        have fits := fun e member => (copied e member).1
        obtain ⟨e, member, carries⟩ := carried_of_holds zip fits holds
        exact (copied e member).2 p carries
  · cases folder with
    | processed => exact h.names .processed
    | archives => exact (h.names .archives).sublist (List.filter_sublist.map _)
  · rw [Dict.get_erase] at there
    split at there
    · cases there
    · exact h.weekly year n f there found

theorem kept_deleting (h : Sound s) (u : s.Underway kind (.deleting (name :: rest))) :
    Kept (s.work midnight kind o (.deleting (name :: rest))) := by
  obtain ⟨file, entries, held, zip, listed, disposable⟩ := u
  have apart := (List.nodup_cons.mp listed.1).1
  simp only [work]
  split
  · refine h.goes ⟨file, entries, held, zip, listed.sublist (List.sublist_cons_self name rest), ?_⟩
    exact fun n there => disposable n (List.mem_cons_of_mem name there)
  have gets : ∀ n ≠ name, ((s.unlink name kind.folder).directory kind.folder).get n =
      (s.directory kind.folder).get n := by
    intro n other
    cases kind <;> exact (Dict.get_erase _ _ _).trans (if_neg other)
  have later : (s.unlink name kind.folder).Listed kind rest := by
    refine ⟨listed.1.of_cons, fun n there => ?_⟩
    obtain ⟨found, f, source⟩ := listed.2 n (List.mem_cons_of_mem name there)
    exact ⟨found, f, (gets n (ne_of_mem_of_not_mem there apart)).trans source⟩
  have spare (archives : Directory) (more : kind.folder = .processed → archives = s.archives) :
      (s.unlink name kind.folder).Disposable kind archives entries rest := by
    intro n there f source
    rw [gets n (ne_of_mem_of_not_mem there apart)] at source
    refine (disposable n (List.mem_cons_of_mem name there) f source).imp id fun ⟨week, all⟩ => ?_
    exact ⟨week, (more week).symm ▸ all⟩
  cases kind with
  | week monday =>
    have left : (s.unlink name .processed).Underway (.week monday) (.deleting rest) :=
      ⟨file, entries, held, zip, later, spare _ fun _ => rfl⟩
    refine Sound.goes ?_ left
    refine ⟨fun p there => ?_, fun folder => ?_, fun n f source => ?_, h.weekly⟩
    · rcases h.retrievable p there with ⟨f, source, content⟩ | archived
      · by_cases here : p.1 = name
        · have carries : (Kind.week monday).Carries name f.content p := ⟨here, content⟩
          right
          rcases disposable name List.mem_cons_self f (here ▸ source) with member | ⟨-, all⟩
          · exact archived_of_entry held zip member carries
          · exact all p carries
        · exact .inl ⟨f, (gets p.1 here).trans source, content⟩
      · exact .inr archived
    · cases folder with
      | processed => exact (h.names .processed).sublist (List.filter_sublist.map _)
      | archives => exact h.names .archives
    · change (s.processed.erase name).get n = some f at source
      rw [Dict.get_erase] at source
      split at source
      · cases source
      · exact h.events n f source
  | year year =>
    obtain ⟨found, f, source⟩ := listed.2 name List.mem_cons_self
    have ne : (Kind.year year).target ≠ name := (finds_ne_target rfl found).symm
    have kept : (s.archives.erase name).get (Kind.year year).target = some file :=
      (gets _ ne).trans held
    have left : (s.unlink name .archives).Underway (.year year) (.deleting rest) :=
      ⟨file, entries, kept, zip, later, spare _ nofun⟩
    refine Sound.goes ?_ left
    refine ⟨fun p there => ?_, fun folder => ?_, h.events, fun y n g there found => ?_⟩
    · rcases h.retrievable p there with source | archived
      · exact .inl source
      right
      rcases archived.erase_or name with other | ⟨g, held', holds⟩
      · exact other
      · rw [show s.archives.get name = some f from source] at held'
        cases held'
        have member := (disposable name List.mem_cons_self f source).resolve_right nofun
        have carries : (Kind.year year).Carries name f.content p :=
          (h.weekly year name f source found).holdsEvent holds
        exact archived_of_entry kept zip member carries
    · cases folder with
      | processed => exact h.names .processed
      | archives => exact (h.names .archives).sublist (List.filter_sublist.map _)
    · change (s.archives.erase name).get n = some g at there
      rw [Dict.get_erase] at there
      split at there
      · cases there
      · exact h.weekly y n g there found

theorem Kept.work (h : Kept s) {j : Job} (running : s.job = some j) :
    Kept (s.work midnight j.kind o j.phase) := by
  have u := h.underway j running
  obtain ⟨kind, phase⟩ := j
  cases phase with
  | listing names picked =>
    cases names with
    | nil => exact kept_picked h.toSound u
    | cons name names => exact kept_listing h.toSound u
  | writing picked rest entries intact =>
    cases rest with
    | nil => exact kept_renaming h.toSound u
    | cons name rest => exact kept_writing h.toSound u
  | verifying picked => exact kept_verifying h.toSound u
  | discarding => exact kept_discarding h.toSound u
  | deleting rest =>
    cases rest with
    | nil => exact h.ends
    | cons name rest => exact kept_deleting h.toSound u

end Steps

section Arrivals

variable {mtime : Int} {bytes : List UInt8} {archives : Directory}

/-- What an arrival replaces is archived. -/
def Spares (s : Shelves) (name : String) (bytes : List UInt8) (archives : Directory) : Prop :=
  ∀ file ∈ s.processed.get name, ∀ old, file.content = .event old → old ≠ bytes →
    Archived archives (name, old)

theorem RetrievableIn.arrive {p : String × List UInt8} (spares : s.Spares name bytes archives)
    (h : RetrievableIn s.processed archives p) :
    RetrievableIn (s.arrive name mtime bytes).processed archives p := by
  rcases h with ⟨f, held, content⟩ | archived
  · by_cases here : p.1 = name
    · subst here
      by_cases same : p.2 = bytes
      · exact .inl ⟨⟨mtime, .event bytes⟩, Dict.get_set_self _ _ _, congrArg _ same.symm⟩
      · exact .inr (spares f held p.2 content same)
    · exact .inl ⟨f, (Dict.get_set_of_ne _ _ here).trans held, content⟩
  · exact .inr archived

theorem Sound.arrive (h : Sound s) (spares : s.Spares name bytes s.archives) :
    Sound (s.arrive name mtime bytes) where
  retrievable := by
    intro p there
    rcases List.mem_cons.mp there with rfl | there
    · exact .inl ⟨_, Dict.get_set_self _ _ _, rfl⟩
    · exact RetrievableIn.arrive spares (h.retrievable p there)
  names := by
    intro folder
    cases folder with
    | processed => exact Dict.keys_set_nodup (h.names .processed) _ _
    | archives => exact h.names .archives
  events := by
    intro n f held
    change (s.processed.set name _).get n = some f at held
    rw [Dict.get_set] at held
    split at held
    · cases held
      exact ⟨bytes, rfl⟩
    · exact h.events n f held
  weekly := h.weekly

theorem Listed.arrive {names : List String} (h : s.Listed kind names) :
    (s.arrive name mtime bytes).Listed kind names := by
  refine ⟨h.1, fun n member => ?_⟩
  obtain ⟨found, f, held⟩ := h.2 n member
  refine ⟨found, ?_⟩
  cases kind with
  | week monday =>
    change ∃ file, (s.processed.set name _).get n = some file
    rw [Dict.get_set]
    split
    · exact ⟨_, rfl⟩
    · exact ⟨f, held⟩
  | year year => exact ⟨f, held⟩

theorem Copied.arrive {entries : Entries} (h : s.Copied kind entries)
    (spares : s.Spares name bytes (s.archives.erase kind.target)) :
    (s.arrive name mtime bytes).Copied kind entries :=
  fun e member =>
    ⟨(h e member).1, fun p carries => RetrievableIn.arrive spares ((h e member).2 p carries)⟩

theorem Disposable.arrive {entries : Entries} {names : List String}
    (h : s.Disposable kind archives entries names) (listed : s.Listed kind names) (sound : Sound s)
    (kept : kind.folder = .processed → name ∈ names → ∀ file ∈ s.processed.get name, ∀ old,
      file.content = .event old → old ≠ bytes → Archived archives (name, bytes)) :
    (s.arrive name mtime bytes).Disposable kind archives entries names := by
  intro n member f held
  cases kind with
  | year year => exact h n member f held
  | week monday =>
    change (s.processed.set name _).get n = some f at held
    rw [Dict.get_set] at held
    split at held
    next here =>
      subst here
      cases held
      obtain ⟨-, f, held⟩ := listed.2 n member
      obtain ⟨old, content⟩ := sound.events n f held
      by_cases same : old = bytes
      · have before := h n member f held
        rwa [content, same] at before
      · refine .inr ⟨rfl, ?_⟩
        rintro ⟨m, b⟩ ⟨here, carried⟩
        cases here
        cases carried
        exact kept rfl member f held old content same
    · exact h n member f held

theorem archived_of_clear {names : List String} (clear : s.Clear (.arrive name mtime bytes))
    (claims : kind.folder = .processed → s.claimed = names) (rests : s.settled = archives)
    (week : kind.folder = .processed) (member : name ∈ names) :
    ∀ file ∈ s.processed.get name, ∀ old, file.content = .event old → old ≠ bytes →
      Archived archives (name, bytes) := by
  intro file held old content other
  subst rests
  exact (clear file held old content other).2 (claims week ▸ member)

theorem Kept.arrive (h : Kept s) (clear : s.Clear (.arrive name mtime bytes)) :
    Kept (s.arrive name mtime bytes) := by
  have spares : s.Spares name bytes s.settled := fun file held old content other =>
    (clear file held old content other).1
  have later (kind : Kind) (small : s.Spares name bytes (s.archives.erase kind.target)) :
      s.Spares name bytes s.archives :=
    fun file held old content other => (small file held old content other).of_erase
  cases running : s.job with
  | none =>
    simp only [settled, running] at spares
    refine ⟨h.toSound.arrive spares, fun j there => ?_⟩
    rw [show (s.arrive name mtime bytes).job = s.job from rfl, running] at there
    cases there
  | some j =>
    have u := h.underway j running
    obtain ⟨kind, phase⟩ := j
    have goes (sound : Sound (s.arrive name mtime bytes))
        (u : (s.arrive name mtime bytes).Underway kind phase) : Kept
          (s.arrive name mtime bytes) := by
      refine ⟨sound, fun j there => ?_⟩
      rw [show (s.arrive name mtime bytes).job = s.job from rfl, running] at there
      cases there
      exact u
    cases phase with
    | listing names picked =>
      simp only [settled, running] at spares
      exact goes (h.toSound.arrive (later kind spares)) ⟨u.1, Listed.arrive u.2⟩
    | writing picked rest entries intact =>
      have rests : s.settled = s.archives.erase kind.target := by simp only [settled, running]
      rw [rests] at spares
      obtain ⟨absent, listed, split, copied, disposable⟩ := u
      have written := listed.sublist (split ▸ List.sublist_append_left _ rest)
      refine goes (h.toSound.arrive (later kind spares))
        ⟨absent, listed.arrive, split, copied.arrive spares, ?_⟩
      refine disposable.arrive written h.toSound (archived_of_clear clear (fun week => ?_) rests)
      cases kind with
      | week monday => simp only [claimed, running]
      | year year => cases week
    | verifying picked =>
      have rests : s.settled = s.archives.erase kind.target := by simp only [settled, running]
      rw [rests] at spares
      obtain ⟨file, entries, intact, there, zip, listed, copied, disposable⟩ := u
      refine goes (h.toSound.arrive (later kind spares))
        ⟨file, entries, intact, there, zip, listed.arrive, copied.arrive spares, ?_⟩
      refine disposable.arrive listed h.toSound (archived_of_clear clear (fun week => ?_) rests)
      cases kind with
      | week monday => simp only [claimed, running]
      | year year => cases week
    | discarding =>
      simp only [settled, running] at spares
      obtain ⟨file, entries, intact, there, zip, copied⟩ := u
      exact goes (h.toSound.arrive (later kind spares))
        ⟨file, entries, intact, there, zip, copied.arrive spares⟩
    | deleting rest =>
      have rests : s.settled = s.archives := by simp only [settled, running]
      rw [rests] at spares
      obtain ⟨file, entries, there, zip, listed, disposable⟩ := u
      refine goes (h.toSound.arrive spares) ⟨file, entries, there, zip, listed.arrive, ?_⟩
      refine disposable.arrive listed h.toSound (archived_of_clear clear (fun week => ?_) rests)
      cases kind with
      | week monday => simp only [claimed, running]
      | year year => cases week

end Arrivals

theorem Kept.step (h : Kept s) {m : Move} (clear : s.Clear m) {t : Shelves}
    (step : (lifecycle midnight).step s m = some t) : Kept t := by
  cases m with
  | arrive name mtime bytes =>
    cases step
    exact h.arrive clear
  | call c =>
    change (if s.job.isSome then none else some ((c.kind.map s.start).getD s)) = some t at step
    split at step
    · cases step
    · cases step
      cases c.kind with
      | none => exact h
      | some kind => exact h.start kind
  | work o =>
    obtain ⟨j, running, rfl⟩ := Option.map_eq_some_iff.mp step
    exact h.work running
  | stop =>
    cases step
    exact h.ends

/-- Archiving loses no file as long as every arrival is clear. -/
theorem archived_retrievable (midnight : Ordinal → Int) {moves : List Move} {s : Shelves}
    (clear : ∀ x ∈ (lifecycle midnight).transitions {} moves, x.before.Clear x.label)
    (reach : (lifecycle midnight).run {} moves = some s) : ∀ p ∈ s.placed, s.Retrievable p := by
  refine Sound.retrievable (Kept.toSound ?_)
  exact (lifecycle midnight).run_invariant_of_guarded (G := fun s m _ => s.Clear m)
    (fun _ _ _ kept ok step => kept.step ok step) Kept.init clear reach

def oneFile (name : String) : List Move :=
  [.arrive name 739621 [1], .call (.archiveWeek 739628), .work {}, .work {}, .work {}, .work {},
    .work {}]

theorem oneFile_retrievable :
    ((lifecycle Int.ofNat).run {} (oneFile "e1.json" ++ [.work {}])).isSome ∧
      ∀ s ∈ (lifecycle Int.ofNat).run {} (oneFile "e1.json" ++ [.work {}]),
        ∀ p ∈ s.placed, s.Retrievable p := by
  refine ⟨rfl, fun s reach => archived_retrievable Int.ofNat (fun x member => ?_) reach⟩
  change x ∈ Machine.transitions _ {} (.arrive "e1.json" 739621 [1] :: _) at member
  rw [Machine.transitions_cons_of_step _ rfl] at member
  rcases List.mem_cons.mp member with rfl | member
  · exact nofun
  · have later : x.label ∈ [.call (.archiveWeek 739628), .work {}, .work {}, .work {}, .work {},
        .work {}, .work {}] := (lifecycle Int.ofNat).label_mem_of_mem_transitions member
    cases label : x.label with
    | arrive name mtime bytes => simp [label] at later
    | _ => trivial

/-- An event emitted again under its id arrives when the zip file is good, and is unlinked. -/
theorem reemitted_lost :
    ¬ ∀ midnight moves, ∀ s ∈ (lifecycle midnight).run {} moves, ∀ p ∈
      s.placed, s.Retrievable p := by
  intro all
  have lost := all Int.ofNat (oneFile "tok-1.json" ++ [.arrive "tok-1.json" 739628 [2], .work {}])
    _ rfl
    ("tok-1.json", [2]) List.mem_cons_self
  obtain ⟨file, there, -⟩ | ⟨name, file, held, holds⟩ := lost
  · cases there
  change Dict.get [("spool-processed-2026-01-05.zip", _)] name = some file at held
  rw [Dict.get_cons] at held
  split at held
  · cases held
    rcases holds with ⟨entries, zip, member⟩ | ⟨weeks, zip, week, member, entries, inner, -⟩
    · cases zip
      cases List.mem_singleton.mp member
    · cases zip
      rw [List.mem_singleton.mp member] at inner
      cases inner
  · cases held

end Shelves

end DreamStudio.Spool
