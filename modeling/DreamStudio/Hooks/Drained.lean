import DreamStudio.Hooks.Queue
import Mathlib.Data.List.Perm.Basic
import Mathlib.Data.List.Nodup

namespace DreamStudio.Hooks

open Library

namespace HookQueue

/-- The cap does not stop a call of `drain`. -/
def Uncapped (cap : Nat) (s : HookQueue) : QueueMove → Prop
  | .advance drainer _ => ∀ d ∈ s.drainers[drainer]?, d.below cap = true
  | _ => True

/-- A rotation takes a new name, and a file is read when no writer still holds it open and no other
call has read it and not yet unlinked it. -/
def ClearAt (s : HookQueue) (now : Nat) : DrainPhase → Prop
  | .globbed _ =>
    ∀ inode ∈ s.live, s.file inode ≠ [] →
      s.rotated.get now = none ∧ ∀ d ∈ s.drainers, now ∉ d.unread ∧ d.unlinks ≠ some now
  | .reading _ (path :: _) =>
    ∀ inode ∈ s.rotated.get path, inode ∉ s.handles ∧ ∀ d ∈ s.drainers, d.unlinks ≠ some path
  | _ => True

def Clear (s : HookQueue) : QueueMove → Prop
  | .advance drainer now => ∀ d ∈ s.drainers[drainer]?, s.ClearAt now d
  | _ => True

section Decisions

variable (cap now : Nat) (s : HookQueue)

instance : DecidablePred (s.Uncapped cap)
  | .advance drainer _ => inferInstanceAs
    (Decidable (∀ d ∈ s.drainers[drainer]?, d.below cap = true))
  | .openQueue | .append .. | .drain => .isTrue trivial

instance : DecidablePred (s.ClearAt now)
  | .globbed _ =>
    inferInstanceAs (Decidable (∀ inode ∈ s.live, s.file inode ≠ [] →
      s.rotated.get now = none ∧ ∀ d ∈ s.drainers, now ∉ d.unread ∧ d.unlinks ≠ some now))
  | .reading _ (path :: _) =>
    inferInstanceAs (Decidable (∀ inode ∈ s.rotated.get path,
      inode ∉ s.handles ∧ ∀ d ∈ s.drainers, d.unlinks ≠ some path))
  | .reading _ [] | .unlinking .. | .finished => .isTrue trivial

instance : DecidablePred s.Clear
  | .advance drainer now =>
    inferInstanceAs (Decidable (∀ d ∈ s.drainers[drainer]?, s.ClearAt now d))
  | .openQueue | .append .. | .drain => .isTrue trivial

end Decisions

/-- One more call of `drain`, taken `n` steps past its glob. -/
def lastDrain (s : HookQueue) (now n : Nat) : List QueueMove :=
  .drain :: List.replicate n (.advance s.drainers.length now)

/-- All writers and all calls of `drain` have finished. -/
def Quiet (s : HookQueue) : Prop := s.handles = [] ∧ ∀ d ∈ s.drainers, d = .finished

/-- Where the records are, given the files that have been read. -/
structure Accounted (s : HookQueue) (read : List Nat) : Prop where
  appended : s.appended.Perm s.files.flatten
  handed : s.handed.Perm (read.flatMap s.file)
  nodup : read.Nodup
  known : ∀ i ∈ read, i < s.files.length
  writable : ∀ i ∈ s.handles, i < s.files.length ∧ i ∉ read
  fresh : ∀ i ∈ s.live, i < s.files.length ∧ i ∉ read ∧ ∀ path, s.rotated.get path ≠ some i
  rotated : ∀ path i, s.rotated.get path = some i → i < s.files.length
  apart : ∀ p q i, s.rotated.get p = some i → s.rotated.get q = some i → p = q
  unlinked : ∀ d ∈ s.drainers, ∀ path ∈ d.unlinks, ∀ i, s.rotated.get path = some i → i ∈ read
  reading : ∀ path i, s.rotated.get path = some i → i ∈ read →
    ∃ d ∈ s.drainers, d.unlinks = some path
  unread : ∀ path i, s.rotated.get path = some i → i ∉ read → ∃ d ∈ s.drainers, path ∈ d.unread
  kept : ∀ i < s.files.length, i ∉ read → s.live = some i ∨ ∃ path, s.rotated.get path = some i

section Files

variable {s : HookQueue} {read : List Nat}

theorem perm_flatten_modify {α : Type} {files : List (List α)} {i : Nat} (there : i < files.length)
    (x : α) :    (files.modify i (· ++ [x])).flatten.Perm (files.flatten ++ [x]) := by
  induction files generalizing i with
  | nil => cases there
  | cons file files ih =>
    cases i with
    | zero =>
      simp only [List.modify_zero_cons, List.flatten_cons, List.append_assoc]
      exact List.Perm.append_left file List.perm_append_comm
    | succ i =>
      simp only [List.modify_succ_cons, List.flatten_cons, List.append_assoc]
      exact List.Perm.append_left file (ih (Nat.lt_of_succ_lt_succ there))

theorem flatten_eq_flatMap (s : HookQueue) :
    s.files.flatten = (List.range s.files.length).flatMap s.file := by
  rw [List.flatMap]
  congr 1
  apply List.ext_getElem
  · simp
  · intro i here there
    simp [file, List.getElem?_eq_getElem here]

theorem Accounted.perm (h : s.Accounted read)
    (nothing : ∀ i < s.files.length, i ∉ read → s.file i = []) : s.handed.Perm s.appended := by
  have split : (List.range s.files.length).Perm
      (read ++ (List.range s.files.length).filter (· ∉ read)) := by
    apply (List.perm_ext_iff_of_nodup List.nodup_range _).mpr
    · intro i
      simp only [List.mem_range, List.mem_append, List.mem_filter, decide_eq_true_eq]
      constructor
      · intro there
        by_cases member : i ∈ read
        · exact .inl member
        · exact .inr ⟨there, member⟩
      · rintro (member | ⟨there, -⟩)
        · exact h.known i member
        · exact there
    · apply List.Nodup.append h.nodup (List.nodup_range.filter _)
      intro i member other
      exact absurd member (of_decide_eq_true (List.mem_filter.mp other).2)
  have rest : ((List.range s.files.length).filter (· ∉ read)).flatMap s.file = [] := by
    apply List.flatMap_eq_nil_iff.mpr
    intro i member
    obtain ⟨there, other⟩ := List.mem_filter.mp member
    exact nothing i (List.mem_range.mp there) (of_decide_eq_true other)
  have all := split.flatMap_right s.file
  rw [List.flatMap_append, rest, List.append_nil, ← flatten_eq_flatMap] at all
  exact h.handed.trans (all.symm.trans h.appended.symm)

theorem file_append (i : Nat) (there : i < s.files.length) (files : List (List QueueRecord)) :
    ((s.files ++ files)[i]?).getD [] = s.file i := by
  rw [List.getElem?_append_left there]
  rfl

end Files

section Steps

variable {s : HookQueue} {read paths rest : List Nat} {k now path processed : Nat}
  {old new d : DrainPhase}

theorem mem_set_of_ne (here : s.drainers[k]? = some old) (member : d ∈ s.drainers)
    (other : d ≠ old) :
    d ∈ s.drainers.set k new := by
  obtain ⟨j, found⟩ := List.mem_iff_getElem?.mp member
  refine List.mem_iff_getElem?.mpr ⟨j, ?_⟩
  have apart : k ≠ j := by
    rintro rfl
    rw [here] at found
    exact other (Option.some_inj.mp found).symm
  rw [List.getElem?_set_ne apart]
  exact found

theorem mem_set_self (here : s.drainers[k]? = some old) : new ∈ s.drainers.set k new :=
  List.mem_set (List.getElem?_eq_some_iff.mp here).1 new

theorem Accounted.openQueue (h : s.Accounted read) : s.openQueue.Accounted read := by
  cases live : s.live with
  | some i =>
    have opened : s.openQueue = { s with handles := s.handles ++ [i] } := by
      simp only [HookQueue.openQueue, live]
    obtain ⟨there, unread, -⟩ := h.fresh i live
    rw [opened]
    refine { h with writable := fun j member => ?_ }
    rcases List.mem_append.mp member with member | member
    · exact h.writable j member
    · rw [List.mem_singleton.mp member]
      exact ⟨there, unread⟩
  | none =>
    have opened : s.openQueue =
        { s with
          files := s.files ++ [[]]
          live := some s.files.length
          handles := s.handles ++ [s.files.length] } := by
      simp only [HookQueue.openQueue, live]
    have longer : (s.files ++ [[]]).length = s.files.length + 1 := by simp
    have new : s.files.length ∉ read := fun member => (h.known _ member).false
    rw [opened]
    refine { h with
      appended := ?_, handed := ?_, known := ?_, writable := ?_, fresh := ?_, rotated := ?_
      kept := ?_ }
    · simpa using h.appended
    · refine h.handed.trans (List.Perm.of_eq ?_)
      exact List.flatMap_congr fun i member => (file_append i (h.known i member) [[]]).symm
    · exact fun i member => longer ▸ (h.known i member).trans (Nat.lt_succ_self _)
    · intro i member
      rcases List.mem_append.mp member with member | member
      · exact ⟨longer ▸ (h.writable i member).1.trans (Nat.lt_succ_self _), (h.writable i member).2⟩
      · rw [List.mem_singleton.mp member]
        exact ⟨longer ▸ Nat.lt_succ_self _, new⟩
    · rintro i ⟨⟩
      exact ⟨longer ▸ Nat.lt_succ_self _, new, fun path found => (h.rotated path _ found).false⟩
    · exact fun path i found => longer ▸ (h.rotated path i found).trans (Nat.lt_succ_self _)
    · intro i there unread
      rcases Nat.lt_succ_iff_lt_or_eq.mp (longer ▸ there) with before | rfl
      · rcases h.kept i before unread with here | here
        · rw [live] at here
          cases here
        · exact .inr here
      · exact .inl rfl

theorem Accounted.append (h : s.Accounted read) {record : QueueRecord} {t : HookQueue}
    (step : s.append k record = some t) : t.Accounted read := by
  obtain ⟨i, handle, rfl⟩ := Option.map_eq_some_iff.mp step
  obtain ⟨there, unread⟩ := h.writable i (List.mem_of_getElem? handle)
  have longer : (s.files.modify i (· ++ [record])).length = s.files.length := by simp
  refine { h with
    appended := ?_, handed := ?_, known := ?_, writable := ?_, fresh := ?_, rotated := ?_
    kept := ?_ }
  · exact (h.appended.append_right [record]).trans (perm_flatten_modify there record).symm
  · refine h.handed.trans (List.Perm.of_eq (List.flatMap_congr fun j member => ?_))
    have apart : i ≠ j := fun same => unread (same ▸ member)
    simp [file, apart]
  · exact fun j member => (h.known j member).trans_eq longer.symm
  · intro j member
    obtain ⟨before, other⟩ := h.writable j (List.mem_of_mem_eraseIdx member)
    exact ⟨before.trans_eq longer.symm, other⟩
  · intro j here
    obtain ⟨before, other⟩ := h.fresh j here
    exact ⟨before.trans_eq longer.symm, other⟩
  · exact fun path j found => (h.rotated path j found).trans_eq longer.symm
  · exact fun j before => h.kept j (before.trans_eq longer)

theorem Accounted.drain (h : s.Accounted read) :
    s.startDrain.Accounted read := by
  refine { h with unlinked := ?_, reading := ?_, unread := ?_ }
  · intro d member path unlinks
    rcases List.mem_append.mp member with member | member
    · exact h.unlinked d member path unlinks
    · rw [List.mem_singleton.mp member] at unlinks
      cases unlinks
  · intro path i found member
    obtain ⟨d, there, unlinks⟩ := h.reading path i found member
    exact ⟨d, List.mem_append_left _ there, unlinks⟩
  · intro path i found other
    obtain ⟨d, there, unread⟩ := h.unread path i found other
    exact ⟨d, List.mem_append_left _ there, unread⟩

theorem Accounted.goes (h : s.Accounted read) (here : s.drainers[k]? = some old)
    (unread : ∀ path ∈ old.unread, path ∈ new.unread) (unlinks : new.unlinks = none)
    (before : old.unlinks = none) : (s.goes k new).Accounted read := by
  refine { h with unlinked := ?_, reading := ?_, unread := ?_ }
  · intro d member path is_ i found
    rcases List.mem_or_eq_of_mem_set member with member | rfl
    · exact h.unlinked d member path is_ i found
    · rw [unlinks] at is_
      cases is_
  · intro path i found member
    obtain ⟨d, there, is_⟩ := h.reading path i found member
    refine ⟨d, mem_set_of_ne here there ?_, is_⟩
    rintro rfl
    rw [before] at is_
    cases is_
  · intro path i found other
    obtain ⟨d, there, inside⟩ := h.unread path i found other
    by_cases same : d = old
    · exact ⟨new, mem_set_self here, unread path (same ▸ inside)⟩
    · exact ⟨d, mem_set_of_ne here there same, inside⟩

theorem Accounted.rotate (h : s.Accounted read) (here : s.drainers[k]? = some (.globbed paths))
    (clear : s.Clear (.advance k now)) : (s.rotate k now paths).Accounted read := by
  unfold HookQueue.rotate
  cases live : s.live with
  | none => exact h.goes here (fun p inside => by rwa [DrainPhase.unread_next]) (by simp) rfl
  | some i =>
    simp only
    split
    · exact h.goes here (fun p inside => by rwa [DrainPhase.unread_next]) (by simp) rfl
    next records =>
      obtain ⟨free, unused⟩ := clear _ here i live records
      obtain ⟨there, unread, loose⟩ := h.fresh i live
      have gets (p : Nat) : (s.rotated.set now i).get p =
          if p = now then some i else s.rotated.get p :=
        Dict.get_set _ _ _ _
      have old (p j : Nat) (found : s.rotated.get p = some j) : p ≠ now := by
        rintro rfl
        rw [free] at found
        cases found
      refine { h with
        fresh := nofun, rotated := ?_, apart := ?_, unlinked := ?_, reading := ?_, unread := ?_,
        kept := ?_ }
      · intro p j found
        rw [HookQueue.goes, gets] at found
        split at found
        · cases found
          exact there
        · exact h.rotated p j found
      · intro p q j foundP foundQ
        rw [HookQueue.goes, gets] at foundP foundQ
        split at foundP <;> split at foundQ
        next hp hq => exact hp.trans hq.symm
        · cases foundP
          exact absurd foundQ (loose q)
        · cases foundQ
          exact absurd foundP (loose p)
        · exact h.apart p q j foundP foundQ
      · intro d member p is_ j found
        rw [HookQueue.goes, gets] at found
        rcases List.mem_or_eq_of_mem_set member with member | rfl
        · rw [if_neg] at found
          · exact h.unlinked d member p is_ j found
          · rintro rfl
            exact (unused d member).2 is_
        · simp at is_
      · intro p j found member
        rw [HookQueue.goes, gets] at found
        split at found
        · cases found
          exact absurd member unread
        · obtain ⟨d, held, is_⟩ := h.reading p j found member
          refine ⟨d, mem_set_of_ne here held ?_, is_⟩
          rintro rfl
          cases is_
      · intro p j found other
        rw [HookQueue.goes, gets] at found
        split at found
        next same =>
          refine ⟨_, mem_set_self here, ?_⟩
          rw [DrainPhase.unread_next, same]
          split
          next member => exact member
          · exact List.mem_append_right _ (List.mem_singleton.mpr rfl)
        · obtain ⟨d, held, inside⟩ := h.unread p j found other
          by_cases same : d = .globbed paths
          · refine ⟨_, mem_set_self here, ?_⟩
            rw [DrainPhase.unread_next]
            subst same
            split
            · exact inside
            · exact List.mem_append_left _ inside
          · exact ⟨d, mem_set_of_ne here held same, inside⟩
      · intro j before other
        simp only [HookQueue.goes, gets]
        rcases h.kept j before other with current | ⟨p, found⟩
        · rw [live] at current
          cases current
          exact .inr ⟨now, if_pos rfl⟩
        · exact .inr ⟨p, (if_neg (old p j found)).trans found⟩

theorem Accounted.readFile (h : s.Accounted read)
    (here : s.drainers[k]? = some (.reading processed (path :: rest)))
    (clear : s.Clear (.advance k now)) : ∃ read, (s.read k processed path rest).Accounted read := by
  have others (p : Nat) (d : DrainPhase) (member : d ∈ s.drainers) (is_ : d.unlinks = some p) :
      d ≠ .reading processed (path :: rest) := by
    rintro rfl
    cases is_
  cases found : s.rotated.get path with
  | none =>
    refine ⟨read, { h with handed := ?_, unlinked := ?_, reading := ?_, unread := ?_ }⟩
    · simp only [HookQueue.read, found, Option.map_none, Option.getD_none, List.append_nil]
      exact h.handed
    · intro d member p is_ j there
      rcases List.mem_or_eq_of_mem_set member with member | rfl
      · exact h.unlinked d member p is_ j there
      · cases is_
        rw [show s.rotated.get path = some j from there] at found
        cases found
    · intro p j there member
      obtain ⟨d, held, is_⟩ := h.reading p j there member
      exact ⟨d, mem_set_of_ne here held (others p d held is_), is_⟩
    · intro p j there other
      obtain ⟨d, held, inside⟩ := h.unread p j there other
      by_cases same : d = .reading processed (path :: rest)
      · subst same
        refine ⟨_, mem_set_self here, ?_⟩
        rcases List.mem_cons.mp inside with rfl | inside
        · rw [show s.rotated.get p = some j from there] at found
          cases found
        · exact inside
      · exact ⟨d, mem_set_of_ne here held same, inside⟩
  | some i =>
    obtain ⟨closed, alone⟩ := clear _ here i found
    have unread : i ∉ read := by
      intro member
      obtain ⟨d, held, is_⟩ := h.reading path i found member
      exact alone d held is_
    refine ⟨read ++ [i], { h with
      handed := ?_, nodup := ?_, known := ?_, writable := ?_, fresh := ?_, unlinked := ?_
      reading := ?_, unread := ?_, kept := ?_ }⟩
    · simp only [HookQueue.read, found, Option.map_some, Option.getD_some, List.flatMap_append,
        List.flatMap_singleton]
      exact h.handed.append_right _
    · exact List.nodup_append.mpr ⟨h.nodup, List.nodup_singleton i, fun a member b other => by
        rintro rfl
        exact unread (List.mem_singleton.mp other ▸ member)⟩
    · intro j member
      rcases List.mem_append.mp member with member | member
      · exact h.known j member
      · exact List.mem_singleton.mp member ▸ h.rotated path i found
    · intro j member
      obtain ⟨there, other⟩ := h.writable j member
      refine ⟨there, fun inside => ?_⟩
      rcases List.mem_append.mp inside with inside | inside
      · exact other inside
      · exact closed (List.mem_singleton.mp inside ▸ member)
    · intro j current
      obtain ⟨there, other, loose⟩ := h.fresh j current
      refine ⟨there, fun inside => ?_, loose⟩
      rcases List.mem_append.mp inside with inside | inside
      · exact other inside
      · exact loose path (List.mem_singleton.mp inside ▸ found)
    · intro d member p is_ j there
      rcases List.mem_or_eq_of_mem_set member with member | rfl
      · exact List.mem_append_left _ (h.unlinked d member p is_ j there)
      · cases is_
        rw [show s.rotated.get path = some j from there] at found
        cases found
        exact List.mem_append_right _ (List.mem_singleton.mpr rfl)
    · intro p j there member
      rcases List.mem_append.mp member with member | member
      · obtain ⟨d, held, is_⟩ := h.reading p j there member
        exact ⟨d, mem_set_of_ne here held (others p d held is_), is_⟩
      · rw [List.mem_singleton.mp member] at there
        obtain rfl := h.apart p path i there found
        exact ⟨_, mem_set_self here, rfl⟩
    · intro p j there other
      obtain ⟨d, held, inside⟩ :=
        h.unread p j there fun member => other (List.mem_append_left _ member)
      by_cases same : d = .reading processed (path :: rest)
      · subst same
        refine ⟨_, mem_set_self here, ?_⟩
        rcases List.mem_cons.mp inside with rfl | inside
        · rw [show s.rotated.get p = some j from there] at found
          cases found
          exact absurd (List.mem_append_right _ (List.mem_singleton.mpr rfl)) other
        · exact inside
      · exact ⟨d, mem_set_of_ne here held same, inside⟩
    · exact fun j before other => h.kept j before fun member =>
        other (List.mem_append_left _ member)

theorem Accounted.unlink (h : s.Accounted read)
    (here : s.drainers[k]? = some (.unlinking processed path rest)) :
    (s.unlink k processed path rest).Accounted read := by
  have gets (p : Nat) : (s.rotated.erase path).get p = if p = path then none else s.rotated.get p :=
    Dict.get_erase _ _ _
  have held : DrainPhase.unlinking processed path rest ∈ s.drainers := List.mem_of_getElem? here
  have stays (p j : Nat) (found : (s.rotated.erase path).get p = some j) :
      p ≠ path ∧ s.rotated.get p = some j := by
    rw [gets] at found
    split at found
    · cases found
    next other => exact ⟨other, found⟩
  refine { h with
    fresh := ?_, rotated := ?_, apart := ?_, unlinked := ?_, reading := ?_, unread := ?_
    kept := ?_ }
  · intro j current
    obtain ⟨there, other, loose⟩ := h.fresh j current
    exact ⟨there, other, fun p found => loose p (stays p j found).2⟩
  · exact fun p j found => h.rotated p j (stays p j found).2
  · exact fun p q j foundP foundQ => h.apart p q j (stays p j foundP).2 (stays q j foundQ).2
  · intro d member p is_ j found
    rcases List.mem_or_eq_of_mem_set member with member | rfl
    · exact h.unlinked d member p is_ j (stays p j found).2
    · simp at is_
  · intro p j found member
    obtain ⟨d, there, is_⟩ := h.reading p j (stays p j found).2 member
    refine ⟨d, mem_set_of_ne here there ?_, is_⟩
    rintro rfl
    exact (stays p j found).1 (Option.some_inj.mp is_).symm
  · intro p j found other
    obtain ⟨d, there, inside⟩ := h.unread p j (stays p j found).2 other
    by_cases same : d = .unlinking processed path rest
    · refine ⟨_, mem_set_self here, ?_⟩
      rw [DrainPhase.unread_next]
      subst same
      exact inside
    · exact ⟨d, mem_set_of_ne here there same, inside⟩
  · intro j before other
    rcases h.kept j before other with current | ⟨p, found⟩
    · exact .inl current
    · refine .inr ⟨p, (gets p).trans ((if_neg ?_).trans found)⟩
      rintro rfl
      exact other (h.unlinked _ held p rfl j found)

theorem Accounted.step (h : s.Accounted read) {cap : Nat} {m : QueueMove}
    (uncapped : s.Uncapped cap m) (clear : s.Clear m) {t : HookQueue}
    (step : s.step cap m = some t) : ∃ read, t.Accounted read := by
  cases m with
  | openQueue =>
    cases step
    exact ⟨read, h.openQueue⟩
  | append handle record => exact ⟨read, h.append step⟩
  | drain =>
    cases step
    exact ⟨read, h.drain⟩
  | advance k now =>
    obtain ⟨phase, here, step⟩ := Option.bind_eq_some_iff.mp step
    cases phase with
    | globbed paths =>
      cases step
      exact ⟨read, h.rotate here clear⟩
    | reading processed paths =>
      cases paths with
      | nil =>
        cases step
        exact ⟨read, h.goes here nofun rfl rfl⟩
      | cons path rest =>
        have below : processed < cap := of_decide_eq_true (uncapped _ here)
        simp only [HookQueue.advance, if_neg below.not_ge] at step
        cases step
        exact h.readFile here clear
    | unlinking processed path rest =>
      cases step
      exact ⟨read, h.unlink here⟩
    | finished => cases step

end Steps

section Runs

variable {cap : Nat} {s t : HookQueue} {read : List Nat}

theorem accounted_of_run (h : s.Accounted read) {moves : List QueueMove}
    (uncapped : ∀ x ∈ (hookQueue cap).transitions s moves, x.before.Uncapped cap x.label)
    (clear : ∀ x ∈ (hookQueue cap).transitions s moves, x.before.Clear x.label)
    (reach : (hookQueue cap).run s moves = some t) : ∃ read, t.Accounted read :=
  (hookQueue cap).run_invariant_of_guarded (J := fun u => ∃ read, u.Accounted read)
    (G := fun u m _ => u.Uncapped cap m ∧ u.Clear m)
    (fun _ _ _ ⟨_, kept⟩ ok step => kept.step ok.1 ok.2 step) ⟨read, h⟩
    (fun x member => ⟨uncapped x member, clear x member⟩) reach

theorem Accounted.init : ({} : HookQueue).Accounted [] where
  appended := List.Perm.nil
  handed := List.Perm.nil
  nodup := List.nodup_nil
  known := nofun
  writable := nofun
  fresh := nofun
  rotated := nofun
  apart := nofun
  unlinked := nofun
  reading := nofun
  unread := nofun
  kept := nofun

/-- One call is under way and no writer: before its rotation no file is aside, after it no record is
in the queue. -/
structure Lone (s : HookQueue) (k : Nat) : Prop where
  closed : s.handles = []
  others : ∀ j d, s.drainers[j]? = some d → j ≠ k → d = .finished
  own : ∃ d, s.drainers[k]? = some d ∧
    ((d = .globbed [] ∧ ∀ path, s.rotated.get path = none) ∨
      ((∀ paths, d ≠ .globbed paths) ∧ ∀ i ∈ s.live, s.file i = []))

variable {k now : Nat}

theorem Lone.cases (h : s.Lone k) {d : DrainPhase} (member : d ∈ s.drainers) :
    d = .finished ∨ s.drainers[k]? = some d := by
  obtain ⟨j, here⟩ := List.mem_iff_getElem?.mp member
  by_cases same : j = k
  · exact .inr (same ▸ here)
  · exact .inl (h.others j d here same)

theorem Lone.clear (h : s.Lone k) : s.Clear (.advance k now) := by
  obtain ⟨phase, here, own⟩ := h.own
  have other (d : DrainPhase) (member : d ∈ s.drainers) : d = .finished ∨ d = phase := by
    refine (h.cases member).imp id fun found => ?_
    rw [here] at found
    exact (Option.some_inj.mp found).symm
  intro d found
  rw [here] at found
  cases found
  cases phase with
  | globbed paths =>
    rcases own with ⟨same, none_⟩ | ⟨never, -⟩
    · cases same
      refine fun i _ _ => ⟨none_ now, fun d member => ?_⟩
      rcases other d member with rfl | rfl <;> exact ⟨List.not_mem_nil, nofun⟩
    · exact absurd rfl (never paths)
  | reading processed paths =>
    cases paths with
    | nil => trivial
    | cons path rest =>
      refine fun i _ => ⟨h.closed ▸ List.not_mem_nil, fun d member => ?_⟩
      rcases other d member with rfl | rfl <;> exact nofun
  | unlinking processed path rest => trivial
  | finished => trivial

theorem Lone.goes (h : s.Lone k) {t : HookQueue} {d : DrainPhase} (handles : t.handles = s.handles)
    (drainers : t.drainers = s.drainers.set k d) (moved : ∀ paths, d ≠ .globbed paths)
    (empty : ∀ i ∈ t.live, t.file i = []) : t.Lone k where
  closed := handles.trans h.closed
  others := by
    intro j e found other
    rw [drainers, List.getElem?_set_ne (Ne.symm other)] at found
    exact h.others j e found other
  own := by
    obtain ⟨old, here, -⟩ := h.own
    refine ⟨d, ?_, .inr ⟨moved, empty⟩⟩
    rw [drainers, List.getElem?_set_self (List.getElem?_eq_some_iff.mp here).1]

theorem next_ne_globbed (processed : Nat) (rest paths : List Nat) :
    DrainPhase.next processed rest ≠ .globbed paths := by
  cases rest <;> exact nofun

theorem Lone.step (h : s.Lone k) (step : (hookQueue cap).step s (.advance k now) = some t) :
    t.Lone k := by
  obtain ⟨phase, here, step⟩ := Option.bind_eq_some_iff.mp step
  obtain ⟨phase', here', own⟩ := h.own
  rw [here] at here'
  cases here'
  have later (moved : ∀ paths, phase ≠ .globbed paths) : ∀ i ∈ s.live, s.file i = [] :=
    (own.resolve_left fun ⟨same, _⟩ => moved [] same).2
  cases phase with
  | globbed paths =>
    cases step
    unfold HookQueue.rotate
    cases live : s.live with
    | none =>
      refine h.goes rfl rfl (next_ne_globbed 0 paths) fun i current => ?_
      rw [show (s.goes k _).live = s.live from rfl, live] at current
      cases current
    | some i =>
      simp only
      split
      next empty =>
        refine h.goes rfl rfl (next_ne_globbed 0 paths) fun j current => ?_
        rw [show (s.goes k _).live = s.live from rfl, live] at current
        cases current
        exact empty
      · exact h.goes rfl rfl (next_ne_globbed 0 _) nofun
  | reading processed paths =>
    cases paths with
    | nil =>
      cases step
      exact h.goes rfl rfl nofun (later nofun)
    | cons path rest =>
      simp only [HookQueue.advance] at step
      split at step <;> cases step
      · exact h.goes rfl rfl nofun (later nofun)
      · exact h.goes rfl rfl nofun (later nofun)
  | unlinking processed path rest =>
    cases step
    exact h.goes rfl rfl (next_ne_globbed processed rest) (later nofun)
  | finished => cases step

theorem Accounted.gone (h : s.Accounted read) (quiet : s.Quiet) (path : Nat) :
    s.rotated.get path = none := by
  refine Option.eq_none_iff_forall_ne_some.mpr fun i found => ?_
  by_cases member : i ∈ read
  · obtain ⟨d, there, is_⟩ := h.reading path i found member
    rw [quiet.2 d there] at is_
    cases is_
  · obtain ⟨d, there, inside⟩ := h.unread path i found member
    rw [quiet.2 d there] at inside
    exact absurd inside List.not_mem_nil

theorem Accounted.lone (h : s.Accounted read) (quiet : s.Quiet) :
    s.startDrain.Lone s.drainers.length where
  closed := quiet.1
  others := by
    intro j d found other
    change (s.drainers ++ [.globbed s.glob])[j]? = some d at found
    rcases List.mem_append.mp (List.mem_of_getElem? found) with member | member
    · exact quiet.2 d member
    · have before : j < s.drainers.length := by
        have := (List.getElem?_eq_some_iff.mp found).1
        simp only [List.length_append, List.length_singleton] at this
        omega
      rw [List.getElem?_append_left before] at found
      exact quiet.2 d (List.mem_of_getElem? found)
  own := by
    refine ⟨.globbed s.glob, by simp [startDrain], .inl ⟨congrArg _ ?_, h.gone quiet⟩⟩
    have none_ : s.rotated.keys = [] := List.eq_nil_iff_forall_not_mem.mpr fun path member =>
      Dict.get_eq_none_iff.mp (h.gone quiet path) member
    simp [glob, none_]

/-- Every record is handed on exactly once, if all rotations and reads are clear. -/
theorem handed_perm_appended (cap : Nat) {moves : List QueueMove} {now n : Nat}
    (reach : (hookQueue cap).run {} moves = some s) (quiet : s.Quiet)
    (last : (hookQueue cap).run s (s.lastDrain now n) = some t) (done : t.Quiet)
    (uncapped : ∀ x ∈ (hookQueue cap).transitions {} (moves ++ s.lastDrain now n),
      x.before.Uncapped cap x.label)
    (clear : ∀ x ∈ (hookQueue cap).transitions {} moves, x.before.Clear x.label) :
    t.handed.Perm t.appended := by
  rw [(hookQueue cap).transitions_append_of_run reach, lastDrain] at uncapped
  obtain ⟨read, before⟩ := accounted_of_run Accounted.init
    (fun x member => uncapped x (List.mem_append_left _ member)) clear reach
  have begun : (hookQueue cap).step s .drain = some s.startDrain := rfl
  rw [(hookQueue cap).transitions_cons_of_step begun] at uncapped
  rw [lastDrain, (hookQueue cap).run_cons, begun, Option.bind_some] at last
  have alone := before.lone quiet
  have steps (u : HookQueue) (m : QueueMove) (v : HookQueue) (lone : u.Lone s.drainers.length)
      (own : m = .advance s.drainers.length now) (step : (hookQueue cap).step u m = some v) :
      v.Lone s.drainers.length := by
    subst own
    exact lone.step step
  have labels : ∀ x ∈ (hookQueue cap).transitions s.startDrain
      (List.replicate n (.advance s.drainers.length now)),
        x.label = .advance s.drainers.length now :=
    fun x member => List.eq_of_mem_replicate ((hookQueue cap).label_mem_of_mem_transitions member)
  have lone := (hookQueue cap).invariant_of_guarded (G := fun _ m _ => m = _) steps alone labels
  obtain ⟨read, after⟩ := accounted_of_run before.drain
    (fun x member => uncapped x (List.mem_append_right _ (List.mem_cons_of_mem _ member)))
    (fun x member => labels x member ▸ (lone x member).1.clear) last
  have ended :=
    (hookQueue cap).run_invariant_of_guarded (G := fun _ m _ => m = _) steps alone labels last
  refine after.perm fun i there unread => ?_
  obtain ⟨d, own, state⟩ := ended.own
  rcases after.kept i there unread with current | ⟨path, found⟩
  · rcases state with ⟨rfl, -⟩ | ⟨-, empty⟩
    · have := done.2 _ (List.mem_of_getElem? own)
      cases this
    · exact empty i current
  · rw [after.gone done path] at found
    cases found

def record : QueueRecord := ⟨"PostToolUse", "\x7b\x7d"⟩

def inTurn : List QueueMove :=
  [.openQueue, .append 0 record, .drain, .advance 0 1, .advance 0 1, .advance 0 1, .openQueue,
    .append 0 record]

theorem inTurn_perm :
    ∃ s t, (hookQueue 2000).run {} inTurn = some s ∧
      (hookQueue 2000).run s (s.lastDrain 2 3) = some t ∧ t.handed.Perm t.appended :=
  ⟨_, _, rfl, rfl,
    @handed_perm_appended _ _ 2000 inTurn 2 3 rfl ⟨rfl, by decide⟩ rfl ⟨rfl, by decide⟩ (by decide)
      (by decide)⟩

def overlapping : List QueueMove :=
  [.openQueue, .append 0 record, .drain, .advance 0 1, .drain, .advance 0 2,
    .advance 1 2, .advance 1 2,
    .advance 0 2, .advance 1 2]

theorem overlapping_repeats :
    ¬ ∀ cap moves now n, ∀ s ∈ (hookQueue cap).run {} moves, s.Quiet →
      ∀ t ∈ (hookQueue cap).run s (s.lastDrain now n), t.Quiet →
        (∀ x ∈ (hookQueue cap).transitions {} (moves ++ s.lastDrain now n),
          x.before.Uncapped cap x.label) →
        t.handed.Perm t.appended := by
  intro all
  have perm := all 2000 overlapping 3 1 _ rfl ⟨rfl, by decide⟩ _ rfl ⟨rfl, by decide⟩ (by decide)
  exact absurd perm.length_eq (by decide)

def lateAppend : List QueueMove :=
  [.openQueue, .append 0 record, .openQueue, .drain, .advance 0 1, .advance 0 1, .append 0 record,
    .advance 0 1]

example :
    ((hookQueue 2000).run {} lateAppend).map
      (fun s => (s.appended.length, s.handed.length, s.rotated)) =
      some (2, 1, []) := by
  decide

end Runs

end HookQueue

end DreamStudio.Hooks
