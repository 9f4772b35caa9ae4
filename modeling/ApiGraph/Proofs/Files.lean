import ApiGraph.Proofs.Attempt
import ApiGraph.Settings.Load

/-! What is found in a tree of files stays found while directories are made. A file that is written
takes the place of one file at most, and a file that cannot be written takes the place of none. -/

namespace ApiGraph.Files.Tree

open Attempt

variable {t t' t'' : Tree} {p q here there : Place} {names : List String} {bytes : List UInt8}
  {text : String} {o : Obstacle}

/-- What stands in a tree stands in the other one too. -/
def Within (t t' : Tree) : Prop := ∀ p e, t.entry? p = some e → t'.entry? p = some e

/-- Two places lead to the same. -/
def Meet (t : Tree) (p q : Place) : Prop := ∃ here, t.locate p = .ok here ∧ t.locate q = .ok here

theorem Within.refl (t : Tree) : t.Within t := fun _ _ => id

theorem Within.trans (h : t.Within t') (h' : t'.Within t'') : t.Within t'' := fun p e stands =>
  h' p e (h p e stands)

/-- The root, the beginning and what is around it are always there. -/
theorem stands_around (t : Tree) (h : p.isAround = true) : t.entry? p = some .directory := if_pos h

theorem stands_put (t : Tree) (here p : Place) (e : Entry) :
    Tree.entry? (Dict.put t here e) p =
      if p.isAround then some .directory else if p = here then some e else t.entry? p := by
  unfold entry?
  split
  · rfl
  · by_cases same : p = here
    · rw [same, Dict.lookup_put_self, if_pos rfl]
    · rw [Dict.lookup_put_of_ne _ _ (beq_false_of_ne same), if_neg same]

/-- A way leads through directories only. -/
theorem follow_of_directories
    (h : ∀ p, t.entry? p = some .directory → t'.entry? p = some .directory)
    (found : t.follow here names = .ok there) : t'.follow here names = .ok there := by
  induction names generalizing here with
  | nil => exact found
  | cons name rest ih =>
    rw [follow] at found ⊢
    cases he : t.entry? here with
    | none =>
      rw [he] at found
      cases found
    | some e =>
      cases e with
      | file content =>
        rw [he] at found
        cases found
      | directory =>
        rw [he] at found
        rw [h here he]
        dsimp only at found ⊢
        split at found
        · cases found
        · rename_i short
          rw [if_neg short]
          exact ih found

theorem locate_of_directories
    (h : ∀ p, t.entry? p = some .directory → t'.entry? p = some .directory)
    (found : t.locate p = .ok here) : t'.locate p = .ok here := by
  unfold locate at found ⊢
  split at found
  · cases found
  · rename_i nameable
    rw [if_neg nameable]
    split at found
    · cases found
    · rename_i short
      rw [if_neg short]
      exact follow_of_directories h found

/-- A file is read where its place leads. -/
theorem read_eq_ok : t.read p = .ok bytes ↔ ∃ here, t.locate p = .ok here ∧
    t.entry? here = some (.file bytes) := by
  unfold read
  cases t.locate p with
  | error o => simp [bind, Except.bind]
  | ok here =>
    simp only [bind, Except.bind]
    cases he : t.entry? here with
    | none => simp [throw, throwThe, MonadExceptOf.throw, he]
    | some e => cases e <;> simp [throw, throwThe, MonadExceptOf.throw, pure, Except.pure, he]

theorem Within.read (h : t.Within t') (found : t.read p = .ok bytes) : t'.read p = .ok bytes := by
  obtain ⟨here, led, stands⟩ := read_eq_ok.1 found
  exact read_eq_ok.2 ⟨here, locate_of_directories (fun p => h p _) led, h here _ stands⟩

/-- What is put where nothing stands replaces nothing. -/
theorem within_put (free : t.entry? here = none) (e : Entry) : t.Within (Dict.put t here e) := by
  intro p e' stands
  rw [stands_put]
  split
  · rename_i around
    rwa [stands_around t around] at stands
  · rwa [if_neg (by rintro rfl; rw [free] at stands; cases stands)]

theorem makeDirectory_within (h : t.makeDirectory p = .ok t') : t.Within t' := by
  obtain ⟨here, -, h⟩ := of_bind_ok h
  split at h
  · cases h
  · rename_i free
    cases h
    exact within_put free _

theorem ensureDirectory_within (h : t.ensureDirectory p = .ok t') : t.Within t' := by
  unfold ensureDirectory at h
  split at h
  · split at h
    · cases h
      exact .refl t
    · cases h
  · exact makeDirectory_within h

theorem ensureReversed_within {origin : Origin} (h : t.ensureReversed origin names = .ok t') :
    t.Within t' := by
  induction names generalizing t' with
  | nil =>
    cases h
    exact .refl t
  | cons name outer ih =>
    rw [ensureReversed] at h
    split at h
    · obtain ⟨around, hr, h⟩ := of_bind_ok h
      exact (ih hr).trans (ensureDirectory_within h)
    · exact ensureDirectory_within h

theorem ensureDirectories_within (h : t.ensureDirectories p = .ok t') : t.Within t' :=
  ensureReversed_within h

theorem provide_within {place : Except Failure Place} (h : t.provide place = .ok (p, t')) :
    place = .ok p ∧ t.Within t' := by
  obtain ⟨asked, hp, h⟩ := of_bind_ok h
  cases he : t.ensureDirectories asked with
  | error o =>
    rw [he] at h
    cases h
  | ok made =>
    rw [he] at h
    cases h
    exact ⟨hp, ensureDirectories_within he⟩

/-- A file that is about to be written goes where its place leads. -/
theorem locate_of_draft (h : t.draft p = .ok here) : t.locate p = .ok here := by
  obtain ⟨there, hl, h⟩ := of_bind_ok h
  split at h
  · cases h
  · cases h
    exact hl

/-- A file that is put at a place stands where the place leads, and no directory was there. -/
theorem replace_eq_ok (h : t.replace p bytes = .ok t') :
    ∃ here, t.locate p = .ok here ∧ t.entry? here ≠ some .directory ∧
      t' = Dict.put t here (.file bytes) := by
  obtain ⟨here, roomy, h⟩ := of_bind_ok h
  have led := locate_of_draft roomy
  dsimp only at h
  split at h
  · cases h
  · split at h
    · cases h
    · rename_i other
      cases h
      exact ⟨here, led, other, rfl⟩

/-- A file that is put at a place leaves the files that are elsewhere. -/
theorem replace_read {content : List UInt8} (h : t.replace p content = .ok t')
    (found : t.read q = .ok bytes) : t'.read q = .ok bytes ∨ t'.Meet p q := by
  obtain ⟨here, led, other, rfl⟩ := replace_eq_ok h
  have directories (x : Place) (stands : t.entry? x = some .directory) :
      Tree.entry? (Dict.put t here (.file content)) x = some .directory := by
    rw [stands_put]
    split
    · rfl
    · rwa [if_neg (by rintro rfl; exact other stands)]
  obtain ⟨there, led', stands⟩ := read_eq_ok.1 found
  have reached := locate_of_directories directories led'
  by_cases same : there = here
  · exact .inr ⟨here, locate_of_directories directories led, same ▸ reached⟩
  · refine .inl (read_eq_ok.2 ⟨there, reached, ?_⟩)
    rw [stands_put, if_neg same]
    split
    · rename_i around
      rwa [stands_around t around] at stands
    · exact stands

/-- A file that cannot be written leaves all that was there. -/
theorem write_within (h : (t.write p text).1 = .error o) : t.Within (t.write p text).2 := by
  unfold write at h ⊢
  cases he : t.ensureDirectories p.parent with
  | error o' => exact .refl t
  | ok made =>
    rw [he] at h
    dsimp only at h ⊢
    cases hr : made.replace p text.toUTF8.toList with
    | error o' => exact ensureDirectories_within he
    | ok t' =>
      rw [hr] at h
      cases h

/-- A file that is written leaves the files that are elsewhere. -/
theorem write_read (p : Place) (text : String) (found : t.read q = .ok bytes) :
    (t.write p text).2.read q = .ok bytes ∨ (t.write p text).2.Meet p q := by
  unfold write
  cases he : t.ensureDirectories p.parent with
  | error o => exact .inl found
  | ok made =>
    have kept : made.read q = .ok bytes := (ensureDirectories_within he).read found
    dsimp only
    cases hr : made.replace p text.toUTF8.toList with
    | error o => exact .inl kept
    | ok t' => exact replace_read hr kept

end ApiGraph.Files.Tree
