import Classlet.Files.Folder

/-!
# Files keep what is written

A text that has been written to a path is read back through that path.  Writing
makes a file of the place at which the path arrives; the directories on the way
are directories still, so that the path arrives at the same place again.  Only the
null device takes a text without keeping it.
-/

namespace Classlet.Files

theorem fromUTF8?_toUTF8 (text : String) : String.fromUTF8? text.toUTF8 = some text :=
  dif_pos text.isValidUTF8

namespace Folder

def Target.place : Target → List String
  | .file place => place
  | .directory place => place
  | .absent place => place

def Target.isDirectory : Target → Bool
  | .directory _ => true
  | _ => false

variable {folder : Folder} {place other : List String} {content : ByteArray}

/-! ## Contents -/

theorem lookup_filter_of_ne {files : List (List String × ByteArray)} (hne : other ≠ place) :
    (files.filter fun (key, _) => key != place).lookup other = files.lookup other := by
  induction files with
  | nil => rfl
  | cons file files ih =>
      obtain ⟨key, content⟩ := file
      by_cases hkey : key = place
      · have hother : (other == place) = false := by simp [hne]
        simpa [hkey, List.lookup_cons, hother] using ih
      · simp [hkey, List.lookup_cons, ih]

theorem content?_put_self (hnull : place ≠ null) :
    (folder.put place content).content? place = some content := by
  simp [put, content?, hnull]

theorem content?_put_of_ne (hne : other ≠ place) :
    (folder.put place content).content? other = folder.content? other := by
  have hother : (other == place) = false := by simp [hne]
  unfold put
  split
  · rfl
  · simp only [content?, List.lookup_cons, hother, lookup_filter_of_ne hne]

/-- The place of a file that was there is a file again, so no directory is lost. -/
theorem isDirectory_put (h : folder.isDirectory other = true) :
    (folder.put place content).isDirectory other = true := by
  unfold put
  split
  · exact h
  · simp only [isDirectory, Bool.or_eq_true, List.any_eq_true, List.mem_cons,
      List.mem_filter] at h ⊢
    refine h.imp_right fun ⟨file, hfile, hbelow⟩ => ?_
    by_cases hkey : file.1 = place
    · exact ⟨(place, content), .inl rfl, hkey ▸ hbelow⟩
    · exact ⟨file, .inr ⟨hfile, by simp [hkey]⟩, hbelow⟩

/-! ## Following a path -/

theorem target_put_self (hnull : place ≠ null) :
    (folder.put place content).target place = .file place := by
  simp [target, content?_put_self hnull]

theorem target_put_of_directory (hne : other ≠ place)
    (h : folder.target other = .directory other) :
    (folder.put place content).target other = .directory other := by
  unfold target at h ⊢
  rw [content?_put_of_ne hne]
  split at h
  · cases h
  · rename_i hcontent
    split at h
    · rename_i hdirectory
      rw [if_neg hcontent, if_pos (isDirectory_put hdirectory)]
    · cases h

@[simp] theorem place_target (folder : Folder) (place : List String) :
    (folder.target place).place = place := by
  unfold target
  split
  · rfl
  · split <;> rfl

/-- From a file, or where there is none, no step leads on. -/
theorem follow_of_isDirectory_false {steps : List Step} {start reached : Target}
    (hstart : start.isDirectory = false) (h : folder.follow steps start = .ok reached) :
    steps = [] ∧ reached = start := by
  cases steps with
  | nil =>
      cases h
      exact ⟨rfl, rfl⟩
  | cons step steps => cases start <;> cases hstart <;> cases h

theorem eq_directory_of_target (h : (folder.target place).isDirectory = true) :
    folder.target place = .directory place := by
  have hplace := folder.place_target place
  cases htarget : folder.target place with
  | directory found =>
      rw [htarget] at hplace
      exact congrArg Target.directory hplace
  | file found => simp [htarget, Target.isDirectory] at h
  | absent found => simp [htarget, Target.isDirectory] at h

/--
What steps arrive at is the target that stands there.  After that target has become
a file, they arrive at the file: its place is none of the directories on the way.
-/
theorem follow_put (content : ByteArray) {steps : List Step} {start : List String}
    {reached : Target} (hreached : reached.isDirectory = false)
    (h : folder.follow steps (.directory start) = .ok reached) :
    folder.target reached.place = reached ∧ (reached.place ≠ null →
      (folder.put reached.place content).follow steps (.directory start) =
        .ok (.file reached.place)) := by
  induction steps generalizing start with
  | nil =>
      cases h
      cases hreached
  | cons step steps ih =>
      cases step with
      | stay => exact ih h
      | up => exact ih h
      | down name =>
          simp only [follow] at h ⊢
          split at h
          · cases h
          · rename_i hshort
            rw [if_neg hshort]
            cases hnext : (folder.target (start ++ [name])).isDirectory with
            | true =>
                have hdirectory := eq_directory_of_target hnext
                rw [hdirectory] at h
                obtain ⟨hplace, hfollow⟩ := ih h
                refine ⟨hplace, fun hnull => ?_⟩
                have hne : start ++ [name] ≠ reached.place := by
                  intro hsame
                  rw [← hplace, ← hsame, hnext] at hreached
                  cases hreached
                rw [target_put_of_directory hne hdirectory]
                exact hfollow hnull
            | false =>
                obtain ⟨rfl, rfl⟩ := follow_of_isDirectory_false hnext h
                rw [place_target]
                refine ⟨rfl, fun hnull => ?_⟩
                rw [target_put_self hnull]
                rfl

/-- Where the last step stays, a directory is reached. -/
theorem follow_stay {steps : List Step} {start reached : Target}
    (h : folder.follow (steps ++ [.stay]) start = .ok reached) :
    reached.isDirectory = true := by
  induction steps generalizing start with
  | nil =>
      cases start with
      | directory place =>
          cases h
          rfl
      | file place => cases h
      | absent place => cases h
  | cons step steps ih =>
      cases start with
      | directory place =>
          cases step with
          | stay => exact ih h
          | up => exact ih h
          | down name =>
              simp only [List.cons_append, follow] at h
              split at h
              · cases h
              · exact ih h
      | file place => cases h
      | absent place => cases h

/-! ## Writing and reading -/

/--
The path does not lead to the null device, so what is written to it stays there.  A folder
has no other special file; a path to a terminal, to a device without space or to a stream
of the command itself is outside of what can be said of a folder.
-/
def Keeps (folder : Folder) (path : String) : Prop :=
  ∀ parsed, Path.parse path = .ok parsed → folder.locate parsed ≠ .ok (.file null)

/-- A path that takes a text has no slash at its end and leads to a file's place. -/
theorem exists_target_of_write {after : Folder} {path text : String}
    (h : folder.write path text = .ok after) :
    ∃ (parsed : Path) (reached : Target), Path.parse path = .ok parsed ∧
      parsed.trailing = false ∧ folder.locate parsed = .ok reached ∧
      reached.isDirectory = false ∧ after = folder.put reached.place text.toUTF8 := by
  unfold write at h
  split at h
  · cases h
  · rename_i parsed hparsed
    cases htrailing : parsed.trailing with
    | true =>
        simp only [htrailing, if_true] at h
        split at h
        · cases h
        · cases h
        all_goals
          rename_i hlocate
          have hnever := follow_stay hlocate
          cases hnever
    | false =>
        simp only [htrailing, Bool.false_eq_true, if_false] at h
        split at h
        · cases h
        · cases h
        all_goals
          rename_i hlocate
          cases h
          exact ⟨parsed, _, hparsed, htrailing, hlocate, rfl, rfl⟩

theorem read_of_write {after : Folder} {path text : String} (hkeeps : folder.Keeps path)
    (h : folder.write path text = .ok after) : after.read path = .ok text := by
  obtain ⟨parsed, reached, hparsed, htrailing, hlocate, hreached, rfl⟩ :=
    exists_target_of_write h
  obtain ⟨htarget, hfollow⟩ := follow_put text.toUTF8 hreached hlocate
  have hnull : reached.place ≠ null := by
    intro hnull
    have hfile : reached = .file null := by
      rw [← htarget, hnull]
      rfl
    exact hkeeps parsed hparsed (hfile ▸ hlocate)
  have hagain : (folder.put reached.place text.toUTF8).locate parsed =
      .ok (.file reached.place) := hfollow hnull
  simp only [read, hparsed, hagain, htrailing, content?_put_self hnull, Option.bind_some,
    fromUTF8?_toUTF8, Bool.false_eq_true, if_false]

end Folder

end Classlet.Files
