import Classlet.Files.Desk

/-!
# Faults at a desk

Whatever is wrong with a file at a desk is one of a few things with a message of its own.
-/

namespace Classlet

namespace Files

/-- The fault has a fixed message. -/
def FileFault.Standard (fault : FileFault) : Prop :=
  ∀ description, fault ≠ .other description

section Faults

variable {fault : FileFault}

theorem Path.standard_of_parse {path : String} (h : Path.parse path = .error fault) :
    fault.Standard := by
  unfold Path.parse at h
  simp only at h
  split at h
  · cases h
    simp [FileFault.Standard]
  · split at h
    · cases h
      simp [FileFault.Standard]
    · split at h <;> cases h
      simp [FileFault.Standard]

namespace Folder

variable {folder : Folder} {path text : String}

theorem standard_of_follow {steps : List Step} {target : Target}
    (h : folder.follow steps target = .error fault) : fault.Standard := by
  induction steps generalizing target with
  | nil => cases h
  | cons step steps ih =>
      cases target with
      | file place | absent place =>
          cases h
          simp [FileFault.Standard]
      | directory place =>
          cases step with
          | stay => exact ih h
          | up => exact ih h
          | down name =>
              unfold follow at h
              split at h
              · cases h
                simp [FileFault.Standard]
              · exact ih h

theorem standard_of_read (h : folder.read path = .error fault) : fault.Standard := by
  unfold read at h
  split at h
  · cases h
    exact Path.standard_of_parse ‹_›
  · split at h
    · cases h
      exact standard_of_follow ‹_›
    · cases h
      simp [FileFault.Standard]
    · cases h
      simp [FileFault.Standard]
    · split at h
      · cases h
        simp [FileFault.Standard]
      · split at h <;> cases h
        simp [FileFault.Standard]

theorem standard_of_write (h : folder.write path text = .error fault) : fault.Standard := by
  unfold write at h
  split at h
  · cases h
    exact Path.standard_of_parse ‹_›
  · split at h <;> cases h
    · exact standard_of_follow ‹_›
    · simp [FileFault.Standard]

end Folder

theorem Desk.standard_of_inputText {desk : Desk} (h : desk.inputText = .error fault) :
    fault.Standard := by
  unfold inputText at h
  split at h <;> cases h
  simp [FileFault.Standard]

theorem Desk.standard_of_write {desk : Desk} {path text : String}
    (h : (desk.write path text).1 = .error fault) : fault.Standard := by
  unfold write at h
  split at h <;> cases h
  exact Folder.standard_of_write ‹_›

end Faults

end Files

end Classlet
