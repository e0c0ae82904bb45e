import DataTier.Command.Folder
import DataTier.Proofs.Table

/-! What is written in a folder is read back. The place of a file that is written is no directory,
so no path has led through it before, and every path that led somewhere leads there still. -/

namespace DataTier.Command.Folder

variable {d d' : Folder} {place : List String} {path contents : String} {bytes : ByteArray}

/-- A folder with a file set in it. -/
def withFile (d : Folder) (place : List String) (bytes : ByteArray) : Folder :=
  { d with files := d.files.set place bytes }

theorem write_eq (h : d.write path contents = (none, d')) :
    ∃ place, d.placeOf path = .ok place ∧ d.isDirectory place = false ∧
      d' = d.withFile place contents.toUTF8 := by
  unfold write at h
  split at h
  · cases h
  · rename_i place leads
    split at h
    · cases h
    · rename_i noDirectory
      cases h
      exact ⟨place, leads, by simpa using noDirectory, rfl⟩

theorem isDirectory_iff {passed : List String} : d.isDirectory passed = true ↔
    passed <+: d.home ∨ ∃ k ∈ d.files.keys, passed <+: k ∧ passed ≠ k := by
  simp [isDirectory, Table.keys]

theorem isDirectory_withFile {passed : List String} (h : d.isDirectory passed = true) :
    (d.withFile place bytes).isDirectory passed = true := by
  rw [isDirectory_iff] at h ⊢
  exact h.imp_right fun ⟨k, hk, inner⟩ => ⟨k, (Table.mem_keys_set ..).mpr (.inr hk), inner⟩

theorem stepFrom_withFile (file : d.isDirectory place = false) {passed next : List String}
    {name : String} (h : d.stepFrom passed name = .ok next) :
    (d.withFile place bytes).stepFrom passed name = .ok next := by
  unfold stepFrom at h
  split at h
  · cases h
  · rename_i free
    split at h
    · cases h
    · rename_i directory
      have directory : d.isDirectory passed = true := by simpa using directory
      have other : place ≠ passed := fun same => by simp [same, directory] at file
      have free' : (d.withFile place bytes).files.has passed = false := by
        simpa [withFile, Table.has, Table.get?_set, other] using free
      rw [stepFrom, free', isDirectory_withFile directory]
      exact h

theorem placeOf_withFile (file : d.isDirectory place = false) {reached : List String}
    (h : d.placeOf path = .ok reached) : (d.withFile place bytes).placeOf path = .ok reached := by
  have walk : ∀ (names : List String) (start : List String),
      names.foldlM d.stepFrom start = .ok reached →
      names.foldlM (d.withFile place bytes).stepFrom start = .ok reached := by
    intro names
    induction names with
    | nil => exact fun _ h => h
    | cons name names ih =>
      intro start h
      rw [List.foldlM_cons] at h ⊢
      cases step : d.stepFrom start name with
      | error f =>
        rw [step] at h
        cases h
      | ok next =>
        rw [step] at h
        rw [stepFrom_withFile file step]
        exact ih next h
  unfold placeOf at h ⊢
  split at h
  · cases h
  · rename_i noNul
    split at h
    · cases h
    · rename_i some
      split at h
      · cases h
      · rename_i short
        rw [if_neg noNul, if_neg some, if_neg short]
        exact walk _ _ h

/-- What is written is read back. -/
theorem read_of_write (h : d.write path contents = (none, d')) :
    d'.read path = .ok contents.toUTF8 := by
  obtain ⟨place, leads, file, rfl⟩ := write_eq h
  simp only [read, placeOf_withFile file leads]
  simp [withFile, bind, Except.bind]

end DataTier.Command.Folder
