import PeerBook.Proofs.Disk.Writing

namespace PeerBook.Disk

variable {d e : Disk} {path : String} {dirs : List String}

theorem isDirectory_iff :
    d.isDirectory path ↔ ∃ place, d.walk path = .ok place ∧ d.entry? place = some .directory := by
  rw [isDirectory, at?]
  cases hwalk : d.walk path with
  | error fault => simp [Except.toOption]
  | ok place => simp [Except.toOption]

theorem makeDirectory_eq (d : Disk) (path : String) :
    d.makeDirectory path = (d.walk path).bind fun place =>
      if (d.entry? place).isSome then .error .alreadyExists else .ok (d.put place .directory) := by
  cases hwalk : d.walk path with
  | error fault => rw [makeDirectory, hwalk]; rfl
  | ok place =>
      rw [makeDirectory, hwalk]
      by_cases hplace : (d.entry? place).isSome
      · exact (if_pos hplace).trans (if_pos hplace).symm
      · exact (if_neg hplace).trans (if_neg hplace).symm

theorem isDirectory_of_makeDirectory (h : d.makeDirectory path = .ok e) : e.isDirectory path := by
  rw [makeDirectory_eq] at h
  cases hwalk : d.walk path with
  | error fault =>
      rw [hwalk] at h
      cases h
  | ok place =>
      rw [hwalk, Except.bind] at h
      split at h
      · cases h
      · rename_i hplace
        cases h
        have hnew : d.entry? place ≠ some .directory := fun he => hplace (by rw [he]; rfl)
        refine isDirectory_iff.mpr ⟨place, walk_put hnew hwalk, ?_⟩
        rw [lookup_put (isGround_eq_false hnew), if_pos rfl]

theorem isDirectory_of_ensureDirectory (h : d.ensureDirectory path = (.ok (), e)) :
    e.isDirectory path := by
  rw [ensureDirectory] at h
  split at h
  · cases h
    exact isDirectory_of_makeDirectory ‹_›
  · split at h
    · cases h
      assumption
    · cases h

theorem isDirectory_of_ensureDirectories (h : d.ensureDirectories (path :: dirs) = (.ok (), e)) :
    e.isDirectory path := by
  rw [ensureDirectories] at h
  split at h
  · cases habove : d.ensureDirectories dirs with
    | mk result made =>
        rw [habove] at h
        cases result with
        | error fault => cases h
        | ok _ => exact isDirectory_of_ensureDirectory h
  · exact isDirectory_of_ensureDirectory h

theorem ensureDirectories_of_isDirectory (h : ∀ path ∈ dirs.head?, d.isDirectory path) :
    d.ensureDirectories dirs = (.ok (), d) := by
  cases dirs with
  | nil => rfl
  | cons path dirs =>
      have hpath : d.isDirectory path := h path rfl
      obtain ⟨place, hwalk, hplace⟩ := isDirectory_iff.mp hpath
      have hmake : d.makeDirectory path = .error .alreadyExists := by
        rw [makeDirectory_eq, hwalk, Except.bind, hplace]
        rfl
      simp [ensureDirectories, ensureDirectory, hmake, hpath]

theorem isDirectory_of_write {content : Octets} {file : String} (h : d.write file content = .ok e)
    (hpath : d.isDirectory path) : e.isDirectory path := by
  obtain ⟨place, -, hplace, rfl⟩ := write_ok h
  obtain ⟨q, hwalk, hq⟩ := isDirectory_iff.mp hpath
  have hne : place ≠ q := by
    rintro rfl
    exact hplace hq
  refine isDirectory_iff.mpr ⟨q, walk_put hplace hwalk, ?_⟩
  rw [lookup_put (isGround_eq_false hplace), if_neg hne, hq]

theorem isDirectory_of_ensureAncestors (h : d.ensureAncestors path = (.ok (), e)) :
    ∀ dir ∈ (Path.ancestors path).head?, e.isDirectory dir := by
  rw [ensureAncestors] at h
  cases hdirs : Path.ancestors path with
  | nil => exact fun dir hdir => absurd hdir (by simp)
  | cons dir dirs =>
      rw [hdirs] at h
      intro other hother
      cases hother
      exact isDirectory_of_ensureDirectories h

theorem ensureAncestors_again (h : d.ensureAncestors path = (.ok (), e)) :
    e.ensureAncestors path = (.ok (), e) :=
  ensureDirectories_of_isDirectory (isDirectory_of_ensureAncestors h)

theorem ensureAncestors_of_write {made : Disk} {content : Octets}
    (h : d.ensureAncestors path = (.ok (), made)) (hwrite : made.write path content = .ok e) :
    e.ensureAncestors path = (.ok (), e) :=
  ensureDirectories_of_isDirectory fun dir hdir =>
    isDirectory_of_write hwrite (isDirectory_of_ensureAncestors h dir hdir)

end PeerBook.Disk
