import PeerBook.Disk

namespace PeerBook.Disk

variable {d e : Disk} {place : Place} {entry : Entry} {path : String}

theorem lookup_put (hground : place.isGround = false) (q : Place) :
    Disk.entry? (d.put place entry) q = if place = q then some entry else d.entry? q := by
  by_cases h : place = q
  · subst h
    simp [put, entry?, hground]
  · simp [put, entry?, Std.TreeMap.getElem?_insert, h]

theorem isGround_eq_false (h : d.entry? place ≠ some .directory) : place.isGround = false := by
  rw [Bool.eq_false_iff]
  exact fun hground => h (if_pos hground)

theorem step_ok {part : String} {q : Place} (h : d.step place part = .ok q) :
    d.entry? place = some .directory := by
  cases hentry : d.entry? place with
  | none => simp [step, hentry] at h
  | some entry =>
      cases entry with
      | directory => rfl
      | file content => simp [step, hentry] at h

/-- Only the places on the way matter, and all of them are directories. -/
theorem foldlM_step_put {start final q : Place} {parts : List String}
    (hfinal : d.entry? final ≠ some .directory) (h : parts.foldlM d.step start = .ok q) :
    parts.foldlM (d.put final entry).step start = .ok q := by
  induction parts generalizing start with
  | nil => exact h
  | cons part parts ih =>
      rw [List.foldlM_cons] at h ⊢
      cases hstep : d.step start part with
      | error fault =>
          rw [hstep] at h
          cases h
      | ok next =>
          have hne : final ≠ start := fun heq => hfinal (heq ▸ step_ok hstep)
          have hstart : Disk.entry? (d.put final entry) start = d.entry? start := by
            rw [lookup_put (isGround_eq_false hfinal), if_neg hne]
          have hsame : (d.put final entry).step start part = .ok next := by
            rw [← hstep, step, step, hstart]
          rw [hstep] at h
          rw [hsame]
          exact ih h

theorem walk_put {q : Place} (hplace : d.entry? place ≠ some .directory)
    (h : d.walk path = .ok q) : (d.put place entry).walk path = .ok q := by
  rw [walk] at h ⊢
  split at h
  · cases h
  · rw [if_neg ‹_›]
    exact foldlM_step_put hplace h

theorem write_eq (d : Disk) (path : String) (content : Octets) :
    d.write path content = (d.walk path).bind fun place =>
      if d.entry? place = some .directory then .error .isDirectory
      else .ok (d.put place (.file content)) := by
  cases hwalk : d.walk path with
  | error fault => rw [write, hwalk]; rfl
  | ok place =>
      rw [write, hwalk]
      by_cases hplace : d.entry? place = some .directory
      · exact (if_pos hplace).trans (if_pos hplace).symm
      · exact (if_neg hplace).trans (if_neg hplace).symm

theorem write_ok {content : Octets} (h : d.write path content = .ok e) :
    ∃ place, d.walk path = .ok place ∧ d.entry? place ≠ some .directory ∧
      e = d.put place (.file content) := by
  rw [write_eq] at h
  cases hwalk : d.walk path with
  | error fault =>
      rw [hwalk] at h
      cases h
  | ok place =>
      rw [hwalk, Except.bind] at h
      split at h
      · cases h
      · cases h
        exact ⟨place, rfl, ‹_›, rfl⟩

/-- Whether a path can be written to has nothing to do with what is written. -/
theorem write_error {content : Octets} {fault : DiskFault}
    (h : d.write path content = .error fault) (other : Octets) :
    d.write path other = .error fault := by
  rw [write_eq] at h ⊢
  cases hwalk : d.walk path with
  | error fault => rwa [hwalk] at h
  | ok place =>
      rw [hwalk, Except.bind] at h
      split at h
      · rw [Except.bind, if_pos ‹_›]
        exact h
      · cases h

variable {content : Octets}

theorem exists_write_ok (h : d.read path = .ok content) (other : Octets) :
    ∃ e, d.write path other = .ok e := by
  rw [write_eq]
  cases hwalk : d.walk path with
  | error fault =>
      rw [read, hwalk] at h
      cases h
  | ok place =>
      rw [read, hwalk] at h
      have hplace : d.entry? place ≠ some .directory := by
        intro hdirectory
        simp only [bind, Except.bind, hdirectory] at h
        cases h
      exact ⟨_, if_neg hplace⟩

theorem at?_of_write (h : d.write path content = .ok e) : e.at? path = some (.file content) := by
  obtain ⟨place, hwalk, hplace, rfl⟩ := write_ok h
  rw [at?, walk_put hplace hwalk]
  exact (lookup_put (isGround_eq_false hplace) place).trans (if_pos rfl)

theorem read_eq_of_at? (h : d.at? path = some (.file content)) : d.read path = .ok content := by
  cases hwalk : d.walk path with
  | error fault => simp [at?, hwalk, Except.toOption] at h
  | ok place =>
      have hentry : d.entry? place = some (.file content) := by
        simpa [at?, hwalk, Except.toOption] using h
      rw [read, hwalk]
      simp only [bind, Except.bind, hentry]
      rfl

theorem read_of_write (h : d.write path content = .ok e) : e.read path = .ok content :=
  read_eq_of_at? (at?_of_write h)

theorem isPresent_of_write (h : d.write path content = .ok e) : e.isPresent path = true := by
  rw [isPresent, at?_of_write h, Option.isSome_some]

end PeerBook.Disk
