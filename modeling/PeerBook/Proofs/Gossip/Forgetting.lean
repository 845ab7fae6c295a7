import PeerBook.Proofs.Gossip.Throttling
import Std.Data.String.ToNat

namespace PeerBook

namespace Throttle

@[ext] structure Attempt where
  source : String
  time : Nat
  deriving DecidableEq, Repr

def sources (t : Throttle) : List String :=
  t.admitted.keys

def run (t : Throttle) (attempts : List Attempt) : Throttle :=
  attempts.foldl (fun t a => (t.hear a.source a.time).2) t

def admissions (t : Throttle) : List Attempt → List Attempt
  | [] => []
  | a :: attempts =>
    let later := admissions (t.hear a.source a.time).2 attempts
    if (t.hear a.source a.time).1 then a :: later else later

def Heard (t : Throttle) (attempts : List Attempt) (source : String) (before : Nat) : Prop :=
  ⟨source, before⟩ ∈ t.admissions attempts

def Recent (t : Throttle) (attempts : List Attempt) (now : Nat) (source : String) : Prop :=
  ∃ before ≤ now, t.Heard attempts source before ∧ now < before + t.interval

variable {t : Throttle} {source other : String} {now last before : Nat} {attempts : List Attempt}
  {a : Attempt}

theorem nodup_sources (t : Throttle) : t.sources.Nodup :=
  Std.TreeMap.nodup_keys

theorem length_sources (t : Throttle) : t.sources.length = t.tracked :=
  Std.TreeMap.length_keys

theorem mem_sources_iff : source ∈ t.sources ↔ ∃ last, t.admitted[source]? = some last := by
  rw [sources, Std.TreeMap.mem_keys, Std.TreeMap.mem_iff_isSome_getElem?, Option.isSome_iff_exists]

theorem run_concat (t : Throttle) (attempts : List Attempt) (a : Attempt) :
    t.run (attempts ++ [a]) = ((t.run attempts).hear a.source a.time).2 :=
  List.foldl_concat ..

theorem admissions_concat (t : Throttle) (attempts : List Attempt) (a : Attempt) :
    t.admissions (attempts ++ [a]) = t.admissions attempts ++
      if ((t.run attempts).hear a.source a.time).1 then [a] else [] := by
  induction attempts generalizing t with
  | nil => rfl
  | cons first attempts ih =>
      rw [List.cons_append, admissions, admissions, ih]
      split <;> rfl

theorem heard_concat : t.Heard (attempts ++ [a]) source before ↔
    t.Heard attempts source before ∨
      ((t.run attempts).hear a.source a.time).1 = true ∧ source = a.source ∧ before = a.time := by
  rw [Heard, admissions_concat, List.mem_append, Heard]
  refine or_congr_right ?_
  split
  · rename_i hheard
    rw [List.mem_singleton, Attempt.ext_iff]
    exact (and_iff_right hheard).symm
  · rename_i hrefused
    exact iff_of_false List.not_mem_nil fun h => hrefused h.1

theorem admissions_sublist (t : Throttle) (attempts : List Attempt) :
    (t.admissions attempts).Sublist attempts := by
  induction attempts generalizing t with
  | nil => exact .slnil
  | cons a attempts ih =>
      rw [admissions]
      split
      · exact (ih _).cons_cons a
      · exact (ih _).cons a

theorem time_le (htimes : (attempts.map Attempt.time ++ [now]).Pairwise (· ≤ ·))
    (h : a ∈ attempts) : a.time ≤ now :=
  (List.pairwise_append.mp htimes).2.2 a.time (List.mem_map_of_mem h) now
    (List.mem_singleton.mpr rfl)

theorem pairwise_times_concat (htimes : (attempts.map Attempt.time ++ [a.time]).Pairwise (· ≤ ·)) :
    ((attempts ++ [a]).map Attempt.time ++ [a.time]).Pairwise (· ≤ ·) := by
  rw [List.map_append, List.map_singleton, List.pairwise_append]
  refine ⟨htimes, List.pairwise_singleton _ a.time, fun time htime later hlater => ?_⟩
  rw [List.mem_singleton.mp hlater]
  rcases List.mem_append.mp htime with hpast | hpresent
  · obtain ⟨b, hb, rfl⟩ := List.mem_map.mp hpast
    exact time_le htimes hb
  · exact (List.mem_singleton.mp hpresent).le

theorem le_of_heard (htimes : (attempts.map Attempt.time ++ [now]).Pairwise (· ≤ ·))
    (h : t.Heard attempts source before) : before ≤ now :=
  time_le htimes ((t.admissions_sublist attempts).mem h)

theorem interval_run (t : Throttle) (attempts : List Attempt) :
    (t.run attempts).interval = t.interval := by
  induction attempts using List.reverseRecOn with
  | nil => rfl
  | append_singleton attempts a ih => rw [run_concat, interval_hear, ih]

theorem remembers_concat (h : (t.run attempts).Remembers (t.Heard attempts) a.time) :
    (t.run (attempts ++ [a])).Remembers (t.Heard (attempts ++ [a])) a.time := by
  have hheard : t.Heard (attempts ++ [a]) = fun other before => t.Heard attempts other before ∨
      ((t.run attempts).hear a.source a.time).1 = true ∧ other = a.source ∧ before = a.time := by
    ext other before
    exact heard_concat
  rw [run_concat, hheard]
  exact h.hear a.source

theorem remembers_run (hnew : t.tracked = 0)
    (htimes : (attempts.map Attempt.time ++ [now]).Pairwise (· ≤ ·)) :
    (t.run attempts).Remembers (t.Heard attempts) now := by
  induction attempts using List.reverseRecOn generalizing now with
  | nil =>
      have hnobody : t.Heard [] = fun _ _ => False := by
        ext source before
        simp [Heard, admissions]
      rw [hnobody]
      exact .of_untracked hnew
  | append_singleton attempts a ih =>
      have hle : a.time ≤ now := time_le htimes (List.mem_append_right _ List.mem_cons_self)
      rw [List.map_append] at htimes
      exact (remembers_concat (ih (List.pairwise_append.mp htimes).1)).mono hle

theorem admitted_of_purge (h : (t.purge now).admitted[source]? = some last) :
    t.admitted[source]? = some last ∧ (purgeSize ≤ t.tracked → t.isWithin now last) := by
  rw [purge] at h
  split at h
  · rw [Std.TreeMap.getElem?_filter', Option.filter_eq_some_iff] at h
    exact ⟨h.1, fun _ => h.2⟩
  · rename_i hfew
    exact ⟨h, fun hmany => absurd hmany hfew⟩

theorem lt_of_isWithin (h : t.isWithin now last) : now < last + t.interval := by
  rw [isWithin, decide_eq_true_eq] at h
  omega

theorem admitted_of_note (h : (t.note source now).admitted[other]? = some last) :
    other = source ∧ last = now ∨ t.admitted[other]? = some last := by
  rw [note, Std.TreeMap.getElem?_insert] at h
  split at h
  · rename_i hsame
    exact .inl ⟨(Std.compare_eq_iff_eq.mp hsame).symm, (Option.some.inj h).symm⟩
  · exact .inr h

theorem hear_eq_of_heard (h : (t.hear source now).1 = true) :
    (t.hear source now).2 = (t.purge now).note source now := by
  rw [fst_hear] at h
  rw [hear, if_pos h]

theorem tracked_purge_of_interval_zero (hzero : t.interval = 0) (hmany : purgeSize ≤ t.tracked) :
    (t.purge now).tracked = 0 := by
  have hempty : (t.purge now).sources = [] := by
    refine List.eq_nil_iff_forall_not_mem.mpr fun source hsource => ?_
    obtain ⟨last, hlast⟩ := mem_sources_iff.mp hsource
    have hwithin := (admitted_of_purge hlast).2 hmany
    simp [isWithin, hzero] at hwithin
  rw [← length_sources, hempty, List.length_nil]

/-- An admission that finds many sources forgets all that it can. -/
theorem tracked_le_or_isWithin (h : (t.hear source now).1 = true) :
    (t.hear source now).2.tracked ≤ purgeSize ∨ ∀ (other : String) (last : Nat),
      (t.hear source now).2.admitted[other]? = some last → t.isWithin now last := by
  rw [hear_eq_of_heard h]
  have hsize : ((t.purge now).note source now).tracked ≤ (t.purge now).tracked + 1 :=
    Std.TreeMap.size_insert_le
  by_cases hmany : purgeSize ≤ t.tracked
  · by_cases hzero : t.interval = 0
    · -- Nothing is within an interval of zero, not even this admission itself.
      rw [tracked_purge_of_interval_zero hzero hmany] at hsize
      exact .inl (hsize.trans (by decide))
    · refine .inr fun other last hlast => ?_
      rcases admitted_of_note hlast with ⟨-, rfl⟩ | hkept
      · simp [isWithin, Nat.pos_of_ne_zero hzero]
      · exact (admitted_of_purge hkept).2 hmany
  · rw [show t.purge now = t from if_neg hmany] at hsize ⊢
    exact .inl (hsize.trans (Nat.lt_of_not_le hmany))

def TracksOnly (t : Throttle) (Admitted : String → Nat → Prop) : Prop :=
  ∀ (source : String) (last : Nat), t.admitted[source]? = some last → Admitted source last

theorem TracksOnly.hear {Admitted : String → Nat → Prop} (h : t.TracksOnly Admitted)
    (source : String) (now : Nat) :
    (t.hear source now).2.TracksOnly fun other before => Admitted other before ∨
      (t.hear source now).1 = true ∧ other = source ∧ before = now := by
  intro other last hlast
  cases hheard : (t.hear source now).1 with
  | false =>
      rw [hear_eq_of_refused hheard] at hlast
      exact .inl (h other last hlast)
  | true =>
      rw [hear_eq_of_heard hheard] at hlast
      rcases admitted_of_note hlast with ⟨hsame, hnow⟩ | hkept
      · exact .inr ⟨rfl, hsame, hnow⟩
      · exact .inl (h other last (admitted_of_purge hkept).1)

theorem tracksOnly_run (hnew : t.tracked = 0) (attempts : List Attempt) :
    (t.run attempts).TracksOnly (t.Heard attempts) := by
  induction attempts using List.reverseRecOn with
  | nil =>
      intro source last hlast
      have hsource : source ∈ t.sources := mem_sources_iff.mpr ⟨last, hlast⟩
      rw [List.eq_nil_of_length_eq_zero ((length_sources t).trans hnew)] at hsource
      cases hsource
  | append_singleton attempts a ih =>
      intro source last hlast
      rw [run_concat] at hlast
      exact heard_concat.mpr (ih.hear a.source a.time source last hlast)

theorem recent_of_tracked (hnew : t.tracked = 0)
    (htimes : (attempts.map Attempt.time ++ [now]).Pairwise (· ≤ ·))
    (hlast : (t.run attempts).admitted[source]? = some last) (hnow : now < last + t.interval) :
    t.Recent attempts now source := by
  have hheard : t.Heard attempts source last := tracksOnly_run hnew attempts source last hlast
  exact ⟨last, le_of_heard htimes hheard, hheard, hnow⟩

/-- Nobody is forgotten within the interval. -/
theorem mem_sources_of_recent (hnew : t.tracked = 0)
    (htimes : (attempts.map Attempt.time ++ [now]).Pairwise (· ≤ ·))
    (h : t.Recent attempts now source) : source ∈ (t.run attempts).sources := by
  obtain ⟨before, -, hheard, hnow⟩ := h
  rw [mem_sources_iff]
  by_contra hnone
  have hadmits : (t.run attempts).admits source now := by
    rw [admits_iff]
    exact fun last hlast => absurd ⟨last, hlast⟩ hnone
  have hover : before + t.interval ≤ now := by
    rw [← interval_run t attempts]
    exact (remembers_run hnew htimes source now le_rfl).mp hadmits before hheard
  exact absurd hnow (Nat.not_lt.mpr hover)

theorem hear_of_not_mem (hnew : t.tracked = 0) (h : source ∉ attempts.map Attempt.source)
    (now : Nat) : ((t.run attempts).hear source now).1 = true := by
  rw [fst_hear, admits_iff]
  intro last hlast
  have hheard : t.Heard attempts source last := tracksOnly_run hnew attempts source last hlast
  exact absurd (List.mem_map_of_mem ((t.admissions_sublist attempts).mem hheard)) h

theorem admissions_of_nodup (hnew : t.tracked = 0)
    (hnodup : (attempts.map Attempt.source).Nodup) : t.admissions attempts = attempts := by
  induction attempts using List.reverseRecOn with
  | nil => rfl
  | append_singleton attempts a ih =>
      rw [List.map_append, List.map_singleton, ← List.concat_eq_append, List.nodup_concat] at hnodup
      rw [admissions_concat, if_pos (hear_of_not_mem hnew hnodup.1 a.time), ih hnodup.2]

theorem length_le_tracked (hnew : t.tracked = 0)
    (htimes : (attempts.map Attempt.time ++ [now]).Pairwise (· ≤ ·))
    (hnodup : (attempts.map Attempt.source).Nodup)
    (hnow : ∀ a ∈ attempts, now < a.time + t.interval) :
    attempts.length ≤ (t.run attempts).tracked := by
  have htracked : attempts.map Attempt.source ⊆ (t.run attempts).sources := by
    intro name hname
    obtain ⟨a, ha, rfl⟩ := List.mem_map.mp hname
    have hheard : t.Heard attempts a.source a.time := by
      rw [Heard, admissions_of_nodup hnew hnodup]
      exact ha
    exact mem_sources_of_recent hnew htimes
      ⟨a.time, le_of_heard htimes hheard, hheard, hnow a ha⟩
  rw [← length_sources, ← List.length_map Attempt.source]
  exact (hnodup.subperm htracked).length_le

/-- An admission leaves at most `purgeSize` sources tracked or only such as were admitted within the
interval, and whoever was is tracked in any case. Nobody is ever tracked twice, and an attempt that
fails changes nothing. -/
theorem tracked_le_or_recent {interval : Nat} {attempts : List Attempt} {a : Attempt}
    (htimes : (attempts.map Attempt.time ++ [a.time]).Pairwise (· ≤ ·)) :
    let fresh : Throttle := { interval }
    let t := fresh.run attempts
    let heard := (t.hear a.source a.time).1
    let after := (t.hear a.source a.time).2
    (heard = true → after.tracked ≤ purgeSize ∨
        ∀ source ∈ after.sources, fresh.Recent (attempts ++ [a]) a.time source) ∧
      (∀ source, fresh.Recent (attempts ++ [a]) a.time source → source ∈ after.sources) ∧
      (after.sources.Nodup ∧ after.sources.length = after.tracked) ∧
      (heard = false → after = t) := by
  intro fresh t heard after
  have hafter : fresh.run (attempts ++ [a]) = after := fresh.run_concat attempts a
  have htimes' := pairwise_times_concat htimes
  refine ⟨fun hheard => ?_, fun source hrecent => ?_,
    ⟨after.nodup_sources, after.length_sources⟩, hear_eq_of_refused⟩
  · refine (tracked_le_or_isWithin hheard).imp_right fun hwithin source hsource => ?_
    obtain ⟨last, hlast⟩ := mem_sources_iff.mp hsource
    have hnow : a.time < last + fresh.interval := by
      rw [← interval_run fresh attempts]
      exact lt_of_isWithin (hwithin source last hlast)
    rw [← hafter] at hlast
    exact recent_of_tracked rfl htimes' hlast hnow
  · rw [← hafter]
    exact mem_sources_of_recent rfl htimes' hrecent

/-- So many are heard within one interval that only the second alternative is left. -/
theorem tracked_le_or_recent_of_crowd :
    let fresh : Throttle := { interval := 30000 }
    let crowd := (List.range 2000).map fun n => Attempt.mk n.repr 0
    let late : Attempt := ⟨Nat.repr 2000, 29999⟩
    let after := ((fresh.run crowd).hear late.source late.time).2
    (crowd.map Attempt.time ++ [late.time]).Pairwise (· ≤ ·) ∧
      ((fresh.run crowd).hear late.source late.time).1 = true ∧ purgeSize < after.tracked ∧
      ∀ other ∈ after.sources, fresh.Recent (crowd ++ [late]) late.time other := by
  intro fresh crowd late after
  have htimes : (crowd.map Attempt.time ++ [late.time]).Pairwise (· ≤ ·) := by
    have hzeros : crowd.map Attempt.time = (List.range 2000).map fun _ => 0 := List.map_map
    rw [hzeros, List.map_const']
    generalize (List.range 2000).length = size
    simp [List.pairwise_append, List.mem_replicate]
  have hnames : crowd.map Attempt.source = (List.range 2000).map Nat.repr := List.map_map
  have hinjective : Function.Injective Nat.repr := fun _ _ => Nat.repr_injective
  have hnew : late.source ∉ crowd.map Attempt.source := by
    rw [hnames, List.mem_map_of_injective hinjective, List.mem_range]
    exact Nat.lt_irrefl 2000
  have hnodup : ((crowd ++ [late]).map Attempt.source).Nodup := by
    rw [List.map_append, List.map_singleton, ← List.concat_eq_append, List.nodup_concat]
    refine ⟨hnew, ?_⟩
    rw [hnames]
    exact List.nodup_range.map hinjective
  have hmany : purgeSize < after.tracked := by
    have hle : (crowd ++ [late]).length ≤ (fresh.run (crowd ++ [late])).tracked := by
      refine length_le_tracked rfl (pairwise_times_concat htimes) hnodup fun a _ => ?_
      exact Nat.lt_of_lt_of_le (by decide) (Nat.le_add_left 30000 a.time)
    rw [run_concat, List.length_append, List.length_map, List.length_range] at hle
    exact Nat.lt_of_lt_of_le (by decide) hle
  have hheard := hear_of_not_mem (t := fresh) rfl hnew late.time
  exact ⟨htimes, hheard, hmany,
    ((tracked_le_or_recent htimes).1 hheard).resolve_left (Nat.not_le.mpr hmany)⟩

end Throttle

end PeerBook
