import PeerBook.Proofs.Gossip.Acts

namespace PeerBook

namespace Throttle

variable {t : Throttle} {source : String} {now later : Nat}

theorem admits_iff : t.admits source now ↔
    ∀ last ∈ t.admitted[source]?, t.interval ≤ now - last := by
  rw [admits]
  cases t.admitted[source]? with
  | none => simp
  | some last => simp [isWithin]

theorem admits_note {other : String} : (t.note other now).admits source later ↔
    if source = other then t.interval ≤ later - now else t.admits source later := by
  rw [admits_iff, note, Std.TreeMap.getElem?_insert]
  by_cases h : source = other
  · simp [h]
  · have hne : compare other source ≠ .eq := fun he => h (Std.compare_eq_iff_eq.mp he).symm
    rw [if_neg hne, if_neg h, admits_iff]

@[simp] theorem interval_purge : (t.purge now).interval = t.interval := by
  rw [purge]
  split <;> rfl

theorem admits_purge (h : now ≤ later) :
    (t.purge now).admits source later ↔ t.admits source later := by
  rw [purge]
  split
  · rw [admits_iff, admits_iff, Std.TreeMap.getElem?_filter']
    refine forall_congr' fun last => ?_
    rw [Option.mem_filter_iff]
    refine ⟨fun hkept hlast => ?_, fun hall hlast => hall hlast.1⟩
    by_cases hwithin : t.isWithin now last
    · exact hkept ⟨hlast, hwithin⟩
    · have hover : t.interval ≤ now - last := by simpa [isWithin] using hwithin
      exact hover.trans (Nat.sub_le_sub_right h last)
  · rfl

@[simp] theorem interval_hear : (t.hear source now).2.interval = t.interval := by
  rw [hear]
  split
  · exact interval_purge
  · rfl

theorem hear_eq_of_refused (h : (t.hear source now).1 = false) : (t.hear source now).2 = t := by
  rw [hear] at h ⊢
  split at h
  · cases h
  · rename_i hrefused
    rw [if_neg hrefused]

def Remembers (t : Throttle) (Admitted : String → Nat → Prop) (now : Nat) : Prop :=
  ∀ source later, now ≤ later →
    (t.admits source later ↔ ∀ before, Admitted source before → before + t.interval ≤ later)

namespace Remembers

variable {Admitted : String → Nat → Prop}

theorem mono (h : t.Remembers Admitted now) (hle : now ≤ later) : t.Remembers Admitted later :=
  fun source last hlast => h source last (hle.trans hlast)

theorem of_untracked (h : t.tracked = 0) : t.Remembers (fun _ _ => False) now := by
  intro source later _
  have hnone : t.admitted[source]? = none := by
    refine Std.TreeMap.getElem?_of_isEmpty ?_
    rw [Std.TreeMap.isEmpty_eq_size_eq_zero]
    exact beq_iff_eq.mpr h
  rw [admits_iff, hnone]
  exact ⟨fun _ _ => False.elim, fun _ => nofun⟩

theorem hear_eq_false_iff (h : t.Remembers Admitted now) :
    (t.hear source now).1 = false ↔ ∃ before, Admitted source before ∧
      now < before + t.interval := by
  rw [fst_hear, ← Bool.not_eq_true, h source now le_rfl]
  push Not
  rfl

theorem hear (h : t.Remembers Admitted now) (source : String) :
    (t.hear source now).2.Remembers
      (fun other before => Admitted other before ∨
        (t.hear source now).1 = true ∧ other = source ∧ before = now) now := by
  intro other later hlater
  rw [interval_hear]
  by_cases hadmits : t.admits source now
  · have hheard : t.hear source now = (true, (t.purge now).note source now) := by
      rw [Throttle.hear, if_pos hadmits]
    rw [hheard, admits_note, interval_purge, admits_purge hlater, h other later hlater]
    by_cases he : other = source
    · subst he
      -- This admission comes after all others of the source, so that it decides alone from now on.
      have hpast : ∀ before, Admitted other before → before + t.interval ≤ now :=
        (h other now le_rfl).mp hadmits
      rw [if_pos rfl, Nat.le_sub_iff_add_le' hlater]
      constructor
      · rintro hover before (hbefore | ⟨-, -, rfl⟩)
        · exact (hpast before hbefore).trans hlater
        · exact hover
      · exact fun hall => hall now (.inr ⟨rfl, rfl, rfl⟩)
    · simp [he]
  · have hrefused : t.hear source now = (false, t) := by
      rw [Throttle.hear, if_neg hadmits]
    rw [hrefused, h other later hlater]
    simp

end Remembers

end Throttle

namespace Gossiper

section Reception

variable {σ : Type} [RecordStore σ] {g : Gossiper σ} {text source : String} {now : Nat}

theorem throttle_receive :
    (g.receive text source now).2.throttle = (g.throttle.hear source now).2 := by
  cases hheard : (g.throttle.hear source now).1 with
  | false => rw [receive_of_refused hheard, emit]
  | true =>
      cases hdecode : Packet.decode text with
      | error fault => rw [receive_of_unreadable hheard hdecode, emit]
      | ok packet => rw [receive_of_packet hheard hdecode rfl]

theorem receive_eq_throttled_iff : (g.receive text source now).1 = .throttled ↔
    (g.throttle.hear source now).1 = false := by
  cases hheard : (g.throttle.hear source now).1 with
  | false => simp [receive_of_refused hheard]
  | true =>
      cases hdecode : Packet.decode text with
      | error fault => simp [receive_of_unreadable hheard hdecode]
      | ok packet => simp [receive_of_packet hheard hdecode rfl]

/-- Nobody looks at what a source says that is turned away. -/
theorem receive_eq_of_refused (h : (g.throttle.hear source now).1 = false) (text : String) :
    g.receive text source now = (.throttled, g.emit (.throttled source)) := by
  rw [receive_of_refused h, Throttle.hear_eq_of_refused h]

theorem receive_of_malformed (h : (g.receive text source now).1 = .malformed) :
    ∃ fault, Packet.decode text = .error fault ∧ (g.receive text source now).2 =
      { g with throttle := (g.throttle.hear source now).2 }.emit
        (.malformedPayload source fault) := by
  cases hheard : (g.throttle.hear source now).1 with
  | false =>
      rw [receive_of_refused hheard] at h
      cases h
  | true =>
      cases hdecode : Packet.decode text with
      | error fault => exact ⟨fault, rfl, by rw [receive_of_unreadable hheard hdecode]⟩
      | ok packet =>
          rw [receive_of_packet hheard hdecode rfl] at h
          cases h

end Reception

def Act.heardAt? : Act → Option Nat
  | receive _ _ now => some now
  | round .. | markActive .. | markInactive _ | expire _ | call _ => none

def Admitted (history : List (Act × Outcome)) (source : String) (before : Nat) : Prop :=
  ∃ text reception, (.receive text source before, .received reception) ∈ history ∧
    reception ≠ .throttled

variable {σ : Type} [StoreKind σ] {g : Gossiper σ} {acts : List Act} {now : Nat}

theorem throttle_act (g : Gossiper σ) (a : Act) :
    (a.heardAt? = none ∧ (g.act a).2.throttle = g.throttle) ∨
      ∃ text source now, a = .receive text source now ∧
        (g.act a).2.throttle = (g.throttle.hear source now).2 := by
  cases a with
  | receive text source now => exact .inr ⟨text, source, now, rfl, throttle_receive⟩
  | round draws now =>
      obtain ⟨activePeers, events, datagrams, hround, -⟩ := g.round_eq draws now
      refine .inl ⟨rfl, ?_⟩
      change (g.round draws now).2.throttle = g.throttle
      rw [hround]
  | markActive | markInactive | expire | call => exact .inl ⟨rfl, rfl⟩

theorem admitted_concat {history : List (Act × Outcome)} {a : Act} {o : Outcome} {source : String}
    {before : Nat} : Admitted (history ++ [(a, o)]) source before ↔
      Admitted history source before ∨ Admitted [(a, o)] source before := by
  simp only [Admitted, List.mem_append, or_and_right, exists_or]

theorem not_admitted {a : Act} {o : Outcome} (h : a.heardAt? = none) (source : String)
    (before : Nat) : ¬Admitted [(a, o)] source before := by
  rintro ⟨text, reception, hmem, -⟩
  obtain ⟨rfl, -⟩ := Prod.mk.inj (List.mem_singleton.mp hmem)
  cases h

theorem admitted_receive {text source other : String} {before : Nat} :
    Admitted [(.receive text source now, (g.act (.receive text source now)).1)] other before ↔
      (g.throttle.hear source now).1 = true ∧ other = source ∧ before = now := by
  have hheard : (g.receive text source now).1 ≠ .throttled ↔
      (g.throttle.hear source now).1 = true := by
    rw [Ne, receive_eq_throttled_iff, Bool.not_eq_false]
  rw [← hheard]
  constructor
  · rintro ⟨text', reception, hmem, hreception⟩
    cases List.mem_singleton.mp hmem
    exact ⟨hreception, rfl, rfl⟩
  · rintro ⟨hreception, rfl, rfl⟩
    exact ⟨text, _, List.mem_singleton.mpr rfl, hreception⟩

theorem interval_act (g : Gossiper σ) (a : Act) :
    (g.act a).2.throttle.interval = g.throttle.interval := by
  rcases g.throttle_act a with ⟨-, hthrottle⟩ | ⟨text, source, now, -, hthrottle⟩
  · rw [hthrottle]
  · rw [hthrottle, Throttle.interval_hear]

theorem remembers_act {past : List (Act × Outcome)}
    (h : g.throttle.Remembers (Admitted past) now) {a : Act} (ha : ∀ time ∈ a.heardAt?, time = now) :
    (g.act a).2.throttle.Remembers (Admitted (past ++ [(a, (g.act a).1)])) now := by
  rcases g.throttle_act a with ⟨hsilent, hthrottle⟩ | ⟨text, source, time, rfl, hthrottle⟩
  · have hsame : Admitted (past ++ [(a, (g.act a).1)]) = Admitted past := by
      funext source before
      rw [admitted_concat, or_iff_left (not_admitted hsilent source before)]
    rw [hthrottle, hsame]
    exact h
  · obtain rfl := ha time rfl
    have hmore : Admitted (past ++ [(.receive text source time,
        (g.act (.receive text source time)).1)]) = fun other before =>
          Admitted past other before ∨
            (g.throttle.hear source time).1 = true ∧ other = source ∧ before = time := by
      funext other before
      rw [admitted_concat, admitted_receive]
    rw [hthrottle, hmore]
    exact h.hear source

/-- The times may not run backwards, and nobody may have been heard before the run. -/
theorem remembers_run (hnew : g.throttle.tracked = 0)
    (htimes : (acts.filterMap Act.heardAt? ++ [now]).Pairwise (· ≤ ·)) :
    (g.run acts).throttle.interval = g.throttle.interval ∧
      (g.run acts).throttle.Remembers (Admitted (g.history acts)) now := by
  refine induction_on_times (motive := fun acts now =>
    (g.run acts).throttle.interval = g.throttle.interval ∧
      (g.run acts).throttle.Remembers (Admitted (g.history acts)) now) ?_ ?_ ?_ htimes
  · intro now
    have hnobody : Admitted (g.history []) = fun _ _ => False := by
      funext source before
      simp [Admitted, history]
    rw [hnobody]
    exact ⟨rfl, .of_untracked hnew⟩
  · intro acts before now hle h
    exact ⟨h.1, h.2.mono hle⟩
  · intro acts a now ha h
    rw [run_concat, history_concat, interval_act]
    exact ⟨h.1, remembers_act h.2 ha⟩

/-- A text is turned away exactly within the interval after a text of the same source that was not,
be it malformed or not, and whatever other sources were heard or forgotten. What is turned away is
not read, and leaves a report and nothing else; what is malformed counts as heard. -/
theorem throttled_iff (hnew : g.throttle.tracked = 0) {text source : String}
    (htimes : (acts.filterMap Act.heardAt? ++ [now]).Pairwise (· ≤ ·)) :
    let h := g.run acts
    ((h.receive text source now).1 = .throttled ↔
        ∃ before, Admitted (g.history acts) source before ∧
          now < before + g.throttle.interval) ∧
      ((h.receive text source now).1 = .throttled → ∀ unread,
        h.receive unread source now = (.throttled, h.emit (.throttled source))) ∧
      ((h.receive text source now).1 = .malformed → ∃ fault,
        Packet.decode text = .error fault ∧ (h.receive text source now).2 =
          { h with throttle := (h.throttle.hear source now).2 }.emit
            (.malformedPayload source fault)) := by
  intro h
  obtain ⟨hinterval, hremembers⟩ := remembers_run hnew htimes
  refine ⟨?_, fun hthrottled => ?_, receive_of_malformed⟩
  · rw [receive_eq_throttled_iff, hremembers.hear_eq_false_iff, hinterval]
  · exact receive_eq_of_refused (receive_eq_throttled_iff.mp hthrottled)

/-- So many others are heard within the interval of a source that its throttle purges. -/
theorem throttled_iff_of_crowd :
    let g := start (MemoryStore.empty 10) "me" {}
    let crowd : List Act := (List.range 2000).map fun n => .receive "" (toString n) 1
    let acts := .receive "" "peer" 0 :: crowd
    g.throttle.tracked = 0 ∧ (acts.filterMap Act.heardAt? ++ [29999]).Pairwise (· ≤ ·) ∧
      ((g.run acts).receive "" "peer" 29999).1 = .throttled := by
  intro g crowd acts
  have htimes : (acts.filterMap Act.heardAt? ++ [29999]).Pairwise (· ≤ ·) := by
    have hones : crowd.filterMap Act.heardAt? = (List.range 2000).map fun _ => 1 := by
      rw [List.filterMap_map]
      exact congrFun List.filterMap_eq_map _
    change (0 :: crowd.filterMap Act.heardAt? ++ [29999]).Pairwise (· ≤ ·)
    rw [hones, List.map_const']
    generalize (List.range 2000).length = size
    simp [List.pairwise_append, List.mem_replicate]
  have hmalformed : (g.receive "" "peer" 0).1 = .malformed := by decide +kernel
  have hadmitted : Admitted (g.history acts) "peer" 0 := by
    refine ⟨"", .malformed, ?_, nofun⟩
    rw [history, ← hmalformed]
    exact List.mem_cons_self
  exact ⟨rfl, htimes, (throttled_iff rfl htimes).1.mpr ⟨0, hadmitted, by decide⟩⟩

end Gossiper

end PeerBook
