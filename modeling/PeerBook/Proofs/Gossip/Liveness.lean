import PeerBook.Proofs.Gossip.Acts

namespace PeerBook

namespace Gossiper

def Act.time? : Act → Option Nat
  | receive _ _ now | round _ now | markActive _ _ now | expire now => some now
  | markInactive _ | call _ => none

def Act.mark? (identity : String) : Act → Option (Option ActivePeer)
  | markActive other address now => if other = identity then some (some ⟨address, now⟩) else none
  | markInactive other => if other = identity then some none else none
  | receive .. | round .. | expire _ | call _ => none

def Marked (acts : List Act) (identity : String) (peer : ActivePeer) : Prop :=
  ∃ before after, acts = before ++ .markActive identity peer.address peer.lastHeard :: after ∧
    ∀ a ∈ after, a.mark? identity = none

/-- The identity was heard at the address less than `timeout` ago, and is not known to be gone. -/
def LiveAt (timeout : Nat) (acts : List Act) (now : Nat) (identity address : String) : Prop :=
  ∃ time, Marked acts identity ⟨address, time⟩ ∧ now - time < timeout

section Marks

variable {acts : List Act} {a : Act} {identity : String} {peer : ActivePeer}

theorem Act.mark?_markActive : (Act.markActive identity peer.address peer.lastHeard).mark? identity =
    some (some peer) :=
  if_pos rfl

theorem not_marked_nil : ¬Marked [] identity peer := by
  rintro ⟨before, after, hsplit, -⟩
  exact List.append_ne_nil_of_right_ne_nil before (List.cons_ne_nil _ after) hsplit.symm

theorem concat_eq_split {before after : List Act} {mark : Act}
    (h : acts ++ [a] = before ++ mark :: after) :
    a = mark ∧ after = [] ∨ ∃ rest, acts = before ++ mark :: rest ∧ after = rest ++ [a] := by
  rcases List.eq_nil_or_concat after with rfl | ⟨rest, last, rfl⟩
  · obtain ⟨-, hlast⟩ := List.append_inj' h rfl
    exact .inl ⟨List.singleton_inj.mp hlast, rfl⟩
  · rw [List.concat_eq_append, ← List.cons_append, ← List.append_assoc] at h
    obtain ⟨hacts, hlast⟩ := List.append_inj' h rfl
    exact .inr ⟨rest, hacts, by rw [List.concat_eq_append, hlast]⟩

theorem marked_concat_of_silent (h : a.mark? identity = none) :
    Marked (acts ++ [a]) identity peer ↔ Marked acts identity peer := by
  constructor
  · rintro ⟨before, after, hsplit, hafter⟩
    rcases concat_eq_split hsplit with ⟨rfl, -⟩ | ⟨rest, hacts, rfl⟩
    · rw [Act.mark?_markActive] at h
      cases h
    · exact ⟨before, rest, hacts, fun b hb => hafter b (List.mem_append_left _ hb)⟩
  · rintro ⟨before, after, rfl, hafter⟩
    refine ⟨before, after ++ [a], by simp, fun b hb => ?_⟩
    rcases List.mem_append.mp hb with hb | hb
    · exact hafter b hb
    · rwa [List.mem_singleton.mp hb]

theorem marked_concat_of_mark {mark : Option ActivePeer} (h : a.mark? identity = some mark) :
    Marked (acts ++ [a]) identity peer ↔ mark = some peer := by
  constructor
  · rintro ⟨before, after, hsplit, hafter⟩
    rcases concat_eq_split hsplit with ⟨rfl, -⟩ | ⟨rest, -, rfl⟩
    · rw [Act.mark?_markActive] at h
      exact (Option.some.inj h).symm
    · rw [hafter a (List.mem_append_right _ List.mem_cons_self)] at h
      cases h
  · rintro rfl
    refine ⟨acts, [], ?_, nofun⟩
    cases a with
    | markActive other address now =>
        rw [Act.mark?] at h
        split at h
        · rename_i hsame
          cases h
          rw [hsame]
        · cases h
    | markInactive other =>
        rw [Act.mark?] at h
        split at h <;> cases h
    | receive | round | expire | call => cases h

end Marks

section Books

variable {σ : Type} {g : Gossiper σ} {identity : String} {peer : ActivePeer} {now later : Nat}

theorem isLive_of_le (hle : now ≤ later) (h : g.isLive later peer) : g.isLive now peer := by
  simp only [isLive, decide_eq_true_eq] at h ⊢
  omega

theorem activePeers_expireInactive : (g.expireInactive now).2.activePeers[identity]? = some peer ↔
    g.activePeers[identity]? = some peer ∧ g.isLive now peer := by
  rw [expireInactive, Std.TreeMap.getElem?_filter', Option.filter_eq_some_iff]

theorem mem_activePeers_iff : identity ∈ g.activePeers ↔
    ∃ address, g.activePeers[identity]?.map ActivePeer.address = some address := by
  rw [Std.TreeMap.mem_iff_isSome_getElem?, ← Option.isSome_iff_exists, Option.isSome_map]

end Books

variable {σ : Type} [StoreKind σ] {g : Gossiper σ} {acts : List Act} {a : Act} {identity : String}
  {peer : ActivePeer} {now later : Nat}

theorem settings_act (g : Gossiper σ) (a : Act) :
    (g.act a).2.config = g.config ∧ (g.act a).2.localIdentity = g.localIdentity := by
  cases a with
  | receive text source now =>
      rcases g.receive_cases text source now with ⟨-, throttle, events, h⟩ |
        ⟨packet, vs, t, throttle, -, -, h⟩ <;> rw [act] <;> simp [h]
  | round draws now =>
      obtain ⟨activePeers, events, datagrams, hround, -⟩ := g.round_eq draws now
      rw [act]
      simp [hround]
  | markActive | markInactive | expire | call => exact ⟨rfl, rfl⟩

theorem settings_run (g : Gossiper σ) (acts : List Act) :
    (g.run acts).config = g.config ∧ (g.run acts).localIdentity = g.localIdentity := by
  induction acts generalizing g with
  | nil => exact ⟨rfl, rfl⟩
  | cons a acts ih =>
      obtain ⟨hconfig, hlocal⟩ := g.settings_act a
      rw [run_cons, (ih _).1, (ih _).2]
      exact ⟨hconfig, hlocal⟩

theorem activePeers_act_of_mark {mark : Option ActivePeer} (h : a.mark? identity = some mark) :
    (g.act a).2.activePeers[identity]? = mark := by
  cases a with
  | markActive other address now =>
      rw [Act.mark?] at h
      split at h
      · rename_i hsame
        cases h
        exact hsame ▸ Std.TreeMap.getElem?_insert_self
      · cases h
  | markInactive other =>
      rw [Act.mark?] at h
      split at h
      · rename_i hsame
        cases h
        exact hsame ▸ Std.TreeMap.getElem?_erase_self
      · cases h
  | receive | round | expire | call => cases h

theorem activePeers_act_of_silent (h : a.mark? identity = none)
    (hlive : ∀ time ∈ a.time?, g.isLive time peer) :
    (g.act a).2.activePeers[identity]? = some peer ↔ g.activePeers[identity]? = some peer := by
  cases a with
  | receive text source now =>
      have hsame : (g.receive text source now).2.activePeers = g.activePeers := by
        rcases g.receive_cases text source now with ⟨-, throttle, events, h⟩ |
          ⟨packet, vs, t, throttle, -, -, h⟩ <;> rw [h]
      change (g.receive text source now).2.activePeers[identity]? = some peer ↔ _
      rw [hsame]
  | round draws now =>
      obtain ⟨events, packet, sends, -, -, -, hround⟩ := g.round_eq_sends draws now
      change (g.round draws now).2.activePeers[identity]? = some peer ↔ _
      rw [hround]
      exact activePeers_expireInactive.trans (and_iff_left (hlive now rfl))
  | expire now => exact activePeers_expireInactive.trans (and_iff_left (hlive now rfl))
  | markActive other address now =>
      rw [Act.mark?, ite_eq_right_iff] at h
      have hne : compare other identity ≠ .eq := fun he => nomatch h (Std.compare_eq_iff_eq.mp he)
      change (g.activePeers.insert other ⟨address, now⟩)[identity]? = some peer ↔ _
      rw [Std.TreeMap.getElem?_insert, if_neg hne]
  | markInactive other =>
      rw [Act.mark?, ite_eq_right_iff] at h
      have hne : compare other identity ≠ .eq := fun he => nomatch h (Std.compare_eq_iff_eq.mp he)
      change (g.activePeers.erase other)[identity]? = some peer ↔ _
      rw [Std.TreeMap.getElem?_erase, if_neg hne]
  | call c => rfl

def Tracks (g : Gossiper σ) (acts : List Act) (now : Nat) : Prop :=
  ∀ identity peer, g.isLive now peer →
    (g.activePeers[identity]? = some peer ↔ Marked acts identity peer)

theorem tracks_act (h : g.Tracks acts now) (ha : ∀ time ∈ a.time?, time = now) :
    (g.act a).2.Tracks (acts ++ [a]) now := by
  intro identity peer hlive
  rw [isLive, (g.settings_act a).1] at hlive
  cases hmark : a.mark? identity with
  | none =>
      have hthen : ∀ time ∈ a.time?, g.isLive time peer := fun time htime => ha time htime ▸ hlive
      rw [activePeers_act_of_silent hmark hthen, marked_concat_of_silent hmark]
      exact h identity peer hlive
  | some mark => rw [activePeers_act_of_mark hmark, marked_concat_of_mark hmark]

theorem tracks_run (hnew : g.activePeers.isEmpty)
    (htimes : (acts.filterMap Act.time? ++ [now]).Pairwise (· ≤ ·)) :
    (g.run acts).Tracks acts now := by
  refine induction_on_times (motive := fun acts now => (g.run acts).Tracks acts now) ?_ ?_ ?_ htimes
  · intro now identity peer _
    have hnone : g.activePeers[identity]? = none := Std.TreeMap.getElem?_of_isEmpty hnew
    exact iff_of_false (by simp [run, hnone]) not_marked_nil
  · intro acts before now hle h identity peer hlive
    exact h identity peer (isLive_of_le hle hlive)
  · intro acts a now ha h
    rw [run_concat]
    exact tracks_act h ha

/-- After a run, the peers that are not expired are the live ones. -/
theorem activePeers_expireInactive_run (hnew : g.activePeers.isEmpty)
    (htimes : (acts.filterMap Act.time? ++ [now]).Pairwise (· ≤ ·)) {address : String} :
    (((g.run acts).expireInactive now).2.activePeers[identity]?.map ActivePeer.address =
        some address) ↔
      LiveAt (secondsToMillis g.config.activePeerTimeoutSecs) acts now identity address := by
  have hlive (peer : ActivePeer) : (g.run acts).isLive now peer ↔
      now - peer.lastHeard < secondsToMillis g.config.activePeerTimeoutSecs := by
    rw [isLive, (g.settings_run acts).1, decide_eq_true_iff]
  have htracks := tracks_run hnew htimes identity
  rw [Option.map_eq_some_iff]
  constructor
  · rintro ⟨peer, hpeer, rfl⟩
    obtain ⟨hbook, hpeer⟩ := activePeers_expireInactive.mp hpeer
    exact ⟨peer.lastHeard, (htracks peer hpeer).mp hbook, (hlive peer).mp hpeer⟩
  · rintro ⟨time, hmarked, hrecent⟩
    have hpeer := (hlive ⟨address, time⟩).mpr hrecent
    exact ⟨_, activePeers_expireInactive.mpr ⟨(htracks _ hpeer).mpr hmarked, hpeer⟩, rfl⟩

end Gossiper

end PeerBook
