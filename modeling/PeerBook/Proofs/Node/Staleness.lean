import PeerBook.Node
import PeerBook.Proofs.Store.Ranking

namespace PeerBook

/-- Whether a record was last seen more than so many seconds before a time, as whole numbers have
it. -/
def Record.IsStale (now : Timestamp) (seconds : UInt64) (r : Record) : Prop :=
  r.lastSeen.toNat + 1000 * seconds.toNat < now.toNat

instance (now : Timestamp) (seconds : UInt64) : DecidablePred (Record.IsStale now seconds) :=
  fun _ => inferInstanceAs (Decidable (_ < _))

namespace Timestamp

variable {now age t : Timestamp} {n seconds : Nat}

theorem toNat_saturate (n : Nat) : (saturate n).toNat = min n (UInt64.size - 1) :=
  UInt64.toNat_ofNat_of_lt' ((Nat.min_le_right n _).trans_lt (by decide))

theorem toNat_ofSpan (seconds : Nat) :
    (ofSpan seconds 0).toNat = min (1000 * seconds) (UInt64.size - 1) := by
  have hmillis : (seconds * 1000000000 + 0) / 1000000 = 1000 * seconds := by omega
  rw [ofSpan, hmillis, toNat_saturate]

theorem toNat_before (now age : Timestamp) : (now.before age).toNat = now.toNat - age.toNat := by
  rw [before]
  split
  · exact UInt64.toNat_sub_of_le _ _ ‹_›
  · have hlt : now.toNat < age.toNat := UInt64.lt_iff_toNat_lt.mp (UInt64.not_le.mp ‹_›)
    rw [Nat.sub_eq_zero_of_le hlt.le]
    rfl

/-- Both bounds that the limit is held at are out of reach: an age held at the largest word is
later than any time, and no time is before the epoch. -/
theorem lt_before_ofSpan_iff : t < now.before (ofSpan seconds 0) ↔
    t.toNat + 1000 * seconds < now.toNat := by
  have hnow := now.toNat_lt
  rw [UInt64.lt_iff_toNat_lt, toNat_before, toNat_ofSpan, UInt64.size]
  omega

end Timestamp

variable {σ : Type} [CacheLike σ] {s : σ} {n : Node σ}

namespace CacheLike

def Lists (s : σ) (stored : List Record) : Prop :=
  ∃ C, shows s C ∧ C.entries = stored

theorem Lists.holds {stored : List Record} (h : Lists s stored) : Holds s stored := by
  obtain ⟨C, hshows, rfl⟩ := h
  exact lockstep.holds hshows

/-- A sweep before the limit for an age removes what is stale at that age. -/
theorem sweep_stale {stored : List Record} (h : Lists s stored) (now : Timestamp)
    (seconds : UInt64) :
    ∃ t, RecordStore.sweep s (now.before (.ofSpan seconds.toNat 0)) =
        .ok (stored.countP (·.IsStale now seconds), t) ∧
      Lists t (stored.filter (¬·.IsStale now seconds)) := by
  obtain ⟨C, hshows, rfl⟩ := h
  obtain ⟨t, hsweep, hkept⟩ := sweep_ok hshows (now.before (.ofSpan seconds.toNat 0))
  have hstale (r : Record) :
      r.lastSeen < now.before (.ofSpan seconds.toNat 0) ↔ r.IsStale now seconds :=
    Timestamp.lt_before_ofSpan_iff
  refine ⟨t, ?_, _, hkept, ?_⟩
  · simp only [hsweep, hstale]
  · simp only [Cache.keep, ← UInt64.not_lt, hstale]

end CacheLike

theorem Node.sweepStale_ok {stored : List Record} (h : CacheLike.Lists n.store stored)
    (now : Timestamp) :
    ∃ m, n.sweepStale now = .ok (stored.countP (·.IsStale now n.config.staleAfterSecs), m) ∧
      CacheLike.Lists m.store (stored.filter (¬·.IsStale now n.config.staleAfterSecs)) := by
  obtain ⟨t, hsweep, hkept⟩ := CacheLike.sweep_stale h now n.config.staleAfterSecs
  refine ⟨n.withStore t, ?_, hkept⟩
  rw [sweepStale, staleBefore, Config.staleAfter, hsweep]
  rfl

end PeerBook
