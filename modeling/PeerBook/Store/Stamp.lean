import PeerBook.Record
import Std.Data.TreeSet

namespace PeerBook

/-- Records are listed, evicted and swept by the time they were last seen, and by identity among
records of one time. -/
structure Stamp where
  lastSeen : Timestamp
  identity : String
  deriving DecidableEq, Repr

namespace Stamp

instance : Ord Stamp :=
  ⟨compareLex (compareOn Stamp.lastSeen) (compareOn Stamp.identity)⟩

instance : Std.TransOrd Stamp :=
  inferInstanceAs (Std.TransCmp (compareLex (compareOn Stamp.lastSeen) (compareOn Stamp.identity)))

theorem compare_eq (s t : Stamp) :
    compare s t = (compare s.lastSeen t.lastSeen).then (compare s.identity t.identity) :=
  rfl

instance : Std.LawfulEqOrd Stamp where
  eq_of_compare {s t} h := by
    rw [compare_eq, Ordering.then_eq_eq] at h
    cases s
    cases t
    simpa using ⟨Std.LawfulEqOrd.eq_of_compare h.1, Std.LawfulEqOrd.eq_of_compare h.2⟩

end Stamp

abbrev RecencyIndex := Std.TreeSet Stamp

def Record.stamp (r : Record) : Stamp :=
  ⟨r.lastSeen, r.identity⟩

end PeerBook
