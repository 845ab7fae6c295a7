import PeerBook.Proofs.Store.Agreement

namespace PeerBook

open StoreKind

/-- Records looked up by identity, and an index that holds their stamps and nothing else. -/
structure ExactIndex (lookup : String → Option Record) (index : RecencyIndex) (size : Nat) :
    Prop where
  filed {identity : String} {r : Record} (h : lookup identity = some r) :
    r.identity = identity ∧ identity ≠ ""
  indexed (stamp : Stamp) :
    stamp ∈ index ↔ ∃ identity r, lookup identity = some r ∧ stamp = ⟨r.lastSeen, identity⟩
  sized : index.size = size

def Tables.stored? (t : Tables) (identity : String) : Option Record :=
  t.records[identity]?.bind (Codec.whole Codec.readRecord)

def Cache.Named (C : Cache) : Prop :=
  ∀ r ∈ C.entries, r.identity ≠ ""

theorem Cache.Named.perform {C : Cache} (h : C.Named) (call : Call) : (perform C call).2.Named := by
  rcases C.perform_cases call with ⟨r, merged, -, hr, hidentity, hput⟩ | hsubset
  · rw [hput]
    intro x hx
    rcases Cache.mem_put.mp hx with rfl | ⟨hx, -⟩
    · rwa [hidentity]
    · exact h x hx
  · exact fun x hx => h x (hsubset x hx)

theorem Cache.Named.after {C : Cache} (h : C.Named) (calls : List Call) : (after C calls).Named :=
  after_of_perform (fun _ => Named.perform) h calls

theorem MemoryStore.Shows.exactIndex {s : MemoryStore} {C : Cache} (h : s.Shows C) (hC : C.Named) :
    ExactIndex s.find? s.index s.size where
  filed {identity r} hr := by
    rw [h.find, Cache.find?_eq_some_iff] at hr
    obtain ⟨hr, rfl⟩ := hr
    exact ⟨rfl, hC r hr⟩
  indexed stamp := by
    rw [h.index]
    constructor
    · rintro ⟨r, hr, rfl⟩
      exact ⟨r.identity, r, (h.find r.identity).trans (Cache.find?_self hr), rfl⟩
    · rintro ⟨identity, r, hr, rfl⟩
      rw [h.find, Cache.find?_eq_some_iff] at hr
      obtain ⟨hr, rfl⟩ := hr
      exact ⟨r, hr, rfl⟩
  sized := by
    rw [← Std.TreeSet.length_toList, h.toList_index, List.length_reverse, List.length_map, h.size]

theorem Tables.Mirrors.stored? {t : Tables} {s : MemoryStore} (h : t.Mirrors s) :
    t.stored? = s.find? := by
  funext identity
  rw [Tables.stored?, h.records]
  cases s.find? identity with
  | none => rfl
  | some r => exact Codec.whole_record r

/-- After any calls every record is filed under its own identity, which is not empty, and the index
holds the stamps of the records, no more and no fewer. On disk this goes with octets that can all be
read. -/
theorem exactIndex_after (capacity : Nat) (calls : List Call) :
    let s := after (MemoryStore.empty capacity) calls
    let t := (after (DurableStore.empty capacity) calls).tables
    ExactIndex s.find? s.index s.records.size ∧
      ExactIndex t.stored? t.index t.records.size ∧
      ∀ identity, t.load? identity = .ok (t.stored? identity) := by
  have hnamed := Cache.Named.after (C := Cache.empty capacity) (fun _ hr => nomatch hr) calls
  have hexact := (MemoryStore.shows_after capacity calls).exactIndex hnamed
  have hmirrors := (DurableStore.mirrors_after capacity calls).2
  refine ⟨hexact, ?_, fun identity => ?_⟩
  · rw [hmirrors.stored?, hmirrors.index, hmirrors.size]
    exact hexact
  · rw [hmirrors.stored?]
    exact hmirrors.load identity

end PeerBook
