import PeerBook.Proofs.Store.CacheLike
import PeerBook.Store.Image

namespace PeerBook

namespace Tables

variable {t : Tables} {s : MemoryStore} {C : Cache}

theorem readEntries_entries (entries : List (String × Octets)) (rest : Octets) :
    readEntries entries.length
        ((entries.flatMap fun (identity, r) => Codec.text identity ++ Codec.octets r) ++ rest) =
      some (entries, rest) := by
  induction entries with
  | nil => rfl
  | cons entry entries ih =>
      simp only [List.length_cons, List.flatMap_cons, List.append_assoc, readEntries,
        Codec.readText_text, Codec.readOctets_octets, ih, Option.bind_eq_bind, Option.bind_some]
      rfl

theorem readImage_image (seed : Option Octets) (entries : List (String × Octets)) :
    Codec.whole readImage (Codec.option Codec.octets seed ++ imageEntries entries) =
      some { records := .ofList entries, index := indexOf entries, seed } := by
  have hentries := readEntries_entries entries []
  rw [List.append_nil] at hentries
  simp only [Codec.whole, readImage, imageEntries,
    Codec.readOption_option Codec.readOctets_octets, Codec.readNat_nat, hentries,
    Option.bind_eq_bind, Option.bind_some]
  rfl

theorem ofImage?_image (t : Tables) : ofImage? t.image =
    some { records := .ofList t.records.toList, index := indexOf t.records.toList,
           seed := t.seed } := by
  have hfull : t.image.isEmpty = false := rfl
  have hmark : t.image.take imageMark.length = imageMark := by
    rw [image, List.append_assoc, List.take_left]
  have hrest : t.image.drop imageMark.length =
      Codec.option Codec.octets t.seed ++ imageEntries t.records.toList := by
    rw [image, List.append_assoc, List.drop_left]
  rw [ofImage?, hfull, if_neg Bool.false_ne_true, if_pos hmark, hrest, readImage_image]

theorem getElem?_ofList_toList (m : Std.TreeMap String Octets) (identity : String) :
    (Std.TreeMap.ofList m.toList)[identity]? = m[identity]? := by
  cases hfound : m[identity]? with
  | none =>
      refine Std.TreeMap.getElem?_ofList_of_contains_eq_false ?_
      rw [Bool.eq_false_iff, ne_eq, List.contains_iff_mem]
      intro hmem
      obtain ⟨⟨key, bytes⟩, hentry, rfl⟩ := List.mem_map.mp hmem
      rw [Std.TreeMap.mem_toList_iff_getElem?_eq_some.mp hentry] at hfound
      cases hfound
  | some bytes =>
      exact Std.TreeMap.getElem?_ofList_of_mem Std.ReflCmp.compare_self m.distinct_keys_toList
        (Std.TreeMap.mem_toList_iff_getElem?_eq_some.mpr hfound)

theorem mem_indexOf (h : t.Mirrors s) (stamp : Stamp) : stamp ∈ indexOf t.records.toList ↔
    ∃ identity r, s.find? identity = some r ∧ r.stamp = stamp := by
  rw [indexOf, Std.TreeSet.mem_ofList, List.contains_iff_mem, List.mem_filterMap]
  constructor
  · rintro ⟨⟨identity, bytes⟩, hentry, hstamp⟩
    have hrecord := Std.TreeMap.mem_toList_iff_getElem?_eq_some.mp hentry
    rw [h.records] at hrecord
    obtain ⟨r, hfound, rfl⟩ := Option.map_eq_some_iff.mp hrecord
    simp only [Codec.whole_record, Option.map_some] at hstamp
    exact ⟨identity, r, hfound, Option.some.inj hstamp⟩
  · rintro ⟨identity, r, hfound, rfl⟩
    refine ⟨(identity, Codec.record r), ?_, by simp only [Codec.whole_record, Option.map_some]⟩
    rw [Std.TreeMap.mem_toList_iff_getElem?_eq_some, h.records, hfound, Option.map_some]

end Tables

namespace DurableStore

open CacheLike

variable {s : DurableStore} {C : Cache}

/-- A store that is closed and read back from its file shows what it did, and keeps its secret. -/
theorem shows_of_image (h : shows s C) : ∃ t, Tables.ofImage? s.tables.image = some t ∧
    t.seed = s.tables.seed ∧ shows (s.withTables t) C := by
  obtain ⟨m, ⟨hcapacity, hmirrors⟩, hshows⟩ := h
  refine ⟨_, Tables.ofImage?_image s.tables, rfl,
    { m with index := Tables.indexOf s.tables.records.toList }, ⟨hcapacity, ?_⟩, ?_⟩
  · exact ⟨fun identity => (Tables.getElem?_ofList_toList _ _).trans (hmirrors.records identity),
      hmirrors.filed, rfl⟩
  · refine ⟨hshows.capacity, hshows.find, fun stamp => ?_⟩
    rw [Tables.mem_indexOf hmirrors]
    simp only [hshows.find, Cache.find?_eq_some_iff]
    constructor
    · rintro ⟨identity, r, ⟨hr, rfl⟩, hstamp⟩
      exact ⟨r, hr, hstamp⟩
    · rintro ⟨r, hr, hstamp⟩
      exact ⟨r.identity, r, ⟨hr, rfl⟩, hstamp⟩

end DurableStore

end PeerBook
