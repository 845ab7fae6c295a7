import PeerBook.Packet
import PeerBook.Proofs.Json.RoundTrip

namespace PeerBook

def Record.told (r : Record) : Record :=
  { r with contactHint := none, synced := false }

theorem Text.isBlank_eq_false_iff {text : String} :
    isBlank text = false ↔ ∃ c ∈ text.toList, ¬isBlankChar c := by
  simp only [isBlank, List.all_eq_false]

namespace Packet

def takes (r : Record) : Bool :=
  !Text.isBlank r.identity && !Text.isBlank r.publicKey

theorem takes_iff {r : Record} : takes r ↔
    (∃ c ∈ r.identity.toList, ¬Text.isBlankChar c) ∧
      ∃ c ∈ r.publicKey.toList, ¬Text.isBlankChar c := by
  simp only [takes, Bool.and_eq_true, Bool.not_eq_true', Text.isBlank_eq_false_iff]

theorem identity_ne_of_takes {r : Record} (h : takes r) : r.identity ≠ "" := by
  obtain ⟨⟨c, hc, -⟩, -⟩ := takes_iff.mp h
  rintro hempty
  rw [hempty] at hc
  cases hc

theorem publicKey_ne_of_takes {r : Record} (h : takes r) : r.publicKey ≠ "" := by
  obtain ⟨-, c, hc, -⟩ := takes_iff.mp h
  rintro hempty
  rw [hempty] at hc
  cases hc

theorem fields?_entry (r : Record) :
    (entry r).fields? ["hash", "ip", "port", "publicKey", "lastSeen"] =
      some [some (.text r.identity), some (.text r.address), some (.nat r.port.toNat),
        some (.text r.publicKey), some (.nat r.lastSeen.toNat)] := by
  simp [entry, Json.object, Json.fields?, Json.lookup]

theorem record?_entry (r : Record) : record? (entry r) = if takes r then some r.told else none := by
  simp only [record?, fields?_entry]
  cases hidentity : Text.isBlank r.identity <;> cases hkey : Text.isBlank r.publicKey <;>
    simp [takes, Json.fieldOr, Json.nullable, Json.text, Json.asText?,
      Json.asUInt16?_nat, Json.asUInt64?_nat, hidentity, hkey, Record.told]

theorem plain_encode (records : List Record) :
    (Json.object [("nodes", .arr (records.map entry))]).Plain := by
  refine Json.plain_object fun m hm => ?_
  obtain rfl := List.mem_singleton.mp hm
  refine Json.plain_arr fun item hitem => ?_
  obtain ⟨r, -, rfl⟩ := List.mem_map.mp hitem
  refine Json.plain_object fun m hm => ?_
  simp only [List.mem_cons, List.not_mem_nil, or_false] at hm
  rcases hm with rfl | rfl | rfl | rfl | rfl
  · exact Json.plain_text _
  · exact Json.plain_text _
  · exact Json.plain_nat _
  · exact Json.plain_text _
  · exact Json.plain_nat _

theorem isGeneric_encode (records : List Record) :
    (Json.object [("nodes", .arr (records.map entry))]).isGeneric := by
  have hdepth : Json.depthItems (records.map entry) ≤ 1 := by
    induction records with
    | nil => simp [Json.depthItems]
    | cons r rs ih =>
        simp [Json.depthItems, entry, Json.object, Json.depth, Json.depthMembers, Json.text,
          Json.nat, ih]
  have hsound : Json.itemsSound (records.map entry) := by
    induction records with
    | nil => rfl
    | cons r rs ih =>
        have hport : (Json.Numeral.ofNat r.port.toNat).isFinite :=
          Json.Numeral.isFinite_ofNat (r.port.toNat_lt_size.trans (by decide))
        have hseen : (Json.Numeral.ofNat r.lastSeen.toNat).isFinite :=
          Json.Numeral.isFinite_ofNat r.lastSeen.toNat_lt_size
        simpa [Json.itemsSound, entry, Json.object, Json.isSound, Json.membersSound, Json.text,
          Json.nat, hport, hseen] using ih ((le_max_right _ _).trans hdepth)
  simp [Json.isGeneric, Json.object, Json.depth, Json.depthMembers, Json.isSound,
    Json.membersSound, hsound, Json.maxDepth]
  omega

theorem decode_encode (records : List Record) :
    decode (encode records) =
      .ok ⟨(records.filter takes).map Record.told, records.countP fun r => !takes r⟩ := by
  have hread : (Json.ofText? (encode records)).filter Json.isGeneric =
      some (Json.object [("nodes", .arr (records.map entry))]) := by
    rw [encode, Json.ofText?_compact (plain_encode records), Option.filter_some,
      if_pos (isGeneric_encode records)]
  have hentries : ofEntries (records.map entry) =
      ⟨(records.filter takes).map Record.told, records.countP fun r => !takes r⟩ := by
    rw [ofEntries, List.filterMap_map, List.countP_map, ← List.filterMap_eq_filter,
      List.map_filterMap]
    congr 1
    · refine List.filterMap_congr fun r _ => ?_
      rw [Function.comp_apply, record?_entry]
      cases htakes : takes r <;> simp [Option.guard, htakes]
    · refine List.countP_congr fun r _ => ?_
      rw [Function.comp_apply, record?_entry]
      cases takes r <;> simp
  rw [decode, hread]
  simp [Json.object, ofJson, Json.lookup, hentries]

/-- Decided by a walk over the text, and not by one over all characters. -/
instance (priority := high) decidableExistsChar {p : Char → Prop} [DecidablePred p]
    (text : List Char) : Decidable (∃ c ∈ text, p c) :=
  List.decidableBEx p text

/-- A packet loses nothing of the records that have an identity and a key, and keeps their order.
The others are counted. -/
theorem records_of_decode_encode (records : List Record) :
    ∃ packet, decode (encode records) = .ok packet ∧
      packet.records =
        (records.filter fun r => (∃ c ∈ r.identity.toList, ¬Text.isBlankChar c) ∧
          ∃ c ∈ r.publicKey.toList, ¬Text.isBlankChar c).map
          (fun r => { r with contactHint := none, synced := false }) ∧
      packet.dropped =
        records.countP fun r => ¬((∃ c ∈ r.identity.toList, ¬Text.isBlankChar c) ∧
          ∃ c ∈ r.publicKey.toList, ¬Text.isBlankChar c) := by
  refine ⟨_, decode_encode records, ?_, ?_⟩
  · have hkept : records.filter takes = records.filter fun r =>
        (∃ c ∈ r.identity.toList, ¬Text.isBlankChar c) ∧
          ∃ c ∈ r.publicKey.toList, ¬Text.isBlankChar c :=
      List.filter_congr fun r _ => Bool.eq_iff_iff.mpr (by rw [takes_iff, decide_eq_true_iff])
    exact congrArg (List.map Record.told) hkept
  · refine List.countP_congr fun r _ => ?_
    rw [Bool.not_eq_true', ← Bool.not_eq_true, takes_iff, decide_eq_true_iff]

theorem takes_of_record? {value : Json} {r : Record} (h : record? value = some r) :
    takes r ∧ r.told = r := by
  simp only [record?, Option.bind_eq_bind, Option.bind_eq_some_iff] at h
  obtain ⟨fields, -, h⟩ := h
  split at h
  · simp only [Option.bind_eq_some_iff] at h
    obtain ⟨_, -, _, -, _, -, _, -, _, -, _, -, h⟩ := h
    split at h
    · cases h
    · rename_i hnamed
      cases h
      exact ⟨by simpa [takes] using hnamed, rfl⟩
  · cases h

theorem length_ofEntries (items : List Json) :
    (ofEntries items).records.length + (ofEntries items).dropped = items.length := by
  have hsplit := items.length_eq_countP_add_countP fun item => (record? item).isSome
  simpa [ofEntries, List.length_filterMap_eq_countP, ← Option.isNone_iff_eq_none] using hsplit.symm

theorem decode_eq_ok {text : String} {packet : Packet} (h : decode text = .ok packet) :
    ∃ members items, Json.ofText? text = some (.obj members) ∧
      Json.lookup "nodes" members = some (.arr items) ∧
      packet.records = items.filterMap record? ∧
      packet.records.length + packet.dropped = items.length := by
  rw [decode] at h
  split at h
  · cases h
  · rename_i value hvalue
    have hread := (Option.filter_eq_some_iff.mp hvalue).1
    cases value with
    | obj members =>
        rw [ofJson] at h
        split at h
        · rename_i items hitems
          cases h
          exact ⟨members, items, hread, hitems, rfl, length_ofEntries items⟩
        · cases h
    | null | bool | num | str | arr => cases h

theorem takes_of_mem_decode {text : String} {packet : Packet} {r : Record}
    (h : decode text = .ok packet) (hr : r ∈ packet.records) : takes r ∧ r.told = r := by
  obtain ⟨-, items, -, -, hrecords, -⟩ := decode_eq_ok h
  rw [hrecords] at hr
  obtain ⟨item, -, hitem⟩ := List.mem_filterMap.mp hr
  exact takes_of_record? hitem

/-- A relay passes on all that it reads. -/
theorem decode_encode_of_decode {text : String} {packet : Packet} (h : decode text = .ok packet) :
    decode (encode packet.records) = .ok ⟨packet.records, 0⟩ := by
  have htaken : ∀ r ∈ packet.records, takes r ∧ r.told = r := fun r => takes_of_mem_decode h
  have hkept : packet.records.filter takes = packet.records :=
    List.filter_eq_self.mpr fun r hr => (htaken r hr).1
  have hsame : packet.records.map Record.told = packet.records :=
    (List.map_congr_left fun r hr => (htaken r hr).2).trans (List.map_id _)
  have hnone : (packet.records.countP fun r => !takes r) = 0 :=
    List.countP_eq_zero.mpr fun r hr => by simp [(htaken r hr).1]
  rw [decode_encode, hkept, hsame, hnone]

end Packet

end PeerBook
