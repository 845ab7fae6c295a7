import Mathlib.Algebra.GroupWithZero.Nat
import PeerBook.Proofs.Json.Parsing
import PeerBook.Proofs.Packet.RoundTrip

namespace PeerBook

namespace Json

theorem depthItems_add_le_iff {items : List Json} {n bound : Nat} (h : n ≤ bound) :
    depthItems items + n ≤ bound ↔ ∀ item ∈ items, item.depth + n ≤ bound := by
  induction items with
  | nil => simp [depthItems, h]
  | cons item items ih =>
      rw [depthItems, List.forall_mem_cons, ← ih]
      omega

theorem itemsSound_iff {items : List Json} : itemsSound items ↔ ∀ item ∈ items, item.isSound := by
  induction items with
  | nil => simp [itemsSound]
  | cons item items ih => rw [itemsSound, List.forall_mem_cons, ← ih, Bool.and_eq_true]

def nodes (entries : List Json) : Json :=
  .obj [(some "nodes", .arr entries)]

theorem isGeneric_nodes {entries : List Json} :
    (nodes entries).isGeneric ↔ ∀ entry ∈ entries, entry.depth + 2 ≤ maxDepth ∧ entry.isSound := by
  have hdepth : (nodes entries).depth = depthItems entries + 2 := by
    rw [nodes, depth, depthMembers, depthMembers, depth, Nat.max_zero]
  have hsound : (nodes entries).isSound = itemsSound entries := by
    rw [nodes, isSound, membersSound, membersSound, isSound, Bool.and_true, Option.isSome_some,
      Bool.true_and]
  rw [isGeneric, Bool.and_eq_true, decide_eq_true_iff, hdepth, hsound,
    depthItems_add_le_iff (by decide), itemsSound_iff, forall₂_and]

end Json

namespace Packet

open Json

def batch (entries : List String) : String :=
  "\x7b\"nodes\":" ++ arrayText entries ++ "\x7d"

variable {entries : List String} {values : List Json}

theorem ofText?_batch (h : Hold entries values) :
    ofText? (batch entries) = some (nodes values) := by
  have hopen : Reads ([], .gap) "\x7b\"nodes\":".toList
      ([.colon, .str (some "nodes"), .openObject], .gap) := rfl
  have hclose (acc : List Token) : tokensFrom (acc, .gap) ("\x7d".toList.map some) =
      some (.closeObject :: acc).reverse := rfl
  rw [ofText?_eq_some_iff, batch, String.toList_append, String.toList_append, List.append_assoc,
    tokens?_eq, hopen.tokensFrom_append,
    tokensFrom_text (ofText?_arrayText h) (by simp [Numeral.isPart]), hclose]
  simp [nodes, tokens, memberTokens]

/-- All entries of a packet are read, unless one of them makes the text no JSON. -/
theorem decode_batch (h : Hold entries values) :
    decode (batch entries) =
      if (nodes values).isGeneric then .ok (ofEntries values) else .error .payloadNotJson := by
  rw [decode, ofText?_batch h, Option.filter_some]
  cases (nodes values).isGeneric with
  | true => rfl
  | false => rfl

theorem decode_batch_eq_ok_iff (h : Hold entries values) {packet : Packet} :
    decode (batch entries) = .ok packet ↔
      (nodes values).isGeneric ∧ packet = ofEntries values := by
  rw [decode_batch h]
  cases (nodes values).isGeneric with
  | true => simp [eq_comm]
  | false => simp

theorem ofEntries_cons (value : Json) (values : List Json) :
    ofEntries (value :: values) =
      ⟨(ofEntries [value]).records ++ (ofEntries values).records,
        (ofEntries [value]).dropped + (ofEntries values).dropped⟩ := by
  cases h : record? value with
  | none => simp [ofEntries, h, Nat.add_comm]
  | some r => simp [ofEntries, h]

theorem ofEntries_eq (values : List Json) :
    ofEntries values =
      ⟨(values.map fun value => ofEntries [value]).flatMap records,
        ((values.map fun value => ofEntries [value]).map dropped).sum⟩ := by
  induction values with
  | nil => rfl
  | cons value values ih =>
      rw [ofEntries_cons, ih]
      simp

theorem exists_values {alone : List Packet}
    (h : List.Forall₂ (fun entry packet =>
      (ofText? entry).isSome ∧ decode (batch [entry]) = .ok packet) entries alone) :
    ∃ values, Hold entries values ∧ (nodes values).isGeneric ∧
      alone = values.map fun value => ofEntries [value] := by
  induction h with
  | nil => exact ⟨[], .nil, rfl, rfl⟩
  | cons hfirst hothers ih =>
      obtain ⟨values, hold, hgeneric, rfl⟩ := ih
      obtain ⟨hvalue, halone⟩ := hfirst
      obtain ⟨value, hvalue⟩ := Option.isSome_iff_exists.mp hvalue
      obtain ⟨hentry, rfl⟩ := (decode_batch_eq_ok_iff (.cons hvalue .nil)).mp halone
      rw [isGeneric_nodes] at hentry hgeneric
      exact ⟨value :: values, .cons hvalue hold, isGeneric_nodes.mpr
        (List.forall_mem_cons.mpr ⟨hentry value List.mem_cons_self, hgeneric⟩), rfl⟩

/-- If each text is a single value and makes a packet alone, all of them make one packet with what
they tell alone. Of such an entry one record is read, or it is counted. -/
theorem decode_batch_of_alone {alone : List Packet}
    (h : List.Forall₂ (fun entry packet =>
      (ofText? entry).isSome ∧ decode (batch [entry]) = .ok packet) entries alone) :
    ∃ packet, decode (batch entries) = .ok packet ∧
      packet.records = alone.flatMap records ∧ packet.dropped = (alone.map dropped).sum ∧
      packet.records.length + packet.dropped = entries.length ∧
      ∀ p ∈ alone, p.records.length + p.dropped = 1 := by
  obtain ⟨values, hold, hgeneric, rfl⟩ := exists_values h
  have hdecode := (decode_batch_eq_ok_iff hold).mpr ⟨hgeneric, rfl⟩
  refine ⟨ofEntries values, hdecode, ?_, ?_, ?_, ?_⟩
  · rw [ofEntries_eq]
  · rw [ofEntries_eq]
  · rw [length_ofEntries]
    exact hold.length_eq.symm
  · intro p hp
    obtain ⟨value, -, rfl⟩ := List.mem_map.mp hp
    exact length_ofEntries [value]

def mixed : List (String × Packet) :=
  [("null", ⟨[], 1⟩),
    ("\x7b\"hash\": \"h\", \"publicKey\": \"k\"\x7d",
      ⟨[{ identity := "h", publicKey := "k", lastSeen := 0 }], 0⟩),
    ("\"]\x7d,[\"", ⟨[], 1⟩),
    ("\x7b\"hash\": \"h\", \"publicKey\": \"k\", \"port\": 65536\x7d", ⟨[], 1⟩)]

theorem decode_batch_of_mixed :
    ∃ packet, decode (batch (mixed.map Prod.fst)) = .ok packet ∧
      packet.records = [{ identity := "h", publicKey := "k", lastSeen := 0 }] ∧
      packet.dropped = 3 ∧ packet.records.length + packet.dropped = 4 ∧
      ∀ p ∈ mixed.map Prod.snd, p.records.length + p.dropped = 1 := by
  have halone : List.Forall₂ (fun entry packet =>
      (ofText? entry).isSome ∧ decode (batch [entry]) = .ok packet)
      (mixed.map Prod.fst) (mixed.map Prod.snd) :=
    .cons (by decide +kernel) (.cons (by decide +kernel) (.cons (by decide +kernel)
      (.cons (by decide +kernel) .nil)))
  exact decode_batch_of_alone halone

end Packet

end PeerBook
