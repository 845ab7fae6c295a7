import PeerBook.Record.Codec

namespace PeerBook

theorem Octets.text?_utf8 (s : String) : Octets.text? (utf8 s) = some s := by
  have hbytes : (⟨(utf8 s).toArray⟩ : ByteArray) = s.toByteArray := rfl
  rw [Octets.text?, hbytes, String.fromUTF8?, dif_pos s.isValidUTF8]
  rfl

namespace Codec

theorem readNat_nat (n : Nat) (rest : Octets) : readNat (nat n ++ rest) = some (n, rest) := by
  induction n using nat.induct with
  | case1 n h =>
      have hsize : n < UInt8.size := Nat.lt_trans h (by decide)
      rw [nat, dif_pos h, List.singleton_append, readNat, UInt8.toNat_ofNat_of_lt' hsize, if_pos h]
  | case2 n h ih =>
      have hsize : n % 128 + 128 < UInt8.size :=
        Nat.add_lt_add_right (Nat.mod_lt n (by decide)) 128
      rw [nat, dif_neg h, List.cons_append, readNat, UInt8.toNat_ofNat_of_lt' hsize,
        if_neg (by omega), ih, Option.map_some]
      simp only [Option.some.injEq, Prod.mk.injEq, and_true]
      omega

theorem readOctets_octets (bytes rest : Octets) :
    readOctets (octets bytes ++ rest) = some (bytes, rest) := by
  simp [readOctets, octets, readNat_nat]

theorem readText_text (s : String) (rest : Octets) :
    readText (text s ++ rest) = some (s, rest) := by
  simp [readText, text, readOctets_octets, Octets.text?_utf8]

theorem readBool_bool (b : Bool) (rest : Octets) :
    readBool (bool b ++ rest) = some (b, rest) := by
  cases b <;> simp [readBool, bool, readNat_nat]

theorem readOption_option {α : Type} {write : α → Octets} {read : Decoder α}
    (h : ∀ x rest, read (write x ++ rest) = some (x, rest)) (x : Option α) (rest : Octets) :
    readOption read (option write x ++ rest) = some (x, rest) := by
  cases x with
  | none =>
      have hbool : readBool (nat 0 ++ rest) = some (false, rest) := readBool_bool false rest
      simp [readOption, option, hbool]
  | some x =>
      have hbool : readBool (nat 1 ++ (write x ++ rest)) = some (true, write x ++ rest) :=
        readBool_bool true _
      simp [readOption, option, hbool, h]

theorem readRecord_record (r : Record) (rest : Octets) :
    readRecord (record r ++ rest) = some (r, rest) := by
  have hport : ¬UInt16.size ≤ r.port.toNat := Nat.not_le.mpr r.port.toNat_lt_size
  have hseen : ¬UInt64.size ≤ r.lastSeen.toNat := Nat.not_le.mpr r.lastSeen.toNat_lt_size
  simp only [readRecord, record, List.append_assoc, readText_text, readNat_nat, readBool_bool,
    readOption_option readText_text, Option.bind_eq_bind, Option.bind_some, hport, hseen, or_self,
    if_false, UInt16.ofNat_toNat, UInt64.ofNat_toNat]
  rfl

theorem whole_record (r : Record) : whole readRecord (record r) = some r := by
  have h := readRecord_record r []
  rw [List.append_nil] at h
  rw [whole, h]

end Codec

end PeerBook
