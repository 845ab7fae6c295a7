import PeerBook.Octets.Base64

namespace PeerBook.Octets.Base64

theorem digit_of_value? {c : Char} {v : Nat} (h : value? c = some v) : digit v = c ∧ v < 64 := by
  have hlength : alphabet.length = 64 := by decide +kernel
  obtain ⟨hlt, hget, -⟩ := List.idxOf?_eq_some_iff.mp h
  refine ⟨?_, hlength ▸ hlt⟩
  rw [digit, List.getD_eq_getElem?_getD, List.getElem?_eq_getElem hlt]
  exact hget

theorem encodeChars_of_decodeChars {text : List Char} {bytes : Octets}
    (h : decodeChars text = some bytes) : encodeChars bytes = text := by
  fun_induction decodeChars text generalizing bytes with
  | case1 =>
      cases h
      rfl
  | case2 c d =>
      simp only [Option.bind_eq_bind, Option.bind_eq_some_iff] at h
      obtain ⟨u, hu, v, hv, h⟩ := h
      obtain ⟨rfl, hu⟩ := digit_of_value? hu
      obtain ⟨rfl, hv⟩ := digit_of_value? hv
      split at h
      · cases h
        have hbyte : (u * 64 + v) / 16 < UInt8.size := by simp only [UInt8.size]; omega
        have hhigh : (u * 64 + v) / 16 / 4 = u := by omega
        have hlow : (u * 64 + v) / 16 % 4 * 16 = v := by omega
        rw [encodeChars, UInt8.toNat_ofNat_of_lt' hbyte, hhigh, hlow]
      · cases h
  | case3 c d e =>
      simp only [Option.bind_eq_bind, Option.bind_eq_some_iff] at h
      obtain ⟨u, hu, v, hv, w, hw, h⟩ := h
      obtain ⟨rfl, hu⟩ := digit_of_value? hu
      obtain ⟨rfl, hv⟩ := digit_of_value? hv
      obtain ⟨rfl, hw⟩ := digit_of_value? hw
      generalize hn : (u * 64 + v) * 64 + w = n at h
      split at h
      · cases h
        have hfirst : n / 1024 < UInt8.size := by simp only [UInt8.size]; omega
        have hsecond : n / 4 % 256 < UInt8.size := Nat.mod_lt _ (by decide)
        have hboth : n / 1024 * 256 + n / 4 % 256 = n / 4 := by omega
        have hhigh : n / 4 / 1024 = u := by omega
        have hmiddle : n / 4 / 16 % 64 = v := by omega
        have hlow : n / 4 % 16 * 4 = w := by omega
        simp only [encodeChars, UInt8.toNat_ofNat_of_lt' hfirst, UInt8.toNat_ofNat_of_lt' hsecond,
          hboth, hhigh, hmiddle, hlow]
      · cases h
  | case4 c d e f rest _ _ ih =>
      simp only [Option.bind_eq_bind, Option.bind_eq_some_iff] at h
      obtain ⟨u, hu, v, hv, w, hw, x, hx, tail, htail, h⟩ := h
      obtain ⟨rfl, hu⟩ := digit_of_value? hu
      obtain ⟨rfl, hv⟩ := digit_of_value? hv
      obtain ⟨rfl, hw⟩ := digit_of_value? hw
      obtain ⟨rfl, hx⟩ := digit_of_value? hx
      generalize hn : ((u * 64 + v) * 64 + w) * 64 + x = n at h
      cases h
      have hfirst : n / 65536 < UInt8.size := by simp only [UInt8.size]; omega
      have hsecond : n / 256 % 256 < UInt8.size := Nat.mod_lt _ (by decide)
      have hthird : n % 256 < UInt8.size := Nat.mod_lt _ (by decide)
      have hall : (n / 65536 * 256 + n / 256 % 256) * 256 + n % 256 = n := by omega
      have hu' : n / 262144 = u := by omega
      have hv' : n / 4096 % 64 = v := by omega
      have hw' : n / 64 % 64 = w := by omega
      have hx' : n % 64 = x := by omega
      simp only [encodeChars, UInt8.toNat_ofNat_of_lt' hfirst, UInt8.toNat_ofNat_of_lt' hsecond,
        UInt8.toNat_ofNat_of_lt' hthird, hall, hu', hv', hw', hx', ih htail]
  | case5 => cases h

theorem encode_of_decode? {text : String} {bytes : Octets} (h : decode? text = some bytes) :
    encode bytes = text := by
  rw [encode, encodeChars_of_decodeChars h, String.ofList_toList]

theorem value?_digit {n : Nat} (h : n < 64) : value? (digit n) = some n ∧ digit n ≠ '=' := by
  have hall : ∀ n < 64, value? (digit n) = some n ∧ digit n ≠ '=' := by decide +kernel
  exact hall n h

theorem decodeChars_encodeChars (bytes : Octets) : decodeChars (encodeChars bytes) = some bytes := by
  fun_induction encodeChars bytes with
  | case1 => rfl
  | case2 a n =>
      have ha := a.toNat_lt
      obtain ⟨hhigh, -⟩ := value?_digit (n := n / 4) (by omega)
      obtain ⟨hlow, -⟩ := value?_digit (n := n % 4 * 16) (by omega)
      have hall : n / 4 * 64 + n % 4 * 16 = n * 16 := by omega
      simp only [decodeChars, hhigh, hlow, hall, Option.bind_eq_bind, Option.bind_some,
        Nat.mul_mod_left, if_true, Nat.mul_div_cancel _ (show 0 < 16 by decide)]
      simp [n]
  | case3 a b n =>
      have ha := a.toNat_lt
      have hb := b.toNat_lt
      obtain ⟨hhigh, -⟩ := value?_digit (n := n / 1024) (by omega)
      obtain ⟨hmiddle, -⟩ := value?_digit (n := n / 16 % 64) (by omega)
      obtain ⟨hlow, hpad⟩ := value?_digit (n := n % 16 * 4) (by omega)
      have hall : (n / 1024 * 64 + n / 16 % 64) * 64 + n % 16 * 4 = n * 4 := by omega
      have hfirst : n * 4 / 1024 = a.toNat := by omega
      have hsecond : n * 4 / 4 % 256 = b.toNat := by omega
      rw [decodeChars]
      · simp only [hhigh, hmiddle, hlow, hall, hfirst, hsecond, Option.bind_eq_bind, Option.bind_some,
          Nat.mul_mod_left, if_true, UInt8.ofNat_toNat]
      · simp [hpad]
  | case4 a b c rest n ih =>
      have ha := a.toNat_lt
      have hb := b.toNat_lt
      have hc := c.toNat_lt
      obtain ⟨h₁, -⟩ := value?_digit (n := n / 262144) (by omega)
      obtain ⟨h₂, -⟩ := value?_digit (n := n / 4096 % 64) (by omega)
      obtain ⟨h₃, -⟩ := value?_digit (n := n / 64 % 64) (by omega)
      obtain ⟨h₄, hpad⟩ := value?_digit (n := n % 64) (by omega)
      have hall : ((n / 262144 * 64 + n / 4096 % 64) * 64 + n / 64 % 64) * 64 + n % 64 = n := by
        omega
      have hfirst : n / 65536 = a.toNat := by omega
      have hsecond : n / 256 % 256 = b.toNat := by omega
      have hthird : n % 256 = c.toNat := by omega
      rw [decodeChars]
      · simp only [h₁, h₂, h₃, h₄, hall, ih, hfirst, hsecond, hthird, Option.bind_eq_bind,
          Option.bind_some, UInt8.ofNat_toNat]
        rfl
      · intro _ h; simp [hpad] at h
      · simp [hpad]

theorem encodeChars_of_length_mod {bytes : Octets} (h : bytes.length % 3 = 2) :
    ∃ stem, encodeChars bytes = stem ++ ['='] ∧ stem ≠ [] ∧ '=' ∉ stem := by
  fun_induction encodeChars bytes with
  | case1 => cases h
  | case2 a n => cases h
  | case3 a b n =>
      have ha := a.toNat_lt
      have hb := b.toNat_lt
      obtain ⟨-, h₁⟩ := value?_digit (n := n / 1024) (by omega)
      obtain ⟨-, h₂⟩ := value?_digit (n := n / 16 % 64) (by omega)
      obtain ⟨-, h₃⟩ := value?_digit (n := n % 16 * 4) (by omega)
      refine ⟨[digit (n / 1024), digit (n / 16 % 64), digit (n % 16 * 4)], rfl, by simp, ?_⟩
      simp [h₁.symm, h₂.symm, h₃.symm]
  | case4 a b c rest n ih =>
      have ha := a.toNat_lt
      have hb := b.toNat_lt
      have hc := c.toNat_lt
      obtain ⟨stem, hstem, -, hmem⟩ := ih (by simp only [List.length_cons] at h; omega)
      obtain ⟨-, h₁⟩ := value?_digit (n := n / 262144) (by omega)
      obtain ⟨-, h₂⟩ := value?_digit (n := n / 4096 % 64) (by omega)
      obtain ⟨-, h₃⟩ := value?_digit (n := n / 64 % 64) (by omega)
      obtain ⟨-, h₄⟩ := value?_digit (n := n % 64) (by omega)
      refine ⟨digit (n / 262144) :: digit (n / 4096 % 64) :: digit (n / 64 % 64) ::
        digit (n % 64) :: stem, by rw [hstem]; rfl, by simp, ?_⟩
      simp [h₁.symm, h₂.symm, h₃.symm, h₄.symm, hmem]

theorem decode?_encode (bytes : Octets) : decode? (encode bytes) = some bytes := by
  rw [decode?, encode, String.toList_ofList, decodeChars_encodeChars]

end PeerBook.Octets.Base64
