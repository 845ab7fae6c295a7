import PeerBook.Proofs.Address.Socket
import PeerBook.Proofs.Record.Endpoint

namespace PeerBook

namespace Text

variable {cs ds : List Char}

theorem trimChars_append (hstart : cs.dropWhile isBlankChar = cs) (hne : cs ≠ [])
    (hend : ∀ c ∈ ds.getLast?, ¬isBlankChar c) (hds : ds ≠ []) :
    trimChars (cs ++ ds) = cs ++ ds := by
  have hnothing : (cs ++ ds).dropWhile isBlankChar = cs ++ ds := by
    rw [List.dropWhile_append, hstart, if_neg (by simpa using hne)]
  rw [trimChars, hnothing]
  refine List.rdropWhile_eq_self_iff.mpr fun happend => ?_
  rw [List.getLast_append_of_ne_nil _ hds]
  exact hend _ (List.getLast?_eq_some_getLast hds)

end Text

namespace SocketAddress

variable {cs : List Char}

theorem getLast?_portText (port : UInt16) :
    (portText port).getLast? = some (port.toNat % 10).digitChar := by
  rw [portText]
  rcases Nat.lt_or_ge port.toNat 10 with hlt | hge
  · rw [Nat.toDigits_of_lt_base hlt, Nat.mod_eq_of_lt hlt]
    rfl
  · rw [Nat.toDigits_of_base_le (by decide) hge, ← List.cons_append, List.getLast?_concat]

theorem trimChars_append_portText (hstart : cs.dropWhile Text.isBlankChar = cs) (hne : cs ≠ [])
    (port : UInt16) : Text.trimChars (cs ++ portText port) = cs ++ portText port := by
  refine Text.trimChars_append hstart hne (fun c hc => ?_) (List.cons_ne_nil _ _)
  have hdigits : ∀ n < 10, ¬Text.isBlankChar n.digitChar := by decide
  rw [getLast?_portText] at hc
  exact Option.some.inj hc ▸ hdigits _ (Nat.mod_lt _ (by decide))

end SocketAddress

namespace Record

open SocketAddress

variable {r : Record}

def hostChars (text : String) : List Char :=
  match Ip.ofText? text with
  | some (.v6 ip) => '[' :: ip.textChars ++ [']']
  | _ => text.toList

def withPort (text : String) (port : UInt16) : String :=
  String.ofList (hostChars text ++ portText port)

theorem endpoint?_eq (hknown : r.hasKnownAddress) : r.endpoint? =
    some (if (ofText? (Text.trim r.address)).isSome then Text.trim r.address
      else withPort (Text.trim r.address) r.port) := by
  rw [endpoint?, hknown]
  dsimp only
  split
  · rename_i h
    cases h
  · split <;> rfl

theorem trim_withPort {text : String} (htrim : Text.trim text = text) (hne : text ≠ "")
    (port : UInt16) : Text.trim (withPort text port) = withPort text port := by
  have hchars : Text.trimChars text.toList = text.toList := by
    conv_rhs => rw [← htrim]
    rw [Text.trim, String.toList_ofList]
  rw [Text.trim, withPort, String.toList_ofList, trimChars_append_portText]
  · rw [hostChars]
    split
    · exact List.dropWhile_cons_of_neg (by decide)
    · rw [← hchars, Text.dropWhile_trimChars]
  · rw [hostChars]
    split
    · exact List.cons_ne_nil _ _
    · exact fun hnil => hne (String.toList_eq_nil_iff.mp hnil)

theorem withPort_eq_self {text : String} {port : UInt16} (h : withPort text port = text) :
    (ofText? text).isSome := by
  have hchars := congrArg String.toList h
  rw [withPort, String.toList_ofList, hostChars] at hchars
  split at hchars
  · rename_i ip _
    have htext : (SocketAddress.v6 ip 0 port).text = text := by
      rw [← String.toList_inj, ← hchars, SocketAddress.text, String.toList_ofList]
      simp [textChars]
    rw [← htext, ofText?_text]
    rfl
  · have hlength := congrArg List.length hchars
    rw [List.length_append, portText, List.length_cons] at hlength
    omega

theorem trim_endpoint? {e : String} (h : r.endpoint? = some e) : Text.trim e = e := by
  have hknown : r.hasKnownAddress := by
    rw [hasKnownAddress]
    by_contra hunknown
    simp [endpoint?, hasKnownAddress, hunknown] at h
  rw [endpoint?_eq hknown] at h
  split at h
  · exact Option.some.inj h ▸ Text.trim_trim _
  · have hne : Text.trim r.address ≠ "" := Text.trim_ne_empty_iff.mpr (isRoutable_iff.mp hknown).1
    exact Option.some.inj h ▸ trim_withPort (Text.trim_trim _) hne _

/-- The endpoint of a record, stored in the place of its address, is returned unchanged exactly if it
is a socket address, as it is wherever the address is that of a host by number, with a port or
without. Any other endpoint is given a second port. -/
theorem endpoint?_readdressed (hknown : r.hasKnownAddress) :
    ∃ e, r.endpoint? = some e ∧
      let again : Record := { r with address := e }
      again.hasKnownAddress ∧
      (again.endpoint? = some e ↔ (ofText? e).isSome) ∧
      ((resolve? (Text.trim r.address) r.port).isSome → (ofText? e).isSome) ∧
      (ofText? e = none → again.endpoint? = some (withPort e r.port)) := by
  obtain ⟨e, he⟩ : ∃ e, r.endpoint? = some e := ⟨_, endpoint?_eq hknown⟩
  refine ⟨e, he, ?_⟩
  intro again
  have hagain : again.hasKnownAddress := isRoutable_of_endpoint? he
  have htrim : Text.trim again.address = e := trim_endpoint? he
  have hendpoint : again.endpoint? =
      some (if (ofText? e).isSome then e else withPort e r.port) := by
    rw [endpoint?_eq hagain, htrim]
  refine ⟨hagain, ⟨fun hsame => ?_, fun hsocket => ?_⟩, fun hnumber => ?_, fun hother => ?_⟩
  · by_contra hother
    rw [hendpoint, if_neg hother] at hsame
    exact hother (withPort_eq_self (Option.some.inj hsame))
  · rw [hendpoint, if_pos hsocket]
  · obtain ⟨address, haddress⟩ := Option.isSome_iff_exists.mp hnumber
    obtain ⟨e', he', hread⟩ := ofText?_endpoint? hknown haddress
    obtain rfl := Option.some.inj (he.symm.trans he')
    rw [hread]
    rfl
  · rw [hendpoint, hother]
    rfl

/-- The bracketed number of a host with a scope, among blanks. -/
theorem endpoint?_readdressed_brackets :
    let r : Record :=
      { identity := "h", publicKey := "k", lastSeen := 0, port := 7000, address := " [fe80::1%2]\t" }
    r.hasKnownAddress ∧ r.endpoint? = some "[fe80::1%2]:7000" ∧
      ({ r with address := "[fe80::1%2]:7000" } : Record).endpoint? = some "[fe80::1%2]:7000" := by
  intro r
  have hknown : r.hasKnownAddress := by decide +kernel
  have hendpoint : r.endpoint? = some "[fe80::1%2]:7000" := by decide +kernel
  have hsocket : (ofText? "[fe80::1%2]:7000").isSome := by decide +kernel
  obtain ⟨e, he, -, hstable, -, -⟩ := endpoint?_readdressed hknown
  obtain rfl := Option.some.inj (hendpoint.symm.trans he)
  exact ⟨hknown, hendpoint, hstable.mpr hsocket⟩

/-- The name of a host gets a port each time. -/
theorem not_keepsEndpoints : ¬∀ (r : Record) (e : String), r.hasKnownAddress →
    r.endpoint? = some e → ({ r with address := e } : Record).endpoint? = some e := by
  intro hstable
  let r : Record :=
    { identity := "A", publicKey := "pk", lastSeen := 0, port := 9000, address := "example.com" }
  have hknown : r.hasKnownAddress := by decide +kernel
  have hendpoint : r.endpoint? = some "example.com:9000" := by decide +kernel
  have hagain : ({ r with address := "example.com:9000" } : Record).endpoint? =
      some "example.com:9000:9000" := by decide +kernel
  have hsame := hagain.symm.trans (hstable r _ hknown hendpoint)
  exact absurd hsame (by decide)

end Record

end PeerBook
