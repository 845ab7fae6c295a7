import PeerBook.Proofs.Address.Ip
import PeerBook.Record

namespace PeerBook

open Reader

namespace SocketAddress

variable {ip : Ipv4} {port : UInt16} {cs rest : List Char}

theorem readPort_portText (port : UInt16) : readPort (portText port) = some (port, []) := by
  have hnumber : number 10 65536 (fun _ => true) (Nat.toDigits 10 port.toNat ++ []) =
      some (port.toNat, []) :=
    number_toDigits (by decide) (by decide) port.toNat_lt rfl .nil
  rw [List.append_nil] at hnumber
  simp only [readPort, portText, char_cons, hnumber, Option.bind_eq_bind, Option.bind_some]
  exact congrArg (fun p => some (p, [])) UInt16.ofNat_toNat

theorem endsNumeral_portText (port : UInt16) : EndsNumeral 10 (portText port) :=
  .cons (by decide) _

theorem readV4_append (h : Ipv4.read cs = some (ip, [])) (port : UInt16) :
    readV4 (cs ++ portText port) = some (.v4 ip port, []) := by
  simp only [readV4, Ipv4.read_append h (endsNumeral_portText port), List.nil_append,
    readPort_portText, Option.bind_eq_bind, Option.bind_some]
  rfl

def scopeText (scope : UInt32) : List Char :=
  if scope = 0 then [] else '%' :: Nat.toDigits 10 scope.toNat

theorem readScope_scopeText (scope : UInt32) (rest : List Char) :
    readScope (scopeText scope ++ ']' :: rest) = some (scope, ']' :: rest) := by
  rw [scopeText]
  split
  · rename_i hzero
    rw [hzero]
    rfl
  · have hbracket : EndsNumeral 10 (']' :: rest) := .cons (by decide) rest
    have hnumber : number 10 4294967296 (fun _ => true)
        (Nat.toDigits 10 scope.toNat ++ ']' :: rest) = some (scope.toNat, ']' :: rest) :=
      number_toDigits (by decide) (by decide) scope.toNat_lt rfl hbracket
    simp only [readScope, List.cons_append, char_cons, hnumber]
    exact congrArg (fun s => some (s, _)) UInt32.ofNat_toNat

theorem endsGroups_scopeText (scope : UInt32) (rest : List Char) :
    Ipv6.EndsGroups (scopeText scope ++ ']' :: rest) := by
  rw [scopeText]
  split
  · exact ⟨.cons (by decide) _, by simp, by simp⟩
  · exact ⟨.cons (by decide) _, by simp, by simp⟩

theorem read_textChars : (address : SocketAddress) → read address.textChars = some (address, [])
  | .v4 ip port => by
    have hread : Ipv4.read (ip.textChars ++ []) = some (ip, []) := Ipv4.read_textChars ip .nil
    rw [List.append_nil] at hread
    rw [read, textChars, readV4_append hread, Option.some_or]
  | .v6 ip scope port => by
    have htext : (SocketAddress.v6 ip scope port).textChars =
        '[' :: (ip.textChars ++ (scopeText scope ++ ']' :: portText port)) := by
      simp [textChars, scopeText]
    have hbracket : EndsNumeral 10
        ('[' :: (ip.textChars ++ (scopeText scope ++ ']' :: portText port))) :=
      .cons (by decide) _
    rw [read, htext, readV4, Ipv4.read_of_endsNumeral hbracket]
    simp only [readV6, char_cons, Ipv6.read_textChars ip (endsGroups_scopeText scope _),
      readScope_scopeText, readPort_portText, Option.bind_eq_bind, Option.bind_some]
    rfl

theorem ofText?_text (address : SocketAddress) : ofText? address.text = some address := by
  rw [ofText?, all_eq_some_iff, text, String.toList_ofList, read_textChars]

theorem resolve?_of_ofText? {text : String} {address : SocketAddress}
    (h : ofText? text = some address) (defaultPort : UInt16) :
    resolve? text defaultPort = some address := by
  rw [resolve?, h, Option.some_or]

end SocketAddress

namespace Record

open SocketAddress

variable {r : Record} {address : SocketAddress}

/-- The endpoint of a record has a port of its own, and is what the record's address stands for. -/
theorem ofText?_endpoint? (hknown : r.hasKnownAddress)
    (h : resolve? (Text.trim r.address) r.port = some address) :
    ∃ e, r.endpoint? = some e ∧ ofText? e = some address := by
  rw [resolve?] at h
  simp only [endpoint?, hknown, Bool.not_true, Bool.false_eq_true, if_false]
  cases hown : ofText? (Text.trim r.address) with
  | some own =>
      rw [hown] at h
      exact ⟨_, rfl, hown.trans h⟩
  | none =>
      rw [hown, Option.none_or, Option.map_eq_some_iff] at h
      obtain ⟨ip, hip, rfl⟩ := h
      refine ⟨_, rfl, ?_⟩
      rw [hip]
      cases ip with
      | v4 ip =>
          have hread := readV4_append (Ip.read_v4 (all_eq_some_iff.mp hip)) r.port
          rw [ofText?, all_eq_some_iff, String.toList_ofList, SocketAddress.read, hread]
          rfl
      | v6 ip =>
          have htext : String.ofList ('[' :: ip.textChars ++ [']'] ++ portText r.port) =
              (SocketAddress.v6 ip 0 r.port).text := by simp [SocketAddress.text, textChars]
          exact (congrArg ofText? htext).trans (ofText?_text _)

end Record

namespace SocketAddress

/-- Whatever port is added to bare addresses, the endpoint of a record leads where the record's
address and port do, and a socket address is read back from its text. -/
theorem resolve?_emitted :
    (∀ (r : Record) (address : SocketAddress), r.hasKnownAddress →
      resolve? (Text.trim r.address) r.port = some address →
      ∃ e, r.endpoint? = some e ∧ ∀ port, resolve? e port = some address) ∧
    ∀ (address : SocketAddress) (port : UInt16), resolve? address.text port = some address := by
  refine ⟨fun r address hknown h => ?_, fun address => resolve?_of_ofText? (ofText?_text address)⟩
  obtain ⟨e, hendpoint, he⟩ := Record.ofText?_endpoint? hknown h
  exact ⟨e, hendpoint, resolve?_of_ofText? he⟩

/-- A mapped address among blanks, and a compressed one with a scope. -/
theorem resolve?_emitted_mapped :
    let r : Record :=
      { identity := "h", publicKey := "k", lastSeen := 0, port := 9000,
        address := " ::ffff:10.0.0.1\t" }
    let mapped : SocketAddress := .v6 ⟨[0, 0, 0, 0, 0, 0xffff, 0x0a00, 1], rfl⟩ 0 9000
    let numbered : SocketAddress := .v6 ⟨[0xfe80, 0, 0, 1, 0, 0, 0, 1], rfl⟩ 7 80
    r.hasKnownAddress ∧ resolve? (Text.trim r.address) r.port = some mapped ∧
      r.endpoint? = some "[::ffff:10.0.0.1]:9000" ∧
      resolve? "[::ffff:10.0.0.1]:9000" 80 = some mapped ∧
      numbered.text = "[fe80:0:0:1::1%7]:80" ∧
      resolve? "[fe80:0:0:1::1%7]:80" 9000 = some numbered := by
  intro r mapped numbered
  have hknown : r.hasKnownAddress := by decide +kernel
  have hresolved : resolve? (Text.trim r.address) r.port = some mapped := by decide +kernel
  have hendpoint : r.endpoint? = some "[::ffff:10.0.0.1]:9000" := by decide +kernel
  have htext : numbered.text = "[fe80:0:0:1::1%7]:80" := by decide +kernel
  obtain ⟨e, he, hdialled⟩ := resolve?_emitted.1 r mapped hknown hresolved
  obtain rfl := Option.some.inj (hendpoint.symm.trans he)
  exact ⟨hknown, hresolved, hendpoint, hdialled 80, htext,
    htext ▸ resolve?_emitted.2 numbered 9000⟩

end SocketAddress

end PeerBook
