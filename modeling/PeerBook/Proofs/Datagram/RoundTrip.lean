import PeerBook.Datagram
import PeerBook.Proofs.Packet.RoundTrip
import PeerBook.Proofs.Record.RoundTrip

namespace PeerBook

theorem Json.ofOctets?_utf8 (text : String) : ofOctets? (utf8 text) = ofText? text := by
  rw [ofOctets?, Text.glyphs, Octets.text?_utf8]
  rfl

namespace Datagram

theorem plain_toJson (d : Datagram) : d.toJson.Plain := by
  refine Json.plain_object fun m hm => ?_
  simp only [List.mem_cons, List.not_mem_nil, or_false] at hm
  rcases hm with rfl | rfl | rfl | rfl | rfl | rfl
  · exact Json.plain_text _
  · exact Json.plain_text _
  · exact Json.plain_text _
  · exact Json.plain_nat _
  · exact Json.plain_text _
  · exact Json.plain_text _

theorem ofJson?_toJson (d : Datagram) : ofJson? d.toJson = some d := by
  have hfields : d.toJson.distinctFields?
      ["type", "from", "pubkey", "timestamp", "data", "signature"] =
        some [some (.text d.kind), some (.text d.sender), some (.text d.publicKey),
          some (.nat d.timestamp.toNat), some (.text d.body), some (.text d.signature)] := by
    simp [toJson, Json.object, Json.distinctFields?, Json.lookup]
  simp [ofJson?, hfields, Json.text, Json.asText?, Json.asUInt64?_nat]

theorem decode_encode (d : Datagram) : decode d.encode = .ok d := by
  rw [decode, encode, Json.ofOctets?_utf8, Json.ofText?_compact d.plain_toJson, Option.bind_some,
    ofJson?_toJson]

end Datagram

end PeerBook
