import PeerBook.Config
import PeerBook.Proofs.Json.RoundTrip
import PeerBook.Proofs.Record.RoundTrip

namespace PeerBook

theorem GossipConfig.plain_toJson (c : GossipConfig) : c.toJson.Plain := by
  refine Json.plain_object fun m hm => ?_
  simp only [List.mem_cons, List.not_mem_nil, or_false] at hm
  rcases hm with rfl | rfl | rfl | rfl | rfl | rfl | rfl <;> exact Json.plain_nat _

theorem GossipConfig.ofJson?_toJson (c : GossipConfig) : ofJson? c.toJson = some c := by
  have hfields : c.toJson.distinctFields? ["sync_interval_secs", "startup_delay_secs", "fanout",
      "max_nodes_per_packet", "bootstrap_sample", "min_sync_interval_from_peer_secs",
      "active_peer_timeout_secs"] =
        some [some (.nat c.syncIntervalSecs.toNat), some (.nat c.startupDelaySecs.toNat),
          some (.nat c.fanout.toNat), some (.nat c.maxNodesPerPacket.toNat),
          some (.nat c.bootstrapSample.toNat), some (.nat c.minSyncIntervalFromPeerSecs.toNat),
          some (.nat c.activePeerTimeoutSecs.toNat)] := by
    simp [toJson, Json.object, Json.distinctFields?, Json.lookup]
  simp [ofJson?, hfields, Json.fieldOr, Json.asUInt64?_nat]

namespace Config

variable {c : Config}

theorem plain_toJson (c : Config) : c.toJson.Plain := by
  refine Json.plain_object fun m hm => ?_
  simp only [List.mem_cons, List.not_mem_nil, or_false] at hm
  rcases hm with rfl | rfl | rfl | rfl | rfl | rfl | rfl
  · exact Json.plain_text _
  · exact Json.plain_nat _
  · exact Json.plain_text _
  · exact Json.plain_nat _
  · exact Json.plain_nat _
  · exact Json.plain_nat _
  · exact c.gossip.plain_toJson

theorem ofJson?_toJson (c : Config) : ofJson? c.toJson = some c := by
  have hfields : c.toJson.distinctFields? ["data_dir", "capacity", "identity_salt",
      "stale_after_secs", "sweep_interval_secs", "directory_timeout_secs", "gossip"] =
        some [some (.text c.dataDir), some (.nat c.capacity.toNat), some (.text c.identitySalt),
          some (.nat c.staleAfterSecs.toNat), some (.nat c.sweepIntervalSecs.toNat),
          some (.nat c.directoryTimeoutSecs.toNat), some c.gossip.toJson] := by
    simp [toJson, Json.object, Json.distinctFields?, Json.lookup]
  simp [ofJson?, hfields, Json.fieldOr, Json.text, Json.asText?, Json.asUInt64?_nat,
    GossipConfig.ofJson?_toJson]

theorem validate_default : ({} : Config).validate = .ok () :=
  rfl

/-- A file counts only if what it spells is valid, and without a file the defaults are. -/
theorem validate_of_load {path : String} {content : Option Octets}
    (h : load path content = .ok c) : c.validate = .ok () := by
  cases content with
  | none =>
      cases h
      exact validate_default
  | some content =>
      cases htext : Octets.text? content with
      | none => simp [load, htext] at h
      | some text =>
          cases hread : (Json.ofText? text).bind ofJson? with
          | none => simp [load, htext, hread] at h
          | some read =>
              cases hvalid : read.validate with
              | error fault => simp [load, htext, hread, hvalid] at h
              | ok _ =>
                  have hc : read = c := by simpa [load, htext, hread, hvalid] using h
                  rw [← hc, hvalid]

theorem load_encode (path : String) (h : c.validate = .ok ()) :
    load path (some (utf8 c.encode)) = .ok c := by
  have hread : (Json.ofText? c.encode).bind ofJson? = some c := by
    rw [encode, Json.ofText?_pretty c.plain_toJson, Option.bind_some, ofJson?_toJson]
  simp [load, Octets.text?_utf8, hread, h]

end Config

end PeerBook
