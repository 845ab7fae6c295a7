import PeerBook.Fault
import PeerBook.Identity
import PeerBook.Json.Parser
import PeerBook.Path

namespace PeerBook

structure GossipConfig where
  syncIntervalSecs : UInt64 := 60
  startupDelaySecs : UInt64 := 5
  fanout : UInt64 := 2
  maxNodesPerPacket : UInt64 := 8
  /-- How many stored records are considered as targets while no peer is active. -/
  bootstrapSample : UInt64 := 10
  minSyncIntervalFromPeerSecs : UInt64 := 30
  activePeerTimeoutSecs : UInt64 := 180
  deriving DecidableEq, Repr

structure Config where
  dataDir : String := "."
  capacity : UInt64 := 2500
  identitySalt : String := Phone.defaultSalt
  staleAfterSecs : UInt64 := 604800
  sweepIntervalSecs : UInt64 := 3600
  directoryTimeoutSecs : UInt64 := 10
  gossip : GossipConfig := {}
  deriving DecidableEq, Repr

def secondsToMillis (seconds : UInt64) : Nat :=
  1000 * seconds.toNat

namespace GossipConfig

def validate (c : GossipConfig) : Except Fault Unit := do
  if c.syncIntervalSecs = 0 then throw (.zeroSetting .syncInterval)
  if c.activePeerTimeoutSecs = 0 then throw (.zeroSetting .activePeerTimeout)

def toJson (c : GossipConfig) : Json :=
  .object [
    ("sync_interval_secs", .nat c.syncIntervalSecs.toNat),
    ("startup_delay_secs", .nat c.startupDelaySecs.toNat),
    ("fanout", .nat c.fanout.toNat),
    ("max_nodes_per_packet", .nat c.maxNodesPerPacket.toNat),
    ("bootstrap_sample", .nat c.bootstrapSample.toNat),
    ("min_sync_interval_from_peer_secs", .nat c.minSyncIntervalFromPeerSecs.toNat),
    ("active_peer_timeout_secs", .nat c.activePeerTimeoutSecs.toNat)]

def ofJson? (value : Json) : Option GossipConfig := do
  let [interval, delay, fanout, packet, sample, spacing, timeout] ← value.distinctFields? [
    "sync_interval_secs", "startup_delay_secs", "fanout", "max_nodes_per_packet",
    "bootstrap_sample", "min_sync_interval_from_peer_secs", "active_peer_timeout_secs"] | none
  let default : GossipConfig := {}
  return {
    syncIntervalSecs := ← Json.fieldOr default.syncIntervalSecs Json.asUInt64? interval
    startupDelaySecs := ← Json.fieldOr default.startupDelaySecs Json.asUInt64? delay
    fanout := ← Json.fieldOr default.fanout Json.asUInt64? fanout
    maxNodesPerPacket := ← Json.fieldOr default.maxNodesPerPacket Json.asUInt64? packet
    bootstrapSample := ← Json.fieldOr default.bootstrapSample Json.asUInt64? sample
    minSyncIntervalFromPeerSecs :=
      ← Json.fieldOr default.minSyncIntervalFromPeerSecs Json.asUInt64? spacing
    activePeerTimeoutSecs := ← Json.fieldOr default.activePeerTimeoutSecs Json.asUInt64? timeout }

end GossipConfig

namespace Config

def fileName : String := "config.json"

def databaseName : String := "peerdir.redb"

def validate (c : Config) : Except Fault Unit := do
  if c.capacity = 0 then throw (.zeroSetting .capacity)
  if c.directoryTimeoutSecs = 0 then throw (.zeroSetting .directoryTimeout)
  if c.sweepIntervalSecs = 0 then throw (.zeroSetting .sweepInterval)
  c.gossip.validate

def toJson (c : Config) : Json :=
  .object [
    ("data_dir", .text c.dataDir),
    ("capacity", .nat c.capacity.toNat),
    ("identity_salt", .text c.identitySalt),
    ("stale_after_secs", .nat c.staleAfterSecs.toNat),
    ("sweep_interval_secs", .nat c.sweepIntervalSecs.toNat),
    ("directory_timeout_secs", .nat c.directoryTimeoutSecs.toNat),
    ("gossip", c.gossip.toJson)]

def ofJson? (value : Json) : Option Config := do
  let [dir, capacity, salt, stale, sweep, timeout, gossip] ← value.distinctFields? [
    "data_dir", "capacity", "identity_salt", "stale_after_secs", "sweep_interval_secs",
    "directory_timeout_secs", "gossip"] | none
  let default : Config := {}
  return {
    dataDir := ← Json.fieldOr default.dataDir Json.asText? dir
    capacity := ← Json.fieldOr default.capacity Json.asUInt64? capacity
    identitySalt := ← Json.fieldOr default.identitySalt Json.asText? salt
    staleAfterSecs := ← Json.fieldOr default.staleAfterSecs Json.asUInt64? stale
    sweepIntervalSecs := ← Json.fieldOr default.sweepIntervalSecs Json.asUInt64? sweep
    directoryTimeoutSecs := ← Json.fieldOr default.directoryTimeoutSecs Json.asUInt64? timeout
    gossip := ← Json.fieldOr default.gossip GossipConfig.ofJson? gossip }

def encode (c : Config) : String :=
  c.toJson.pretty

def load (path : String) (content : Option Octets) : Except Fault Config := do
  let some content := content | return {}
  let some text := Octets.text? content | throw (.disk .notText)
  let some config := (Json.ofText? text).bind ofJson? | throw (.unreadableConfig path)
  config.validate
  return config

def path (c : Config) : String :=
  Path.join c.dataDir fileName

def databasePath (c : Config) : String :=
  Path.join c.dataDir databaseName

def phoneHash (c : Config) (spelling : String) : String :=
  Phone.hash c.identitySalt spelling

def staleAfter (c : Config) : Timestamp :=
  .ofSpan c.staleAfterSecs.toNat 0

end Config

end PeerBook
