import PeerBook.Address.Ip
import PeerBook.Address.Socket
import PeerBook.Cluster
import PeerBook.CommandLine.Arguments
import PeerBook.CommandLine.Command
import PeerBook.CommandLine.Run
import PeerBook.Config
import PeerBook.Contacts
import PeerBook.Curve.Ed25519
import PeerBook.Curve.Edwards
import PeerBook.Datagram
import PeerBook.Digest.Sha2
import PeerBook.Directory
import PeerBook.Directory.Backend
import PeerBook.Disk
import PeerBook.Fault
import PeerBook.Gossip
import PeerBook.Gossip.Event
import PeerBook.Gossip.Rounds
import PeerBook.Gossip.Sample
import PeerBook.Gossip.Throttle
import PeerBook.Gossip.Transport
import PeerBook.Identity
import PeerBook.Json
import PeerBook.Json.Numeral
import PeerBook.Json.Parser
import PeerBook.Json.Token
import PeerBook.Main
import PeerBook.Node
import PeerBook.Octets
import PeerBook.Octets.Base64
import PeerBook.Packet
import PeerBook.Path
import PeerBook.Proofs.Address.Ip
import PeerBook.Proofs.Address.Numerals
import PeerBook.Proofs.Address.Socket
import PeerBook.Proofs.CommandLine.Peers
import PeerBook.Proofs.CommandLine.Settings
import PeerBook.Proofs.CommandLine.Sweeping
import PeerBook.Proofs.Config.RoundTrip
import PeerBook.Proofs.Datagram.Authenticity
import PeerBook.Proofs.Datagram.KeySpelling
import PeerBook.Proofs.Datagram.Opening
import PeerBook.Proofs.Datagram.RoundTrip
import PeerBook.Proofs.Disk.Directories
import PeerBook.Proofs.Disk.Writing
import PeerBook.Proofs.Gossip.Acts
import PeerBook.Proofs.Gossip.Bookkeeping
import PeerBook.Proofs.Gossip.Bootstrap
import PeerBook.Proofs.Gossip.Discretion
import PeerBook.Proofs.Gossip.Forgetting
import PeerBook.Proofs.Gossip.Hops
import PeerBook.Proofs.Gossip.Liveness
import PeerBook.Proofs.Gossip.Network
import PeerBook.Proofs.Gossip.Provenance
import PeerBook.Proofs.Gossip.Punctuality
import PeerBook.Proofs.Gossip.Reception
import PeerBook.Proofs.Gossip.Replay
import PeerBook.Proofs.Gossip.RoundEffects
import PeerBook.Proofs.Gossip.Sending
import PeerBook.Proofs.Gossip.Targets
import PeerBook.Proofs.Gossip.Throttling
import PeerBook.Proofs.Identity.Hashes
import PeerBook.Proofs.Json.Decimal
import PeerBook.Proofs.Json.Lexing
import PeerBook.Proofs.Json.Parsing
import PeerBook.Proofs.Json.RoundTrip
import PeerBook.Proofs.Node.Capacity
import PeerBook.Proofs.Node.ContactList
import PeerBook.Proofs.Node.Deeds
import PeerBook.Proofs.Node.Discovery
import PeerBook.Proofs.Node.Hearsay
import PeerBook.Proofs.Node.Interleaving
import PeerBook.Proofs.Node.LostUpdate
import PeerBook.Proofs.Node.Matching
import PeerBook.Proofs.Node.Publications
import PeerBook.Proofs.Node.Rediscovery
import PeerBook.Proofs.Node.Requests
import PeerBook.Proofs.Node.Resolution
import PeerBook.Proofs.Node.Scripts
import PeerBook.Proofs.Node.Searches
import PeerBook.Proofs.Node.SelfRecord
import PeerBook.Proofs.Node.Staleness
import PeerBook.Proofs.Node.Turns
import PeerBook.Proofs.Octets.Base64
import PeerBook.Proofs.Octets.Utf8Order
import PeerBook.Proofs.Packet.Batch
import PeerBook.Proofs.Packet.RoundTrip
import PeerBook.Proofs.Record.Absorption
import PeerBook.Proofs.Record.Endpoint
import PeerBook.Proofs.Record.Readdressing
import PeerBook.Proofs.Record.RoundTrip
import PeerBook.Proofs.Store.Agreement
import PeerBook.Proofs.Store.Batches
import PeerBook.Proofs.Store.Cache
import PeerBook.Proofs.Store.CacheLike
import PeerBook.Proofs.Store.Convergence
import PeerBook.Proofs.Store.Hints
import PeerBook.Proofs.Store.Image
import PeerBook.Proofs.Store.IndexExactness
import PeerBook.Proofs.Store.Maintenance
import PeerBook.Proofs.Store.MemoryContents
import PeerBook.Proofs.Store.Merging
import PeerBook.Proofs.Store.Pinning
import PeerBook.Proofs.Store.Ranking
import PeerBook.Proofs.Store.Recency
import PeerBook.Proofs.Store.Session
import PeerBook.Proofs.Store.Warrants
import PeerBook.Proofs.Ticker.Pace
import PeerBook.Proofs.Ticker.Polls
import PeerBook.Proofs.Ticker.Schedules
import PeerBook.Proofs.Ticker.Stopping
import PeerBook.Proofs.Time.Calendar
import PeerBook.Proofs.Time.Display
import PeerBook.Record
import PeerBook.Record.Codec
import PeerBook.Record.Merge
import PeerBook.Script
import PeerBook.Signature
import PeerBook.Store
import PeerBook.Store.Durable
import PeerBook.Store.Faulty
import PeerBook.Store.Image
import PeerBook.Store.Memory
import PeerBook.Store.Stamp
import PeerBook.Text.Blank
import PeerBook.Text.Glyph
import PeerBook.Text.Lowercase
import PeerBook.Ticker
import PeerBook.Ticker.Schedule
import PeerBook.Time
import PeerBook.Time.Calendar
