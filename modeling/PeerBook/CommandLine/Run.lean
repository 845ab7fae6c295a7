import PeerBook.CommandLine.Command
import PeerBook.Disk
import PeerBook.Node
import PeerBook.Store.Image
import PeerBook.Time.Calendar

namespace PeerBook.CommandLine

structure Surroundings where
  scheme : SignatureScheme
  homeDir : Option String := none
  input : Octets := []
  now : Timestamp
  fresh : Seed

structure Outcome where
  code : Nat
  output : String := ""
  error : Option String := none
  deriving DecidableEq, Repr

namespace Outcome

def lines (output : List String) : Outcome :=
  { code := 0, output := String.join (output.map (· ++ "\n")) }

def failure (error : String) : Outcome :=
  { code := 1, error := some error }

def ofFault (fault : Fault) : Outcome :=
  failure fault.message

end Outcome

def title : String := "Peer Directory v0.1.0"

def defaultDataDir (home : Option String) : String :=
  Path.join (Path.join (home.getD ".") ".peerdir") "data"

def endpointText (r : Record) : String :=
  r.address ++ ":" ++ toString r.port.toNat

def infoLines (n : Node DurableStore) (size : Nat) : List String :=
  [title, "", "Identity:", "  Hash: " ++ n.identity, "  Public key: " ++ n.publicKey, "",
    "Data directory: " ++ n.config.dataDir,
    "Records: " ++ toString size ++ " / " ++ toString n.config.capacity.toNat]

def listLine (r : Record) : String :=
  "  " ++ r.identity ++ "  " ++ endpointText r ++ "  " ++ r.lastSeen.display ++
    if r.synced then "  [synced]" else ""

def listLines (records : List Record) (size : Nat) : List String :=
  if records.isEmpty then ["No records stored."]
  else
    ("Records (" ++ toString records.length ++ " of " ++ toString size ++ "):") ::
      records.map listLine

def recordLines (r : Record) : List String :=
  ["Record:", "  Hash: " ++ r.identity, "  Address: " ++ endpointText r,
    "  Public key: " ++ r.publicKey, "  Last seen: " ++ r.lastSeen.display,
    "  Synced: " ++ if r.synced then "yes" else "no"] ++
    (r.contactHint.map ("  Contact: " ++ ·)).toList

def summaryLines (sender : String) (s : BatchSummary) (probes : Nat) : List String :=
  let line (label : String) (n : Nat) := "  " ++ label ++ ": " ++ toString n
  ["Merged payload from " ++ sender, line "Received" s.received, line "Dropped" s.dropped,
    line "Applied" s.applied, line "Discovered" s.discovered, line "Stale" s.stale,
    line "Key mismatches" s.keyMismatches, line "Skipped (self)" s.skippedSelf,
    line "Evicted" s.evicted, line "Probes queued" probes]

def isInput (file : String) : Bool :=
  Path.isSame file "-"

def payload? (around : Surroundings) (disk : Disk) (file : String) : Except String String :=
  if isInput file then (Octets.text? around.input).elim (.error DiskFault.notText.text) .ok
  else ((disk.read file).toOption.bind Octets.text?).elim (.error ("Failed to read " ++ file)) .ok

abbrev Opened := Node DurableStore

def readTables (disk : Disk) (path : String) : Except Fault Tables :=
  match disk.read path with
  | .error .notFound => .ok {}
  | .error fault => .error (.database fault)
  | .ok content => (Tables.ofImage? content).elim (.error (.database .notDatabase)) .ok

def onNode (around : Surroundings) (config : Config) (disk : Disk)
    (command : Opened → Outcome × Opened) : Outcome × Disk :=
  let path := config.databasePath
  let (made, disk) := disk.ensureAncestors path
  let opened := do
    made.mapError Fault.disk
    Node.opened around.scheme config (← readTables disk path) around.fresh
  match opened with
  | .error fault => (.ofFault fault, disk)
  | .ok node =>
    let (outcome, node) := command node
    (outcome, (disk.write path node.store.tables.image).toOption.getD disk)

def reading {α : Type} (result : Except Fault α) (f : α → Outcome) (n : Opened) :
    Outcome × Opened :=
  match result with
  | .ok x => (f x, n)
  | .error fault => (.ofFault fault, n)

def removing (result : Except Fault (Nat × DurableStore)) (f : Nat → String) (n : Opened) :
    Outcome × Opened :=
  match result with
  | .ok (removed, store) => (.lines [f removed], n.withStore store)
  | .error fault => (.ofFault fault, n)

def showRecord (identity : String) : Option Record → Outcome
  | some r => .lines (recordLines r)
  | none => .failure ("No record for " ++ identity)

def sweepBefore (n : Opened) (now : Timestamp) (maxAgeSecs : Option UInt64) : Timestamp :=
  match maxAgeSecs with
  | some seconds => now.before (.ofSpan seconds.toNat 0)
  | none => n.staleBefore now

def ingest (payload sender : String) (n : Opened) : Outcome × Opened :=
  let (reception, gossiper) := n.gossiper.receive payload sender 0
  let outcome :=
    match reception with
    | .processed summary => .lines (summaryLines sender summary gossiper.transport.sent.length)
    | .throttled => .lines ["Payload throttled"]
    | .malformed => .failure "Malformed gossip payload"
  (outcome, { n with gossiper })

def loadConfig (disk : Disk) (path : String) : Except Fault Config := do
  if disk.isPresent path then
    let content ← (disk.read path).mapError Fault.disk
    Config.load path (some content)
  else Config.load path none

def saveConfig (config : Config) (path : String) (disk : Disk) : Except Fault Unit × Disk :=
  let (made, disk) := disk.ensureAncestors path
  match made.bind fun () => disk.write path (utf8 config.encode) with
  | .error fault => (.error (.disk fault), disk)
  | .ok disk => (.ok (), disk)

def initConfig (config : Config) (force : Bool) (disk : Disk) : Outcome × Disk :=
  let path := config.path
  if disk.isPresent path && !force then
    (.failure (path ++ " already exists (use --force to overwrite)"), disk)
  else
    match saveConfig config path disk with
    | (.error fault, disk) => (.ofFault fault, disk)
    | (.ok (), disk) => (.lines ["Wrote " ++ path], disk)

/-- Runs a command with the settings of its data directory. No socket can be bound here. -/
def runWith (around : Surroundings) (config : Config) (disk : Disk) : Command → Outcome × Disk
  | .info => onNode around config disk fun n =>
    reading (RecordStore.size n.store) (fun size => .lines (infoLines n size)) n
  | .hash phone =>
    if (Phone.digits? phone).isNone then
      (.failure ("'" ++ phone ++ "' contains no digits"), disk)
    else (.lines [config.phoneHash phone], disk)
  | .list limit => onNode around config disk fun n =>
    let result := do
      let records ← RecordStore.recent n.store limit
      return (records, ← RecordStore.size n.store)
    reading result (fun (records, size) => .lines (listLines records size)) n
  | .view identity => onNode around config disk fun n =>
    reading (RecordStore.get? n.store identity) (showRecord identity) n
  | .trim => onNode around config disk fun n =>
    removing (RecordStore.trim n.store) (fun k => "Evicted " ++ toString k ++ " record(s)") n
  | .sweep maxAgeSecs => onNode around config disk fun n =>
    removing (RecordStore.sweep n.store (sweepBefore n around.now maxAgeSecs))
      (fun k => "Removed " ++ toString k ++ " stale record(s)") n
  | .ingest file sender =>
    match payload? around disk file with
    | .error reason => (.failure reason, disk)
    | .ok payload => onNode around config disk (ingest payload sender)
  | .showConfig => (.lines [config.encode], disk)
  | .initConfig force => initConfig config force disk
  | .serve service => (.failure ("Failed to bind " ++ service.bind), disk)

def Invocation.run (around : Surroundings) (invocation : Invocation) (disk : Disk) :
    Outcome × Disk :=
  let dataDir := invocation.dataDir.getD (defaultDataDir around.homeDir)
  let path := Path.join dataDir Config.fileName
  match loadConfig disk path with
  | .error fault => (.ofFault fault, disk)
  | .ok config => runWith around { config with dataDir } disk invocation.command

def versionText : String := "peerdir 0.1.0"

def run (around : Surroundings) (args : List String) (disk : Disk) : Outcome × Disk :=
  match Invocation.read args with
  | .ok invocation => invocation.run around disk
  | .error .usage => ({ code := 2 }, disk)
  | .error .help => ({ code := 0 }, disk)
  | .error .version => (.lines [versionText], disk)

end PeerBook.CommandLine
