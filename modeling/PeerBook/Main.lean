import PeerBook.CommandLine.Run
import Std.Time.DateTime.Timestamp

namespace PeerBook.CommandLine

def succeeds {α : Type} (act : IO α) : IO (Option α) := do
  try
    return some (← act)
  catch _ =>
    return none

def isDirectoryAt (path : String) : IO Bool := do
  return (← succeeds (IO.FS.realPath (path ++ "/."))).isSome

def entryAt? (path : String) : IO (Option Disk.Entry) := do
  if ← isDirectoryAt path then return some .directory
  let content ← succeeds (IO.FS.readBinFile path)
  return content.map fun content => .file content.data.toList

def touchedFiles (dataDir : String) (command : Command) : List String :=
  let kept := [Path.join dataDir Config.fileName, Path.join dataDir Config.databaseName]
  match command with
  | .ingest file _ => if isInput file then kept else file :: kept
  | _ => kept

def loadDisk (files : List String) : IO Disk := do
  let mut disk : Disk := {}
  for path in files.flatMap fun file => (Path.ancestors file).reverse ++ [file] do
    if let .ok place := disk.walk path then
      if let some entry ← entryAt? path then
        disk := disk.put place entry
  return disk

def pathOf (place : Place) : String :=
  match place.reverse with
  | "/" :: names => "/" ++ "/".intercalate names
  | names => "/".intercalate names

def saveDisk (before after : Disk) : IO Unit := do
  let changed := after.entries.toList.filter fun (place, entry) =>
    before.entries[place]? != some entry
  for (place, entry) in changed do
    if entry = .directory then IO.FS.createDirAll (pathOf place)
  for (place, entry) in changed do
    if let .file content := entry then
      IO.FS.writeBinFile (pathOf place) ⟨content.toArray⟩

def readInput (command : Command) : IO Octets := do
  match command with
  | .ingest file _ =>
    if isInput file then return (← (← IO.getStdin).readBinToEnd).data.toList else return []
  | _ => return []

def freshSeed : IO Seed := do
  let random ← IO.getRandomBytes 32
  match Seed.ofOctets random.data.toList with
  | .ok seed => return seed
  | .error fault => throw (IO.userError fault.message)

def surroundings (command : Command) : IO Surroundings := do
  let now ← Std.Time.Timestamp.now
  return {
    scheme := ed25519
    homeDir := ← IO.getEnv "HOME"
    input := ← readInput command
    now := .saturate now.toMillisecondsSinceUnixEpoch.val.toNat
    fresh := ← freshSeed }

def report (outcome : Outcome) : IO UInt32 := do
  IO.print outcome.output
  if let some error := outcome.error then
    IO.eprintln ("Error: " ++ error)
  return UInt32.ofNat outcome.code

def usageText : String :=
  "Usage: peerdir [--data-dir <DIR>] [-v] <info|hash|records|ingest|config|serve>"

def perform (invocation : Invocation) : IO UInt32 := do
  let around ← surroundings invocation.command
  let dataDir := invocation.dataDir.getD (defaultDataDir around.homeDir)
  let disk ← loadDisk (touchedFiles dataDir invocation.command)
  let (outcome, after) := invocation.run around disk
  saveDisk disk after
  report outcome

end PeerBook.CommandLine

def main (args : List String) : IO UInt32 := do
  match PeerBook.CommandLine.Invocation.read args with
  | .ok invocation => PeerBook.CommandLine.perform invocation
  | .error .version =>
    IO.println PeerBook.CommandLine.versionText
    return 0
  | .error .help =>
    IO.println PeerBook.CommandLine.usageText
    return 0
  | .error .usage =>
    IO.eprintln PeerBook.CommandLine.usageText
    return 2
