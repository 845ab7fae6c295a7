import PeerBook.CommandLine.Arguments
import PeerBook.Record

namespace PeerBook.CommandLine

structure Service where
  bind : String
  advertise : Option String
  peers : List (String × String)
  peerPort : UInt16
  deriving DecidableEq, Repr

inductive Command where
  | info
  | hash (phone : String)
  | list (limit : Nat)
  | view (identity : String)
  | trim
  | sweep (maxAgeSecs : Option UInt64)
  | ingest (file sender : String)
  | showConfig
  | initConfig (force : Bool)
  | serve (service : Service)
  deriving DecidableEq, Repr

structure Invocation where
  dataDir : Option String
  verbosity : Nat
  command : Command
  deriving DecidableEq, Repr

def peer? (text : String) : Option (String × String) :=
  let identity := text.toList.takeWhile (· != '=')
  match text.toList.drop identity.length with
  | [] => none
  | _ :: address =>
    if identity.isEmpty || address.isEmpty then none
    else some (String.ofList identity, String.ofList address)

def port? (text : String) : Option UInt16 :=
  match text.toList with
  | '-' :: zeros =>
    if !zeros.isEmpty && zeros.all (· == '0') then some 0 else none
  | _ => (unsigned? UInt16.size text).map UInt16.ofNat

def wordSize : Nat := UInt64.size

def helpOption : OptionSpec :=
  { long := "help", short := some 'h', kind := .help }

def sharedOptions : List OptionSpec :=
  [{ long := "data-dir", short := some 'd', kind := .value, accepts := (· != "") }, helpOption]

def level (options : List OptionSpec) (words : List (String → Bool)) : Level :=
  { options := options ++ sharedOptions, words }

def subcommandsAt : (path : List String) → List String
  | [] => ["info", "hash", "records", "ingest", "config", "serve", "help"]
  | ["records"] => ["list", "show", "trim", "sweep", "help"]
  | ["config"] => ["show", "init", "help"]
  | _ => []

def branch (options : List OptionSpec) (path : List String) : Level :=
  { options := options ++ sharedOptions, subcommands := subcommandsAt path }

def leadsOn : (path words : List String) → Bool
  | _, [] => true
  | path, word :: words =>
    (subcommandsAt path).contains word && leadsOn (path ++ [word]) words

def helpOn (path words : List String) : Stop :=
  if leadsOn path words then .help else .usage

def anyWord : String → Bool := fun _ => true

def topLevel : Level :=
  branch
    [{ long := "verbose", short := some 'v', kind := .counter },
      { long := "version", short := some 'V', kind := .version }] []

def listLevel : Level :=
  level
    [{ long := "limit", short := some 'l', kind := .value,
       accepts := fun text => (unsigned? wordSize text).isSome }] []

def sweepLevel : Level :=
  level
    [{ long := "max-age-secs", kind := .value,
       accepts := fun text => (unsigned? wordSize text).isSome }] []

def ingestLevel : Level :=
  level [{ long := "from", kind := .value }] [(· != "")]

def initLevel : Level :=
  level [{ long := "force", kind := .flag }] []

def serveLevel : Level :=
  level
    [{ long := "bind", short := some 'b', kind := .value },
      { long := "advertise", kind := .value },
      { long := "peer", kind := .values, accepts := fun text => (peer? text).isSome },
      { long := "peer-port", kind := .value, accepts := fun text => (port? text).isSome }] []

abbrev Located := Option String × Command

def located (g : Given) (command : Command) : Located :=
  (g.value? "data-dir", command)

def within (g : Given) (inner : Located) : Located :=
  (inner.1.or (g.value? "data-dir"), inner.2)

def readRecords (g : Given) : Except Stop Located :=
  match g.subcommand with
  | some ("list", args) => do
    let g ← listLevel.scan args
    return located g (.list (((g.value? "limit").bind (unsigned? wordSize)).getD 20))
  | some ("show", args) => do
    let g ← (level [] [anyWord]).scan args
    return located g (.view (g.words.headD ""))
  | some ("trim", args) => do
    let g ← (level [] []).scan args
    return located g .trim
  | some ("sweep", args) => do
    let g ← sweepLevel.scan args
    let age := (g.value? "max-age-secs").bind (unsigned? wordSize)
    return located g (.sweep (age.map UInt64.ofNat))
  | some ("help", words) => throw (helpOn ["records"] words)
  | _ => throw .usage

def readConfig (g : Given) : Except Stop Located :=
  match g.subcommand with
  | some ("show", args) => do
    let g ← (level [] []).scan args
    return located g .showConfig
  | some ("init", args) => do
    let g ← initLevel.scan args
    return located g (.initConfig (0 < g.count "force"))
  | some ("help", words) => throw (helpOn ["config"] words)
  | _ => throw .usage

def readCommand (g : Given) : Except Stop Located :=
  match g.subcommand with
  | some ("info", args) => do
    let g ← (level [] []).scan args
    return located g .info
  | some ("hash", args) => do
    let g ← (level [] [anyWord]).scan args
    return located g (.hash (g.words.headD ""))
  | some ("records", args) => do
    let g ← (branch [] ["records"]).scan args
    return within g (← readRecords g)
  | some ("ingest", args) => do
    let g ← ingestLevel.scan args
    let some sender := g.value? "from" | throw .usage
    return located g (.ingest (g.words.headD "") sender)
  | some ("config", args) => do
    let g ← (branch [] ["config"]).scan args
    return within g (← readConfig g)
  | some ("serve", args) => do
    let g ← serveLevel.scan args
    return located g <| .serve {
      bind := (g.value? "bind").getD "0.0.0.0:8888"
      advertise := g.value? "advertise"
      peers := (g.values "peer").filterMap peer?
      peerPort := ((g.value? "peer-port").bind port?).getD defaultPort }
  | some ("help", words) => throw (helpOn [] words)
  | _ => throw .usage

def Invocation.read (args : List String) : Except Stop Invocation := do
  let g ← topLevel.scan args
  let (dataDir, command) := within g (← readCommand g)
  return { dataDir, verbosity := g.count "verbose", command }

end PeerBook.CommandLine
