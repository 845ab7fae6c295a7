namespace PeerBook.CommandLine

inductive OptionKind where
  /-- Given at most once. -/
  | flag
  | counter
  /-- A value, given at most once. -/
  | value
  /-- A value, given any number of times. -/
  | values
  | help
  | version
  deriving DecidableEq, Repr

structure OptionSpec where
  long : String
  short : Option Char := none
  kind : OptionKind
  accepts : String → Bool := fun _ => true

structure Level where
  options : List OptionSpec := []
  /-- What each word must satisfy; every one of them is required. -/
  words : List (String → Bool) := []
  subcommands : List String := []

inductive Stop where
  | usage
  | help
  | version
  deriving DecidableEq, Repr

structure Given where
  options : List (String × String) := []
  words : List String := []
  subcommand : Option (String × List String) := none

namespace Given

def count (g : Given) (long : String) : Nat :=
  g.options.countP fun option => option.1 == long

def value? (g : Given) (long : String) : Option String :=
  g.options.lookup long

def values (g : Given) (long : String) : List String :=
  (g.options.filter fun option => option.1 == long).map Prod.snd

end Given

namespace OptionSpec

def takesValue (o : OptionSpec) : Bool :=
  o.kind = .value || o.kind = .values

def repeats (o : OptionSpec) : Bool :=
  o.kind = .counter || o.kind = .values

def note (o : OptionSpec) (value : String) (g : Given) : Except Stop Given :=
  if o.kind = .help then .error .help
  else if o.kind = .version then .error .version
  else if !o.repeats && 0 < g.count o.long then .error .usage
  else if o.takesValue && !o.accepts value then .error .usage
  else .ok { g with options := g.options ++ [(o.long, value)] }

end OptionSpec

namespace Level

def ofLong? (level : Level) (name : List Char) : Option OptionSpec :=
  level.options.find? fun o => o.long.toList == name

def ofShort? (level : Level) (name : Char) : Option OptionSpec :=
  level.options.find? fun o => o.short == some name

def scanLong (level : Level) (text : List Char) (g : Given) :
    Except Stop (Given × Option OptionSpec) :=
  let name := text.takeWhile (· != '=')
  match level.ofLong? name, text.drop name.length with
  | none, _ => .error .usage
  | some o, [] => if o.takesValue then .ok (g, some o) else (o.note "" g).map (·, none)
  | some o, _ :: attached =>
    if o.takesValue then (o.note (String.ofList attached) g).map (·, none) else .error .usage

def scanShort (level : Level) : List Char → Given → Except Stop (Given × Option OptionSpec)
  | [], g => .ok (g, none)
  | c :: rest, g =>
    match level.ofShort? c with
    | none => .error .usage
    | some o =>
      if o.takesValue then
        match rest with
        | [] => .ok (g, some o)
        | '=' :: attached => (o.note (String.ofList attached) g).map (·, none)
        | attached => (o.note (String.ofList attached) g).map (·, none)
      else (o.note "" g).bind fun g => scanShort level rest g

def scanWord (level : Level) (word : String) (g : Given) : Except Stop Given :=
  match level.words[g.words.length]? with
  | some accepts =>
    if accepts word then .ok { g with words := g.words ++ [word] } else .error .usage
  | none => .error .usage

def scanWords (level : Level) (words : List String) (g : Given) : Except Stop Given :=
  words.foldlM (fun g word => level.scanWord word g) g

def scanFrom (level : Level) (pending : Option OptionSpec) (g : Given) :
    List String → Except Stop Given
  | [] => if pending.isSome then .error .usage else .ok g
  | arg :: rest =>
    match arg.toList, pending with
    | ['-', '-'], some _ => .error .usage
    | ['-', '-'], none => level.scanWords rest g
    | '-' :: _ :: _, some _ => .error .usage
    | '-' :: '-' :: long, none =>
      (level.scanLong long g).bind fun (g, pending) => scanFrom level pending g rest
    | '-' :: c :: short, none =>
      (level.scanShort (c :: short) g).bind fun (g, pending) => scanFrom level pending g rest
    | _, some o => (o.note arg g).bind fun g => scanFrom level none g rest
    | _, none =>
      if level.subcommands.contains arg then .ok { g with subcommand := some (arg, rest) }
      else (level.scanWord arg g).bind fun g => scanFrom level none g rest

def scan (level : Level) (args : List String) : Except Stop Given :=
  (level.scanFrom none {} args).bind fun g =>
    if g.words.length < level.words.length then .error .usage
    else if !level.subcommands.isEmpty && g.subcommand.isNone then .error .usage
    else .ok g

end Level

def unsigned? (bound : Nat) (text : String) : Option Nat :=
  let digits :=
    match text.toList with
    | '+' :: digits => digits
    | digits => digits
  if digits.isEmpty || !digits.all Char.isDigit then none
  else
    let n := digits.foldl (fun n c => n * 10 + (c.toNat - '0'.toNat)) 0
    if n < bound then some n else none

end PeerBook.CommandLine
