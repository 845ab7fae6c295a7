import PeerBook.Address.Ip

namespace PeerBook

inductive SocketAddress where
  | v4 (address : Ipv4) (port : UInt16)
  | v6 (address : Ipv6) (scope : UInt32) (port : UInt16)
  deriving DecidableEq

namespace SocketAddress

def readPort : Reader UInt16 := fun cs => do
  let ((), cs) ← Reader.char ':' cs
  let (n, cs) ← Reader.number 10 65536 (fun _ => true) cs
  return (UInt16.ofNat n, cs)

def readScope : Reader UInt32 := fun cs =>
  match Reader.char '%' cs with
  | none => some (0, cs)
  | some ((), rest) =>
    match Reader.number 10 4294967296 (fun _ => true) rest with
    | none => some (0, cs)
    | some (n, rest) => some (UInt32.ofNat n, rest)

def readV4 : Reader SocketAddress := fun cs => do
  let (address, cs) ← Ipv4.read cs
  let (port, cs) ← readPort cs
  return (.v4 address port, cs)

def readV6 : Reader SocketAddress := fun cs => do
  let ((), cs) ← Reader.char '[' cs
  let (address, cs) ← Ipv6.read cs
  let (scope, cs) ← readScope cs
  let ((), cs) ← Reader.char ']' cs
  let (port, cs) ← readPort cs
  return (.v6 address scope port, cs)

def read : Reader SocketAddress := fun cs =>
  (readV4 cs).or (readV6 cs)

def ofText? (text : String) : Option SocketAddress :=
  Reader.all read text

def ofIp (ip : Ip) (port : UInt16) : SocketAddress :=
  match ip with
  | .v4 address => v4 address port
  | .v6 address => v6 address 0 port

def resolve? (text : String) (defaultPort : UInt16) : Option SocketAddress :=
  (ofText? text).or ((Ip.ofText? text).map fun ip => ofIp ip defaultPort)

def portText (port : UInt16) : List Char :=
  ':' :: Nat.toDigits 10 port.toNat

def textChars : SocketAddress → List Char
  | v4 address port => address.textChars ++ portText port
  | v6 address scope port =>
    let scopeText := if scope = 0 then [] else '%' :: Nat.toDigits 10 scope.toNat
    '[' :: address.textChars ++ scopeText ++ ']' :: portText port

def text (address : SocketAddress) : String :=
  String.ofList address.textChars

end SocketAddress

end PeerBook
