import PeerBook.Address.Socket
import PeerBook.Text.Blank
import PeerBook.Time

namespace PeerBook

/-- The address that stands for "not known". -/
def unknownAddress : String := "0.0.0.0"

def defaultPort : UInt16 := 8888

structure Record where
  identity : String
  address : String := unknownAddress
  port : UInt16 := defaultPort
  publicKey : String
  /-- A phone number in plain, which never leaves the node. -/
  contactHint : Option String := none
  lastSeen : Timestamp
  /-- Whether a directory has confirmed the record. -/
  synced : Bool := false
  deriving DecidableEq, Repr

def isRoutable (address : String) : Bool :=
  let address := Text.trim address
  address != "" && address != unknownAddress

namespace Record

def hasKnownAddress (r : Record) : Bool :=
  isRoutable r.address

/--
Where to send to, port included. An address that carries a port stands as it is, and a bare
version 6 address is put into brackets.
-/
def endpoint? (r : Record) : Option String :=
  if !r.hasKnownAddress then none
  else
    let address := Text.trim r.address
    if (SocketAddress.ofText? address).isSome then some address
    else
      let host :=
        match Ip.ofText? address with
        | some (.v6 ip) => '[' :: ip.textChars ++ [']']
        | _ => address.toList
      some (String.ofList (host ++ SocketAddress.portText r.port))

def isWellFormed (r : Record) : Bool :=
  r.identity != "" && r.publicKey != ""

def endpointDiffers (r s : Record) : Bool :=
  r.address != s.address || r.port != s.port

end Record

end PeerBook
