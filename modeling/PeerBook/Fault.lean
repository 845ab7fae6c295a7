import PeerBook.Time

namespace PeerBook

inductive Setting where
  | capacity
  | directoryTimeout
  | sweepInterval
  | syncInterval
  | activePeerTimeout
  deriving DecidableEq, Repr

def Setting.name : Setting → String
  | .capacity => "capacity"
  | .directoryTimeout => "directory_timeout_secs"
  | .sweepInterval => "sweep_interval_secs"
  | .syncInterval => "gossip.sync_interval_secs"
  | .activePeerTimeout => "gossip.active_peer_timeout_secs"

inductive DiskFault where
  | notFound
  | alreadyExists
  | notDirectory
  | isDirectory
  | nameTooLong
  | notText
  | notDatabase
  deriving DecidableEq, Repr

def DiskFault.text : DiskFault → String
  | .notFound => "No such file or directory (os error 2)"
  | .alreadyExists => "File exists (os error 17)"
  | .notDirectory => "Not a directory (os error 20)"
  | .isDirectory => "Is a directory (os error 21)"
  | .nameTooLong => "File name too long (os error 36)"
  | .notText => "stream did not contain valid UTF-8"
  | .notDatabase => "invalid data"

inductive Fault.Area where
  | storage
  | database
  | serialization
  | malformedPayload
  | transport
  | directory
  | timeout
  | identity
  | signatureInvalid
  | clockDrift
  | config
  | io
  deriving DecidableEq, Repr

inductive Fault where
  | emptyIdentity
  | storeRefused (reason : String)
  | undecodableRecord
  | payloadNotJson
  | payloadNotObject
  | payloadWithoutNodes
  | undecodableDatagram
  | directoryRefused (reason : String)
  | directoryTimeout (milliseconds : Nat)
  | seedLength (actual : Nat)
  | keyEncoding
  | keyLength
  | keyNotAPoint
  | signatureEncoding
  | signatureLength
  | signatureMismatch
  | senderMismatch (sender : String)
  | clockDrift (milliseconds : Timestamp)
  | unreadableConfig (path : String)
  | zeroSetting (setting : Setting)
  | disk (cause : DiskFault)
  | database (cause : DiskFault)
  | databaseInUse
  deriving DecidableEq, Repr

namespace Fault

def area : Fault → Area
  | emptyIdentity | storeRefused _ => .storage
  | undecodableRecord => .serialization
  | payloadNotJson | payloadNotObject | payloadWithoutNodes | undecodableDatagram =>
    .malformedPayload
  | directoryRefused _ => .directory
  | directoryTimeout _ => .timeout
  | seedLength _ => .identity
  | keyEncoding | keyLength | keyNotAPoint | signatureEncoding | signatureLength
  | signatureMismatch | senderMismatch _ => .signatureInvalid
  | clockDrift _ => .clockDrift
  | unreadableConfig _ | zeroSetting _ => .config
  | disk _ => .io
  | database _ | databaseInUse => .database

def Area.title : Area → String
  | storage => "Storage error: "
  | database => "Database error: "
  | serialization => "Serialization error: "
  | malformedPayload => "Malformed payload: "
  | transport => "Transport error: "
  | directory => "Directory error: "
  | timeout => "Directory request timed out after "
  | identity => "Identity error: "
  | signatureInvalid => "Signature invalid: "
  | clockDrift => "Envelope timestamp drift of "
  | config => "Config error: "
  | io => "IO error: "

def detail : Fault → String
  | emptyIdentity => "Record has an empty identity hash"
  | storeRefused reason => reason
  | undecodableRecord => "..."
  | payloadNotJson => "Invalid JSON: ..."
  | payloadNotObject => "Payload is not an object"
  | payloadWithoutNodes => "Missing nodes array"
  | undecodableDatagram => "Failed to decode envelope: ..."
  | directoryRefused reason => reason
  | directoryTimeout milliseconds => spanText milliseconds
  | seedLength actual => "Seed must be 32 bytes, got " ++ toString actual
  | keyEncoding => "Bad public key encoding: ..."
  | keyLength => "Public key must be 32 bytes"
  | keyNotAPoint => "Bad public key: ..."
  | signatureEncoding => "Bad signature encoding: ..."
  | signatureLength => "Signature must be 64 bytes"
  | signatureMismatch => "..."
  | senderMismatch sender => "Sender " ++ sender ++ " does not match its public key"
  | clockDrift milliseconds => toString milliseconds.toNat ++ " ms exceeds limit"
  | unreadableConfig path => "Failed to parse " ++ path ++ ": ..."
  | zeroSetting setting => setting.name ++ " must be > 0"
  | disk cause => cause.text
  | database cause => "I/O error: " ++ cause.text
  | databaseInUse => "Database already open. Cannot acquire lock."

/-- Where the reason lies in the details of a text, the message leaves it open with dots. -/
def message (fault : Fault) : String :=
  fault.area.title ++ fault.detail

end Fault

end PeerBook
