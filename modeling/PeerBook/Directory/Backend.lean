import PeerBook.Directory
import PeerBook.Store
import Std.Data.TreeMap

namespace PeerBook

structure SharedDirectory where
  entries : Std.TreeMap String Record := {}

namespace SharedDirectory

/-- Hints are not published. -/
def insert (d : SharedDirectory) (identity : String) (r : Record) : SharedDirectory :=
  ⟨d.entries.insert identity { r with contactHint := none }⟩

instance : DirectoryBackend SharedDirectory where
  publish d identity r := (⟨0, .ok ()⟩, d.insert identity r)
  lookup d identity := (⟨0, .ok d.entries[identity]?⟩, d)

end SharedDirectory

/-- Answers from a store; publishing has no effect. -/
structure StoreDirectory (σ : Type) where
  store : σ

instance {σ : Type} [RecordStore σ] : DirectoryBackend (StoreDirectory σ) where
  publish d _ _ := (⟨0, .ok ()⟩, d)
  lookup d identity := (⟨0, RecordStore.get? d.store identity⟩, d)

inductive AnyDirectory (σ : Type) where
  | shared (directory : SharedDirectory)
  | gossipOnly
  | store (directory : StoreDirectory σ)
  | failing
  /-- Takes its time, and then knows every identity. -/
  | stalled (delay : Nat)
  | fixed (answer : Record)

namespace AnyDirectory

variable {σ : Type} [RecordStore σ]

def unreachable : Fault :=
  .directoryRefused "unreachable"

def stalledRecord (identity : String) : Record :=
  { identity, publicKey := "pk-slow", lastSeen := 7 }

instance : DirectoryBackend (AnyDirectory σ) where
  publish d identity r :=
    match d with
    | shared directory =>
      let (reply, directory) := DirectoryBackend.publish directory identity r
      (reply, shared directory)
    | store directory =>
      let (reply, directory) := DirectoryBackend.publish directory identity r
      (reply, store directory)
    | failing => (⟨0, .error unreachable⟩, d)
    | stalled delay => (⟨delay, .ok ()⟩, d)
    | gossipOnly | fixed _ => (⟨0, .ok ()⟩, d)
  lookup d identity :=
    match d with
    | shared directory =>
      let (reply, directory) := DirectoryBackend.lookup directory identity
      (reply, shared directory)
    | store directory =>
      let (reply, directory) := DirectoryBackend.lookup directory identity
      (reply, store directory)
    | gossipOnly => (⟨0, .ok none⟩, d)
    | failing => (⟨0, .error unreachable⟩, d)
    | stalled delay => (⟨delay, .ok (some (stalledRecord identity))⟩, d)
    | fixed answer => (⟨0, .ok (some answer)⟩, d)

def size? : AnyDirectory σ → Option Nat
  | shared directory => some directory.entries.size
  | _ => none

end AnyDirectory

end PeerBook
