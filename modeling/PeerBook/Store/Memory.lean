import PeerBook.Store
import PeerBook.Store.Stamp
import Std.Data.TreeMap

namespace PeerBook

structure MemoryStore where
  records : Std.TreeMap String Record := {}
  index : RecencyIndex := {}
  capacity : Nat := defaultCapacity

namespace MemoryStore

def empty (capacity : Nat) : MemoryStore :=
  { capacity }

def find? (s : MemoryStore) (identity : String) : Option Record :=
  s.records[identity]?

def size (s : MemoryStore) : Nat :=
  s.records.size

def put (s : MemoryStore) (r : Record) : MemoryStore :=
  let index :=
    match s.find? r.identity with
    | some previous => s.index.erase previous.stamp
    | none => s.index
  { s with records := s.records.insert r.identity r, index := index.insert r.stamp }

def delete (s : MemoryStore) (stamp : Stamp) : MemoryStore :=
  { s with records := s.records.erase stamp.identity, index := s.index.erase stamp }

def deleteAll (s : MemoryStore) (stamps : List Stamp) : MemoryStore :=
  stamps.foldl delete s

def recent (s : MemoryStore) (count : Nat) : List Record :=
  (s.index.toList.reverse.take count).filterMap fun stamp => s.find? stamp.identity

def upsert (s : MemoryStore) (r : Record) : Except Fault MemoryStore :=
  if r.identity = "" then .error .emptyIdentity else .ok (s.put r)

def merge (s : MemoryStore) (r : Record) : Except Fault (MergeReport × MemoryStore) :=
  if r.identity = "" then .error .emptyIdentity
  else
    let previous := s.find? r.identity
    let resolution := resolveMerge previous r
    .ok (⟨resolution.outcome, previous⟩, resolution.record?.elim s s.put)

def trim (s : MemoryStore) : Nat × MemoryStore :=
  let victims := s.index.toList.take (s.size - s.capacity)
  (victims.length, s.deleteAll victims)

def sweep (s : MemoryStore) (olderThan : Timestamp) : Nat × MemoryStore :=
  let victims := s.index.toList.takeWhile fun stamp => stamp.lastSeen < olderThan
  (victims.length, s.deleteAll victims)

def remove (s : MemoryStore) (identity : String) : Bool × MemoryStore :=
  match s.find? identity with
  | some r => (true, s.delete r.stamp)
  | none => (false, s)

instance : RecordStore MemoryStore where
  get? s identity := .ok (s.find? identity)
  upsert := upsert
  merge := merge
  recent s count := .ok (s.recent count)
  trim s := .ok s.trim
  sweep s olderThan := .ok (s.sweep olderThan)
  remove s identity := .ok (s.remove identity)
  size s := .ok s.size
  capacity := capacity

end MemoryStore

end PeerBook
