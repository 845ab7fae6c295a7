import PeerBook.Record.Codec
import PeerBook.Store
import PeerBook.Store.Stamp
import Std.Data.TreeMap

namespace PeerBook

structure Tables where
  records : Std.TreeMap String Octets := {}
  index : RecencyIndex := {}
  seed : Option Octets := none

namespace Tables

def load? (t : Tables) (identity : String) : Except Fault (Option Record) :=
  match t.records[identity]? with
  | none => .ok none
  | some bytes =>
    match Codec.whole Codec.readRecord bytes with
    | some r => .ok (some r)
    | none => .error .undecodableRecord

def write (t : Tables) (previous : Option Record) (r : Record) : Tables :=
  let index := previous.elim t.index fun p => t.index.erase p.stamp
  { t with records := t.records.insert r.identity (Codec.record r), index := index.insert r.stamp }

def delete (t : Tables) (stamp : Stamp) : Tables :=
  { t with records := t.records.erase stamp.identity, index := t.index.erase stamp }

def deleteAll (t : Tables) (stamps : List Stamp) : Tables :=
  stamps.foldl delete t

def upsert (t : Tables) (r : Record) : Except Fault Tables := do
  if r.identity = "" then throw .emptyIdentity
  let previous ← t.load? r.identity
  return t.write previous r

def merge (t : Tables) (r : Record) : Except Fault (MergeReport × Tables) := do
  if r.identity = "" then throw .emptyIdentity
  let previous ← t.load? r.identity
  let resolution := resolveMerge previous r
  return (⟨resolution.outcome, previous⟩, resolution.record?.elim t (t.write previous))

def recent (t : Tables) (count : Nat) : Except Fault (List Record) := do
  let found ← (t.index.toList.reverse.take count).mapM fun stamp => t.load? stamp.identity
  return found.filterMap id

def trim (t : Tables) (capacity : Nat) : Nat × Tables :=
  if t.records.size ≤ capacity then (0, t)
  else
    let victims := t.index.toList.take (t.records.size - capacity)
    (victims.length, t.deleteAll victims)

def sweep (t : Tables) (olderThan : Timestamp) : Nat × Tables :=
  let victims := t.index.toList.takeWhile fun stamp => stamp.lastSeen < olderThan
  (victims.length, t.deleteAll victims)

def remove (t : Tables) (identity : String) : Except Fault (Bool × Tables) := do
  match ← t.load? identity with
  | some r => return (true, t.delete r.stamp)
  | none => return (false, t)

end Tables

structure DurableStore where
  tables : Tables
  capacity : Nat := defaultCapacity

namespace DurableStore

def empty (capacity : Nat) : DurableStore :=
  ⟨{}, capacity⟩

def reopen (s : DurableStore) (capacity : Nat) : DurableStore :=
  ⟨s.tables, capacity⟩

def withTables (s : DurableStore) (t : Tables) : DurableStore :=
  { s with tables := t }

instance : RecordStore DurableStore where
  get? s identity := s.tables.load? identity
  upsert s r := (s.tables.upsert r).map s.withTables
  merge s r := (s.tables.merge r).map fun (report, t) => (report, s.withTables t)
  recent s count := s.tables.recent count
  trim s :=
    let (evicted, t) := s.tables.trim s.capacity
    .ok (evicted, s.withTables t)
  sweep s olderThan :=
    let (removed, t) := s.tables.sweep olderThan
    .ok (removed, s.withTables t)
  remove s identity := (s.tables.remove identity).map fun (existed, t) => (existed, s.withTables t)
  size s := .ok s.tables.records.size
  capacity := capacity

end DurableStore

end PeerBook
