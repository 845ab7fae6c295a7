import PeerBook.Identity
import PeerBook.Script
import PeerBook.Store
import PeerBook.Text.Lowercase

namespace PeerBook

structure PhoneBookEntry where
  name : String
  phone : String
  deriving DecidableEq, Repr

inductive ContactStatus where
  /-- The identity was stored already. -/
  | known
  /-- The directory knew the identity, and its record was stored. -/
  | found
  | notFound
  deriving DecidableEq, Repr

def ContactStatus.text : ContactStatus → String
  | .known => "known"
  | .found => "found"
  | .notFound => "not_found"

structure Contact where
  name : String
  digits : String
  identity : String
  status : ContactStatus
  record : Option Record
  deriving DecidableEq, Repr

namespace Contact

def isMatched (c : Contact) : Bool :=
  c.status != .notFound

/-- Matched contacts come first, and each group is in the order of its lowercase names. -/
def precedes (c d : Contact) : Bool :=
  if c.isMatched = d.isMatched then decide (Text.lowercase c.name ≤ Text.lowercase d.name)
  else c.isMatched

end Contact

namespace Contacts

def distinct : (seen : List String) → List PhoneBookEntry → List (String × String)
  | _, [] => []
  | seen, entry :: rest =>
    match Phone.digits? entry.phone with
    | none => distinct seen rest
    | some digits =>
      if seen.contains digits then distinct seen rest
      else (entry.name, digits) :: distinct (digits :: seen) rest

def find (salt name digits : String) : Script Contact := do
  let identity := Phone.hash salt digits
  match ← Script.get? identity with
  | some stored =>
    if stored.contactHint.isSome then
      return ⟨name, digits, identity, .known, some stored⟩
    let hinted := { stored with contactHint := some digits }
    Script.put hinted
    return ⟨name, digits, identity, .known, some hinted⟩
  | none =>
    match ← Script.lookup? identity with
    | none => return ⟨name, digits, identity, .notFound, none⟩
    | some r =>
      let r := { r with contactHint := some digits, synced := true }
      Script.put r
      let _ ← Script.trimmed
      return ⟨name, digits, identity, .found, some r⟩

def discover (salt : String) (phoneBook : List PhoneBookEntry) : Script (List Contact) := do
  let contacts ← (distinct [] phoneBook).mapM fun (name, digits) => find salt name digits
  return contacts.mergeSort Contact.precedes

def matchesKey (keys : List String) (r : Record) : Bool :=
  ((r.contactHint.bind Phone.matchKey?).map keys.contains).getD false

def matching {σ : Type} [RecordStore σ] (store : σ) (spellings : List String) :
    Except Fault (List Record) :=
  let keys := spellings.filterMap Phone.matchKey?
  if keys.isEmpty then .ok []
  else (RecordStore.all store).map (List.filter (matchesKey keys))

end Contacts

end PeerBook
