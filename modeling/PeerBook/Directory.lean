import PeerBook.Fault
import PeerBook.Record

namespace PeerBook

structure Reply (α : Type) where
  delay : Nat := 0
  result : Except Fault α

class DirectoryBackend (β : Type) where
  publish : β → (identity : String) → Record → Reply Unit × β
  lookup : β → (identity : String) → Reply (Option Record) × β

namespace Directory

variable {β : Type} [DirectoryBackend β] [Timer]

structure Answer (α β : Type) where
  outcome : α
  elapsed : Nat
  backend : β

def defaultTimeout : Nat := 10000

/--
Waits for a reply up to the time limit. What a request that is given up has done by then is the
backend's own affair.
-/
def within {α : Type} (timeout : Nat) (reply : Reply α × β) : Answer (Except Fault α) β :=
  let limit := Timer.wait timeout
  if reply.1.delay ≤ limit then ⟨reply.1.result, reply.1.delay, reply.2⟩
  else ⟨.error (.directoryTimeout timeout), limit, reply.2⟩

def publish (timeout : Nat) (backend : β) (identity : String) (r : Record) : Answer Bool β :=
  if r.identity ≠ identity then ⟨false, 0, backend⟩
  else
    let answer := within timeout (DirectoryBackend.publish backend identity r)
    ⟨answer.outcome.toBool, answer.elapsed, answer.backend⟩

/-- The record as it is accepted for `identity`: a nameless one is taken to be about it. -/
def accept? (identity : String) (r : Record) : Option Record :=
  if r.identity = "" ∨ r.identity = identity then some { r with identity, synced := true } else none

def lookup (timeout : Nat) (backend : β) (identity : String) : Answer (Option Record) β :=
  let answer := within timeout (DirectoryBackend.lookup backend identity)
  let found :=
    match answer.outcome with
    | .ok (some r) => accept? identity r
    | _ => none
  ⟨found, answer.elapsed, answer.backend⟩

end Directory

end PeerBook
