namespace PeerBook

/-- Milliseconds since the Unix epoch. -/
abbrev Timestamp := UInt64

namespace Timestamp

def saturate (n : Nat) : Timestamp :=
  UInt64.ofNat (min n (UInt64.size - 1))

def ofSpan (seconds nanoseconds : Nat) : Timestamp :=
  saturate ((seconds * 1000000000 + nanoseconds) / 1000000)

def distance (s t : Timestamp) : Timestamp :=
  if s ≤ t then t - s else s - t

def before (t age : Timestamp) : Timestamp :=
  if age ≤ t then t - age else 0

end Timestamp

/-- The timer of the steady clock. In the place of a wait that is too long for it to represent it
puts another one, of a second at least. -/
class Timer where
  longest : Nat
  substitute : Nat
  substitute_le : substitute ≤ longest
  second_le : 1000 ≤ substitute

namespace Timer

variable [Timer]

def wait (milliseconds : Nat) : Nat :=
  if milliseconds ≤ longest then milliseconds else substitute

variable {n : Nat}

theorem wait_of_le (h : n ≤ longest) : wait n = n :=
  if_pos h

theorem wait_le (n : Nat) : wait n ≤ n := by
  have := substitute_le
  rw [wait]
  split <;> omega

theorem wait_ne_zero (h : n ≠ 0) : wait n ≠ 0 := by
  have := second_le
  rw [wait]
  split <;> omega

theorem min_second_le_wait (n : Nat) : min n 1000 ≤ wait n := by
  have := second_le
  rw [wait]
  split <;> omega

/-- With 63 bits for the seconds, and thirty years of 365 days in the place of longer waits. -/
@[reducible]
def seconds63 : Timer where
  longest := Nat.pow 2 63 * 1000 - 1
  substitute := 30 * 365 * 24 * 60 * 60 * 1000
  substitute_le := by decide
  second_le := by decide

end Timer

/-- The text of a span in its largest whole unit, with the milliseconds as decimals of a second. -/
def spanText (milliseconds : Nat) : String :=
  if milliseconds = 0 then "0ns"
  else if milliseconds < 1000 then toString milliseconds ++ "ms"
  else
    let decimals := (Nat.toDigits 10 (1000 + milliseconds % 1000)).tail
    let kept := (decimals.reverse.dropWhile (· = '0')).reverse
    let fraction := if kept.isEmpty then [] else '.' :: kept
    toString (milliseconds / 1000) ++ String.ofList fraction ++ "s"

end PeerBook
