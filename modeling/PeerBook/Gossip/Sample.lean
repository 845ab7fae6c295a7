namespace PeerBook

/-- Up to `count` elements at different positions. Every such sample comes from some draws. -/
def sample {α : Type} : (count : Nat) → (draws : List Nat) → List α → List α
  | 0, _, _ => []
  | count + 1, draws, xs =>
    match xs[draws.headD 0 % xs.length]? with
    | none => []
    | some x => x :: sample count draws.tail (xs.eraseIdx (draws.headD 0 % xs.length))

structure Draws where
  targets : List Nat := []
  records : List Nat := []
  /-- Whether a task that is told to stop while its timer rings takes its timer first. -/
  timerFirst : Bool := true

end PeerBook
