/-!
# Reply statuses

Replies of the server carry an integer that says how the request went. Six codes have a meaning, and
every other code is kept as it is.
-/

namespace FeedClient.Wire

/-- What the server says about a request. -/
inductive Status
  | ok
  | noSuchUser
  | noSuchPost
  | noSuchTargetUser
  | exists
  | notReady
  | unknown (code : Int64)
deriving DecidableEq, Repr

namespace Status

/-- The status that a code stands for. -/
def ofCode (code : Int64) : Status :=
  if code = 1 then ok
  else if code = 2 then noSuchUser
  else if code = 3 then noSuchPost
  else if code = 4 then noSuchTargetUser
  else if code = 5 then .exists
  else if code = 6 then notReady
  else unknown code

/-- The code of a status. -/
def code : Status → Int64
  | ok => 1
  | noSuchUser => 2
  | noSuchPost => 3
  | noSuchTargetUser => 4
  | .exists => 5
  | notReady => 6
  | unknown code => code

theorem code_ofCode (c : Int64) : (ofCode c).code = c := by
  unfold ofCode
  split <;> try (next h => exact h.symm)
  split <;> try (next h => exact h.symm)
  split <;> try (next h => exact h.symm)
  split <;> try (next h => exact h.symm)
  split <;> try (next h => exact h.symm)
  split
  · next h => exact h.symm
  · rfl

end Status

end FeedClient.Wire
