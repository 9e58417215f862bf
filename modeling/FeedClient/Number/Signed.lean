/-!
# Integers of 64 bits

The integers of 64 bits with sign reach one further below zero than above it.
-/

namespace FeedClient

/-- The greatest integer of 64 bits. -/
def greatestInt64 : Nat :=
  0x7FFFFFFFFFFFFFFF

/-- How far below zero the least integer of 64 bits is. -/
def depthInt64 : Nat :=
  0x8000000000000000

/-- An integer as one of 64 bits, if it fits. -/
def int64? (n : Int) : Option Int64 :=
  if -(depthInt64 : Int) ≤ n && n ≤ greatestInt64 then some (Int64.ofInt n) else none

end FeedClient
