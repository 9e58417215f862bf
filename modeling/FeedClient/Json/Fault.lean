/-!
# What can be wrong with a JSON text

Texts are read from left to right, and the first problem decides.
-/

namespace FeedClient.Json

/-- Why a JSON text could not be read. -/
inductive Fault
  /-- The text ends too early. -/
  | truncated
  /-- The text is not JSON. -/
  | malformed
  /-- The text is JSON so far, but not of the wanted shape. -/
  | mismatched
deriving DecidableEq, Repr

end FeedClient.Json
