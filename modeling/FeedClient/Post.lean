/-!
# Posts

A post is what the server publishes: who wrote it, what it says and when it was posted. The time is
kept exactly as the server sent it, as hexadecimal text.
-/

namespace FeedClient

/-- A post of the service, as the client holds it. -/
structure Post where
  author : String
  contents : String
  /-- Nanoseconds since the epoch in hexadecimal, as the server wrote them. -/
  posted : String
deriving DecidableEq, Repr, Inhabited

/-- The text that stands in for a feed that is still being fetched. -/
def Post.loading : String :=
  "Loading..."

/-- The post that is shown in front of a feed while it is being fetched. -/
def Post.placeholder : Post :=
  ⟨loading, loading, "0"⟩

end FeedClient
