import FeedClient.Feed.Screen
import FeedClient.Proofs.Feed

/-!
# What the screen shows of a feed

Render ids do not appear on the screen. So two feeds that show the same posts look the same, however
often their posts have been rendered.
-/

namespace FeedClient

/-- The lines of a post on display are those of its post. -/
theorem PostView.Genuine.screen {view : PostView} (h : view.Genuine) (zone : Zone) :
  view.screen zone = (PostView.of 0 view.post).screen zone
  := by
  rw [h]
  rfl

namespace Feed

/-- The sections of a feed tell its posts and nothing else. -/
theorem Genuine.sections {feed : Feed} (h : feed.Genuine) (zone : Zone) :
  feed.sections zone
    = if feed.posts.isEmpty then [Text.Style.dimmed.apply "No posts."]
      else feed.posts.map fun post => (PostView.of 0 post).screen zone
  := by
  have hscreens : (feed.views.map fun view => view.screen zone)
      = feed.posts.map fun post => (PostView.of 0 post).screen zone := by
    rw [posts, List.map_map]
    apply List.map_congr_left
    intro view hmem
    apply (h view hmem).screen
  rw [Feed.sections, hscreens, posts, List.isEmpty_map]

/-- Feeds with the same posts look the same. -/
theorem Genuine.screen_congr {feed feed' : Feed} (h : feed.Genuine) (h' : feed'.Genuine)
    (hposts : feed.posts = feed'.posts) (bar : NavBar) (zone : Zone) :
  screen bar feed zone = screen bar feed' zone
  := by
  rw [screen, screen, h.sections, h'.sections, hposts]

end Feed

end FeedClient
