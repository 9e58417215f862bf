import FeedClient.Proofs.Controller.Display

/-!
# Whose feed is shown

The user and the view change when an action switches them, and at no other time. Every switch starts
a refresh, and every refresh asks for the feed of the session as it is when the refresh starts; so
the refresh that started last has always asked for the feed of the current session, however long its
reply takes and whatever else is under way. The feed that it puts on display is that of the current
user and the current view.
-/

namespace FeedClient

/-! ### Who is acting -/

namespace Controller

/-- No reply changes who is acting or which view is shown. -/
theorem deliver_user_nav (c : Controller) (task : Task) (reply : Reply) :
  (c.deliver task reply).1.user = c.user ∧ (c.deliver task reply).1.nav = c.nav
  := by
  cases task with
  | change change =>
      simp only [deliver, settle]
      split
      · rw [refresh_fst]
        constructor <;> rfl
      · constructor <;> rfl
  | fetch fetch =>
      cases reply with
      | failed => constructor <;> rfl
      | succeeded posts =>
          simp only [deliver, receive]
          split <;> constructor <;> rfl

end Controller

namespace Desk

/-- The user that a step switches to. -/
def Step.user? : Step → Option String
  | begin _ (.switchUser user) => some user
  | _ => none

/-- The label that a step switches the view to. -/
def Step.label? : Step → Option String
  | begin _ (.switchView label) => some label
  | _ => none

theorem user_nav_reply (desk : Desk) (name : String) (reply : Reply) :
  (desk.step (.reply name reply)).1.controller.user = desk.controller.user
    ∧ (desk.step (.reply name reply)).1.controller.nav = desk.controller.nav
  := by
  cases h : desk.task? name with
  | none =>
      rw [step_reply_of_none h]
      constructor <;> rfl
  | some task =>
      rw [step_reply h, file_controller]
      apply Controller.deliver_user_nav

/-- A step changes who is acting and which view is shown only as a switch of them says. -/
theorem user_nav_step (desk : Desk) (step : Step) :
  (desk.step step).1.controller.user = step.user?.getD desk.controller.user
    ∧ (desk.step step).1.controller.nav
      = (step.label?.map desk.controller.nav.activate).getD desk.controller.nav
  := by
  cases step with
  | reply name reply => apply user_nav_reply
  | begin name action =>
      rw [step_begin, file_controller]
      cases action with
      | delete tag =>
          rw [Controller.begin]
          cases PostKey.parse (Tag.stem tag) <;> constructor <;> rfl
      | switchView label =>
          simp only [Controller.begin, Controller.refresh_fst]
          constructor <;> rfl
      | switchUser user =>
          simp only [Controller.begin, Controller.refresh_fst]
          constructor <;> rfl
      | refresh =>
          simp only [Controller.begin, Controller.refresh_fst]
          constructor <;> rfl
      | _ => constructor <;> rfl

/-- The user is the one that was switched to last. -/
theorem user_run (desk : Desk) (steps : List Step) :
  (desk.run steps).controller.user
    = (steps.filterMap Step.user?).getLastD desk.controller.user
  := by
  induction steps generalizing desk with
  | nil => rfl
  | cons step rest ih =>
      have hrest := ih (desk.step step).1
      rw [(user_nav_step desk step).1] at hrest
      rw [List.filterMap_cons]
      cases huser : step.user? with
      | none =>
          rw [huser] at hrest
          apply hrest
      | some user =>
          rw [huser] at hrest
          rw [List.getLastD_cons]
          apply hrest

/-- The view is the one that the text which was switched to last stands for. -/
theorem activeLabel_run {desk : Desk} (h : desk.controller.nav.Standard) (steps : List Step) :
  (desk.run steps).controller.nav.activeLabel
    = ((steps.filterMap Step.label?).map View.shownLabel).getLastD
        desk.controller.nav.activeLabel
  := by
  induction steps generalizing desk with
  | nil => rfl
  | cons step rest ih =>
      have hrest := ih (standard_step h step)
      rw [(user_nav_step desk step).2] at hrest
      rw [List.filterMap_cons]
      cases hlabel : step.label? with
      | none =>
          rw [hlabel] at hrest
          apply hrest
      | some label =>
          rw [hlabel, Option.map_some, Option.getD_some, h.activeLabel_activate] at hrest
          rw [List.map_cons, List.getLastD_cons]
          apply hrest

/-! ### Whose feed is asked for -/

namespace History

/-- Once a refresh has started, the one that started last has the greatest number. -/
theorem exists_last? {h : History} (hstarted : 0 < h.started) :
  ∃ endpoint, h.last? = some ⟨h.started, endpoint⟩
  := by
  induction h with
  | nil => cases hstarted
  | cons e h ih =>
      rw [started_cons] at hstarted ⊢
      cases he : e.start? with
      | none =>
          rw [he] at hstarted
          rw [last?_cons_of_none he]
          apply ih hstarted
      | some endpoint =>
          use endpoint
          rw [last?_cons_of_some he]
          rfl

end History

/-- The refresh that started last serves the current session. -/
structure Serves (desk : Desk) (h : History) : Prop where
  endpoint : ∀ refresh, h.last? = some refresh →
    refresh.endpoint = Endpoint.ofSession desk.controller.session
  /-- A feed on display that has the last number was fetched by the last refresh. -/
  shown : ∀ showing ∈ h.showings, showing.refresh.number = h.started →
    h.last? = some showing.refresh

namespace Serves

theorem start (user : String) (view : View) (policy : RefreshPolicy) :
  Serves (Desk.start user view policy) []
  where
  endpoint := by
    intro refresh hlast
    cases hlast
  shown := by
    intro showing hmem
    cases hmem

/-- Every step keeps the last refresh in the service of the current session. -/
theorem step {desk : Desk} {h : History} (ha : Accords desk h) (hd : Displays desk h)
    (hs : Serves desk h) (step : Step) :
  Serves (desk.step step).1 (⟨step, (desk.step step).2⟩ :: h)
  := by
  cases ha.advance step with
  | quiet hcontroller hstarted hlast hshowings =>
      constructor
      · rw [hlast, hcontroller]
        apply hs.endpoint
      · rw [hlast, hstarted, hshowings]
        apply hs.shown
  | started user nav hcontroller hstarted hlast hshowings =>
      constructor
      · intro refresh hrefresh
        rw [hlast] at hrefresh
        obtain rfl := Option.some.inj hrefresh
        rfl
      -- what is on display was fetched by an earlier refresh
      · intro showing hmem hshown
        rw [hshowings] at hmem
        have hle := (hd.started showing hmem).2
        omega
  | shown name fetch posts hwait hdone hnumber hcontroller hstarted hlast hshowings =>
      constructor
      · rw [hlast, hcontroller]
        apply hs.endpoint
      · intro showing hmem hshown
        rw [hshowings] at hmem
        rw [hlast]
        obtain rfl | hmem := List.mem_cons.mp hmem
        · apply History.last?_of_under? (ha.waiting hwait) hnumber
        · rw [hstarted] at hshown
          apply hs.shown showing hmem hshown

end Serves

/-- Whatever steps are taken, the refresh that started last serves the current session. -/
theorem Reached.serves {user : String} {view : View} {policy : RefreshPolicy} {desk : Desk}
    {h : History} (hreached : Reached user view policy desk h) :
  Serves desk h
  := by
  induction hreached with
  | start => apply Serves.start
  | step hreached step ih => apply Serves.step hreached.accords hreached.displays ih

/-- A feed that the last refresh has fetched is what is on display. -/
theorem Displays.posts_of_last {desk : Desk} {h : History} (hd : Displays desk h)
    {showing : Showing} (hmem : showing ∈ h.showings)
    (hnumber : showing.refresh.number = h.started) :
  desk.controller.feed.posts = showing.posts
  := by
  have hposts := hd.posts
  have hstarted := hd.started
  have hdecreasing := hd.decreasing
  rw [History.shown] at hposts
  cases hshowings : h.showings with
  | nil =>
      rw [hshowings] at hmem
      cases hmem
  | cons latest rest =>
      rw [hshowings] at hmem hposts hstarted hdecreasing
      obtain rfl | hmem := List.mem_cons.mp hmem
      · rw [hposts, List.headD_cons, hnumber, Nat.sub_self, List.replicate_zero, List.nil_append]
      · have hle := (hstarted latest List.mem_cons_self).2
        have hlt : showing.refresh.number < latest.refresh.number := by
          apply (List.pairwise_cons.mp hdecreasing).1 _
          apply List.mem_map_of_mem hmem
        omega

/-- The user and the view are those that were switched to last, the refresh that started last has
asked for their feed, and so it is their feed that this refresh puts on display. -/
theorem session_run (user : String) (view : View) (policy : RefreshPolicy) (steps : List Step) :
  let desk := (start user view policy).run steps
  let h := (start user view policy).history steps
  let session := desk.controller.session
  (∀ name reply,
      (desk.step (.reply name reply)).1.controller.user = desk.controller.user
        ∧ (desk.step (.reply name reply)).1.controller.nav = desk.controller.nav)
    ∧ session.user = (steps.filterMap Step.user?).getLastD user
    ∧ session.viewLabel
      = ((steps.filterMap Step.label?).map View.shownLabel).getLastD view.label
    ∧ (0 < h.started →
      ∃ refresh, h.last? = some refresh ∧ refresh.number = h.started
        ∧ refresh.endpoint = Endpoint.ofSession session)
    ∧ (∀ showing ∈ h.showings, showing.refresh.number = h.started →
      desk.controller.feed.posts = showing.posts
        ∧ showing.refresh.endpoint = Endpoint.ofSession session
        ∧ showing.refresh.endpoint.user = session.user)
  := by
  intro desk h session
  have hreached : Reached user view policy desk h := reached_run user view policy steps
  have hs := hreached.serves
  refine ⟨user_nav_reply desk, ?_, ?_, ?_, ?_⟩
  · apply user_run
  · have hstandard : (start user view policy).controller.nav.Standard :=
      NavBar.standard_ofView view
    rw [← NavBar.activeLabel_ofView view]
    apply activeLabel_run hstandard
  · intro hstarted
    obtain ⟨endpoint, hlast⟩ := History.exists_last? hstarted
    refine ⟨⟨h.started, endpoint⟩, hlast, rfl, ?_⟩
    apply hs.endpoint _ hlast
  · intro showing hmem hnumber
    have hendpoint := hs.endpoint _ (hs.shown showing hmem hnumber)
    refine ⟨?_, hendpoint, ?_⟩
    · apply hreached.displays.posts_of_last hmem hnumber
    · rw [hendpoint]
      apply hreached.accords.standard.user_ofSession

/-- A subscription that is answered after a switch of the user shows the feed of the new user. -/
theorem session_switched :
  let steps : List Step := [.begin "a" (.subscribeUser "cat"), .begin "b" (.switchUser "bob"),
    .reply "a" (.succeeded []), .reply "b" (.succeeded []), .reply "a" (.succeeded [.placeholder])]
  let desk := (start "ann" .home {}).run steps
  let h := (start "ann" .home {}).history steps
  h.last? = some ⟨2, ⟨"/home", "bob"⟩⟩ ∧ desk.controller.feed.posts = [.placeholder]
  := by
  intro steps desk h
  obtain ⟨-, -, -, hendpoint, hshown⟩ := session_run "ann" .home {} steps
  constructor
  · obtain ⟨⟨number, endpoint⟩, hlast, rfl, rfl⟩ := hendpoint (by decide)
    rw [hlast]
    decide
  · apply (hshown ⟨⟨2, ⟨"/home", "bob"⟩⟩, [.placeholder]⟩ (by decide) (by decide)).1

end Desk

end FeedClient
