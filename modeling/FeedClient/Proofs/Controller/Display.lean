import FeedClient.Proofs.Controller.History

/-!
# What a run displays

Two laws hold after every run, whatever tasks wait and in whatever order their replies arrive.

* The feed on display is the feed that was put on display last, under one placeholder for every
  refresh that has started since the refresh that fetched it.
* A fetched feed is put on display exactly when no newer refresh has started; every other reply
  leaves the controller as it is. So the numbers of the refreshes that put a feed on display only
  ever increase.
-/

namespace FeedClient

namespace Desk

/-- What the feed of a desk shows, by its history. -/
structure Displays (desk : Desk) (h : History) : Prop where
  /-- What was put on display was fetched by a refresh that has started. -/
  started : ∀ showing ∈ h.showings,
    0 < showing.refresh.number ∧ showing.refresh.number ≤ h.started
  /-- What was put on display is not waited for any more. -/
  waiting : ∀ {name : String} {fetch : Fetch}, desk.task? name = some (.fetch fetch) →
    ∀ showing ∈ h.showings, showing.refresh.number ≠ fetch.generation
  decreasing : (h.showings.map fun showing => showing.refresh.number).Pairwise (· > ·)
  posts : desk.controller.feed.posts
    = List.replicate (h.started - h.shown.refresh.number) Post.placeholder ++ h.shown.posts

namespace History

/-- What is on display was fetched by a refresh that has started, if by any. -/
theorem number_shown_le {h : History}
    (hstarted : ∀ showing ∈ h.showings,
      0 < showing.refresh.number ∧ showing.refresh.number ≤ h.started) :
  h.shown.refresh.number ≤ h.started
  := by
  rw [shown]
  cases hshowings : h.showings with
  | nil => apply Nat.zero_le
  | cons showing rest =>
      have hmem : showing ∈ h.showings := by
        rw [hshowings]
        apply List.mem_cons_self
      apply (hstarted showing hmem).2

end History

namespace Displays

theorem start (user : String) (view : View) (policy : RefreshPolicy) :
  Displays (Desk.start user view policy) []
  where
  started := by
    intro showing hmem
    cases hmem
  waiting := by
    intro name fetch hwait
    cases hwait
  decreasing := List.Pairwise.nil
  posts := rfl

section

variable {desk : Desk} {h : History} (ha : Accords desk h) (hd : Displays desk h) (step : Step)
include ha hd

theorem started_step :
  ∀ showing ∈ History.showings (⟨step, (desk.step step).2⟩ :: h),
    0 < showing.refresh.number ∧ showing.refresh.number ≤ h.started
  := by
  intro showing hmem
  obtain hsame | ⟨name, fetch, posts, hwait, -, -, hnew⟩ := (ha.advance step).showings
  · rw [hsame] at hmem
    apply hd.started showing hmem
  · rw [hnew] at hmem
    obtain rfl | hmem := List.mem_cons.mp hmem
    · apply History.number_of_under? (ha.waiting hwait)
    · apply hd.started showing hmem

theorem waiting_step {name : String} {fetch : Fetch}
    (hwait : (desk.step step).1.task? name = some (.fetch fetch)) :
  ∀ showing ∈ History.showings (⟨step, (desk.step step).2⟩ :: h),
    showing.refresh.number ≠ fetch.generation
  := by
  intro showing hmem
  obtain hold | hnext := ha.waiting_step hwait
  · obtain hsame | ⟨name', fetch', posts, hwait', hdone, -, hnew⟩ := (ha.advance step).showings
    · rw [hsame] at hmem
      apply hd.waiting hold showing hmem
    · rw [hnew] at hmem
      obtain rfl | hmem := List.mem_cons.mp hmem
      -- the feed that has just arrived was waited for under another name
      · intro heq
        obtain rfl := ha.generation_injective hwait' hold heq
        rw [hdone] at hwait
        cases hwait
      · apply hd.waiting hold showing hmem
  · have hle := (started_step ha hd step showing hmem).2
    omega

theorem decreasing_step :
  ((History.showings (⟨step, (desk.step step).2⟩ :: h)).map fun showing =>
    showing.refresh.number).Pairwise (· > ·)
  := by
  obtain hsame | ⟨name, fetch, posts, hwait, -, hnumber, hnew⟩ := (ha.advance step).showings
  · rw [hsame]
    apply hd.decreasing
  · rw [hnew, List.map_cons]
    apply List.pairwise_cons.mpr
    constructor
    · intro number hmem
      obtain ⟨showing, hshowing, rfl⟩ := List.mem_map.mp hmem
      have hle := (hd.started showing hshowing).2
      have hne := hd.waiting hwait showing hshowing
      simp only
      omega
    · apply hd.decreasing

theorem posts_step :
  (desk.step step).1.controller.feed.posts
    = List.replicate (History.started (⟨step, (desk.step step).2⟩ :: h)
        - (History.shown (⟨step, (desk.step step).2⟩ :: h)).refresh.number) Post.placeholder
      ++ (History.shown (⟨step, (desk.step step).2⟩ :: h)).posts
  := by
  cases ha.advance step with
  | quiet hcontroller hstarted hlast hshowings =>
      rw [hcontroller, hstarted, History.shown, hshowings]
      apply hd.posts
  | started user nav hcontroller hstarted hlast hshowings =>
      have hle := History.number_shown_le hd.started
      rw [hcontroller, hstarted, History.shown, hshowings]
      rw [Controller.loading, Feed.posts_prepend, hd.posts]
      rw [← History.shown, Nat.succ_sub hle, List.replicate_succ, List.cons_append]
  | shown name fetch posts hwait hdone hnumber hcontroller hstarted hlast hshowings =>
      rw [hcontroller, hstarted, History.shown, hshowings, Feed.posts_replaceAll]
      rw [List.headD_cons, hnumber, Nat.sub_self, List.replicate_zero, List.nil_append]

end

/-- Every step keeps what the history says of the display. -/
theorem step {desk : Desk} {h : History} (ha : Accords desk h) (hd : Displays desk h)
    (step : Step) :
  Displays (desk.step step).1 (⟨step, (desk.step step).2⟩ :: h)
  where
  started := by
    intro showing hmem
    obtain ⟨hpos, hle⟩ := started_step ha hd step showing hmem
    use hpos
    apply Nat.le_trans hle
    apply History.started_le_cons
  waiting := waiting_step ha hd step
  decreasing := decreasing_step ha hd step
  posts := posts_step ha hd step

end Displays

/-- Whatever steps are taken, their history says what is on display. -/
theorem Reached.displays {user : String} {view : View} {policy : RefreshPolicy} {desk : Desk}
    {h : History} (hreached : Reached user view policy desk h) :
  Displays desk h
  := by
  induction hreached with
  | start => apply Displays.start
  | step hreached step ih => apply Displays.step hreached.accords ih

/-- The feed on display is the feed that was put on display last, under one placeholder for every
refresh that has started since. -/
theorem feed_posts_run (user : String) (view : View) (policy : RefreshPolicy) (steps : List Step) :
  let desk := (start user view policy).run steps
  let h := (start user view policy).history steps
  (∀ showing ∈ h.showings, 0 < showing.refresh.number ∧ showing.refresh.number ≤ h.started)
    ∧ desk.controller.feed.posts
      = List.replicate (h.started - h.shown.refresh.number) Post.placeholder ++ h.shown.posts
  := by
  have hd := (reached_run user view policy steps).displays
  constructor
  · apply hd.started
  · apply hd.posts

/-! ### How a refresh ends -/

/-- How a refresh ends with a reply when so many refreshes have started. -/
def Refresh.outcome (refresh : Refresh) (started : Nat) : Reply → RefreshOutcome
  | .failed => .failed
  | .succeeded posts =>
    if refresh.number < started then .stale else .applied posts.length

namespace Refresh

variable (refresh : Refresh) (started : Nat) (reply : Reply)

theorem outcome_eq_failed :
  refresh.outcome started reply = .failed ↔ reply = .failed
  := by
  cases reply with
  | failed => simp [outcome]
  | succeeded posts =>
      rw [outcome]
      split <;> simp

theorem outcome_eq_stale :
  refresh.outcome started reply = .stale
    ↔ (∃ posts, reply = .succeeded posts) ∧ refresh.number < started
  := by
  cases reply with
  | failed => simp [outcome]
  | succeeded posts =>
      rw [outcome]
      split
      · next hlt => simp [hlt]
      · next hlt => simp [hlt]

theorem outcome_eq_applied (count : Nat) :
  refresh.outcome started reply = .applied count
    ↔ (∃ posts, reply = .succeeded posts ∧ posts.length = count) ∧ ¬ refresh.number < started
  := by
  cases reply with
  | failed => simp [outcome]
  | succeeded posts =>
      rw [outcome]
      split
      · next hlt => simp [hlt]
      · next hlt => simp [hlt]

end Refresh

/-- The reply to a fetch ends it by the number of its refresh. -/
theorem Accords.receive_snd {desk : Desk} {h : History} (ha : Accords desk h) {name : String}
    {fetch : Fetch} (hwait : desk.task? name = some (.fetch fetch)) (reply : Reply) :
  (desk.controller.receive fetch reply).2
    = fetch.purpose.outcome
        (Refresh.outcome ⟨fetch.generation, fetch.endpoint⟩ h.started reply)
  := by
  cases reply with
  | failed => rfl
  | succeeded posts =>
      have hle := ha.generation_le hwait
      rw [Controller.receive, Refresh.outcome, ha.generation]
      by_cases hlt : fetch.generation < h.started
      · rw [if_neg (Nat.ne_of_gt hlt), if_pos hlt]
      · rw [if_pos (by omega), if_neg hlt]

/-- How a refresh ends with the reply to its fetch, and what becomes of the controller then. -/
structure Concludes (c c' : Controller) (h : History) (refresh : Refresh) (reply : Reply)
    (outcome : RefreshOutcome) : Prop where
  failed : outcome = .failed ↔ reply = .failed
  stale : outcome = .stale ↔ (∃ posts, reply = .succeeded posts) ∧ refresh.number < h.started
  applied : ∀ count, outcome = .applied count
    ↔ (∃ posts, reply = .succeeded posts ∧ posts.length = count) ∧ ¬ refresh.number < h.started
  shows : ∀ count, outcome = .applied count → c'.feed.views.length = count
  unchanged : outcome = .failed ∨ outcome = .stale → c' = c

/-- A refresh that has been superseded shows nothing, and any other shows the posts of the reply. -/
theorem Accords.concludes {desk : Desk} {h : History} (ha : Accords desk h) {name : String}
    {fetch : Fetch} (hwait : desk.task? name = some (.fetch fetch)) (reply : Reply) :
  Concludes desk.controller (desk.controller.receive fetch reply).1 h
    ⟨fetch.generation, fetch.endpoint⟩ reply
    (Refresh.outcome ⟨fetch.generation, fetch.endpoint⟩ h.started reply)
  where
  failed := Refresh.outcome_eq_failed _ _ _
  stale := Refresh.outcome_eq_stale _ _ _
  applied := Refresh.outcome_eq_applied _ _ _
  shows := by
    intro count happlied
    obtain ⟨⟨posts, rfl, rfl⟩, hnumber⟩ := (Refresh.outcome_eq_applied _ _ _ _).mp happlied
    have hle := ha.generation_le hwait
    have heq : desk.controller.generation = fetch.generation := by
      rw [ha.generation]
      apply Nat.le_antisymm (Nat.le_of_not_lt hnumber) hle
    rw [Controller.receive, if_pos heq, ← List.length_map, ← Feed.posts, Feed.posts_replaceAll]
  unchanged := by
    rintro (hfailed | hstale)
    · rw [(Refresh.outcome_eq_failed _ _ _).mp hfailed]
      rfl
    · apply Controller.receive_of_ne
      rw [ha.generation]
      apply Nat.ne_of_gt ((Refresh.outcome_eq_stale _ _ _).mp hstale).2

/-- A fetched feed is put on display exactly when no newer refresh has started, and every other
reply leaves the controller as it is. So the numbers of the refreshes whose feeds were put on
display only ever increase. -/
theorem fetch_reply_run (user : String) (view : View) (policy : RefreshPolicy)
    (steps : List Step) :
  let desk := (start user view policy).run steps
  let h := (start user view policy).history steps
  (∀ name fetch reply, desk.task? name = some (.fetch fetch) →
      ∃ refresh outcome, h.under? name = some refresh ∧ refresh.endpoint = fetch.endpoint
        ∧ (desk.step (.reply name reply)).2 = some (.done (fetch.purpose.outcome outcome))
        ∧ Concludes desk.controller (desk.step (.reply name reply)).1.controller h refresh reply
            outcome)
    ∧ (h.showings.map fun showing => showing.refresh.number).Pairwise (· > ·)
  := by
  intro desk h
  have hreached : Reached user view policy desk h := reached_run user view policy steps
  have ha := hreached.accords
  constructor
  · intro name fetch reply hwait
    use ⟨fetch.generation, fetch.endpoint⟩
    use Refresh.outcome ⟨fetch.generation, fetch.endpoint⟩ h.started reply
    rw [step_reply_fetch hwait, ha.receive_snd hwait]
    refine ⟨ha.waiting hwait, rfl, rfl, ?_⟩
    apply ha.concludes hwait
  · apply hreached.displays.decreasing

/-- A refresh that a switch of the user has superseded ends without a trace. -/
theorem fetch_reply_superseded :
  let desk := (start "ann" .home {}).run [.begin "a" .refresh, .begin "b" (.switchUser "bob")]
  (desk.step (.reply "a" (.succeeded []))).2 = some (.done (.refreshed .stale))
    ∧ (desk.step (.reply "a" (.succeeded []))).1.controller = desk.controller
  := by
  obtain ⟨refresh, outcome, hunder, -, hdone, hconcludes⟩ :=
    (fetch_reply_run "ann" .home {} [.begin "a" .refresh, .begin "b" (.switchUser "bob")]).1
      "a" ⟨Endpoint.ofSession ⟨View.home.label, "ann"⟩, 1, .refresh⟩ (.succeeded []) rfl
  obtain rfl := Option.some.inj hunder
  have hstale : outcome = .stale := by
    apply hconcludes.stale.mpr
    use ⟨[], rfl⟩
    decide
  subst hstale
  constructor
  · apply hdone
  · apply hconcludes.unchanged
    right
    rfl

end Desk

end FeedClient
