import FeedClient.Proofs.Controller.History
import Mathlib.Data.List.Perm.Basic

/-!
# The order of replies

When several tasks wait for a feed, at most one of them belongs to the refresh that started last,
and the replies to all others change nothing. So it does not matter in which order the replies
arrive: each task ends as if its reply had been the first, and the same feed is on display in the
end.
-/

namespace FeedClient

namespace Controller

/-- The feeds of two refreshes can be received in either order. -/
theorem receive_comm (c : Controller) {fetch fetch' : Fetch}
    (h : fetch.generation ≠ fetch'.generation) (reply reply' : Reply) :
  ((c.receive fetch reply).1.receive fetch' reply').1
    = ((c.receive fetch' reply').1.receive fetch reply).1
  := by
  by_cases hfetch : c.generation = fetch.generation
  · have hfetch' : c.generation ≠ fetch'.generation := by
      rw [hfetch]
      apply h
    rw [receive_of_ne hfetch']
    apply receive_of_ne
    rw [receive_generation]
    apply hfetch'
  · rw [receive_of_ne hfetch]
    symm
    apply receive_of_ne
    rw [receive_generation]
    apply hfetch

end Controller

namespace Desk

/-- The steps that deliver replies to tasks, each task given by its name. -/
def replies (ds : List (String × Reply)) : List Step :=
  ds.map fun d => .reply d.1 d.2

/-- The replies go to different tasks, all of which wait for a feed. -/
structure Awaits (desk : Desk) (ds : List (String × Reply)) : Prop where
  nodup : (ds.map Prod.fst).Nodup
  fetching : ∀ d ∈ ds, ∃ fetch, desk.task? d.1 = some (.fetch fetch)

/-- Tasks that wait for the feeds of two refreshes can be replied to in either order. -/
theorem step_reply_comm {desk : Desk} {name name' : String} {fetch fetch' : Fetch}
    (hwait : desk.task? name = some (.fetch fetch))
    (hwait' : desk.task? name' = some (.fetch fetch')) (hname : name ≠ name')
    (hnumber : fetch.generation ≠ fetch'.generation) (reply reply' : Reply) :
  ((desk.step (.reply name reply)).1.step (.reply name' reply')).1
    = ((desk.step (.reply name' reply')).1.step (.reply name reply)).1
  := by
  have hafter := task?_step_of_ne desk (.reply name' reply') hname
  have hafter' := task?_step_of_ne desk (.reply name reply) hname.symm
  rw [step_reply_fetch (hafter.trans hwait), step_reply_fetch (hafter'.trans hwait')]
  rw [step_reply_fetch hwait, step_reply_fetch hwait']
  rw [Controller.receive_comm _ hnumber, List.filter_comm]

/-- How a fetch ends does not depend on the replies to others that arrive before. -/
theorem step_reply_snd {desk : Desk} {name name' : String} {fetch fetch' : Fetch}
    (hwait : desk.task? name = some (.fetch fetch))
    (hwait' : desk.task? name' = some (.fetch fetch')) (hname : name ≠ name')
    (reply reply' : Reply) :
  ((desk.step (.reply name' reply')).1.step (.reply name reply)).2
    = (desk.step (.reply name reply)).2
  := by
  have hafter := task?_step_of_ne desk (.reply name' reply') hname
  rw [step_reply_fetch (hafter.trans hwait), step_reply_fetch hwait', step_reply_fetch hwait]
  rw [Controller.receive_snd_congr (Controller.receive_generation _ _ _)]

namespace Awaits

theorem perm {desk : Desk} {ds ds' : List (String × Reply)} (h : Awaits desk ds)
    (hperm : ds.Perm ds') :
  Awaits desk ds'
  where
  nodup := (hperm.map Prod.fst).nodup_iff.mp h.nodup
  fetching := by
    intro d hd
    apply h.fetching d (hperm.mem_iff.mpr hd)

theorem name_ne {desk : Desk} {d d' : String × Reply} {ds : List (String × Reply)}
    (h : Awaits desk (d :: ds)) (hmem : d' ∈ ds) :
  d'.1 ≠ d.1
  := by
  intro heq
  apply (List.nodup_cons.mp h.nodup).1
  rw [← heq]
  apply List.mem_map_of_mem hmem

/-- A reply leaves all others awaited. -/
theorem tail {desk : Desk} {d : String × Reply} {ds : List (String × Reply)}
    (h : Awaits desk (d :: ds)) :
  Awaits (desk.step (.reply d.1 d.2)).1 ds
  where
  nodup := (List.nodup_cons.mp h.nodup).2
  fetching := by
    intro d' hmem
    rw [task?_step_of_ne desk _ (h.name_ne hmem)]
    apply h.fetching d' (List.mem_cons_of_mem d hmem)

/-- Every task ends as if its reply had been the first. -/
theorem history_replies {desk : Desk} {ds : List (String × Reply)} (h : Awaits desk ds) :
  desk.history (replies ds)
    = (ds.map fun d => Event.mk (.reply d.1 d.2) (desk.step (.reply d.1 d.2)).2).reverse
  := by
  induction ds generalizing desk with
  | nil => rfl
  | cons d ds ih =>
      rw [replies, List.map_cons, history, ← replies, ih h.tail]
      rw [List.map_cons, List.reverse_cons]
      congr 2
      apply List.map_congr_left
      intro d' hmem
      obtain ⟨fetch, hwait⟩ := h.fetching d List.mem_cons_self
      obtain ⟨fetch', hwait'⟩ := h.fetching d' (List.mem_cons_of_mem d hmem)
      rw [step_reply_snd hwait' hwait (h.name_ne hmem)]

/-- Every task ends. -/
theorem exists_done {desk : Desk} {ds : List (String × Reply)} (h : Awaits desk ds)
    {d : String × Reply} (hmem : d ∈ ds) :
  ∃ outcome, Event.mk (.reply d.1 d.2) (some (.done outcome)) ∈ desk.history (replies ds)
  := by
  obtain ⟨fetch, hwait⟩ := h.fetching d hmem
  use (desk.controller.receive fetch d.2).2
  rw [h.history_replies, List.mem_reverse]
  apply List.mem_map.mpr
  use d, hmem
  rw [step_reply_fetch hwait]

/-- The replies lead to the same desk in every order. -/
theorem run_replies {user : String} {view : View} {policy : RefreshPolicy} {desk : Desk}
    {h : History} (hreached : Reached user view policy desk h) {ds ds' : List (String × Reply)}
    (hawaits : Awaits desk ds) (hperm : ds.Perm ds') :
  desk.run (replies ds) = desk.run (replies ds')
  := by
  induction hperm generalizing desk h with
  | nil => rfl
  | cons d hperm ih => apply ih (hreached.step (.reply d.1 d.2)) hawaits.tail
  | swap d d' ds =>
      have hne := hawaits.name_ne List.mem_cons_self
      obtain ⟨fetch, hwait⟩ := hawaits.fetching d (by simp)
      obtain ⟨fetch', hwait'⟩ := hawaits.fetching d' (by simp)
      -- two tasks wait for the feeds of two refreshes, of which at most one is the last
      have hnumber : fetch'.generation ≠ fetch.generation := by
        intro heq
        apply hne
        apply hreached.accords.generation_injective hwait hwait' heq.symm
      have hcomm := step_reply_comm hwait' hwait hne.symm hnumber d'.2 d.2
      apply congrArg (fun desk => desk.run (replies ds)) hcomm
  | trans hperm hperm' ih ih' =>
      rw [ih hreached hawaits]
      apply ih' hreached (hawaits.perm hperm)

end Awaits

/-- Replies to tasks that all wait for a feed lead to the same desk in every order. Every task ends,
and it ends in the same way. -/
theorem replies_perm_run (user : String) (view : View) (policy : RefreshPolicy)
    (steps : List Step) {ds ds' : List (String × Reply)}
    (hawaits : Awaits ((start user view policy).run steps) ds) (hperm : ds.Perm ds') :
  let desk := (start user view policy).run steps
  desk.run (replies ds) = desk.run (replies ds')
    ∧ (desk.history (replies ds)).Perm (desk.history (replies ds'))
    ∧ ∀ d ∈ ds, ∃ outcome,
      Event.mk (.reply d.1 d.2) (some (.done outcome)) ∈ desk.history (replies ds)
  := by
  intro desk
  refine ⟨?_, ?_, ?_⟩
  · apply hawaits.run_replies (reached_run user view policy steps) hperm
  · rw [hawaits.history_replies, (hawaits.perm hperm).history_replies]
    apply (List.reverse_perm _).trans
    apply (hperm.map _).trans
    apply (List.reverse_perm _).symm
  · intro d hmem
    apply hawaits.exists_done hmem

/-- A refresh fails and the one that it superseded succeeds, in either order. -/
theorem replies_swap_run :
  let desk := (start "ann" .home {}).run [.begin "a" .refresh, .begin "b" (.switchUser "bob")]
  desk.run [.reply "a" (.succeeded [.placeholder]), .reply "b" .failed]
      = desk.run [.reply "b" .failed, .reply "a" (.succeeded [.placeholder])]
  := by
  have hawaits :
      Awaits ((start "ann" .home {}).run [.begin "a" .refresh, .begin "b" (.switchUser "bob")])
        [("a", .succeeded [.placeholder]), ("b", .failed)] := by
    constructor
    · decide
    · intro d hmem
      obtain rfl | hmem := List.mem_cons.mp hmem
      · refine ⟨_, rfl⟩
      · obtain rfl := List.mem_singleton.mp hmem
        refine ⟨_, rfl⟩
  apply (replies_perm_run _ _ _ _ hawaits (List.Perm.swap _ _ [])).1

end Desk

end FeedClient
