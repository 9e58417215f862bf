import FeedClient.Configuration.File
import FeedClient.Invocation.Reader
import FeedClient.Proofs.NavBar.Activation

/-!
# Where a setting comes from

Every setting has layers: what the command line says, for some settings the environment, and the
configuration file. The first layer that says anything counts, even if it gives an empty text, and
the usual value stands below them all. A file can make a configuration impossible only by its view,
and only if the command line names none.
-/

namespace FeedClient

/-- A value is that of the first layer that gives one, or the usual value if none does. -/
inductive Layered {α : Type} (usual : α) : List (Option α) → α → Prop
  | usual : Layered usual [] usual
  | given (a : α) (below : List (Option α)) : Layered usual (some a :: below) a
  | silent {below : List (Option α)} {a : α} (h : Layered usual below a) :
    Layered usual (none :: below) a

namespace Layered

variable {α : Type} {usual a b : α} {layers : List (Option α)}

/-- The layers decide the value. -/
theorem unique (h : Layered usual layers a) (h' : Layered usual layers b) :
  a = b
  := by
  induction h with
  | usual =>
      cases h'
      rfl
  | given a below =>
      cases h'
      rfl
  | silent h ih =>
      cases h' with
      | silent h' => apply ih h'

theorem congr {layers' : List (Option α)} (h : Layered usual layers a) (h' : Layered usual layers' b)
    (hsame : layers = layers') :
  a = b
  := by
  rw [hsame] at h
  apply h.unique h'

/-- A layer counts before those below it. -/
theorem getD (h : Layered usual layers a) (layer : Option α) :
  Layered usual (layer :: layers) (layer.getD a)
  := by
  cases layer with
  | none => apply silent h
  | some b => apply given

theorem getD_usual (layer : Option α) :
  Layered usual [layer] (layer.getD usual)
  := Layered.usual.getD layer

end Layered

namespace Configuration

/-- No view can be chosen when the preferred one is needed and does not exist. -/
theorem exists_chooseView_eq_error_iff {given : Option View} {preferred : Option String} :
  (∃ e, chooseView given preferred = .error e)
    ↔ given = none ∧ ∃ label, preferred = some label ∧ View.ofLabel? label = none
  := by
  cases given with
  | some view => simp [chooseView]
  | none =>
      cases preferred with
      | none => simp [chooseView]
      | some label =>
          cases hlabel : View.ofLabel? label <;> simp [chooseView, View.parse, hlabel]

/-- A view that is chosen comes from the layers of views. -/
theorem layered_of_chooseView {given : Option View} {preferred : Option String} {view : View}
    (h : chooseView given preferred = .ok view) :
  Layered .home [given, preferred.bind View.ofLabel?] view
  := by
  cases given with
  | some other =>
      obtain rfl := Except.ok.inj h
      apply Layered.given
  | none =>
      apply Layered.silent
      cases preferred with
      | none =>
          obtain rfl := Except.ok.inj h
          apply Layered.getD_usual none
      | some label =>
          rw [chooseView, View.parse] at h
          rw [Option.bind_some]
          split at h
          · next found hfound =>
              obtain rfl := Except.ok.inj h
              rw [hfound]
              apply Layered.given
          · cases h

/-- Arguments that are accepted and a file that loads, if there is one, with what they say. -/
structure Sources where
  args : List String
  env : Environment
  file : Option String
  invocation : Invocation
  preferences : Preferences
  accepted : Invocation.read args = .ok invocation
  loads : Preferences.load file = .ok preferences

namespace Sources

variable (s : Sources)

/-- What comes of all sources. -/
def merged : Except View.Unknown Configuration :=
  choose (s.invocation.within s.env) s.preferences

def servers : List (Option String) :=
  [s.invocation.server, s.env.server, s.preferences.server]

def users : List (Option String) :=
  [s.invocation.user, s.env.user, s.preferences.user]

/-- The view of the command line, and the one that the label of the file names. -/
def views : List (Option View) :=
  [s.invocation.view, s.preferences.view.bind View.ofLabel?]

def timeouts : List (Option UInt64) :=
  [s.invocation.timeout, s.preferences.timeout]

/-- When a subscription is followed by a refresh. -/
def subscribeRules : List (Option RefreshOn) :=
  [s.preferences.subscribeRefresh]

/-- When the end of a subscription is followed by a refresh. -/
def unsubscribeRules : List (Option RefreshOn) :=
  [s.preferences.unsubscribeRefresh]

/-- A configuration is made of the values of its layers. -/
structure Yields (c : Configuration) : Prop where
  server : Layered "http://localhost" s.servers c.server
  user : Layered "" s.users c.user
  view : Layered .home s.views c.view
  timeout : Layered 30 s.timeouts c.timeout
  subscribe : Layered .always s.subscribeRules c.policy.subscribe
  unsubscribe : Layered .success s.unsubscribeRules c.policy.unsubscribe

/-- Each setting is looked for in its own layers, and the view alone can fail. -/
theorem merged_eq :
  s.merged = (chooseView s.invocation.view s.preferences.view).map fun view =>
    { server := s.invocation.server.getD (s.env.server.getD (s.preferences.server.getD defaultServer))
      user := s.invocation.user.getD (s.env.user.getD (s.preferences.user.getD ""))
      view
      timeout := s.invocation.timeout.getD (s.preferences.timeout.getD defaultTimeout)
      policy := ⟨s.preferences.subscribeRefresh.getD .always,
        s.preferences.unsubscribeRefresh.getD .success⟩ }
  := by
  have hview : (s.invocation.within s.env).view = s.invocation.view := rfl
  rw [merged, choose, hview]
  cases chooseView s.invocation.view s.preferences.view with
  | error e => rfl
  | ok view =>
      simp only [Invocation.within, Option.getD_or]
      rfl

variable {s}

/-- No configuration comes of the sources exactly when the file has to name the view, and does not. -/
theorem exists_merged_eq_error_iff :
  (∃ e, s.merged = .error e) ↔ s.invocation.view = none
    ∧ ∃ label, s.preferences.view = some label ∧ ∀ view, ¬ View.Names label view
  := by
  simp only [← View.ofLabel?_eq_none_iff]
  rw [← exists_chooseView_eq_error_iff, merged_eq]
  cases chooseView s.invocation.view s.preferences.view <;> simp [Except.map]

theorem yields_of_merged {c : Configuration} (h : s.merged = .ok c) :
  s.Yields c
  := by
  rw [merged_eq] at h
  cases hview : chooseView s.invocation.view s.preferences.view with
  | error e =>
      rw [hview] at h
      cases h
  | ok view =>
      rw [hview] at h
      obtain rfl := Except.ok.inj h
      constructor
      · apply ((Layered.getD_usual s.preferences.server).getD s.env.server).getD
      · apply ((Layered.getD_usual s.preferences.user).getD s.env.user).getD
      · apply layered_of_chooseView hview
      · apply (Layered.getD_usual s.preferences.timeout).getD
      · apply Layered.getD_usual
      · apply Layered.getD_usual

/-- An unknown view in the file does not matter when the command line names one. -/
theorem exists_merged_of_view {view : View} (h : s.invocation.view = some view) :
  ∃ c, s.merged = .ok c ∧ c.view = view
  := by
  rw [merged_eq, h]
  exact ⟨_, rfl, rfl⟩

/-- The value of every setting is that of the first of its layers that gives one, and an empty text
is a value. No configuration comes of the sources exactly when no view is given and the file holds a
label that names none; a view that is given makes up for such a label. So configurations of any two
sources agree on every setting whose layers are the same in both. -/
theorem merged_layered :
  (∀ s : Sources, (∃ e, s.merged = .error e) ↔ s.invocation.view = none
      ∧ ∃ label, s.preferences.view = some label ∧ ∀ view, ¬ View.Names label view)
    ∧ (∀ (s : Sources) (view : View), s.invocation.view = some view →
      ∃ c, s.merged = .ok c ∧ c.view = view)
    ∧ (∀ (s : Sources) (c : Configuration), s.merged = .ok c → s.Yields c)
    ∧ ∀ (s s' : Sources) (c c' : Configuration), s.merged = .ok c → s'.merged = .ok c' →
      (s.servers = s'.servers → c.server = c'.server) ∧ (s.users = s'.users → c.user = c'.user)
        ∧ (s.views = s'.views → c.view = c'.view)
        ∧ (s.timeouts = s'.timeouts → c.timeout = c'.timeout)
        ∧ (s.subscribeRules = s'.subscribeRules → c.policy.subscribe = c'.policy.subscribe)
        ∧ (s.unsubscribeRules = s'.unsubscribeRules → c.policy.unsubscribe = c'.policy.unsubscribe)
  := by
  refine ⟨fun _ => exists_merged_eq_error_iff, fun _ _ => exists_merged_of_view,
    fun _ _ => yields_of_merged, ?_⟩
  intro s s' c c' h h'
  have hc := yields_of_merged h
  have hc' := yields_of_merged h'
  use hc.server.congr hc'.server, hc.user.congr hc'.user, hc.view.congr hc'.view,
    hc.timeout.congr hc'.timeout, hc.subscribe.congr hc'.subscribe
  apply hc.unsubscribe.congr hc'.unsubscribe

/-- An empty user is a user, and a given view makes up for an unknown one in the file. -/
def overridden : Sources where
  args := ["-u", "", "--view", " Discover\t"]
  env := { server := "http://env", user := "eve" }
  file := "server = 'http://file'\nview = 'Nowhere'\ntimeout_secs = 5"
  invocation := { user := "", view := some .discover }
  preferences := { server := "http://file", view := "Nowhere", timeout := some 5 }
  accepted := by decide +kernel
  loads := by decide +kernel

/-- The environment and the file say the same about the server, and other things differ. -/
def partlySame : Sources where
  args := ["--timeout=7", "feed"]
  env := { server := "http://env" }
  file := "server = 'http://file'\nsubscribe_refresh = 'success'"
  invocation := { timeout := some 7, command := some .feed }
  preferences := { server := "http://file", subscribeRefresh := some .success }
  accepted := by decide +kernel
  loads := by decide +kernel

/-- What is given counts, what is silent does not, and the server is the same in both. -/
theorem merged_layered_overridden :
  ∃ c c', overridden.merged = .ok c ∧ partlySame.merged = .ok c' ∧ c.view = .discover
    ∧ overridden.Yields c ∧ c.user = "" ∧ c.timeout = 5
    ∧ overridden.servers = partlySame.servers ∧ c.server = c'.server
  := by
  obtain ⟨-, hgiven, hyields, hagree⟩ := merged_layered
  obtain ⟨c, hc, hview⟩ := hgiven overridden .discover rfl
  obtain ⟨c', hc'⟩ : ∃ c', partlySame.merged = .ok c' := ⟨_, rfl⟩
  have hlayers := hyields overridden c hc
  have hservers : overridden.servers = partlySame.servers := rfl
  refine ⟨c, c', hc, hc', hview, hlayers, ?_, ?_, hservers, ?_⟩
  · apply hlayers.user.unique (.given "" _)
  · apply hlayers.timeout.unique (.silent (.given 5 _))
  · apply (hagree _ _ c c' hc hc').1 hservers

end Sources

end Configuration

end FeedClient
