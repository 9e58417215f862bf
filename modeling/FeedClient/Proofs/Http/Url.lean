import FeedClient.Http.Url
import FeedClient.Proofs.Http.Form
import Mathlib.Data.List.Basic
import Mathlib.Data.List.DropRight
import Mathlib.Data.List.TakeWhile

/-!
# Which texts are addresses

A text is an address exactly when, apart from what may stand around it, a scheme, slashes and the
start of the name of a server stand at its start. So what is appended to an address makes another
address. An address that is read from a text without question marks and number signs has no query,
and no question mark in its path.
-/

namespace FeedClient.Url

/-! ### The name of a server -/

/-- A text begins with a scheme and slashes, and the name of a server begins what stands behind
them. -/
structure Locates (s : List Char) (secure : Bool) (place : List Char) : Prop where
  lead : ∃ scheme slashes, (scheme.map Char.toLower, secure) ∈ schemes
    ∧ (∀ c ∈ slashes, isSlash c = true) ∧ s = scheme ++ slashes ++ place
  name : ∃ c rest, place = c :: rest ∧ endsAuthority c = false ∧ isPadding c = false

theorem isSlash_of_endsAuthority {c : Char} (h : endsAuthority c = false) :
  isSlash c = false
  := by
  simp only [endsAuthority, Bool.or_eq_false_iff] at h
  exact h.1.1

/-- What stands behind the scheme that a text starts with is cut off. -/
theorem cutScheme?_eq_some_iff {s rest : List Char} {secure : Bool} :
  cutScheme? s = some (secure, rest)
    ↔ ∃ scheme, (scheme.map Char.toLower, secure) ∈ schemes ∧ s = scheme ++ rest
  := by
  constructor
  · intro h
    obtain ⟨scheme, hmem, hread⟩ := List.exists_of_findSome?_eq_some h
    obtain ⟨hscheme, hrest⟩ := Option.ite_none_right_eq_some.mp hread
    obtain ⟨rfl, rfl⟩ := Prod.mk.inj (Option.some.inj hrest)
    use s.take scheme.1.length
    rw [hscheme, List.take_append_drop]
    exact ⟨hmem, rfl⟩
  · rintro ⟨scheme, hmem, rfl⟩
    simp only [schemes, List.mem_cons, Prod.mk.injEq, List.not_mem_nil, or_false] at hmem
    obtain ⟨hscheme, rfl⟩ | ⟨hscheme, rfl⟩ := hmem
    · have hlength : scheme.length = "http:".toList.length := by
        rw [← hscheme, List.length_map]
      simp only [cutScheme?, schemes, List.findSome?_cons, List.take_left' hlength,
        List.drop_left' hlength, hscheme, if_true]
    · have hlength : scheme.length = "https:".toList.length := by
        rw [← hscheme, List.length_map]
      have hother : (List.take "http:".toList.length (scheme ++ rest)).map Char.toLower
          ≠ "http:".toList := by
        rw [List.take_append_of_le_length (by rw [hlength]; decide), List.map_take, hscheme]
        decide
      simp only [cutScheme?, schemes, List.findSome?_cons, if_neg hother,
        List.take_left' hlength, List.drop_left' hlength, hscheme, if_true]

theorem ofRest?_eq_some_iff {secure : Bool} {s : List Char} {url : Url} :
  ofRest? secure s = some url
    ↔ ∃ slashes place, (∀ c ∈ slashes, isSlash c = true) ∧ s = slashes ++ place
      ∧ (∃ c rest, place = c :: rest ∧ endsAuthority c = false ∧ isPadding c = false)
      ∧ url = ofAuthority secure place
  := by
  constructor
  · intro h
    rw [ofRest?] at h
    cases hplace : s.dropWhile isSlash with
    | nil => simp [hplace] at h
    | cons c rest =>
        simp only [hplace, Option.ite_none_left_eq_some, Bool.not_eq_true, Bool.or_eq_false_iff,
          Option.some.injEq] at h
        obtain ⟨hname, rfl⟩ := h
        refine ⟨s.takeWhile isSlash, c :: rest, ?_, ?_, ⟨c, rest, rfl, hname⟩, rfl⟩
        · intro d hd
          apply List.mem_takeWhile_imp hd
        · rw [← hplace, List.takeWhile_append_dropWhile]
  · rintro ⟨slashes, place, hslashes, rfl, ⟨c, rest, rfl, hends, hpadding⟩, rfl⟩
    have hplace : (slashes ++ c :: rest).dropWhile isSlash = c :: rest := by
      rw [List.dropWhile_append_of_pos hslashes,
        List.dropWhile_cons_of_neg (by simp [isSlash_of_endsAuthority hends])]
    simp [ofRest?, hplace, hends, hpadding]

/-- Of an address, the scheme and the slashes are read, and then what begins with the name of the
server. -/
theorem parse?_eq_some_iff {text : String} {url : Url} :
  parse? text = some url
    ↔ ∃ secure place, Locates (tidy text.toList) secure place ∧ url = ofAuthority secure place
  := by
  rw [parse?, Option.bind_eq_some_iff]
  constructor
  · rintro ⟨⟨secure, rest⟩, hscheme, hrest⟩
    obtain ⟨scheme, hmem, htext⟩ := cutScheme?_eq_some_iff.mp hscheme
    obtain ⟨slashes, place, hslashes, rfl, hname, rfl⟩ := ofRest?_eq_some_iff.mp hrest
    refine ⟨secure, place, ⟨⟨scheme, slashes, hmem, hslashes, ?_⟩, hname⟩, rfl⟩
    rw [htext, List.append_assoc]
  · rintro ⟨secure, place, ⟨⟨scheme, slashes, hmem, hslashes, htext⟩, hname⟩, rfl⟩
    refine ⟨(secure, slashes ++ place), ?_, ?_⟩
    · rw [cutScheme?_eq_some_iff]
      use scheme, hmem
      rw [htext, List.append_assoc]
    · rw [ofRest?_eq_some_iff]
      exact ⟨slashes, place, hslashes, rfl, hname, rfl⟩

/-- More text does not change what a text begins with. -/
theorem Locates.append {s place : List Char} {secure : Bool} (h : Locates s secure place)
    (more : List Char) :
  Locates (s ++ more) secure (place ++ more)
  := by
  obtain ⟨⟨scheme, slashes, hmem, hslashes, rfl⟩, c, rest, rfl, hname⟩ := h
  constructor
  · use scheme, slashes, hmem, hslashes, List.append_assoc _ _ _
  · exact ⟨c, rest ++ more, rfl, hname⟩

/-- Leaving out what stands at the end keeps everything up to a character that stays. -/
private theorem exists_rdropWhile_append {α : Type} {p : α → Bool} {c : α} (hc : p c = false)
    (s t : List α) :
  ∃ rest, (s ++ c :: t).rdropWhile p = s ++ c :: rest
  := by
  induction t using List.reverseRecOn with
  | nil =>
    use []
    apply List.rdropWhile_concat_neg
    simp [hc]
  | append_singleton t x ih =>
    rw [← List.cons_append, ← List.append_assoc, List.rdropWhile_concat]
    split
    · apply ih
    · use t ++ [x]
      rw [List.append_assoc, List.cons_append]

/-- Leaving out at the end what is not part of a name does not touch the start of the name. -/
theorem Locates.rdropWhile {s place : List Char} {secure : Bool} (h : Locates s secure place)
    {p : Char → Bool} (hp : ∀ c, endsAuthority c = false → isPadding c = false → p c = false) :
  ∃ place', Locates (s.rdropWhile p) secure place'
  := by
  obtain ⟨⟨scheme, slashes, hmem, hslashes, rfl⟩, c, rest, rfl, hends, hpadding⟩ := h
  obtain ⟨rest', hrest'⟩ :=
    exists_rdropWhile_append (hp c hends hpadding) (scheme ++ slashes) rest
  use c :: rest'
  constructor
  · use scheme, slashes, hmem, hslashes, hrest'
  · use c, rest', rfl, hends, hpadding

/-! ### Texts around an address -/

/-- A text from the start of an address on. -/
def begun (s : List Char) : List Char :=
  (s.filter fun c => !isBreak c).dropWhile isPadding

theorem tidy_eq (s : List Char) :
  tidy s = (begun s).rdropWhile isPadding
  := rfl

/-- A text is an address if it is one from its start on. -/
theorem parse?_isSome_iff (text : String) :
  (parse? text).isSome ↔ ∃ secure place, Locates (begun text.toList) secure place
  := by
  constructor
  · intro h
    obtain ⟨url, hurl⟩ := Option.isSome_iff_exists.mp h
    obtain ⟨secure, place, hlocates, -⟩ := parse?_eq_some_iff.mp hurl
    obtain ⟨rest, hrest⟩ := List.rdropWhile_prefix isPadding (l := begun text.toList)
    use secure, place ++ rest
    rw [← hrest]
    apply hlocates.append
  · rintro ⟨secure, place, hlocates⟩
    obtain ⟨place', hplace'⟩ := hlocates.rdropWhile fun _ _ hpadding => hpadding
    apply Option.isSome_iff_exists.mpr
    use ofAuthority secure place'
    exact parse?_eq_some_iff.mpr ⟨secure, place', hplace', rfl⟩

theorem prefix_takeWhile {s t : List Char} (h : s <+: t) (p : Char → Bool) :
  s.takeWhile p <+: t.takeWhile p
  := by
  obtain ⟨more, rfl⟩ := h
  rw [List.takeWhile_append]
  split
  · next hall =>
      rw [(List.takeWhile_prefix p).eq_of_length hall]
      apply List.prefix_append
  · apply List.prefix_rfl

theorem prefix_dropWhile {s t : List Char} (h : s <+: t) (p : Char → Bool) :
  s.dropWhile p <+: t.dropWhile p
  := by
  obtain ⟨more, rfl⟩ := h
  rw [List.dropWhile_append]
  split
  · next hall =>
      rw [List.isEmpty_iff.mp hall]
      apply List.nil_prefix
  · apply List.prefix_append

theorem begun_prefix_append (s t : List Char) :
  begun s <+: begun (s ++ t)
  := by
  rw [begun, begun, List.filter_append]
  apply prefix_dropWhile (List.prefix_append _ _)

/-- What is appended to an address makes another address. -/
theorem parse?_isSome_append {text : String} (h : (parse? text).isSome) (more : String) :
  (parse? (text ++ more)).isSome
  := by
  obtain ⟨secure, place, hlocates⟩ := (parse?_isSome_iff text).mp h
  obtain ⟨rest, hrest⟩ := begun_prefix_append text.toList more.toList
  rw [parse?_isSome_iff, String.toList_append, ← hrest]
  use secure, place ++ rest
  apply hlocates.append

/-- Characters that are part of an address wherever they stand in it. -/
abbrev Solid (s : List Char) : Prop :=
  ∀ c ∈ s, isBreak c = false ∧ isPadding c = false

theorem begun_append {t : List Char} (h : Solid t) (hne : t ≠ []) (s : List Char) :
  begun (s ++ t) = begun s ++ t
  := by
  have hfilter : (t.filter fun c => !isBreak c) = t := by
    rw [List.filter_eq_self]
    intro c hc
    simp [(h c hc).1]
  have hdrop : t.dropWhile isPadding = t := by
    obtain ⟨c, rest, rfl⟩ := List.exists_cons_of_ne_nil hne
    rw [List.dropWhile_cons_of_neg]
    simp [(h c List.mem_cons_self).2]
  rw [begun, begun, List.filter_append, hfilter, List.dropWhile_append]
  split
  · next hall =>
      rw [List.isEmpty_iff.mp hall, hdrop, List.nil_append]
  · rfl

theorem tidy_append {t : List Char} (h : Solid t) (hne : t ≠ []) (s : List Char) :
  tidy (s ++ t) = begun s ++ t
  := by
  obtain ⟨init, c, rfl⟩ : ∃ init c, t = init ++ [c] :=
    ⟨t.dropLast, t.getLast hne, (List.dropLast_append_getLast hne).symm⟩
  have hlast : isPadding c = false := (h c (by simp)).2
  rw [tidy_eq, begun_append h hne, ← List.append_assoc]
  apply List.rdropWhile_concat_neg
  simp [hlast]

/-- Without the slashes at its end, an address is one. -/
theorem parse?_isSome_of_append {text : String} {slashes : String}
    (hslashes : ∀ c ∈ slashes.toList, c = '/') (h : (parse? (text ++ slashes)).isSome) :
  (parse? text).isSome
  := by
  rw [parse?_isSome_iff] at h ⊢
  obtain ⟨secure, place, ⟨scheme, lead, hmem, hlead, htext⟩, c, rest, rfl, hends, hpadding⟩ := h
  have hbegun : begun text.toList ++ slashes.toList = scheme ++ lead ++ c :: rest := by
    rw [← htext, String.toList_append]
    by_cases hne : slashes.toList = []
    · rw [hne, List.append_nil, List.append_nil]
    · symm
      apply begun_append _ hne
      intro d hd
      rw [hslashes d hd]
      decide
  have hname : c ∉ slashes.toList := by
    intro hmem
    rw [hslashes c hmem] at hends
    exact absurd hends (by decide)
  -- so the name of the server begins before the slashes at the end
  obtain ⟨more, -, hrest⟩ | ⟨more, hmore, hrest⟩ := List.append_eq_append_iff.mp hbegun
  · rw [hrest] at hname
    simp at hname
  · cases more with
    | nil =>
        rw [List.nil_append] at hrest
        rw [← hrest] at hname
        simp at hname
    | cons d more =>
        obtain ⟨rfl, -⟩ := List.cons.inj hrest
        use secure, c :: more
        constructor
        · use scheme, lead, hmem, hlead, hmore
        · use c, more, rfl, hends, hpadding

/-! ### Paths -/

theorem mem_of_mem_cutAll {mark c : Char} {s part : List Char} (hpart : part ∈ Form.cutAll mark s)
    (hc : c ∈ part) :
  c ∈ s
  := by
  induction s generalizing part with
  | nil =>
      obtain rfl := List.mem_singleton.mp hpart
      cases hc
  | cons d s ih =>
      obtain ⟨first, parts, hparts⟩ := Form.exists_cutAll mark s
      rw [hparts] at ih
      by_cases hd : d = mark
      · rw [hd, Form.cutAll_cons_self, hparts] at hpart
        obtain rfl | hpart := List.mem_cons.mp hpart
        · cases hc
        · exact List.mem_cons_of_mem _ (ih hpart hc)
      · rw [Form.cutAll_cons_of_ne hd hparts] at hpart
        obtain rfl | hpart := List.mem_cons.mp hpart
        · obtain rfl | hc := List.mem_cons.mp hc
          · apply List.mem_cons_self
          · exact List.mem_cons_of_mem _ (ih List.mem_cons_self hc)
        · exact List.mem_cons_of_mem _ (ih (List.mem_cons_of_mem _ hpart) hc)

/-- The segments that are left of a path are some of those that have been gone by. -/
theorem mem_of_mem_foldl_climb {segment : List Char} {behind segments : List (List Char)}
    (h : segment ∈ segments.foldl climb behind) :
  segment ∈ behind ∨ segment ∈ segments
  := by
  induction segments generalizing behind with
  | nil => exact .inl h
  | cons next segments ih =>
      obtain h | h := ih h
      · rw [climb] at h
        split at h
        · exact .inl (List.mem_of_mem_tail h)
        · split at h
          · exact .inl h
          · obtain rfl | h := List.mem_cons.mp h
            · exact .inr List.mem_cons_self
            · exact .inl h
      · exact .inr (List.mem_cons_of_mem _ h)

theorem mem_of_mem_opened {segment : List Char} {segments : List (List Char)}
    (h : segment ∈ opened segments) :
  segment ∈ segments ∨ segment = []
  := by
  rw [opened] at h
  split at h
  · simpa using h
  · exact .inl h

/-- No question mark comes into an escaped text. -/
theorem not_mem_escape {s : List Char} (h : '?' ∉ s) (inQuery : Bool) :
  '?' ∉ escape inQuery s
  := by
  intro hmem
  obtain ⟨b, hb, hc⟩ := List.mem_flatMap.mp hmem
  split at hc
  · next hallowed =>
      have hle : b.toNat ≤ 0x7E := by
        simp only [isAllowed, Bool.and_eq_true, decide_eq_true_eq] at hallowed
        exact hallowed.1.1.1.1.2
      apply h
      rw [List.mem_singleton.mp hc]
      apply Charset.mem_of_mem_encode hb
      omega
  · have hbyte := b.toNat_lt
    simp only [Form.percent, List.mem_cons, List.not_mem_nil, or_false] at hc
    obtain hc | hc | hc := hc
    · cases hc
    · exact (Form.hexDigit_ne (by omega)).2.2 hc.symm
    · exact (Form.hexDigit_ne (by omega)).2.2 hc.symm

/-- No question mark comes into a path. -/
theorem not_mem_walk {s : List Char} (h : '?' ∉ s) :
  '?' ∉ walk s
  := by
  have hsegments : ∀ segment ∈ segments s, '?' ∉ segment := by
    intro segment hsegment hmark
    have hmem := mem_of_mem_cutAll (List.mem_of_mem_drop hsegment) hmark
    obtain ⟨c, hc, heq⟩ := List.mem_map.mp hmem
    split at heq
    · cases heq
    · rw [heq] at hc
      exact h hc
  rw [walk]
  split
  · decide
  · rw [pathOf, List.mem_flatMap]
    rintro ⟨segment, hsegment, hmark⟩
    have hnot : '?' ∉ segment := by
      obtain hnil | hmem := mem_of_mem_foldl_climb (List.mem_reverse.mp hsegment)
      · cases hnil
      · obtain hmem | rfl := mem_of_mem_opened hmem
        · apply hsegments segment hmem
        · exact List.not_mem_nil
    obtain hslash | hmark := List.mem_cons.mp hmark
    · cases hslash
    · exact not_mem_escape hnot false hmark

/-- The last segment that is gone by leads neither up nor nowhere. -/
theorem exists_opened {segments : List (List Char)} (h : segments ≠ []) :
  ∃ init last, opened segments = init ++ [last] ∧ isUp last = false ∧ isHere last = false
  := by
  rw [opened, List.getLast?_eq_some_getLast h, Option.any_some]
  split
  · exact ⟨segments, [], rfl, by decide, by decide⟩
  · next hlast =>
      rw [Bool.not_eq_true, Bool.or_eq_false_iff] at hlast
      exact ⟨segments.dropLast, _, (List.dropLast_append_getLast h).symm, hlast⟩

/-- A path begins with a slash. -/
theorem head?_walk {s : List Char} (h : ∀ c ∈ s.head?, isSlash c = true) :
  (walk s).head? = some '/'
  := by
  rw [walk]
  cases s with
  | nil => rfl
  | cons c s =>
      have hslash : (if c = '\\' then '/' else c) = '/' := by
        have hc := h c rfl
        simp only [isSlash, Bool.or_eq_true, decide_eq_true_eq] at hc
        obtain rfl | rfl := hc
        · rfl
        · rfl
      have hne : segments (c :: s) ≠ [] := by
        obtain ⟨first, parts, hparts⟩ :=
          Form.exists_cutAll '/' (s.map fun c => if c = '\\' then '/' else c)
        rw [segments, List.map_cons, hslash, Form.cutAll_cons_self, hparts]
        apply List.cons_ne_nil
      obtain ⟨init, last, hopened, hup, hhere⟩ := exists_opened hne
      rw [hopened, List.foldl_append, List.foldl_cons, List.foldl_nil, climb, hup, hhere]
      simp only [List.isEmpty_cons, Bool.false_eq_true, if_false, pathOf, List.reverse_cons]
      cases ((init.foldl climb []).reverse) <;> rfl

/-! ### Queries -/

/-- How long the query of an address is, with its question mark. -/
def queryLength (url : Url) : Nat :=
  (url.query.map fun query => query.length + 1).getD 0

/-- Parameters make a query longer. -/
theorem queryLength_lt_addQuery (url : Url) {parameters : List (String × String)}
    (h : parameters ≠ []) :
  url.queryLength < (url.addQuery parameters).queryLength
  := by
  obtain ⟨parameter, others, rfl⟩ := List.exists_cons_of_ne_nil h
  have hencode : 0 < (Form.encode (parameter :: others)).length := by
    cases others <;> simp only [Form.encode, Form.encodePair, List.length_append, List.length_cons]
      <;> omega
  obtain ⟨secure, authority, path, _ | _ | ⟨c, query⟩⟩ := url
  · simp [queryLength, addQuery]
  · simp [queryLength, addQuery]
    omega
  · simp [queryLength, addQuery]

/-- More text makes no shorter query. -/
theorem queryLength_ofAuthority_le {s t : List Char} (h : s <+: t) (secure : Bool) :
  (ofAuthority secure s).queryLength ≤ (ofAuthority secure t).queryLength
  := by
  have hprefix := prefix_dropWhile (prefix_takeWhile
    (prefix_dropWhile h fun c => !endsAuthority c) fun c => c ≠ '#') fun c => c ≠ '?'
  simp only [queryLength, ofAuthority, cutQuery]
  generalize ((s.dropWhile _).takeWhile _).dropWhile _ = query at *
  generalize ((t.dropWhile _).takeWhile _).dropWhile _ = query' at *
  cases query with
  | nil => apply Nat.zero_le
  | cons c query =>
      obtain ⟨more, rfl⟩ := hprefix
      simp [escape, Charset.encode]

/-- A text without question mark and number sign has no query. -/
theorem ofAuthority_of_not_mem {secure : Bool} {s : List Char} (hquery : '?' ∉ s)
    (hfragment : '#' ∉ s) :
  ofAuthority secure s = ⟨secure, String.ofList (s.takeWhile fun c => !endsAuthority c),
    walk (s.dropWhile fun c => !endsAuthority c), none⟩
  := by
  have hsublist := List.dropWhile_sublist (fun c => !endsAuthority c) (l := s)
  simp only [ofAuthority, cutQuery]
  generalize s.dropWhile (fun c => !endsAuthority c) = resource at *
  have hresource : resource.takeWhile (· ≠ '#') = resource := by
    rw [List.takeWhile_eq_self_iff]
    intro c hc
    rw [decide_eq_true_eq]
    rintro rfl
    exact hfragment (hsublist.subset hc)
  have hmark : ∀ c ∈ resource, decide (c ≠ '?') = true := by
    intro c hc
    rw [decide_eq_true_eq]
    rintro rfl
    exact hquery (hsublist.subset hc)
  rw [hresource, List.takeWhile_eq_self_iff.mpr hmark, List.dropWhile_eq_nil_iff.mpr hmark]

theorem Locates.subset {s place : List Char} {secure : Bool} (h : Locates s secure place) :
  place ⊆ s
  := by
  obtain ⟨⟨scheme, slashes, -, -, rfl⟩, -⟩ := h
  apply List.subset_append_right

theorem begun_subset (s : List Char) :
  begun s ⊆ s
  := by
  intro c hc
  apply List.mem_of_mem_filter ((List.dropWhile_sublist isPadding).subset hc)

theorem tidy_subset (s : List Char) :
  tidy s ⊆ s
  := by
  intro c hc
  apply begun_subset s ((List.rdropWhile_prefix isPadding (l := begun s)).subset hc)

theorem parse?_eq_some {text : String} {url : Url} (hquery : '?' ∉ text.toList)
    (hfragment : '#' ∉ text.toList) (h : parse? text = some url) :
  url.query = none ∧ '?' ∉ url.path
  := by
  obtain ⟨secure, place, hlocates, rfl⟩ := parse?_eq_some_iff.mp h
  have hsubset : place ⊆ text.toList := fun _ hc => tidy_subset _ (hlocates.subset hc)
  have hplace : '?' ∉ place := fun hmem => hquery (hsubset hmem)
  rw [ofAuthority_of_not_mem hplace fun hmem => hfragment (hsubset hmem)]
  refine ⟨rfl, not_mem_walk ?_⟩
  intro hmem
  exact hplace ((List.dropWhile_sublist _).subset hmem)

/-! ### Targets -/

/-- What stands before the first question mark of a target. -/
def targetPath (target : String) : List Char :=
  target.toList.takeWhile (· ≠ '?')

/-- What stands behind the first question mark of a target. -/
def targetQuery (target : String) : List Char :=
  (target.toList.dropWhile (· ≠ '?')).drop 1

/-- A target is cut where its query begins. -/
theorem cut_target {url : Url} (h : '?' ∉ url.path) :
  targetPath url.target = url.path ∧ targetQuery url.target = url.query.getD []
  := by
  have hplain : ∀ c ∈ url.path, decide (c ≠ '?') = true := by
    intro c hc
    rw [decide_eq_true_eq]
    rintro rfl
    exact h hc
  rw [targetPath, targetQuery, target, String.toList_ofList, List.takeWhile_append_of_pos hplain,
    List.dropWhile_append_of_pos hplain]
  cases url.query <;> simp

/-- Parameters of an address without query are its query then. -/
theorem decode_query_addQuery {url : Url} (h : url.query = none)
    (parameters : List (String × String)) :
  Form.decode ((url.addQuery parameters).query.getD []) = parameters
  := by
  cases parameters with
  | nil =>
      rw [addQuery, h]
      rfl
  | cons parameter parameters =>
      have hadd : (url.addQuery (parameter :: parameters)).query
          = some (Form.encode (parameter :: parameters)) := by
        simp [addQuery, h]
      rw [hadd]
      apply Form.decode_encode

@[simp]
theorem path_addQuery (url : Url) (parameters : List (String × String)) :
  (url.addQuery parameters).path = url.path
  := by
  unfold addQuery
  split <;> rfl

@[simp]
theorem service_addQuery (url : Url) (parameters : List (String × String)) :
  (url.addQuery parameters).service = url.service
  := by
  unfold addQuery
  split <;> rfl

end FeedClient.Url
