import FeedClient.Http.Cookie
import FeedClient.Proofs.Http.Url
import FeedClient.Proofs.Post.Key

/-!
# The addresses of one site

The addresses that are made of one address by appending a slash and a name belong together. They
lead to one server, and their paths lie in one place: what is said for the place that one of them
lies in is said for all of them. When the address has neither a query nor a fragment, its path comes
before each of the names.
-/

namespace FeedClient.Url

open Http (Cookie)

/-! ### Cutting a text after a part of it -/

theorem takeWhile_append_cons {p : Char → Bool} {c : Char} (hp : p c = false) (s t : List Char) :
  (s ++ c :: t).takeWhile p = s.takeWhile p
  := by
  induction s with
  | nil => simp [hp]
  | cons d s ih => rw [List.cons_append, List.takeWhile_cons, List.takeWhile_cons, ih]

/-- A condition that fails somewhere in a text does not come to what stands behind. -/
theorem takeWhile_append_of_mem {p : Char → Bool} {c : Char} {s : List Char} (hc : c ∈ s)
    (hp : p c = false) (t : List Char) :
  (s ++ t).takeWhile p = s.takeWhile p
  := by
  obtain ⟨before, after, rfl⟩ := List.append_of_mem hc
  rw [List.append_assoc, List.cons_append, takeWhile_append_cons hp, takeWhile_append_cons hp]

theorem dropWhile_append_cons {p : Char → Bool} {c : Char} (hp : p c = false) (s t : List Char) :
  (s ++ c :: t).dropWhile p = s.dropWhile p ++ c :: t
  := by
  rw [List.dropWhile_append]
  split
  · next hall =>
      rw [List.isEmpty_iff.mp hall, List.dropWhile_cons_of_neg (by simp [hp]), List.nil_append]
  · rfl

/-! ### The path of an address as it is written -/

/-- What stands in a text from the name of a server on, where the path is. -/
def written (s : List Char) : List Char :=
  ((s.dropWhile fun c => !endsAuthority c).takeWhile (· ≠ '#')).takeWhile (· ≠ '?')

theorem path_ofAuthority (secure : Bool) (s : List Char) :
  (ofAuthority secure s).path = walk (written s)
  := rfl

/-- The path of an address begins with a slash. -/
theorem head?_path_ofAuthority (secure : Bool) (s : List Char) :
  (ofAuthority secure s).path.head? = some '/'
  := by
  rw [path_ofAuthority]
  apply head?_walk
  intro c hc
  have hends := List.head?_dropWhile_not (fun c => !endsAuthority c) s
  rw [written] at hc
  cases hresource : s.dropWhile fun c => !endsAuthority c with
  | nil => simp [hresource] at hc
  | cons d rest =>
      rw [hresource] at hc hends
      have hd : endsAuthority d = true := by
        simpa using hends
      rw [List.takeWhile_takeWhile, List.takeWhile_cons] at hc
      split at hc
      · next hkept =>
          obtain rfl := Option.mem_some.mp hc
          simp only [decide_eq_true_eq] at hkept
          simpa [endsAuthority, hkept] using hd
      · cases hc

/-- A question mark or a number sign ends a path. -/
theorem written_append_of_mem {place : List Char} {c : Char} (hc : c ∈ place)
    (hmark : c = '?' ∨ c = '#') (s : List Char) :
  written (place ++ '/' :: s) = written place
  := by
  have hends : endsAuthority c = true := by
    obtain rfl | rfl := hmark <;> rfl
  have hresource : c ∈ place.dropWhile fun c => !endsAuthority c := by
    rw [← List.takeWhile_append_dropWhile (p := fun c => !endsAuthority c) (l := place),
      List.mem_append] at hc
    apply hc.resolve_left
    intro hname
    have hnot := List.mem_takeWhile_imp hname
    simp [hends] at hnot
  rw [written, written, dropWhile_append_cons rfl, List.takeWhile_takeWhile,
    List.takeWhile_takeWhile, takeWhile_append_of_mem hresource]
  obtain rfl | rfl := hmark <;> rfl

theorem written_append {place s : List Char}
    (h : ∀ c ∈ place ++ s, c ≠ '?' ∧ c ≠ '#') :
  written (place ++ '/' :: s) = (place.dropWhile fun c => !endsAuthority c) ++ '/' :: s
  := by
  rw [written, dropWhile_append_cons rfl, List.takeWhile_takeWhile, List.takeWhile_eq_self_iff]
  intro c hc
  have hne : c ≠ '?' ∧ c ≠ '#' := by
    obtain hc | hc := List.mem_append.mp hc
    · exact h c (List.mem_append_left _ ((List.dropWhile_sublist _).subset hc))
    · obtain rfl | hc := List.mem_cons.mp hc
      · decide
      · exact h c (List.mem_append_right _ hc)
  simp [hne]

/-! ### Names -/

/-- A name that is a segment of a path as it is. -/
structure Plain (name : List Char) : Prop where
  solid : Solid name
  quiet : ∀ c ∈ name, endsAuthority c = false
  here : isHere name = false
  up : isUp name = false
  escape : escape false name = name

-- the characters of the name are looked at, and not all that there are
instance (name : List Char) : Decidable (Plain name) :=
  haveI : Decidable (Solid name) := List.decidableBAll _ name
  haveI : Decidable (∀ c ∈ name, endsAuthority c = false) := List.decidableBAll _ name
  decidable_of_iff (Solid name ∧ (∀ c ∈ name, endsAuthority c = false) ∧ isHere name = false
      ∧ isUp name = false ∧ Url.escape false name = name)
    ⟨fun ⟨solid, quiet, here, up, escape⟩ => ⟨solid, quiet, here, up, escape⟩,
      fun ⟨solid, quiet, here, up, escape⟩ => ⟨solid, quiet, here, up, escape⟩⟩

theorem plain_nil :
  Plain []
  := by
  decide

theorem Plain.not_mem {name : List Char} (h : Plain name) {c : Char}
    (hc : endsAuthority c = true) :
  c ∉ name
  := by
  intro hmem
  rw [h.quiet c hmem] at hc
  contradiction

/-- A slash and a name at the end of a path lead on from where the path has led. -/
theorem walk_append {name : List Char} (h : Plain name) (s : List Char) :
  walk (s ++ '/' :: name) = pathOf ((segments s).foldl climb []).reverse ++ '/' :: name
  := by
  have hmap : (name.map fun c => if c = '\\' then '/' else c) = name := by
    have hid : ∀ c ∈ name, (if c = '\\' then '/' else c) = id c := by
      intro c hc
      rw [id, if_neg]
      rintro rfl
      exact h.not_mem rfl hc
    rw [List.map_congr_left hid, List.map_id]
  have hsegments : segments (s ++ '/' :: name) = segments s ++ [name] := by
    obtain ⟨first, parts, hparts⟩ :=
      Form.exists_cutAll '/' (s.map fun c => if c = '\\' then '/' else c)
    rw [segments, segments, List.map_append, List.map_cons, hmap, if_neg (by decide),
      Form.cutAll_append, Form.cutAll_of_not_mem (h.not_mem rfl), hparts]
    rfl
  have hopened : opened (segments s ++ [name]) = segments s ++ [name] := by
    rw [opened, List.getLast?_concat, Option.any_some, h.up, h.here]
    rfl
  rw [walk, hsegments, hopened, List.foldl_append, List.foldl_cons, List.foldl_nil, climb, h.up,
    h.here]
  simp [pathOf, h.escape]

/-! ### Sites -/

/-- Two addresses lead to one server, and lie in one place there. -/
structure Beside (url url' : Url) : Prop where
  service : url.service = url'.service
  place : Cookie.usualPath url.path = Cookie.usualPath url'.path
  head : url.path.head? = some '/'

/-- Every address lies where it lies itself. -/
theorem beside_self {text : String} {url : Url} (h : parse? text = some url) :
  url.Beside url
  where
  service := rfl
  place := rfl
  head := by
    obtain ⟨secure, place, -, rfl⟩ := parse?_eq_some_iff.mp h
    apply head?_path_ofAuthority

/-- Parameters do not lead elsewhere. -/
theorem Beside.addQuery {url url' : Url} (h : url.Beside url')
    (parameters parameters' : List (String × String)) :
  (url.addQuery parameters).Beside (url'.addQuery parameters')
  where
  service := by
    rw [service_addQuery, service_addQuery, h.service]
  place := by
    rw [path_addQuery, path_addQuery, h.place]
  head := by
    rw [path_addQuery, h.head]

/-- What the addresses of one site begin with, from the name of the server on. -/
structure Site where
  secure : Bool
  place : List Char

namespace Site

/-- The address of a name on a site. -/
def url (site : Site) (name : List Char) : Url :=
  ofAuthority site.secure (site.place ++ '/' :: name)

/-- Every address makes a site. -/
theorem exists_of_address {address : String} (h : (parse? address).isSome) :
  ∃ site : Site, site.place ⊆ address.toList
    ∧ ∀ name : String, Solid name.toList →
      parse? (address ++ "/" ++ name) = some (site.url name.toList)
  := by
  obtain ⟨secure, place, hlocates⟩ := (parse?_isSome_iff address).mp h
  use ⟨secure, place⟩, fun _ hc => begun_subset _ (hlocates.subset hc)
  intro name hname
  have hsolid : Solid ('/' :: name.toList) := by
    intro c hc
    obtain rfl | hc := List.mem_cons.mp hc
    · decide
    · exact hname c hc
  have htext : (address ++ "/" ++ name).toList = address.toList ++ '/' :: name.toList := by
    rw [String.toList_append, String.toList_append, List.append_assoc]
    rfl
  rw [parse?_eq_some_iff]
  use secure, place ++ '/' :: name.toList
  constructor
  · rw [htext, tidy_append hsolid (List.cons_ne_nil _ _)]
    apply hlocates.append
  · rfl

variable (site : Site) {name name' : List Char}

/-- All addresses of a site lead to one server. -/
theorem service_url (name name' : List Char) :
  (site.url name).service = (site.url name').service
  := by
  have hauthority : (site.url name).authority = (site.url name').authority := by
    simp only [url, ofAuthority]
    rw [takeWhile_append_cons rfl, takeWhile_append_cons rfl]
  rw [service, service, hauthority]

/-- The path of a site comes before the names, if the site has no query or fragment. -/
theorem exists_path_url (h : ∀ c ∈ site.place, c ≠ '?' ∧ c ≠ '#') :
  ∃ place, ∀ name, Plain name → (site.url name).path = place ++ '/' :: name
  := by
  use pathOf ((segments (site.place.dropWhile fun c => !endsAuthority c)).foldl climb []).reverse
  intro name hname
  have hmarks : ∀ c ∈ site.place ++ name, c ≠ '?' ∧ c ≠ '#' := by
    intro c hc
    obtain hc | hc := List.mem_append.mp hc
    · exact h c hc
    · constructor
      · rintro rfl
        exact hname.not_mem rfl hc
      · rintro rfl
        exact hname.not_mem rfl hc
  rw [url, path_ofAuthority, written_append hmarks, walk_append hname]

/-- What lies beside one name lies beside all of them. -/
theorem usualPath_url (hname : Plain name) (hname' : Plain name') :
  Cookie.usualPath (site.url name).path = Cookie.usualPath (site.url name').path
  := by
  by_cases h : ∀ c ∈ site.place, c ≠ '?' ∧ c ≠ '#'
  · obtain ⟨place, hplace⟩ := site.exists_path_url h
    have hslash : '/' ∉ name := hname.not_mem rfl
    have hslash' : '/' ∉ name' := hname'.not_mem rfl
    simp only [hplace _ hname, hplace _ hname', Cookie.usualPath, Text.cutLast?_append hslash,
      Text.cutLast?_append hslash']
    cases place <;> rfl
  · push Not at h
    obtain ⟨c, hc, hmark⟩ := h
    have hmark' : c = '?' ∨ c = '#' := by
      by_cases heq : c = '?'
      · exact .inl heq
      · exact .inr (hmark heq)
    simp only [url, path_ofAuthority, written_append_of_mem hc hmark']

/-- All addresses of a site lie beside each other. -/
theorem beside_url (hname : Plain name) (hname' : Plain name') :
  (site.url name).Beside (site.url name')
  where
  service := site.service_url name name'
  place := site.usualPath_url hname hname'
  head := head?_path_ofAuthority _ _

/-! ### Queries -/

/-- A longer name makes no shorter query. -/
theorem queryLength_url_le {name name' : List Char} (h : name <+: name') :
  (site.url name).queryLength ≤ (site.url name').queryLength
  := by
  obtain ⟨more, rfl⟩ := h
  apply queryLength_ofAuthority_le
  use more
  rw [List.append_assoc, List.cons_append]

end Site

end FeedClient.Url
