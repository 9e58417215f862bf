import FeedClient.Http.Message
import FeedClient.Proofs.Http.Site

/-!
# Cookies in a request

The cookies that are kept for an address are sent to it with semicolons between them. A server that
cuts the header at the semicolons finds every one of them that has no semicolon in it, whatever else
is kept. A cookie that the server asks for without saying more is kept for all addresses beside the
one of the request.
-/

namespace FeedClient

namespace Http

/-! ### Finding a cookie -/

/-- Whether a text stands between the semicolons of a header, not counting blank characters around
it. -/
def stands (text header : List Char) : Bool :=
  (Form.cutAll ';' header).any fun part => Text.trim part = text

theorem stands_iff {text header : List Char} :
  stands text header ↔ ∃ part ∈ Form.cutAll ';' header, Text.trim part = text
  := by
  simp [stands]

/-- A blank at the start of a header does not matter. -/
theorem stands_cons {text header : List Char} (h : stands text header) :
  stands text (' ' :: header)
  := by
  obtain ⟨part, hpart, htrim⟩ := stands_iff.mp h
  obtain ⟨first, parts, hparts⟩ := Form.exists_cutAll ';' header
  rw [stands_iff, Form.cutAll_cons_of_ne (by decide) hparts]
  rw [hparts] at hpart
  obtain rfl | hpart := List.mem_cons.mp hpart
  · use ' ' :: part, List.mem_cons_self
    rw [Text.trim, Text.trimLeft_cons_of_blank (by decide), ← Text.trim, htrim]
  · use part, List.mem_cons_of_mem _ hpart

/-- A text that is joined with others by semicolons stands between them. -/
theorem stands_intercalate {text : List Char} (hmark : ';' ∉ text) (htrim : Text.trim text = text)
    {texts : List (List Char)} (h : text ∈ texts) :
  stands text ([';', ' '].intercalate texts)
  := by
  have hself : stands text text := by
    rw [stands_iff, Form.cutAll_of_not_mem hmark]
    use text, List.mem_singleton_self _
  induction texts with
  | nil => cases h
  | cons first texts ih =>
      cases texts with
      | nil =>
          rw [List.intercalate_singleton]
          rwa [← List.mem_singleton.mp h]
      | cons second texts =>
          rw [List.intercalate_cons_cons, List.append_assoc, List.cons_append,
            List.singleton_append]
          rw [stands_iff, Form.cutAll_append]
          obtain rfl | hrest := List.mem_cons.mp h
          · obtain ⟨part, hpart, htext⟩ := stands_iff.mp hself
            use part, List.mem_append_left _ hpart
          · obtain ⟨part, hpart, htext⟩ := stands_iff.mp (stands_cons (ih hrest))
            use part, List.mem_append_right _ hpart

/-- A request with the cookies that are kept for its address. -/
abbrev Request.carrying (request : Request) (jar : Jar) : Request :=
  { request with cookie := jar.header? request.url }

/-- Whether a cookie, with its name and its value, is in the header of a request. -/
def Request.carries (request : Request) (text : String) : Bool :=
  match request.cookie with
  | none => false
  | some header => stands text.toList header.toList

/-- A request is sent with every cookie that is kept for its address. -/
theorem Request.carries_carrying (request : Request) {jar : Jar} {cookie : Cookie}
    (hmark : ';' ∉ cookie.text.toList) (htrim : Text.trim cookie.text.toList = cookie.text.toList)
    (h : cookie ∈ jar) (hfor : cookie.isFor request.url) :
  (request.carrying jar).carries cookie.text
  := by
  have hmem : cookie ∈ jar.filter (·.isFor request.url) := List.mem_filter.mpr ⟨h, hfor⟩
  have hheader : jar.header? request.url
      = some ("; ".intercalate ((jar.filter (·.isFor request.url)).map Cookie.text)) := by
    rw [Jar.header?]
    split
    · next hnil =>
        rw [hnil] at hmem
        cases hmem
    · rfl
  simp only [Request.carries, hheader]
  rw [String.toList_intercalate, List.map_map]
  apply stands_intercalate hmark htrim
  apply List.mem_map_of_mem (f := String.toList ∘ Cookie.text) hmem

/-! ### Keeping a cookie -/

namespace Jar

@[simp]
theorem keep_nil (jar : Jar) (url : Url) :
  jar.keep url [] = jar
  := rfl

theorem mem_put (jar : Jar) (cookie : Cookie) :
  cookie ∈ jar.put cookie
  := by
  induction jar with
  | nil => apply List.mem_singleton_self
  | cons c jar ih =>
      rw [put]
      split
      · apply List.mem_cons_self
      · apply List.mem_cons_of_mem _ ih

theorem mem_keep (jar : Jar) {url : Url} {text : String} {cookie : Cookie}
    (h : Cookie.parse? url text = some (cookie, false)) :
  cookie ∈ jar.keep url [text]
  := by
  rw [keep, List.filterMap_cons_some h]
  apply mem_put

end Jar

/-- A path lies in the place that it lies in. -/
theorem Cookie.liesIn_usualPath {path : List Char} (h : path.head? = some '/') :
  liesIn path (usualPath path)
  := by
  have hroot : liesIn path ['/'] := by
    obtain ⟨rest, rfl⟩ := List.head?_eq_some_iff.mp h
    simp [liesIn]
  rw [usualPath]
  split
  · next c place name hcut =>
      rw [Text.cutLast?_eq_append hcut]
      simp [liesIn]
  · apply hroot

/-- The cookie that is kept when an address asks for it without saying more. -/
def Cookie.usual (url : Url) (name value : String) : Cookie :=
  { name
    value
    host := url.service.1
    spread := false
    path := usualPath url.path
    secure := false }

/-- What asks for a cookie without saying more is read as that cookie. -/
theorem Cookie.parse?_usual (url : Url) {name value : String}
    (hmark : ';' ∉ (name ++ "=" ++ value).toList) (hequals : '=' ∉ name.toList)
    (hname : Text.trim name.toList = name.toList) (hvalue : Text.trim value.toList = value.toList)
    (hne : name ≠ "") :
  parse? url (name ++ "=" ++ value) = some (usual url name value, false)
  := by
  have hcut : Text.cutFirst? ['='] (name ++ "=" ++ value).toList
      = some (name.toList, value.toList) := by
    rw [String.toList_append, String.toList_append]
    apply Text.cutFirst?_append List.not_mem_nil
    intro hoccurs
    apply hequals (hoccurs.subset (List.mem_singleton_self _))
  have hhost : isBelow url.service.1 url.service.1 := by
    simp [isBelow]
  have hattributes (key : String) :
      (([] : List (List Char)).map readAttribute).reverse.lookup key = none := rfl
  simp only [parse?, Form.cutAll_of_not_mem hmark, List.head?_cons, List.tail_cons,
    Option.bind_eq_bind, Option.bind_some, hcut, hname, hvalue, String.ofList_toList, hattributes,
    Option.map_none, Option.filter_none, Option.getD_none, Option.isSome_none, Option.any_none,
    hhost]
  simp [hne, usual]

/-- Such a cookie is sent to all addresses beside that one. -/
theorem Cookie.isFor_usual {url url' : Url} (h : url.Beside url') (name value : String) :
  (usual url' name value).isFor url
  := by
  have hplace : liesIn url.path (usualPath url'.path) := by
    rw [← h.place]
    apply liesIn_usualPath h.head
  simp [isFor, usual, h.service, hplace]

theorem Cookie.usual_eq {url url' : Url} (h : url.Beside url') (name value : String) :
  usual url name value = usual url' name value
  := by
  rw [usual, usual, h.service, h.place]

end Http

end FeedClient
