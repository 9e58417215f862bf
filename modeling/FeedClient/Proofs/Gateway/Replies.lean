import FeedClient.Proofs.Gateway.Server
import FeedClient.Proofs.Json.Record

/-!
# Replies that can be read

The page that asks whether a robot is calling begins like a page, and what is read as a record
begins like a record. So a reply that can be read is never taken for that page, whatever the texts
in it say: it decides its call at once.
-/

namespace FeedClient

namespace Text

/-- White space between JSON tokens is blank. -/
theorem isBlank_of_isSpace {c : Char} (h : Json.isSpace c = true) :
  isBlank c = true
  := by
  have hcases : c = ' ' ∨ c = '\n' ∨ c = '\t' ∨ c = '\r' := by
    simpa [Json.isSpace, or_assoc] using h
  rcases hcases with rfl | rfl | rfl | rfl <;> rfl

theorem trimLeft_append_of_blank {blanks : List Char} (h : ∀ c ∈ blanks, isBlank c = true)
    (s : List Char) :
  trimLeft (blanks ++ s) = trimLeft s
  := by
  induction blanks with
  | nil => rfl
  | cons c blanks ih =>
      rw [List.cons_append, trimLeft_cons_of_blank (h c List.mem_cons_self)]
      apply ih
      intro d hd
      apply h d (List.mem_cons_of_mem _ hd)

end Text

namespace Gateway

open Http (Request Response Jar)

/-- What is read as a record is not the page that asks whether a robot is calling. -/
theorem isBotCheck_of_read {members : List (String × Json.Shape)} {body : String} {v : Json.Value}
    (h : Json.read (.record members) body.toList = .ok v) :
  isBotCheck body = false
  := by
  obtain ⟨spaces, c, rest, hbody, hspaces, hopen⟩ := Json.exists_opening_of_read h
  have hblanks : ∀ d ∈ spaces, Text.isBlank d = true :=
    fun d hd => Text.isBlank_of_isSpace (hspaces d hd)
  have hblank : Text.isBlank c = false := by
    rcases hopen with rfl | rfl <;> rfl
  have hpage : "<html".toList.isPrefixOf (c :: rest) = false := by
    rcases hopen with rfl | rfl <;> rfl
  rw [isBotCheck, hbody, Text.trimLeft_append_of_blank hblanks,
    Text.trimLeft_cons_of_not_blank hblank, hpage, Bool.false_and]

theorem isBotCheck_of_decode_feed {body : String} {reply : Wire.FeedReply}
    (h : Wire.decode Wire.FeedReply body = .ok reply) :
  isBotCheck body = false
  := by
  obtain ⟨v, hread⟩ := Json.exists_of_bind_eq_ok h
  apply isBotCheck_of_read hread.1

theorem isBotCheck_of_decode_mutation {body : String} {reply : Wire.MutationReply}
    (h : Wire.decode Wire.MutationReply body = .ok reply) :
  isBotCheck body = false
  := by
  obtain ⟨v, hread⟩ := Json.exists_of_bind_eq_ok h
  apply isBotCheck_of_read hread.1

variable {σ : Type}

/-- A response with status 200 that is not the page decides a call alone, by its body. -/
theorem serve_perform_of_status {server : Server σ} {g : Gateway} {jar : Jar} {s s' : σ}
    {call : Call} {request : Request} {response : Response} (hrequest : g.ofCall call = some request)
    (hserver : server (request.carrying jar) s = (some response, s'))
    (hstatus : response.status = 200) (hcheck : isBotCheck response.text = false) :
  serve server.logged (g.perform call) jar (s, [])
    = ⟨interpret call response.text, jar.keep request.url response.cookies,
        s', [(request.carrying jar, some response)]⟩
  := by
  have hbody : ¬ BotCheck response := by
    rw [← isBotCheck_iff hstatus, hcheck]
    apply Bool.false_ne_true
  have hlogged : server.logged (request.carrying jar) (s, [])
      = (some response, s', [(request.carrying jar, some response)]) := by
    rw [Server.logged, hserver]
    rfl
  rw [serve_perform, hrequest, serve_send_of_decided
      (serve_exchange_of_arrived hlogged (Response.route_of_status hstatus)) hbody,
    conclude_of_status hstatus hbody]
  rfl

/-- A reply that can be read is never taken for the page that asks whether a robot is calling. So
when the server answers a call with status 200 and such a reply, the call sends nothing else, and
brings what the reply says: the posts of a feed as they are, in the order of the server. -/
theorem reply_decides :
  (∀ body reply, Wire.decode Wire.FeedReply body = .ok reply → isBotCheck body = false)
    ∧ (∀ body reply, Wire.decode Wire.MutationReply body = .ok reply → isBotCheck body = false)
    ∧ ∀ (server : Server σ) (g : Gateway) (jar : Jar) (s s' : σ) (call : Call) (request : Request)
        (response : Response), g.ofCall call = some request →
      server (request.carrying jar) s = (some response, s') → response.status = 200 →
      let served := serve server.logged (g.perform call) jar (s, [])
      (∀ endpoint reply, call = .fetch endpoint →
          Wire.decode Wire.FeedReply response.text = .ok reply →
          served.state.2 = [(request.carrying jar, some response)]
            ∧ served.result = .ok (.fetched (reply.posts.getD [])))
        ∧ (∀ mutation reply, call = .mutate mutation →
          Wire.decode Wire.MutationReply response.text = .ok reply →
          served.state.2 = [(request.carrying jar, some response)]
            ∧ served.result = .ok (.acknowledged ⟨reply.status, reply.postKey, response.text⟩))
  := by
  refine ⟨fun _ _ => isBotCheck_of_decode_feed, fun _ _ => isBotCheck_of_decode_mutation, ?_⟩
  intro server g jar s s' call request response hrequest hserver hstatus served
  constructor
  · rintro endpoint reply rfl hreply
    have hserved := serve_perform_of_status hrequest hserver hstatus
      (isBotCheck_of_decode_feed hreply)
    simp only [served, hserved, interpret, hreply]
    exact ⟨trivial, rfl⟩
  · rintro mutation reply rfl hreply
    have hserved := serve_perform_of_status hrequest hserver hstatus
      (isBotCheck_of_decode_mutation hreply)
    simp only [served, hserved, interpret, Ack.ofBody, hreply]
    exact ⟨trivial, trivial⟩

/-- A feed with a post that quotes the page. -/
def quotingFeed : Wire.FeedReply :=
  ⟨some [⟨"ImNotBot", "<html>ImNotBot", "1f"⟩], none⟩

/-- A server that has nothing but this feed. -/
def quoting : Server Unit := fun _ s =>
  (some { status := 200, body := Charset.encode (Wire.encode quotingFeed).toList }, s)

/-- The post that quotes the page is fetched with one request. -/
theorem reply_decides_quoting :
  let served := serve quoting.logged
    ((ofAddress "http://localhost").perform (.fetch ⟨"/home", "ann"⟩)) [] ((), [])
  served.state.2.length = 1
    ∧ served.result = .ok (.fetched [⟨"ImNotBot", "<html>ImNotBot", "1f"⟩])
  := by
  intro served
  let request : Request :=
    { method := .get, url := ⟨false, "localhost", "/home".toList, some "UserID=ann".toList⟩ }
  have hrequest : (ofAddress "http://localhost").ofCall (.fetch ⟨"/home", "ann"⟩)
      = some request := by
    decide +kernel
  have htext : (Response.text
      { status := 200, body := Charset.encode (Wire.encode quotingFeed).toList })
      = Wire.encode quotingFeed := by
    decide +kernel
  have hdecode : Wire.decode Wire.FeedReply (Wire.encode quotingFeed) = .ok quotingFeed := by
    decide +kernel
  obtain ⟨hfetch, -⟩ := reply_decides.2.2 quoting (ofAddress "http://localhost") [] () ()
    (.fetch ⟨"/home", "ann"⟩) request _ hrequest rfl rfl
  obtain ⟨hlog, hresult⟩ := hfetch _ quotingFeed rfl (by rw [htext, hdecode])
  constructor
  · rw [hlog]
    rfl
  · apply hresult

end Gateway

end FeedClient
