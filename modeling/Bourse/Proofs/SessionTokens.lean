import Bourse.Http.Service
import Bourse.Proofs.SessionTable

/-!
# Session tokens

A login answers the user's name, trimmed of blanks, as the session token; every route but the
first three then reads the token back from an `Authorization: Bearer` header
(`Http.sessionUser`). The two readings of a name go through different channels: the login
reads a JSON string, which may hold any character, while the header must be visible ASCII
before its name is trimmed and looked up.

* `trimBlanks_trimBlanks`: a token is its own trimmed text;
* `sessionUser_bearer`: the whole answer of the session check for a header `Bearer n`: the
  trimmed name when `n` is visible ASCII, names a user and that user is logged in, and
  otherwise a 401 naming the first of these that fails;
* `sessionUser_status`: every refusal of the session check is a 401;
* `login_of_body`, `login_eq_ok`: a login succeeds exactly when its name, trimmed, is not
  empty and has no session; it then answers that name as the token and starts its session;
* `logout_of_sessionUser`, `place_authorized`, `cancel_authorized`: once the check passes,
  logging out succeeds and trading is never refused as unauthorized;
* `login_token_authenticates`: a token authenticates its user for as long as the session
  lives, exactly when it is visible ASCII.
-/

namespace Bourse

/-! ## Trimmed names -/

/-- Dropping from a list whose head does not satisfy the test drops nothing. -/
theorem dropWhile_of_head {l : List Char} {p : Char → Bool} (h : ∀ c ∈ l.head?, p c = false) :
    l.dropWhile p = l := by
  cases l with
  | nil => rfl
  | cons c cs => simp [h c rfl]

/-- What is left after dropping does not start with a character that satisfies the test. -/
theorem head?_dropWhile (l : List Char) (p : Char → Bool) :
    ∀ c ∈ (l.dropWhile p).head?, p c = false := by
  intro c hc
  have hne : l.dropWhile p ≠ [] := by
    rintro h
    simp [h] at hc
  rw [List.head?_eq_some_head hne, Option.mem_def, Option.some_inj] at hc
  rw [← hc]
  exact List.head_dropWhile_not p hne

/-- The blanks at the end of a list, removed. -/
def dropEndBlanks (l : List Char) : List Char := (l.reverse.dropWhile isBlank).reverse

theorem trimBlanks_eq (s : String) :
    trimBlanks s = String.ofList (dropEndBlanks (s.toList.dropWhile isBlank)) := rfl

theorem dropEndBlanks_dropEndBlanks (l : List Char) :
    dropEndBlanks (dropEndBlanks l) = dropEndBlanks l := by
  unfold dropEndBlanks
  rw [List.reverse_reverse, dropWhile_of_head (head?_dropWhile _ _)]

/-- Removing the blanks at the end keeps a head that is not blank. -/
theorem dropWhile_dropEndBlanks {l : List Char} (h : ∀ c ∈ l.head?, isBlank c = false) :
    (dropEndBlanks l).dropWhile isBlank = dropEndBlanks l := by
  apply dropWhile_of_head
  intro c hc
  -- what is left is a prefix of `l`, so a head it has is the head of `l`
  have hsplit : dropEndBlanks l ++ (l.reverse.takeWhile isBlank).reverse = l := by
    have h := congrArg List.reverse (@List.takeWhile_append_dropWhile _ isBlank l.reverse)
    rwa [List.reverse_append, List.reverse_reverse] at h
  have hl : l.head? = some c := by
    rw [← hsplit, List.head?_append, Option.mem_def.1 hc]
    rfl
  exact h c hl

/-- **A trimmed name is its own trimmed text.** -/
theorem trimBlanks_trimBlanks (s : String) : trimBlanks (trimBlanks s) = trimBlanks s := by
  rw [trimBlanks_eq (trimBlanks s), trimBlanks_eq s, String.toList_ofList,
    dropWhile_dropEndBlanks (head?_dropWhile _ _), dropEndBlanks_dropEndBlanks]

namespace Http

/-! ## The session check -/

theorem visibleAscii_append (a b : String) :
    visibleAscii (a ++ b) = (visibleAscii a && visibleAscii b) := by
  simp [visibleAscii, String.toList_append, List.all_append]

theorem visibleAscii_bearer (n : String) : visibleAscii ("Bearer " ++ n) = visibleAscii n := by
  rw [visibleAscii_append]
  have h : visibleAscii "Bearer " = true := by decide
  rw [h, Bool.true_and]

theorem unauthorized_eq {α : Type} (m : String) :
    (unauthorized m : Handling α) = .error (ApiError.unauthorized m).response := rfl

/-- **The session check for a bearer header.**  Given `Authorization: Bearer n`, the check
answers the trimmed name when `n` is visible ASCII, its trimmed text is not empty and that user
is logged in; otherwise it refuses, naming the first of these that fails. -/
theorem sessionUser_bearer (svc : Service) (req : Request) (n : String)
    (h : req.header? "authorization" = some ("Bearer " ++ n)) :
    sessionUser svc req =
      if visibleAscii n = false then
        .error (ApiError.unauthorized "Missing Authorization header").response
      else if trimBlanks n = "" then
        .error (ApiError.unauthorized "Invalid Authorization header format").response
      else if svc.exchange.sessions.isLoggedIn (trimBlanks n) = false then
        .error (ApiError.unauthorized "User not logged in").response
      else .ok (trimBlanks n) := by
  have h7 : "Bearer ".toList.length = 7 := by decide
  have htake : ("Bearer " ++ n).toList.take 7 = "Bearer ".toList := by
    rw [String.toList_append, List.take_left' h7]
  have hdrop : String.ofList (("Bearer " ++ n).toList.drop 7) = n := by
    rw [String.toList_append, List.drop_left' h7, String.ofList_toList]
  unfold sessionUser
  simp only [h, visibleAscii_bearer]
  by_cases hv : visibleAscii n = true
  · simp only [hv, if_true, Bool.true_eq_false, if_false, pure, Except.pure, bind, Except.bind,
      htake, bne_self_eq_false, hdrop]
    by_cases he : trimBlanks n = ""
    · simp [he, unauthorized_eq]
    · simp only [he, if_false, String.isEmpty_iff]
      by_cases hin : svc.exchange.sessions.isLoggedIn (trimBlanks n) = true
      · simp [hin]
      · simp [hin, unauthorized_eq]
  · simp [hv, unauthorized_eq, bind, Except.bind]

/-- **Every refusal of the session check is a 401** with one of its messages. -/
theorem sessionUser_refusal {svc : Service} {req : Request} {r : Response}
    (h : sessionUser svc req = .error r) : ∃ m, r = (ApiError.unauthorized m).response := by
  unfold sessionUser at h
  simp only [bind, Except.bind, unauthorized_eq, pure, Except.pure] at h
  -- each way out of the check is an `unauthorized` refusal or the user
  split at h
  · split at h
    · split at h
      · cases h
        exact ⟨_, rfl⟩
      · split at h
        · cases h
          exact ⟨_, rfl⟩
        · split at h
          · cases h
            exact ⟨_, rfl⟩
          · cases h
    · cases h
      exact ⟨_, rfl⟩
  · cases h
    exact ⟨_, rfl⟩

theorem sessionUser_status {svc : Service} {req : Request} {r : Response}
    (h : sessionUser svc req = .error r) : r.status = 401 := by
  obtain ⟨m, rfl⟩ := sessionUser_refusal h
  rfl

/-! ## Refusals other than 401 -/

/-- A handling that never refuses as unauthorized. -/
def NeverUnauthorized {α : Type} (h : Handling α) : Prop := ∀ r, h = .error r → r.status ≠ 401

theorem NeverUnauthorized.bind {α β : Type} {x : Handling α} {f : α → Handling β}
    (hx : NeverUnauthorized x) (hf : ∀ a, NeverUnauthorized (f a)) : NeverUnauthorized (x >>= f) := by
  intro r h
  cases hxa : x with
  | error e =>
    simp only [hxa] at h
    cases h
    exact hx _ hxa
  | ok a =>
    simp only [hxa] at h
    exact hf a r h

theorem NeverUnauthorized.bind_ok {α β : Type} {x : Handling α} {f : α → Handling β} {a : α}
    (hx : x = .ok a) (hf : NeverUnauthorized (f a)) : NeverUnauthorized (x >>= f) := by
  rw [hx]
  exact hf

theorem neverUnauthorized_ok {α : Type} (a : α) : NeverUnauthorized (.ok a : Handling α) := by
  intro r h
  cases h

theorem neverUnauthorized_error {α : Type} {r : Response} (h : r.status ≠ 401) :
    NeverUnauthorized (.error r : Handling α) := by
  intro r' h'
  cases h'
  exact h

theorem ApiError.response_status (e : ApiError) : e.response.status = e.statusCode.1 := rfl

theorem neverUnauthorized_order {α : Type} (e : OrderError) :
    NeverUnauthorized (throw (ApiError.order e).response : Handling α) := by
  apply neverUnauthorized_error
  rw [ApiError.response_status]
  cases e <;> simp [ApiError.statusCode]

theorem neverUnauthorized_throw {α : Type} {r : Response} (h : r.status ≠ 401) :
    NeverUnauthorized (throw r : Handling α) :=
  neverUnauthorized_error h

/-- A refusal that is not a 401 stops the rest. -/
theorem NeverUnauthorized.throw_bind {α β : Type} {r : Response} {f : α → Handling β}
    (h : r.status ≠ 401) : NeverUnauthorized (throw r >>= f) := by
  intro r' hr
  have hstop : (throw r >>= f : Handling β) = .error r := rfl
  rw [hstop] at hr
  cases hr
  exact h

theorem neverUnauthorized_jsonBody (req : Request) (shape : Decode.Shape) :
    NeverUnauthorized (jsonBody req shape) := by
  unfold jsonBody
  dsimp only
  -- a missing or wrong type is a 415; a body that does not read is a 422 or a 400
  split_ifs
  · apply NeverUnauthorized.throw_bind
    decide
  · split
    · exact neverUnauthorized_ok _
    · split <;> exact neverUnauthorized_throw (by simp [Response.plain])

theorem neverUnauthorized_pathWord (seg key : String) : NeverUnauthorized (pathWord seg key) := by
  unfold pathWord pathText
  refine NeverUnauthorized.bind ?_ fun s => ?_
  · split
    · exact neverUnauthorized_ok _
    · exact neverUnauthorized_error (by simp [Response.plain])
  · split
    · exact neverUnauthorized_ok _
    · exact neverUnauthorized_throw (by simp [Response.plain])

theorem neverUnauthorized_sideOf (d : Decode.Datum) : NeverUnauthorized (sideOf d) := by
  unfold sideOf
  split
  · split
    · exact neverUnauthorized_ok _
    · exact neverUnauthorized_error (by decide)
  · exact neverUnauthorized_error (by decide)

/-! ## Logging in -/

/-- Whether a character may appear in a token, with the listed punctuation as a list. -/
theorem tokenChar_eq (c : Char) :
    tokenChar c = (c.isAlphanum || decide (c ∈ "!#$%&'*+-.^_`|~".toList)) := by
  simp [tokenChar]

theorem isJson_applicationJson : isJson "application/json" = true := by
  simp only [isJson, mediaType, tokenChar_eq]
  decide

/-- A body sent as `application/json` is read by its shape. -/
theorem jsonBody_of_json {req : Request} {shape : Decode.Shape} {d : Decode.Datum}
    (htype : req.header? "content-type" = some "application/json")
    (hread : Decode.text .slice shape req.body = .ok d) : jsonBody req shape = .ok d := by
  have hvisible : visibleAscii "application/json" = true := by decide
  unfold jsonBody
  simp [htype, hvisible, isJson_applicationJson, hread, pure, Except.pure]

/-- **A login with a name**: an empty trimmed name is refused, a name with a session is a
conflict, and otherwise the session of the trimmed name starts at the clock, the name is the
token, and a port given as a word registers the client's address. -/
theorem login_of_body {svc : Service} {req : Request} {name : String} {x : Decode.Datum}
    (hbody : jsonBody req loginShape = .ok (.record [.text name, x])) :
    Service.login svc req =
      if trimBlanks name = "" then .error (ApiError.badRequest "Username is required").response
      else if svc.exchange.sessions.isLoggedIn (trimBlanks name) then
        .error (ApiError.conflict "User already logged in").response
      else .ok ({ svc with
          exchange := { svc.exchange with
            sessions := svc.exchange.sessions.put (trimBlanks name) svc.exchange.clock }
          notifier := match x with
            | .some (.word p) => svc.notifier.register (trimBlanks name) (svc.peer.withPort p.toNat)
            | _ => svc.notifier },
        .json 200 (.object [("success", .bool true), ("message", .string "Login successful"),
          ("session_token", .string (trimBlanks name)), ("session", .word svc.exchange.clock)])) := by
  unfold Service.login
  simp only [hbody, bind, Except.bind, pure, Except.pure]
  split
  next u p heq =>
    obtain ⟨rfl, rfl⟩ : name = u ∧ x = .some (.word p) := by simpa using heq
    by_cases he : trimBlanks name = "" <;>
      by_cases hin : svc.exchange.sessions.isLoggedIn (trimBlanks name) = true <;>
      simp [he, hin, Sessions.tryLogin, throw, throwThe, MonadExceptOf.throw]
  next _ u other hother heq =>
    obtain ⟨rfl, rfl⟩ : name = u ∧ x = other := by simpa using heq
    by_cases he : trimBlanks name = "" <;>
      by_cases hin : svc.exchange.sessions.isLoggedIn (trimBlanks name) = true <;>
      simp [he, hin, Sessions.tryLogin, throw, throwThe, MonadExceptOf.throw]
    -- the port field is not a word, so nothing is registered
    split
    next p _ => exact absurd rfl (hother p)
    next => rfl
  next _ _ hrecord => exact absurd rfl (hrecord name x)

/-- A login that succeeds has read a name. -/
theorem body_of_login {svc svc' : Service} {req : Request} {resp : Response}
    (h : Service.login svc req = .ok (svc', resp)) :
    ∃ name x, jsonBody req loginShape = .ok (.record [.text name, x]) := by
  unfold Service.login at h
  cases hb : jsonBody req loginShape with
  | error r => simp [hb, bind, Except.bind] at h
  | ok d =>
    simp only [hb, bind, Except.bind] at h
    split at h
    next u p => exact ⟨u, _, rfl⟩
    next u other _ => exact ⟨u, other, rfl⟩
    next => simp [throw, throwThe, MonadExceptOf.throw] at h

/-- **A login succeeds exactly when** its trimmed name is not empty and has no session; the
session of that name then starts at the clock and the name is the token. -/
theorem login_eq_ok {svc svc' : Service} {req : Request} {resp : Response}
    (h : Service.login svc req = .ok (svc', resp)) :
    ∃ name x, jsonBody req loginShape = .ok (.record [.text name, x]) ∧
      trimBlanks name ≠ "" ∧ svc.exchange.sessions.isLoggedIn (trimBlanks name) = false ∧
      svc'.exchange.sessions = svc.exchange.sessions.put (trimBlanks name) svc.exchange.clock ∧
      resp = .json 200 (.object [("success", .bool true), ("message", .string "Login successful"),
        ("session_token", .string (trimBlanks name)), ("session", .word svc.exchange.clock)]) := by
  obtain ⟨name, x, hbody⟩ := body_of_login h
  rw [login_of_body hbody] at h
  refine ⟨name, x, hbody, ?_⟩
  by_cases he : trimBlanks name = ""
  · simp [he] at h
  by_cases hin : svc.exchange.sessions.isLoggedIn (trimBlanks name) = true
  · simp [he, hin] at h
  simp only [he, hin, if_false, Bool.false_eq_true, Except.ok.injEq, Prod.mk.injEq] at h
  obtain ⟨rfl, rfl⟩ := h
  exact ⟨he, by simpa using hin, rfl, rfl⟩

/-! ## Logging out and trading -/

/-- Once the session check passes, logging out ends the user's session and forgets their
address. -/
theorem logout_of_sessionUser {svc : Service} {req : Request} {u : String}
    (h : sessionUser svc req = .ok u) :
    Service.logout svc req = .ok ({ svc with
        exchange := { svc.exchange with sessions := (svc.exchange.sessions.logout u).1 }
        notifier := svc.notifier.unregister u },
      .json 200 (.object [("success", .bool true), ("message", .string "Logout successful")])) := by
  unfold Service.logout
  rw [h]
  rfl

/-- A logout refused by the session check answers the refusal. -/
theorem logout_of_refusal {svc : Service} {req : Request} {r : Response}
    (h : sessionUser svc req = .error r) : Service.logout svc req = .error r := by
  unfold Service.logout
  rw [h]
  rfl

theorem place_authorized {svc : Service} {req : Request} {u : String} (isStop : Bool)
    (h : sessionUser svc req = .ok u) : NeverUnauthorized (Service.place isStop svc req) := by
  unfold Service.place
  refine NeverUnauthorized.bind_ok h ?_
  refine NeverUnauthorized.bind (neverUnauthorized_jsonBody _ _) fun d => ?_
  dsimp only
  split
  · refine NeverUnauthorized.bind (neverUnauthorized_sideOf _) fun side => ?_
    refine NeverUnauthorized.bind_ok rfl ?_
    split
    · exact neverUnauthorized_ok _
    · exact neverUnauthorized_order _
  · apply NeverUnauthorized.throw_bind
    decide

theorem cancel_authorized {svc : Service} {req : Request} {u : String} (seg : String)
    (h : sessionUser svc req = .ok u) : NeverUnauthorized (Service.cancel seg svc req) := by
  unfold Service.cancel
  refine NeverUnauthorized.bind_ok h ?_
  refine NeverUnauthorized.bind (neverUnauthorized_pathWord _ _) ?_
  intro id
  split
  · exact neverUnauthorized_ok _
  · exact neverUnauthorized_order _

/-! ## Tokens -/

/-- **A login's token authenticates its user, exactly when it is visible ASCII.**  A login that
succeeds read a name whose trimmed text `t` is not empty, answered `t` as the session token and
started the session of `t`. As long as that session lives, a request carrying
`Authorization: Bearer t` passes the session check as `t` exactly when `t` is visible ASCII;
it may then trade without being refused as unauthorized and log out. Whatever the login, a
bearer name whose trimmed text is not logged in is refused with a 401. -/
theorem login_token_authenticates (svc svc' : Service) (login : Request) (resp : Response)
    (hlogin : Service.login svc login = .ok (svc', resp)) :
    (∃ name x t, jsonBody login loginShape = .ok (.record [.text name, x]) ∧
      t = trimBlanks name ∧ t ≠ "" ∧
      resp = .json 200 (.object [("success", .bool true), ("message", .string "Login successful"),
        ("session_token", .string t), ("session", .word svc.exchange.clock)]) ∧
      svc'.exchange.sessions.isLoggedIn t = true ∧
      ∀ (live : Service) (req : Request), live.exchange.sessions.isLoggedIn t = true →
        req.header? "authorization" = some ("Bearer " ++ t) →
          (sessionUser live req = .ok t ↔ visibleAscii t = true) ∧
          (visibleAscii t = true →
            (∀ isStop, NeverUnauthorized (Service.place isStop live req)) ∧
            (∀ seg, NeverUnauthorized (Service.cancel seg live req)) ∧
            ∃ after, Service.logout live req = .ok (after,
              .json 200 (.object [("success", .bool true), ("message", .string "Logout successful")])) ∧
              after.exchange.sessions.isLoggedIn t = false)) ∧
    ∀ (live : Service) (req : Request) (n : String),
      req.header? "authorization" = some ("Bearer " ++ n) →
      live.exchange.sessions.isLoggedIn (trimBlanks n) = false →
      ∃ r, sessionUser live req = .error r ∧ r.status = 401 := by
  obtain ⟨name, x, hbody, hne, -, hsessions, hresp⟩ := login_eq_ok hlogin
  refine ⟨⟨name, x, trimBlanks name, hbody, rfl, hne, hresp, ?_, ?_⟩, ?_⟩
  · rw [hsessions, Sessions.isLoggedIn_put]
    simp
  · intro live req hlive hauth
    -- the token is its own trimmed text, so the check reads it back unchanged
    have hcheck := sessionUser_bearer live req (trimBlanks name) hauth
    rw [trimBlanks_trimBlanks] at hcheck
    have haccept : visibleAscii (trimBlanks name) = true →
        sessionUser live req = .ok (trimBlanks name) := by
      intro hv
      simp [hcheck, hv, hne, hlive]
    refine ⟨⟨fun hok => ?_, haccept⟩, fun hv => ?_⟩
    · by_contra hv
      simp [hcheck, Bool.eq_false_iff.2 hv] at hok
    · refine ⟨fun isStop => place_authorized isStop (haccept hv),
        fun seg => cancel_authorized seg (haccept hv), _, logout_of_sessionUser (haccept hv), ?_⟩
      simp [Sessions.isLoggedIn, Sessions.lastActivity_logout]
  · intro live req n hauth hout
    cases hr : sessionUser live req with
    | error r => exact ⟨r, rfl, sessionUser_status hr⟩
    | ok u =>
      -- only a logged-in name passes the check
      rw [sessionUser_bearer live req n hauth] at hr
      split_ifs at hr

/-- Alice logs in with blanks around her name; her token `alice` then passes the session check
of a later request. -/
theorem login_token_authenticates_alice :
    ∃ svc' resp, Service.login
        (Service.new (Exchange.new (Sessions.empty 60000) 1710460800000) (Notifier.empty 16)
          ⟨.v4 [127, 0, 0, 1], 40000, 0⟩)
        ⟨"POST", ⟨"/login", none⟩, [("content-type", "application/json")],
          "\x7b\"username\":\" alice \"\x7d"⟩ = .ok (svc', resp) ∧
      sessionUser svc'
        ⟨"POST", ⟨"/logout", none⟩, [("authorization", "Bearer alice")], ""⟩ = .ok "alice" := by
  have hbody : jsonBody ⟨"POST", ⟨"/login", none⟩, [("content-type", "application/json")],
      "\x7b\"username\":\" alice \"\x7d"⟩ loginShape = .ok (.record [.text " alice ", .none]) :=
    jsonBody_of_json (by decide) (by rfl)
  have htrim : trimBlanks " alice " = "alice" := by decide
  have hlogin := @login_of_body (Service.new (Exchange.new (Sessions.empty 60000) 1710460800000)
    (Notifier.empty 16) ⟨.v4 [127, 0, 0, 1], 40000, 0⟩) _ _ _ hbody
  rw [htrim, if_neg (by decide), if_neg (by decide)] at hlogin
  obtain ⟨⟨name, x, t, hb, ht, -, -, hlive, hauth⟩, -⟩ :=
    login_token_authenticates _ _ _ _ hlogin
  -- the token is the name the body gave, trimmed
  obtain ⟨rfl, -⟩ : " alice " = name ∧ .none = x := by simpa [hbody] using hb
  rw [htrim] at ht
  subst ht
  exact ⟨_, _, hlogin, (hauth _ _ hlive (by decide)).1.2 (by decide)⟩

/-- José logs in and gets the token `José`, but the token is not visible ASCII: the session
check of a request carrying it reports the header as missing, so he can neither trade nor log
out, and his session ends only by expiry. -/
theorem login_token_refused_unicode :
    ∃ svc', Service.login
        (Service.new (Exchange.new (Sessions.empty 60000) 1710460800000) (Notifier.empty 16)
          ⟨.v4 [127, 0, 0, 1], 40000, 0⟩)
        ⟨"POST", ⟨"/login", none⟩, [("content-type", "application/json")],
          "\x7b\"username\":\"José\"\x7d"⟩ = .ok (svc', .json 200 (.object [("success", .bool true),
            ("message", .string "Login successful"), ("session_token", .string "José"),
            ("session", .word 1710460800000)])) ∧
      svc'.exchange.sessions.isLoggedIn "José" = true ∧
      Service.logout svc' ⟨"POST", ⟨"/logout", none⟩, [("authorization", "Bearer José")], ""⟩ =
        .error (ApiError.unauthorized "Missing Authorization header").response := by
  have hbody : jsonBody ⟨"POST", ⟨"/login", none⟩, [("content-type", "application/json")],
      "\x7b\"username\":\"José\"\x7d"⟩ loginShape = .ok (.record [.text "José", .none]) :=
    jsonBody_of_json (by decide) (by rfl)
  have htrim : trimBlanks "José" = "José" := by decide
  have hlogin := @login_of_body (Service.new (Exchange.new (Sessions.empty 60000) 1710460800000)
    (Notifier.empty 16) ⟨.v4 [127, 0, 0, 1], 40000, 0⟩) _ _ _ hbody
  rw [htrim, if_neg (by decide), if_neg (by decide)] at hlogin
  refine ⟨_, hlogin, by simp [Sessions.isLoggedIn_put], logout_of_refusal ?_⟩
  -- the header holds a character outside visible ASCII
  rw [sessionUser_bearer _ _ "José" (by decide)]
  simp only [show visibleAscii "José" = false by decide, if_true]

end Http

end Bourse
