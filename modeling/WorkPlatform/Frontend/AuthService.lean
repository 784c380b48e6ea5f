import WorkPlatform.Machinery.Run
import Mathlib.Data.List.Infix

/-!
# Frontend/AuthService — what the browser does when a request is answered 401

    request ──401──▸ refreshToken() ──subscribe──▸ waits for `refreshing$` ──false──▸ sent again
                          │
                          └─▸ `refreshToken$`, the POST to `/auth/refresh`, not subscribed

An observable is modelled by what subscribing to it does.  `refreshToken` raises the flag, keeps the
POST in a field and returns an observable of the flag alone; the POST is never subscribed, so it is
never issued, and the flag is never lowered (`single_flight_iff`).
-/

open Machinery

namespace WorkPlatform.Frontend

/-! ## The state -/

/-- `TokenStorageService`: two keys of `localStorage`. -/
structure TokenStorage where
  accessToken : Option String
  refreshToken : Option String
  deriving DecidableEq

namespace TokenStorage

def setAccessToken (s : TokenStorage) (token : String) : TokenStorage :=
  { s with accessToken := some token }

def setRefreshToken (s : TokenStorage) (token : String) : TokenStorage :=
  { s with refreshToken := some token }

def clear : TokenStorage := ⟨none, none⟩

end TokenStorage

/-- An observable, by what subscribing to it does: `post` issues the request with the body it was
built with, `flag` waits until `refreshing$` is false and then reads the access token. -/
inductive Observable
  | post (refreshToken : Option String)
  | flag
  deriving DecidableEq

/-- What `addHeaders` adds: `Authorization` and `X-Org-ID`. -/
structure Headers where
  token : Option String
  orgId : Option String
  deriving DecidableEq

/-- A request of the application, as `jwtInterceptor` sees it.  `direct` is one to an auth URL. -/
inductive Request
  | unborn
  | direct
  | sent (url : String) (headers : Headers)
  | unauthorized (url : String) (token : Observable)
  | posting (url : String) (post : ℕ)
  | waiting (url : String)
  | retried (url : String) (headers : Headers)
  | succeeded
  | failed
  deriving DecidableEq

/-- A POST to `/api/v1/auth/refresh` that was issued. -/
structure Post where
  refreshToken : Option String
  answered : Bool
  deriving DecidableEq

/-- The client.  The posts, the expiry episodes and the answers 401 are counted from its start. -/
structure AuthClient (ι : Type*) where
  storage : TokenStorage
  currentUser : Option String
  route : String
  activeOrgId : Option String
  refreshing : Bool
  refreshTokenObservable : Option Observable
  requests : ι → Request
  posts : List Post
  episodes : ℕ
  unauthorized : ℕ

/-- What happens to the client. -/
inductive AuthEvent (ι : Type*)
  | signIn (user accessToken refreshToken : String)
  | handleSsoToken (user token : String) (refreshToken : Option String)
  | logout
  | setOrg (orgId : String)
  | send (i : ι) (url : String)
  | answered (i : ι) (error : Option ℕ)
  | subscribe (i : ι)
  | refreshed (post : ℕ) (accessToken : String)
  | refreshFailed (post : ℕ)
  deriving DecidableEq

/-- `AUTH_URLS`. -/
def authUrls : List String :=
  ["/api/v1/auth/login", "/api/v1/auth/register", "/api/v1/auth/refresh",
    "/api/v1/auth/verify-email", "/api/v1/auth/forgot-password", "/api/v1/auth/reset-password"]

def isAuthUrl (url : String) : Bool := authUrls.any fun a => a.toList <:+: url.toList

namespace AuthClient

variable {ι : Type*} [DecidableEq ι]

/-! ## `AuthService` -/

/-- What `login` and `submitMfa` do with what they have read of a reply: two texts are stored. -/
def signIn (c : AuthClient ι) (user accessToken refreshToken : String) : AuthClient ι :=
  { c with
    currentUser := some user
    storage := (c.storage.setAccessToken accessToken).setRefreshToken refreshToken }

/-- `handleSsoToken`. -/
def handleSsoToken (c : AuthClient ι) (user token : String) (refreshToken : Option String) :
    AuthClient ι :=
  { c with
    currentUser := some user
    storage := match refreshToken with
      | some t => (c.storage.setAccessToken token).setRefreshToken t
      | none => c.storage.setAccessToken token }

def logout (c : AuthClient ι) : AuthClient ι :=
  { c with currentUser := none, storage := .clear, route := "/auth/login" }

/-- `refreshToken`, with the observable it returns. -/
def refreshToken (c : AuthClient ι) : AuthClient ι × Observable :=
  if c.refreshing then (c, .flag)
  else
    ({ c with
      refreshing := true
      refreshTokenObservable := some (.post c.storage.refreshToken)
      episodes := c.episodes + 1 }, .flag)

/-! ## `jwtInterceptor` -/

def set (c : AuthClient ι) (i : ι) (r : Request) : AuthClient ι :=
  { c with requests := Function.update c.requests i r }

/-- A request is sent, with the token and the organisation of the moment. -/
def send (c : AuthClient ι) (i : ι) (url : String) : Option (AuthClient ι) :=
  if c.requests i = .unborn then
    some (c.set i (if isAuthUrl url then .direct else .sent url ⟨c.storage.accessToken, c.activeOrgId⟩))
  else none

/-- The answer to a request; an error is its status. -/
def answered (c : AuthClient ι) (i : ι) (error : Option ℕ) : Option (AuthClient ι) :=
  match c.requests i, error with
  | .direct, none | .sent _ _, none | .retried _ _, none => some (c.set i .succeeded)
  | .direct, some _ => some (c.set i .failed)
  | .sent url _, some status =>
    if status = 401 then
      let x := refreshToken { c with unauthorized := c.unauthorized + 1 }
      some (x.1.set i (.unauthorized url x.2))
    else some (c.set i .failed)
  | .retried _ _, some status => some ((if status = 401 then c.logout else c).set i .failed)
  | _, _ => none

/-- The read of the access token behind the flag, and the `switchMap` that sends the request
again. -/
def resume (c : AuthClient ι) (url : String) : Request :=
  match c.storage.accessToken.filter (· ≠ "") with
  | some token => .retried url ⟨some token, c.activeOrgId⟩
  | none => .failed

/-- The subscription of a POST issues it. -/
def issue (c : AuthClient ι) (refreshToken : Option String) : AuthClient ι :=
  { c with posts := c.posts ++ [⟨refreshToken, false⟩] }

/-- The subscription of what `refreshToken()` returned. -/
def subscribe (c : AuthClient ι) (i : ι) : Option (AuthClient ι) :=
  match c.requests i with
  | .unauthorized url (.post refreshToken) =>
    some ((c.issue refreshToken).set i (.posting url c.posts.length))
  | .unauthorized url .flag => some (c.set i (if c.refreshing then .waiting url else c.resume url))
  | _ => none

/-! ## The reply to the POST -/

/-- `refreshing$.next(false)`. -/
def release (c : AuthClient ι) : AuthClient ι :=
  { c with
    refreshing := false
    requests := fun i => match c.requests i with
      | .waiting url => c.resume url
      | r => r }

/-- Take the answer to a POST that is open. -/
def close (c : AuthClient ι) (post : ℕ) : Option (AuthClient ι) :=
  match c.posts[post]? with
  | some ⟨t, false⟩ => some { c with posts := c.posts.set post ⟨t, true⟩ }
  | _ => none

/-- What subscribed to the POST itself goes on with. -/
def settle (c : AuthClient ι) (post : ℕ) (next : String → Request) : AuthClient ι :=
  { c with requests := fun i => match c.requests i with
      | .posting url k => if k = post then next url else .posting url k
      | r => r }

/-- The `map` of `refreshToken$`. -/
def storeRefreshed (c : AuthClient ι) (accessToken : String) : AuthClient ι :=
  release { c with storage := c.storage.setAccessToken accessToken }

/-- The `catchError` of `refreshToken$`. -/
def refreshError (c : AuthClient ι) : AuthClient ι := c.release.logout

def refreshed (c : AuthClient ι) (post : ℕ) (accessToken : String) : Option (AuthClient ι) :=
  (c.close post).map fun c => (c.storeRefreshed accessToken).settle post fun url =>
    .retried url ⟨some accessToken, c.activeOrgId⟩

def refreshFailed (c : AuthClient ι) (post : ℕ) : Option (AuthClient ι) :=
  (c.close post).map fun c => c.refreshError.settle post fun _ => .failed

/-- What an event does to the client. -/
def step (c : AuthClient ι) : AuthEvent ι → Option (AuthClient ι)
  | .signIn user accessToken refreshToken => some (c.signIn user accessToken refreshToken)
  | .handleSsoToken user token refreshToken => some (c.handleSsoToken user token refreshToken)
  | .logout => some c.logout
  | .setOrg orgId => some { c with activeOrgId := some orgId }
  | .send i url => c.send i url
  | .answered i error => c.answered i error
  | .subscribe i => c.subscribe i
  | .refreshed post accessToken => c.refreshed post accessToken
  | .refreshFailed post => c.refreshFailed post

/-! ## One refresh for all -/

/-- A client that has sent nothing. -/
structure Fresh (c : AuthClient ι) : Prop where
  requests : ∀ i, c.requests i = .unborn
  refreshing : c.refreshing = false
  posts : c.posts = []
  episodes : c.episodes = 0
  unauthorized : c.unauthorized = 0

def loggedOut (c : AuthClient ι) : Prop := c.currentUser = none ∧ c.storage = .clear

/-- **Single flight**: every expiry episode has issued one POST, a raised flag has a POST to wait
for, nobody waits for a lowered one, and the answer to the POST lowers the flag and moves every
request that waited. -/
structure SingleFlight (c : AuthClient ι) : Prop where
  one_post : c.posts.length = c.episodes
  in_flight : c.refreshing = true → ∃ p ∈ c.posts, p.answered = false
  released : c.refreshing = false → ∀ i url, c.requests i ≠ .waiting url
  succeeds : ∀ post accessToken c', c.step (.refreshed post accessToken) = some c' →
    c'.refreshing = false ∧ ∀ i url, c.requests i = .waiting url →
      c'.requests i = .retried url ⟨some accessToken, c.activeOrgId⟩
  fails : ∀ post c', c.step (.refreshFailed post) = some c' →
    c'.refreshing = false ∧ c'.loggedOut ∧
      ∀ i url, c.requests i = .waiting url → c'.requests i = .failed

/-- What the code comes to: no POST is issued, and no request holds one it could subscribe. -/
structure Unissued (c : AuthClient ι) : Prop where
  posts : c.posts = []
  flag : ∀ i url o, c.requests i = .unauthorized url o → o = .flag
  raised : c.refreshing = decide (0 < c.unauthorized)
  episodes : 0 < c.unauthorized → 0 < c.episodes
  quiet : c.unauthorized = 0 → c.episodes = 0 ∧ ∀ i url,
    c.requests i ≠ .waiting url ∧ ∀ o, c.requests i ≠ .unauthorized url o

variable {c c' : AuthClient ι} {i : ι}

omit [DecidableEq ι] in
theorem Fresh.unissued (h : c.Fresh) : c.Unissued where
  posts := h.posts
  flag j url o hj := by rw [h.requests j] at hj; cases hj
  raised := by rw [h.refreshing, h.unauthorized]; rfl
  episodes hpos := by rw [h.unauthorized] at hpos; cases hpos
  quiet _ := ⟨h.episodes, fun j url => by rw [h.requests j]; simp⟩

/-- A request that waits for a refresh, or is about to. -/
def Request.Held (r : Request) : Prop := ∃ url, r = .waiting url ∨ ∃ o, r = .unauthorized url o

omit [DecidableEq ι] in
theorem Unissued.pos_of_held (h : c.Unissued) {r : Request} (hi : c.requests i = r)
    (hr : Request.Held r) : 0 < c.unauthorized := by
  obtain ⟨url, hr⟩ := hr
  by_contra hzero
  obtain ⟨hwaiting, hunauthorized⟩ := (h.quiet (Nat.eq_zero_of_not_pos hzero)).2 i url
  rcases hr with rfl | ⟨o, rfl⟩
  · exact hwaiting hi
  · exact hunauthorized o hi

/-- A request moves on, and still nothing was subscribed to. -/
theorem Unissued.set (h : c.Unissued) {r : Request} (i : ι)
    (hflag : ∀ url o, r = .unauthorized url o → o = .flag)
    (hheld : Request.Held r → 0 < c.unauthorized) : (c.set i r).Unissued where
  posts := h.posts
  raised := h.raised
  episodes := h.episodes
  flag j url o hj := by
    by_cases hji : j = i
    · subst hji
      exact hflag url o ((Function.update_self ..).symm.trans hj)
    · exact h.flag j url o ((Function.update_of_ne hji ..).symm.trans hj)
  quiet hzero := by
    refine ⟨(h.quiet hzero).1, fun j url => ?_⟩
    have hr : ¬ Request.Held r := fun hr => (hheld hr).ne' hzero
    by_cases hji : j = i
    · subst hji
      rw [show (c.set j r).requests j = r from Function.update_self ..]
      exact ⟨fun hw => hr ⟨url, .inl hw⟩, fun o ho => hr ⟨url, .inr ⟨o, ho⟩⟩⟩
    · rw [show (c.set i r).requests j = c.requests j from Function.update_of_ne hji ..]
      exact (h.quiet hzero).2 j url

/-- A request that is neither held nor about to be. -/
theorem Unissued.set_free (h : c.Unissued) {r : Request} (i : ι) (hr : ¬ Request.Held r) :
    (c.set i r).Unissued :=
  h.set i (fun url o ho => absurd ⟨url, .inr ⟨o, ho⟩⟩ hr) fun hheld => absurd hheld hr

omit [DecidableEq ι] in
theorem not_held_resume (c : AuthClient ι) (url : String) : ¬ Request.Held (c.resume url) := by
  rw [resume]
  split <;> simp [Request.Held]

omit [DecidableEq ι] in
/-- The answer 401 raises the flag; the POST stays in its field. -/
theorem Unissued.refreshToken (h : c.Unissued) :
    (refreshToken { c with unauthorized := c.unauthorized + 1 }).1.Unissued := by
  rw [AuthClient.refreshToken]
  split
  case isTrue hraised =>
    have hpos : 0 < c.unauthorized := of_decide_eq_true (h.raised.symm.trans hraised)
    exact ⟨h.posts, h.flag, by simpa using hraised, fun _ => h.episodes hpos, by simp⟩
  case isFalse => exact ⟨h.posts, h.flag, by simp, by simp, by simp⟩

omit [DecidableEq ι] in
theorem refreshToken_unauthorized (c : AuthClient ι) :
    c.refreshToken.1.unauthorized = c.unauthorized := by
  rw [AuthClient.refreshToken]
  split <;> rfl

omit [DecidableEq ι] in
/-- **The observable returned is the flag's**, never the POST. -/
theorem refreshToken_flag (c : AuthClient ι) : c.refreshToken.2 = .flag := by
  rw [AuthClient.refreshToken]
  split <;> rfl

omit [DecidableEq ι] in
theorem close_of_posts (h : c.posts = []) (post : ℕ) : c.close post = none := by
  rw [close, h]
  rfl

/-- An answer issues no refresh. -/
theorem Unissued.answered (h : c.Unissued) {error : Option ℕ} (hs : c.answered i error = some c') :
    c'.Unissued := by
  have hfree (r : Request) (hr : ¬ Request.Held r) {d : AuthClient ι} (hd : d.Unissued) :
      (d.set i r).Unissued := hd.set_free i hr
  have hsucceeded : ¬ Request.Held .succeeded := by simp [Request.Held]
  have hfailed : ¬ Request.Held .failed := by simp [Request.Held]
  unfold AuthClient.answered at hs
  split at hs
  case h_1 | h_2 | h_3 =>
    obtain rfl := Option.some.inj hs
    exact hfree _ hsucceeded h
  case h_4 =>
    obtain rfl := Option.some.inj hs
    exact hfree _ hfailed h
  case h_5 url headers status =>
    split at hs
    · obtain rfl := Option.some.inj hs
      refine h.refreshToken.set i (fun url o ho => ?_) fun _ => ?_
      · rw [← (Request.unauthorized.inj ho).2]
        exact refreshToken_flag _
      · rw [refreshToken_unauthorized]
        exact Nat.succ_pos _
    · obtain rfl := Option.some.inj hs
      exact hfree _ hfailed h
  case h_6 =>
    obtain rfl := Option.some.inj hs
    refine hfree _ hfailed ?_
    split
    · exact ⟨h.posts, h.flag, h.raised, h.episodes, h.quiet⟩
    · exact h
  case h_7 => cases hs

/-- A subscription issues no POST. -/
theorem Unissued.subscribe (h : c.Unissued) (hs : c.subscribe i = some c') : c'.Unissued := by
  rw [AuthClient.subscribe] at hs
  split at hs
  case h_1 url t hi => cases h.flag i url _ hi
  case h_2 url hi =>
    obtain rfl := Option.some.inj hs
    have hpos := h.pos_of_held hi ⟨url, .inr ⟨.flag, rfl⟩⟩
    refine h.set i (fun url' o ho => ?_) fun _ => hpos
    split at ho
    · cases ho
    · exact absurd ⟨url', .inr ⟨o, ho⟩⟩ (not_held_resume c url)
  case h_3 => cases hs

/-- **No step issues the POST.** -/
theorem Unissued.step {e : AuthEvent ι} (h : c.Unissued) (hs : c.step e = some c') :
    c'.Unissued := by
  cases e with
  | signIn user accessToken refreshToken | logout | setOrg orgId =>
    obtain rfl := Option.some.inj hs
    exact ⟨h.posts, h.flag, h.raised, h.episodes, h.quiet⟩
  | handleSsoToken user token refreshToken =>
    obtain rfl := Option.some.inj hs
    exact ⟨h.posts, h.flag, h.raised, h.episodes, h.quiet⟩
  | send i url =>
    have hs : c.send i url = some c' := hs
    rw [send] at hs
    split at hs
    · obtain rfl := Option.some.inj hs
      refine h.set_free i ?_
      split <;> simp [Request.Held]
    · cases hs
  | answered i error => exact h.answered hs
  | subscribe i => exact h.subscribe hs
  | refreshed post accessToken =>
    have hs : c.refreshed post accessToken = some c' := hs
    rw [refreshed, close_of_posts h.posts] at hs
    cases hs
  | refreshFailed post =>
    have hs : c.refreshFailed post = some c' := hs
    rw [refreshFailed, close_of_posts h.posts] at hs
    cases hs

/-- Where no POST was issued, the refresh is a single flight as long as nothing was refused. -/
theorem Unissued.singleFlight_iff (h : c.Unissued) : c.SingleFlight ↔ c.unauthorized = 0 := by
  constructor
  · intro hflight
    by_contra hne
    have hepisodes := h.episodes (Nat.pos_of_ne_zero hne)
    rw [← hflight.one_post, h.posts] at hepisodes
    cases hepisodes
  · intro hzero
    refine ⟨?_, fun hraised => ?_, fun _ i url => ((h.quiet hzero).2 i url).1, ?_, ?_⟩
    · rw [h.posts, (h.quiet hzero).1]
      rfl
    · rw [h.raised, hzero] at hraised
      cases hraised
    · intro post accessToken c' hs
      have hs : c.refreshed post accessToken = some c' := hs
      rw [refreshed, close_of_posts h.posts] at hs
      cases hs
    · intro post c' hs
      have hs : c.refreshFailed post = some c' := hs
      rw [refreshFailed, close_of_posts h.posts] at hs
      cases hs

theorem unissued_of_run {c₀ : AuthClient ι} (h₀ : c₀.Fresh) (h : Run step anyStep c₀ c) :
    c.Unissued :=
  h.invariant h₀.unissued fun _ _ _ ht _ hs => ht.step hs

/-- **The refresh is a single flight exactly as long as there is none**: in every run, up to the
first request that is answered 401. -/
theorem single_flight_iff {c₀ : AuthClient ι} (h₀ : c₀.Fresh) (h : Run step anyStep c₀ c) :
    c.SingleFlight ↔ c.unauthorized = 0 :=
  (unissued_of_run h₀ h).singleFlight_iff

end AuthClient

/-! ## Two runs -/

/-- A client that is signed in and has sent nothing. -/
def demoClient : AuthClient ℕ where
  storage := ⟨some "access", some "refresh"⟩
  currentUser := some "u"
  route := "/"
  activeOrgId := some "o"
  refreshing := false
  refreshTokenObservable := none
  requests _ := .unborn
  posts := []
  episodes := 0
  unauthorized := 0

theorem demoClient_fresh : demoClient.Fresh := ⟨fun _ => rfl, rfl, rfl, rfl, rfl⟩

/-- A client whose requests are all answered. -/
theorem single_flight_of_answered :
    ∃ c, Run AuthClient.step anyStep demoClient c ∧ c.SingleFlight ∧
      c.requests 0 = .succeeded := by
  obtain ⟨c, hrun, hc⟩ := exists_run_of_exec AuthClient.step anyStep demoClient
    [.send 0 "/api/v1/orgs/mine", .answered 0 none]
    (fun c => c.unauthorized = 0 ∧ c.requests 0 = .succeeded) (by decide)
  obtain ⟨hnone, hdone⟩ := of_decide_eq_true hc
  exact ⟨c, hrun, (AuthClient.single_flight_iff demoClient_fresh hrun).mpr hnone, hdone⟩

/-- **The request waits for good**: the flag is up, and no POST was issued. -/
theorem never_released :
    ¬ ∀ c₀ c : AuthClient ℕ, c₀.Fresh → Run AuthClient.step anyStep c₀ c → c.SingleFlight := by
  intro hflight
  obtain ⟨c, hrun, hc⟩ := exists_run_of_exec AuthClient.step anyStep demoClient
    [.send 0 "/api/v1/orgs/mine", .answered 0 (some 401), .subscribe 0]
    (fun c => c.requests 0 = .waiting "/api/v1/orgs/mine" ∧ c.posts.length = 0 ∧ c.episodes = 1)
    (by decide)
  obtain ⟨-, hposts, hepisodes⟩ := of_decide_eq_true hc
  have hone := (hflight demoClient c demoClient_fresh hrun).one_post
  rw [hposts, hepisodes] at hone
  cases hone

end WorkPlatform.Frontend
