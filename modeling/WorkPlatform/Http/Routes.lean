import WorkPlatform.Auth.AdminGate
import WorkPlatform.Organization.Store

/-!
# Http/Routes — which handler a request gets to, and past which middlewares

    /api/v1/auth   auth
    /api/v1        org ▸ task ▸ chat ▸ notification ▸ push ▸ payment ▸ file ▸ search ▸ workspace
                     ▸ webhook ▸ feature flag ▸ admin ▸ gdpr

    orgMiddleware  jwt ▸ orgContext ▸ orgStatus

A request is taken by the first route that has its method and its path.  A router sees the path
behind its mount, and so does `orgStatusMiddleware`.

Of the middlewares those are here that refuse a caller: the token is good, and what the context
resolves to and what `platformAdminMiddleware` answers are given.
-/

namespace WorkPlatform.Http

open Auth (Role)
open Organization (OrgContext)
open Payment (OrgStatus)

/-! ## Requests -/

/-- `other` is a method no route is registered for. -/
inductive Method
  | get | head | post | put | patch | delete | other
  deriving DecidableEq

/-- `WRITE_METHODS`. -/
def Method.writes : Method → Bool
  | .post | .put | .patch | .delete => true
  | .get | .head | .other => false

/-- A request, with the text of its path. -/
structure Request where
  method : Method
  path : List Char
  deriving DecidableEq

/-! ## Patterns -/

/-- A segment of a pattern; a literal is in lower case. -/
inductive Seg
  | lit (text : String)
  | param
  deriving DecidableEq

/-- Express takes a second slash behind a mount for its own. -/
def unslash : List Char → List Char
  | '/' :: '/' :: rest => '/' :: rest
  | rest => rest

/-- The path behind a mount. -/
def unmount : List Seg → List Char → Option (List Char)
  | [], [] => some ['/']
  | [], '/' :: rest => some (unslash ('/' :: rest))
  | .lit text :: mount, '/' :: rest =>
    if (rest.takeWhile (· ≠ '/')).map Char.toLower = text.toList then
      unmount mount (rest.dropWhile (· ≠ '/'))
    else none
  | _, _ => none

/-- The bytes of a text, `%` and two digits standing for one; `none` where the digits are
missing. -/
def percentDecode : List Char → Option (List UInt8)
  | [] => some []
  | '%' :: high :: low :: rest => do
    let high ← Auth.hexDigit high
    let low ← Auth.hexDigit low
    return UInt8.ofNat (16 * high + low) :: (← percentDecode rest)
  | c :: rest =>
    if c = '%' then none
    else (percentDecode rest).map fun bytes => (String.singleton c).toUTF8.toList ++ bytes

/-- `none` where it throws. -/
def decodeURIComponent (text : List Char) : Option String :=
  if '%' ∈ text then
    (percentDecode text).bind fun bytes => String.fromUTF8? ⟨bytes.toArray⟩
  else some (String.ofList text)

/-- The parameters of a path that has the pattern.  Letters match in either case, and a slash at the
end does not count. -/
def matchPath : List Seg → List Char → Option (List String)
  | [], rest => if rest = [] ∨ rest = ['/'] then some [] else none
  | .lit text :: pattern, '/' :: rest =>
    if (rest.takeWhile (· ≠ '/')).map Char.toLower = text.toList then
      matchPath pattern (rest.dropWhile (· ≠ '/'))
    else none
  | .param :: pattern, '/' :: rest =>
    if rest.takeWhile (· ≠ '/') = [] then none
    else
      (decodeURIComponent (rest.takeWhile (· ≠ '/'))).bind fun value =>
        (matchPath pattern (rest.dropWhile (· ≠ '/'))).map (value :: ·)
  | _, _ => none

/-! ## Routes -/

/-- The middlewares that can refuse a request. -/
inductive Guard
  | jwt
  | orgContext
  | orgStatus
  | requireRole (roles : List Role)
  | platformAdmin
  deriving DecidableEq

/-- The handlers, by the service function they call; those are one that nothing here tells apart. -/
inductive Handler
  | read
  | account
  | createOrg | updateOrg | suspendOrg | reactivateOrg | members | invitations | acceptInvitation
  | createTask | updateTask | deleteTask | dependencies | bulkUpdateStatus | bulkDelete | templates
  | createComment | deleteComment
  | createDirect | createGroup | createWorkspaceChannel | sendMessage | deleteMessage
  | notifications | unsubscribe
  | pushSubscription
  | createOrder | verifyPayment | razorpayWebhook
  | requestUploadUrl
  | createWorkspace | updateWorkspace | deleteWorkspace
  | webhooks
  | featureFlags | admin | gdpr
  deriving DecidableEq

/-- A route of a router: its middlewares in their order, and what it is handled by. -/
structure Route where
  method : Method
  pattern : List Seg
  guards : List Guard
  handler : Handler

def orgMiddleware : List Guard := [.jwt, .orgContext, .orgStatus]

/-- The `adminMiddleware` of the webhook router. -/
def webhookAdmin : List Guard := orgMiddleware ++ [.requireRole [.orgOwner, .orgAdmin]]

/-- The `adminMiddleware` of the admin routers. -/
def platformAdmin : List Guard := [.jwt, .platformAdmin]

/-- `/orgs/:orgId/…`. -/
def org (rest : List Seg) : List Seg := .lit "orgs" :: .param :: rest

/-- The router of accounts. -/
def authRoutes : List Route :=
  [ ⟨.post, [.lit "register"], [], .account⟩,
    ⟨.post, [.lit "login"], [], .account⟩,
    ⟨.post, [.lit "refresh"], [], .account⟩,
    ⟨.post, [.lit "logout"], [.jwt], .account⟩,
    ⟨.get, [.lit "verify-email"], [], .account⟩,
    ⟨.post, [.lit "verify-email", .lit "resend"], [], .account⟩,
    ⟨.post, [.lit "password-reset", .lit "request"], [], .account⟩,
    ⟨.post, [.lit "password-reset", .lit "confirm"], [], .account⟩,
    ⟨.post, [.lit "oauth", .lit "google"], [], .account⟩,
    ⟨.post, [.lit "magic-link", .lit "request"], [], .account⟩,
    ⟨.post, [.lit "magic-link", .lit "verify"], [], .account⟩,
    ⟨.post, [.lit "saml", .param, .lit "callback"], [], .account⟩ ]

/-- The router of organisations. -/
def orgRoutes : List Route :=
  [ ⟨.get, [.lit "me"], [.jwt], .read⟩,
    ⟨.post, [.lit "orgs"], [.jwt], .createOrg⟩,
    ⟨.get, [.lit "orgs", .lit "mine"], [.jwt], .read⟩,
    ⟨.get, org [], orgMiddleware, .read⟩,
    ⟨.patch, org [], orgMiddleware, .updateOrg⟩,
    ⟨.post, org [.lit "suspend"], orgMiddleware, .suspendOrg⟩,
    ⟨.post, org [.lit "reactivate"], orgMiddleware, .reactivateOrg⟩,
    ⟨.get, org [.lit "members"], orgMiddleware, .read⟩,
    ⟨.patch, org [.lit "members", .param, .lit "role"], orgMiddleware, .members⟩,
    ⟨.delete, org [.lit "members", .param], orgMiddleware, .members⟩,
    ⟨.post, org [.lit "invitations"], orgMiddleware, .invitations⟩,
    ⟨.delete, org [.lit "invitations", .param], orgMiddleware, .invitations⟩,
    ⟨.post, [.lit "orgs", .lit "invitations", .lit "accept"], [], .acceptInvitation⟩ ]

/-- The DELETE of several tasks stands behind that of one, which has its path as well. -/
def taskRoutes : List Route :=
  [ ⟨.post, org [.lit "tasks"], orgMiddleware, .createTask⟩,
    ⟨.get, org [.lit "tasks"], orgMiddleware, .read⟩,
    ⟨.get, org [.lit "tasks", .param], orgMiddleware, .read⟩,
    ⟨.patch, org [.lit "tasks", .param], orgMiddleware, .updateTask⟩,
    ⟨.delete, org [.lit "tasks", .param], orgMiddleware, .deleteTask⟩,
    ⟨.post, org [.lit "tasks", .param, .lit "dependencies"], orgMiddleware, .dependencies⟩,
    ⟨.get, org [.lit "tasks", .param, .lit "dependencies"], orgMiddleware, .read⟩,
    ⟨.delete, org [.lit "tasks", .lit "dependencies", .param], orgMiddleware, .dependencies⟩,
    ⟨.post, org [.lit "tasks", .lit "bulk", .lit "status"], orgMiddleware, .bulkUpdateStatus⟩,
    ⟨.delete, org [.lit "tasks", .lit "bulk"], orgMiddleware, .bulkDelete⟩,
    ⟨.post, org [.lit "task-templates"], orgMiddleware, .templates⟩,
    ⟨.get, org [.lit "task-templates"], orgMiddleware, .read⟩,
    ⟨.delete, org [.lit "task-templates", .param], orgMiddleware, .templates⟩,
    ⟨.post, org [.lit "tasks", .param, .lit "comments"], orgMiddleware, .createComment⟩,
    ⟨.get, org [.lit "tasks", .param, .lit "comments"], orgMiddleware, .read⟩,
    ⟨.delete, org [.lit "tasks", .param, .lit "comments", .param], orgMiddleware, .deleteComment⟩,
    ⟨.get, org [.lit "tasks", .param, .lit "activity"], orgMiddleware, .read⟩,
    ⟨.get, org [.lit "activity"], orgMiddleware, .read⟩ ]

/-- The router of channels and messages. -/
def chatRoutes : List Route :=
  [ ⟨.post, org [.lit "channels", .lit "direct"], orgMiddleware, .createDirect⟩,
    ⟨.post, org [.lit "channels", .lit "group"], orgMiddleware, .createGroup⟩,
    ⟨.post, org [.lit "channels", .lit "workspace"], orgMiddleware, .createWorkspaceChannel⟩,
    ⟨.get, org [.lit "channels"], orgMiddleware, .read⟩,
    ⟨.get, org [.lit "channels", .param], orgMiddleware, .read⟩,
    ⟨.post, org [.lit "channels", .param, .lit "messages"], orgMiddleware, .sendMessage⟩,
    ⟨.get, org [.lit "channels", .param, .lit "messages"], orgMiddleware, .read⟩,
    ⟨.delete, org [.lit "channels", .param, .lit "messages", .param], orgMiddleware,
      .deleteMessage⟩ ]

/-- The router of notifications and preferences. -/
def notificationRoutes : List Route :=
  [ ⟨.get, org [.lit "notifications"], orgMiddleware, .read⟩,
    ⟨.patch, org [.lit "notifications", .param, .lit "read"], orgMiddleware, .notifications⟩,
    ⟨.post, org [.lit "notifications", .lit "read-all"], orgMiddleware, .notifications⟩,
    ⟨.get, org [.lit "notification-preferences"], orgMiddleware, .read⟩,
    ⟨.patch, org [.lit "notification-preferences", .param], orgMiddleware, .notifications⟩,
    ⟨.get, [.lit "notifications", .lit "unsubscribe"], [], .unsubscribe⟩ ]

def pushRoutes : List Route :=
  [ ⟨.post, [.lit "push", .lit "subscribe"], [.jwt, .orgContext], .pushSubscription⟩,
    ⟨.delete, [.lit "push", .lit "subscribe"], [.jwt, .orgContext], .pushSubscription⟩ ]

/-- The last one is that of the router mounted at `/webhooks`. -/
def paymentRoutes : List Route :=
  [ ⟨.post, org [.lit "payments", .lit "orders"], orgMiddleware, .createOrder⟩,
    ⟨.post, org [.lit "payments", .lit "verify"], orgMiddleware, .verifyPayment⟩,
    ⟨.get, org [.lit "payments"], orgMiddleware, .read⟩,
    ⟨.get, org [.lit "subscription"], orgMiddleware, .read⟩,
    ⟨.post, [.lit "webhooks", .lit "razorpay"], [], .razorpayWebhook⟩ ]

/-- The router of files. -/
def fileRoutes : List Route :=
  [ ⟨.post, org [.lit "files", .lit "upload-url"], orgMiddleware, .requestUploadUrl⟩,
    ⟨.get, org [.lit "files", .param, .lit "download-url"], orgMiddleware, .read⟩,
    ⟨.get, org [.lit "files"], orgMiddleware, .read⟩,
    ⟨.get, org [.lit "files", .param], orgMiddleware, .read⟩ ]

def searchRoutes : List Route := [⟨.get, org [.lit "search"], orgMiddleware, .read⟩]

/-- The router of workspaces. -/
def workspaceRoutes : List Route :=
  [ ⟨.post, org [.lit "workspaces"], orgMiddleware, .createWorkspace⟩,
    ⟨.get, org [.lit "workspaces"], orgMiddleware, .read⟩,
    ⟨.get, org [.lit "workspaces", .param], orgMiddleware, .read⟩,
    ⟨.patch, org [.lit "workspaces", .param], orgMiddleware, .updateWorkspace⟩,
    ⟨.delete, org [.lit "workspaces", .param], orgMiddleware, .deleteWorkspace⟩ ]

/-- The router of webhooks. -/
def webhookRoutes : List Route :=
  [ ⟨.post, org [.lit "webhooks"], webhookAdmin, .webhooks⟩,
    ⟨.get, org [.lit "webhooks"], orgMiddleware, .read⟩,
    ⟨.delete, org [.lit "webhooks", .param], webhookAdmin, .webhooks⟩,
    ⟨.post, org [.lit "webhooks", .param, .lit "rotate-secret"], webhookAdmin, .webhooks⟩ ]

/-- The router of feature flags. -/
def featureFlagRoutes : List Route :=
  [ ⟨.get, [.lit "admin", .lit "feature-flags"], platformAdmin, .read⟩,
    ⟨.post, [.lit "admin", .lit "feature-flags"], platformAdmin, .featureFlags⟩,
    ⟨.patch, [.lit "admin", .lit "feature-flags", .param], platformAdmin, .featureFlags⟩,
    ⟨.delete, [.lit "admin", .lit "feature-flags", .param], platformAdmin, .featureFlags⟩ ]

/-- `/admin/organizations/:orgId/…`. -/
def adminOrg (action : String) : Route :=
  ⟨.post, [.lit "admin", .lit "organizations", .param, .lit action], platformAdmin, .admin⟩

/-- The router of the platform's administrators. -/
def adminRoutes : List Route :=
  [ ⟨.get, [.lit "admin", .lit "organizations"], platformAdmin, .read⟩,
    adminOrg "suspend", adminOrg "reactivate", adminOrg "offboard",
    ⟨.post, [.lit "admin", .lit "users", .param, .lit "unlock"], platformAdmin, .admin⟩,
    ⟨.post, [.lit "admin", .lit "users", .param, .lit "reset-mfa"], platformAdmin, .admin⟩,
    adminOrg "trigger-payment-recovery",
    ⟨.post, [.lit "admin", .lit "outbox", .param, .lit "replay"], platformAdmin, .admin⟩,
    ⟨.post, [.lit "admin", .lit "queues", .param, .lit "requeue-dlq"], platformAdmin, .admin⟩,
    adminOrg "reindex-search",
    ⟨.post, [.lit "admin", .lit "jwt", .lit "rotate-keys"], platformAdmin, .admin⟩ ]

/-- The router of exports, erasures and offboarding. -/
def gdprRoutes : List Route :=
  [ ⟨.post, org [.lit "gdpr", .lit "export-request"], orgMiddleware, .gdpr⟩,
    ⟨.post, org [.lit "gdpr", .lit "erasure-request"], orgMiddleware, .gdpr⟩,
    ⟨.post, [.lit "admin", .lit "orgs", .param, .lit "gdpr", .lit "org-export"], platformAdmin,
      .gdpr⟩,
    ⟨.post, [.lit "admin", .lit "orgs", .param, .lit "offboard"], platformAdmin, .admin⟩ ]

/-- The routers at `/api/v1`, in the order they are mounted in. -/
def apiRoutes : List Route :=
  orgRoutes ++ taskRoutes ++ chatRoutes ++ notificationRoutes ++ pushRoutes ++ paymentRoutes
    ++ fileRoutes ++ searchRoutes ++ workspaceRoutes ++ webhookRoutes ++ featureFlagRoutes
    ++ adminRoutes ++ gdprRoutes

/-- The routers of `app.ts`, each with its mount. -/
def routers : List (List Seg × List Route) :=
  [([.lit "api", .lit "v1", .lit "auth"], authRoutes), ([.lit "api", .lit "v1"], apiRoutes)]

/-! ## Dispatch -/

/-- What a request is dispatched to: the route, the path its middlewares see, the parameters. -/
structure Target where
  route : Route
  path : List Char
  params : List String

/-- A route for GET takes HEAD as well. -/
def Route.takes (r : Route) (m : Method) : Bool := r.method = m ∨ r.method = .get ∧ m = .head

/-- The route, where it has the method and the path. -/
def Route.serve (r : Route) (method : Method) (path : List Char) : Option Target :=
  if r.takes method then (matchPath r.pattern path).map fun params => ⟨r, path, params⟩
  else none

/-- The first route of the routers; `none` is a 404, or a 400 where a parameter is not decoded. -/
def dispatch (req : Request) : Option Target :=
  routers.findSome? fun (mount, routes) =>
    (unmount mount req.path).bind fun path => routes.findSome? (·.serve req.method path)

/-- Every route of the application. -/
def routes : List Route := authRoutes ++ apiRoutes

/-- What a request is dispatched to is a route that has its method and its path. -/
theorem serves_of_dispatch {req : Request} {t : Target} (h : dispatch req = some t) :
    t.route ∈ routes ∧ t.route.takes req.method
      ∧ matchPath t.route.pattern t.path = some t.params := by
  obtain ⟨⟨mount, rs⟩, hrs, hserve⟩ := List.exists_of_findSome?_eq_some h
  obtain ⟨path, -, hserve⟩ := Option.bind_eq_some_iff.mp hserve
  obtain ⟨r, hr, hserve⟩ := List.exists_of_findSome?_eq_some hserve
  have hroutes : r ∈ routes := by
    rcases List.mem_pair.mp hrs with hrs | hrs
    · exact List.mem_append_left _ ((Prod.mk.inj hrs).2 ▸ hr)
    · exact List.mem_append_right _ ((Prod.mk.inj hrs).2 ▸ hr)
  unfold Route.serve at hserve
  obtain ⟨htakes, hmatch⟩ := Option.ite_none_right_eq_some.mp hserve
  obtain ⟨params, hparams, rfl⟩ := Option.map_eq_some_iff.mp hmatch
  exact ⟨hroutes, htakes, hparams⟩

/-- A path with a literal at its head begins with that literal, in some case. -/
theorem head_of_matchPath {text : String} {pattern : List Seg} {path : List Char}
    {params : List String} (h : matchPath (.lit text :: pattern) path = some params) :
    ∃ rest, path = '/' :: rest ∧ (rest.takeWhile (· ≠ '/')).map Char.toLower = text.toList := by
  unfold matchPath at h
  split at h
  case h_2 text' pattern' rest heq =>
    obtain ⟨hlit, -⟩ := List.cons.inj heq
    obtain rfl := Seg.lit.inj hlit
    obtain ⟨htext, -⟩ := Option.ite_none_right_eq_some.mp h
    exact ⟨rest, rfl, htext⟩
  all_goals simp_all

/-! ## The middlewares -/

/-- `SUSPENDED_BYPASS_PREFIXES`. -/
def suspendedBypassPrefixes : List String := ["/api/v1/auth"]

def isSuspendedBypass (method : Method) (path : List Char) : Bool :=
  if ¬ method.writes then true
  else suspendedBypassPrefixes.any fun start => start.toList.isPrefixOf path

/-- `orgStatusMiddleware`: the error it hands on, `none` where it just calls `next`. -/
def orgStatusMiddleware (method : Method) (path : List Char) (status : OrgStatus) :
    Option AppError :=
  match status with
  | .deleted => some (.forbidden "ORG_DELETED" "Organization has been deleted")
  | .offboarding =>
    if method.writes then
      some (.forbidden "ORG_OFFBOARDING" "Organization is in offboarding — writes are disabled")
    else none
  | .suspended =>
    if ¬ isSuspendedBypass method path then
      some (.forbidden "ORG_SUSPENDED" "Organization is suspended — writes are disabled")
    else none
  | .active => none

/-- The role as it is stored. -/
def Role.text : Role → String
  | .orgOwner => "org_owner"
  | .orgAdmin => "org_admin"
  | .member => "member"
  | .guest => "guest"

/-- `requireRole`, the error it goes on with. -/
def requireRole (roles : List Role) (memberRole : Role) : Option AppError :=
  if memberRole ∈ roles then none
  else some (.forbidden "INSUFFICIENT_ROLE"
    ("This action requires one of: " ++ String.intercalate ", " (roles.map Role.text)))

/-- What is known of the caller: what `platformAdminMiddleware` answers, and what
`resolveOrgContext` does. -/
structure Caller where
  admin : Option AppError
  context : Except AppError OrgContext

/-- What a middleware hands on; behind `orgContext` there is a context. -/
def Guard.answer (c : Caller) (method : Method) (path : List Char) : Guard → Option AppError
  | .jwt => none
  | .orgContext =>
    match c.context with
    | .error e => some e
    | .ok _ => none
  | .orgStatus =>
    match c.context with
    | .error _ => none
    | .ok ctx => orgStatusMiddleware method path ctx.orgStatus
  | .requireRole roles =>
    match c.context with
    | .error _ => none
    | .ok ctx => Http.requireRole roles ctx.memberRole
  | .platformAdmin => c.admin

/-- The first error of the chain of a route, `none` where the request gets to the handler. -/
def Target.refusal (t : Target) (c : Caller) (method : Method) : Option AppError :=
  t.route.guards.findSome? (·.answer c method t.path)

end WorkPlatform.Http
