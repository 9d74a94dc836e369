import DecentDebates.Entities.Notification

set_option autoImplicit false

/-! # Guards and routes (`guards/*.ts` and the decorators of the controllers)

What the decorators say of a handler, and the guards that run before it: the two that
`app.module.ts` provides for every handler, in this order, and `RolesGuard` where a controller or a
handler uses it. How often a client has called is kept by a package, so whether its budget is used
up is a parameter here. -/

namespace DecentDebates

inductive HttpMethod where
  | get
  | post
  | patch
deriving DecidableEq, Repr

/-- The metadata of a class or of a handler: `@SetMetadata("skipAuth", …)` and `@Roles(…)`. -/
structure Metadata where
  skipAuth : Bool := false
  roles : Option (List UserRole) := none
deriving DecidableEq, Repr

structure Route where
  method : HttpMethod
  /-- The metadata of `context.getClass()`. -/
  class' : Metadata := {}
  /-- The metadata of `context.getHandler()`. -/
  handler : Metadata := {}
  /-- `@UseGuards(RolesGuard)`, on the class or on the handler. -/
  usesRolesGuard : Bool := false
deriving DecidableEq, Repr

inductive GuardError where
  /-- `UnauthorizedException` -/
  | unauthorized
  /-- `ThrottlerException` -/
  | tooManyRequests
  /-- `ForbiddenException`, thrown for a guard that returns false. -/
  | forbidden
  /-- A property of a user that is undefined. -/
  | typeError
deriving DecidableEq, Repr

/-- `user` is `req.session.user`. -/
def AuthenticateGuard.canActivate (route : Route) (user : Option UserCookieData) :
    Except GuardError Unit :=
  let shouldSkipAuth := route.class'.skipAuth || route.handler.skipAuth
  if shouldSkipAuth then .ok ()
  else match user with
    | none => .error .unauthorized
    | some _ => .ok ()

/-- `SAFE_METHODS.has(req.method)` -/
def MutationThrottlerGuard.shouldSkip (route : Route) : Bool := route.method = .get

def MutationThrottlerGuard.canActivate (route : Route) (overLimit : Bool) : Except GuardError Unit :=
  if shouldSkip route then .ok () else if overLimit then .error .tooManyRequests else .ok ()

/-- A user whose role is null has none of the accepted ones. -/
def RolesGuard.doRolesMatch (acceptedRoles : List UserRole) (currentUserRole : Option UserRole) :
    Bool :=
  acceptedRoles.any fun role => currentUserRole = some role

/-- The roles of the class come before those of the handler. -/
def RolesGuard.canActivate (route : Route) (user : Option UserCookieData) :
    Except GuardError Unit :=
  match route.class'.roles <|> route.handler.roles with
  | none => .ok ()
  | some roles =>
    match user with
    | none => .error .typeError
    | some user => if doRolesMatch roles user.role then .ok () else .error .forbidden

/-- The guards of a handler. -/
def Route.canActivate (route : Route) (user : Option UserCookieData) (overLimit : Bool) :
    Except GuardError Unit := do
  AuthenticateGuard.canActivate route user
  MutationThrottlerGuard.canActivate route overLimit
  if route.usesRolesGuard then RolesGuard.canActivate route user

/-! ## The routes of the controllers -/

/-- `AuthController` -/
def authRoute : Route := { method := .post, class' := { skipAuth := true } }

/-- `HealthController` -/
def healthRoute : Route := { method := .get, class' := { skipAuth := true } }

/-- A handler of `DebatesController`, `CommentController`, `NotificationController` or
    `UserController` without decorators of its own. -/
def plainRoute (method : HttpMethod) : Route := { method }

/-- A handler of `DebatesController` that skips authentication. -/
def publicRoute : Route := { method := .get, handler := { skipAuth := true } }

/-- A handler of `ModeratorController`. -/
def moderatorRoute (method : HttpMethod) : Route :=
  { method, class' := { roles := some [.moderator] }, usesRolesGuard := true }

/-- A handler of `ReviewController`. -/
def reviewRoute (role : UserRole) : Route :=
  { method := .get, handler := { roles := some [role] }, usesRolesGuard := true }

/-- The handlers that leave the tables of the debates and the sessions as they are. -/
inductive Reading where
  | health
  | ready
  | getAll
  | getDebate
  | getDebateArgument
  | getDraft
  | getModeratorActivity
  | getDebateArgumentAsModerator
  | getDebateByTicketId
  | getArgumentAsModerator
  | getDebateAsModerator
  | getArgumentAsUser
  | getDebateAsUser
  | getTicketComments
  | getNotifications
  | notificationCount
  | getUserActivity
deriving DecidableEq, Repr

def Reading.route : Reading → Route
  | health => healthRoute
  | ready => healthRoute
  | getAll => publicRoute
  | getDebate => publicRoute
  | getDebateArgument => publicRoute
  | getDraft => plainRoute .get
  | getModeratorActivity => moderatorRoute .get
  | getDebateArgumentAsModerator => moderatorRoute .get
  | getDebateByTicketId => moderatorRoute .get
  | getArgumentAsModerator => reviewRoute .moderator
  | getDebateAsModerator => reviewRoute .moderator
  | getArgumentAsUser => reviewRoute .user
  | getDebateAsUser => reviewRoute .user
  | getTicketComments => plainRoute .get
  | getNotifications => plainRoute .get
  | notificationCount => plainRoute .get
  | getUserActivity => plainRoute .get

end DecentDebates
