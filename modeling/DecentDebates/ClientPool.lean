import DecentDebates.Entities.PoolClients
import DecentDebates.Lib.Transition

set_option autoImplicit false

/-! # Database clients are given back

The methods that take a client, with the arguments that decide whether they throw, and the pool as a
transition system: any number of calls run at the same time, each with statements that settle in any
way. Two methods do not give their client back on every path (`Leaks`). -/

namespace DecentDebates.Pool

open Effects Json

inductive Method where
  | getAll (filters : Option ParsedFilters)
  | createDebate (createdTags : Option (List String))
  | getDebateArguments
  | createArgument
  | getDebateArgument
  | getDebateArgumentAsModerator
  | saveArgumentAsDraft
  | getDraft
  | updateDraft
  | submitDraft
  | getDebateByTicketId
  | updateArgument
  | updateDebate
  | insertOne
  | getOneByEmailOrUsername
  | getActivityDebates
  | getActivityArguments
  | getDebateAsUser
  | getArgumentAsUser
  | getDebateCards
  | getArgumentCards
  | getArgumentAsModerator
  | getDebateAsModerator
  | updateTicket
  | approveTicket
  | addCommentToDebate
  | addCommentToArgument
  | getTicketComments
  | updateComment
  | getAllNotifications
  | getUnreadCount
  | markNotificationsAsRead

def Method.run (d : Driver) : Method → PoolM Unit
  | getAll filters => discard (DebatesService.getAll d filters)
  | createDebate createdTags => DebatesService.createDebate d createdTags
  | getDebateArguments => discard (DebatesService.getDebateArguments d)
  | createArgument => DebatesService.createArgument d
  | getDebateArgument => discard (DebatesService.getDebateArgument d)
  | getDebateArgumentAsModerator => discard (DebatesService.getDebateArgumentAsModerator d)
  | saveArgumentAsDraft => DebatesService.saveArgumentAsDraft d
  | getDraft => discard (DebatesService.getDraft d)
  | updateDraft => DebatesService.updateDraft d
  | submitDraft => DebatesService.submitDraft d
  | getDebateByTicketId => discard (DebatesService.getDebateByTicketId d)
  | updateArgument => discard (DebatesService.updateArgument d)
  | updateDebate => discard (DebatesService.updateDebate d)
  | insertOne => discard (UserService.insertOne d)
  | getOneByEmailOrUsername => discard (UserService.getOneByEmailOrUsername d)
  | getActivityDebates => discard (UserService.getActivityDebates d)
  | getActivityArguments => discard (UserService.getActivityArguments d)
  | getDebateAsUser => discard (UserService.getDebateAsUser d)
  | getArgumentAsUser => discard (UserService.getArgumentAsUser d)
  | getDebateCards => discard (ModeratorService.getDebateCards d)
  | getArgumentCards => discard (ModeratorService.getArgumentCards d)
  | getArgumentAsModerator => discard (ModeratorService.getArgumentAsModerator d)
  | getDebateAsModerator => discard (ModeratorService.getDebateAsModerator d)
  | updateTicket => ModeratorService.updateTicket d
  | approveTicket => discard (ModeratorService.approveTicket d)
  | addCommentToDebate => discard (CommentService.addCommentToDebate d)
  | addCommentToArgument => discard (CommentService.addCommentToArgument d)
  | getTicketComments => discard (CommentService.getTicketComments d)
  | updateComment => discard (CommentService.updateComment d)
  | getAllNotifications => discard (NotificationService.getAll d)
  | getUnreadCount => discard (NotificationService.getUnreadCount d)
  | markNotificationsAsRead => NotificationService.markNotificationsAsRead d

/-- What a call has done with the pool when its promise settles. -/
def Method.usage (m : Method) (d : Driver) : Usage := ((m.run d).run ⟨[], 0, 0⟩).2

/-! ## Leaks -/

/-- The filters have a query without a text, or neither a query nor tags. -/
def FiltersThrow (filters : ParsedFilters) : Prop :=
  (∃ v, filters.queryStr = some v ∧ JsValue.truthy (some v) = true ∧ hasText v = false) ∨
    filters.queryStr.truthy = false ∧ filters.tags = none

/-- The filters cannot be applied, or the only query of a method without a `try` block is
    rejected. -/
def Method.Leaks (d : Driver) : Method → Prop
  | getAll filters => ∃ f ∈ filters, FiltersThrow f
  | getOneByEmailOrUsername => ∃ e, d.query [UserService.selectUser] = .error e
  | _ => False

/-! ## The pool -/

/-- The calls that run, and how many clients are checked out. -/
structure PoolState where
  running : List (Method × Driver)
  checkedOut : Nat

def PoolState.init : PoolState := ⟨[], 0⟩

inductive PoolStep where
  /-- A call has got its client, or has failed to. -/
  | call (m : Method) (d : Driver)
  /-- The promise of the call at this position settles. -/
  | settle (position : Nat)

def poolStep (s : PoolState) : PoolStep → PoolState
  | .call m d => ⟨s.running ++ [(m, d)], s.checkedOut + (m.usage d).taken⟩
  | .settle position =>
    match s.running[position]? with
    | some (m, d) => ⟨s.running.eraseIdx position, s.checkedOut - (m.usage d).released⟩
    | none => s

/-- A call that gets a client and does not give it back. -/
def PoolStep.Leaks : PoolStep → Prop
  | .call m d => d.connect = .ok () ∧ m.Leaks d
  | .settle _ => False

end DecentDebates.Pool
