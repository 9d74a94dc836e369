import DecentDebates.Lib.Truth
import DecentDebates.Lib.Json
import DecentDebates.Lib.Table
import DecentDebates.Lib.Transition
import DecentDebates.Lib.CacheAside
import DecentDebates.Lib.ReadCommitted
import DecentDebates.Lib.Forest
import DecentDebates.Lib.Snapshot
import DecentDebates.Lib.Effects
import DecentDebates.Sql
import DecentDebates.JsValues
import DecentDebates.Entities.Notification
import DecentDebates.Entities.NotificationProcessor
import DecentDebates.Entities.DebatesService
import DecentDebates.Entities.ModeratorService
import DecentDebates.Entities.CommentService
import DecentDebates.Entities.UserService
import DecentDebates.Entities.AuthService
import DecentDebates.System
import DecentDebates.NotificationSystem
import DecentDebates.Proofs.Pushes
import DecentDebates.Proofs.CountStreams
import DecentDebates.Proofs.JobAttempts
import DecentDebates.Proofs.Login
import DecentDebates.Proofs.Counterarguments
import DecentDebates.Proofs.ReviewScreens
import DecentDebates.Proofs.TicketWorkflow
import DecentDebates.Proofs.Publication
import DecentDebates.Proofs.DraftPrivacy
import DecentDebates.Proofs.PublicApi
import DecentDebates.Proofs.Comments
import DecentDebates.Proofs.Authorship
import DecentDebates.Proofs.ReviewMessages
import DecentDebates.Proofs.Approvals
import DecentDebates.Proofs.DraftSubmission
import DecentDebates.Proofs.DebateCache
import DecentDebates.Proofs.RichEditor
import DecentDebates.Proofs.Findability
import DecentDebates.Proofs.ProposalTransactions
import DecentDebates.Proofs.ReviewRooms
import DecentDebates.Proofs.MessageIsolation
import DecentDebates.Proofs.ClientPool
import DecentDebates.Proofs.FilterRoundTrip
import DecentDebates.Lib.Feed
import DecentDebates.Proofs.ReviewPage
import DecentDebates.Proofs.RequestedTags
import DecentDebates.Entities.DebateReview
import DecentDebates.Entities.ActivityControllers
import DecentDebates.TagLists
import DecentDebates.Proofs.TagLists
import DecentDebates.FilterQueries
import DecentDebates.Proofs.FilterQueries
import DecentDebates.TagFiltering
import DecentDebates.Proofs.TagFiltering
import DecentDebates.TitleSearch
import DecentDebates.Proofs.TitleSearch
import DecentDebates.Lib.Atomic
import DecentDebates.Submissions
import DecentDebates.Proofs.Submissions
import DecentDebates.NotificationBadge
import DecentDebates.Proofs.NotificationBadge
import DecentDebates.DebatePage
import DecentDebates.Proofs.DebatePage
import DecentDebates.ModeratorBoards
import DecentDebates.Proofs.ModeratorBoards
import DecentDebates.DebateLookup
import DecentDebates.Proofs.DebateLookup
import DecentDebates.Lib.Grouping
import DecentDebates.Lib.Trail
import DecentDebates.DebateDto
import DecentDebates.Proofs.DebateDto
import DecentDebates.CounterargumentTrail
import DecentDebates.Proofs.CounterargumentTrail
import DecentDebates.ConnectionDrain
import DecentDebates.Proofs.ConnectionDrain
import DecentDebates.DebatesClient
import DecentDebates.Proofs.DebatesClient
import DecentDebates.ActivityPage
import DecentDebates.Proofs.ActivityPage
import DecentDebates.Guards
import DecentDebates.Sessions
import DecentDebates.Proofs.Sessions
import DecentDebates.Proofs.History
import DecentDebates.Shutdown
import DecentDebates.Proofs.Shutdown
import DecentDebates.TagsForm
import DecentDebates.Proofs.TagsForm
