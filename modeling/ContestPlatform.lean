import ContestPlatform.Content.Bucket
import ContestPlatform.Content.FileStore
import ContestPlatform.Content.FileTree
import ContestPlatform.Content.Key
import ContestPlatform.Content.Memory
import ContestPlatform.Content.Store
import ContestPlatform.Contest.Basic
import ContestPlatform.Contest.Json
import ContestPlatform.Contest.Operations
import ContestPlatform.Database.Basic
import ContestPlatform.Database.Call
import ContestPlatform.Database.Column
import ContestPlatform.Database.Row
import ContestPlatform.Fault.Basic
import ContestPlatform.Fault.Json
import ContestPlatform.Fault.Notice
import ContestPlatform.Http.Address
import ContestPlatform.Http.Encoding
import ContestPlatform.Http.MediaType
import ContestPlatform.Http.Message
import ContestPlatform.Http.Route
import ContestPlatform.Http.Serve
import ContestPlatform.Input.Complaint
import ContestPlatform.Input.Form
import ContestPlatform.Input.Query
import ContestPlatform.Input.Rules
import ContestPlatform.Instant.Basic
import ContestPlatform.Instant.Calendar
import ContestPlatform.Instant.Text
import ContestPlatform.IntList
import ContestPlatform.Json.Numeral
import ContestPlatform.Json.Reader
import ContestPlatform.Json.Text
import ContestPlatform.Json.Token
import ContestPlatform.Json.Value
import ContestPlatform.Json.Writer
import ContestPlatform.Leaderboard.Basic
import ContestPlatform.Leaderboard.Json
import ContestPlatform.Leaderboard.Operations
import ContestPlatform.Problem.Basic
import ContestPlatform.Problem.Json
import ContestPlatform.Problem.Operations
import ContestPlatform.Program
import ContestPlatform.Proofs.AnswerFlags
import ContestPlatform.Proofs.AnswerSecrecy
import ContestPlatform.Proofs.Answers
import ContestPlatform.Proofs.AtomicPublication
import ContestPlatform.Proofs.Authority
import ContestPlatform.Proofs.CalendarDates
import ContestPlatform.Proofs.ChangesInSequence
import ContestPlatform.Proofs.ConcurrentChanges
import ContestPlatform.Proofs.ContentBackends
import ContestPlatform.Proofs.ContentKeys
import ContestPlatform.Proofs.ContentMap
import ContestPlatform.Proofs.ContestDeletion
import ContestPlatform.Proofs.Courses
import ContestPlatform.Proofs.DatabaseEffects
import ContestPlatform.Proofs.DocumentText
import ContestPlatform.Proofs.FailedOperations
import ContestPlatform.Proofs.FailedPuts
import ContestPlatform.Proofs.FileSharing
import ContestPlatform.Proofs.FileTexts
import ContestPlatform.Proofs.FileTrees
import ContestPlatform.Proofs.Footprints
import ContestPlatform.Proofs.FrozenLedger
import ContestPlatform.Proofs.GradedRuns
import ContestPlatform.Proofs.Histories
import ContestPlatform.Proofs.InTurn
import ContestPlatform.Proofs.InstantColumns
import ContestPlatform.Proofs.InstantText
import ContestPlatform.Proofs.IntListText
import ContestPlatform.Proofs.IntactStores
import ContestPlatform.Proofs.Interleaving
import ContestPlatform.Proofs.JsonReading
import ContestPlatform.Proofs.JsonTokens
import ContestPlatform.Proofs.KeyPaths
import ContestPlatform.Proofs.KeySpace
import ContestPlatform.Proofs.LastingStatements
import ContestPlatform.Proofs.LastingVisibility
import ContestPlatform.Proofs.LeaderboardPatches
import ContestPlatform.Proofs.LedgerReaders
import ContestPlatform.Proofs.LeftContent
import ContestPlatform.Proofs.LenientLists
import ContestPlatform.Proofs.OpenRuns
import ContestPlatform.Proofs.OperationFaults
import ContestPlatform.Proofs.Pages
import ContestPlatform.Proofs.Performing
import ContestPlatform.Proofs.ProblemCalls
import ContestPlatform.Proofs.ProblemOrigins
import ContestPlatform.Proofs.ProblemRows
import ContestPlatform.Proofs.ProblemScope
import ContestPlatform.Proofs.ProblemSecrecy
import ContestPlatform.Proofs.RegistrationDecision
import ContestPlatform.Proofs.RegistrationLedger
import ContestPlatform.Proofs.RelationalConsistency
import ContestPlatform.Proofs.RequestFaults
import ContestPlatform.Proofs.RequestLimits
import ContestPlatform.Proofs.RoundTrips
import ContestPlatform.Proofs.Serving
import ContestPlatform.Proofs.StatementBystanders
import ContestPlatform.Proofs.StatementConsistency
import ContestPlatform.Proofs.StatementOutlines
import ContestPlatform.Proofs.StatementProtocol
import ContestPlatform.Proofs.StoredContests
import ContestPlatform.Proofs.StoredWindows
import ContestPlatform.Proofs.SubmissionOwnership
import ContestPlatform.Proofs.SubmissionPipeline
import ContestPlatform.Proofs.SubmissionRecords
import ContestPlatform.Proofs.SubmissionRows
import ContestPlatform.Proofs.Triples
import ContestPlatform.Proofs.TwoRuns
import ContestPlatform.Proofs.UniqueKeys
import ContestPlatform.Proofs.UuidText
import ContestPlatform.Proofs.Veil
import ContestPlatform.Proofs.WritingCalls
import ContestPlatform.Registration.Basic
import ContestPlatform.Registration.Json
import ContestPlatform.Registration.Operations
import ContestPlatform.Service.Basic
import ContestPlatform.Service.Operation
import ContestPlatform.Service.Stores
import ContestPlatform.Session.Basic
import ContestPlatform.Session.Trouble
import ContestPlatform.Settings
import ContestPlatform.Submission.Basic
import ContestPlatform.Submission.Json
import ContestPlatform.Submission.Operations
import ContestPlatform.Text.Blank
import ContestPlatform.Text.Decimal
import ContestPlatform.Text.Hex
import ContestPlatform.Text.Percent
import ContestPlatform.Text.Scan
import ContestPlatform.Text.Utf8
import ContestPlatform.Uuid
