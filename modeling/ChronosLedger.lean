import ChronosLedger.Library.Spans
import ChronosLedger.Library.Levels
import ChronosLedger.Library.Runs
import ChronosLedger.Library.FirstCome
import ChronosLedger.Library.Forecast
import ChronosLedger.Library.Feeds
import ChronosLedger.Calendar
import ChronosLedger.Tables
import ChronosLedger.Availability
import ChronosLedger.Refusals
import ChronosLedger.Requirements
import ChronosLedger.Booking
import ChronosLedger.MasterSlot
import ChronosLedger.LedgerGenerator
import ChronosLedger.Schedule
import ChronosLedger.Attendance
import ChronosLedger.Ingestion
import ChronosLedger.Conflicts
import ChronosLedger.Operations
import ChronosLedger.AcceptedRequests
import ChronosLedger.Occupancy
import ChronosLedger.Pools
import ChronosLedger.BookingAgreement
import ChronosLedger.ConflictReport
import ChronosLedger.RequirementWalk
import ChronosLedger.DryRun
import ChronosLedger.BookingForecast
import ChronosLedger.HoldMoves
import ChronosLedger.HoldRuns
import ChronosLedger.SlotChecks
import ChronosLedger.TimetableMoves
import ChronosLedger.LedgerWrites
import ChronosLedger.TimetableRuns
import ChronosLedger.ImportRuns
import ChronosLedger.Records
import ChronosLedger.TimetableOrder
import ChronosLedger.NothingMeets
import ChronosLedger.TimetableSound
import ChronosLedger.NoDoubleBooking
import ChronosLedger.OwnDays
import ChronosLedger.ImportLines
import ChronosLedger.DaysDisjoint
import ChronosLedger.HorizonJobs
import ChronosLedger.BatchAgreement
import ChronosLedger.Idempotency
import ChronosLedger.IdempotencyRuns
import ChronosLedger.ReplayRuns
import ChronosLedger.ChangeFeed
import ChronosLedger.FeedChanges
import ChronosLedger.FeedPolls
import ChronosLedger.Webhooks
import ChronosLedger.FanOut
import ChronosLedger.FanOutRuns
import ChronosLedger.DeliverySteps
import ChronosLedger.DeliveryOrder
import ChronosLedger.DeliveryStates
import ChronosLedger.RefreshTokens
import ChronosLedger.TokenFamilies
import ChronosLedger.EndedFamilies
import ChronosLedger.FederatedNotes
import ChronosLedger.NoteReplay
import ChronosLedger.ActingFor
import ChronosLedger.ActingForRoutes
import ChronosLedger.ActingForRuns
import ChronosLedger.Leave
import ChronosLedger.LeaveRuns
import ChronosLedger.Library.Json
import ChronosLedger.Library.JsonRoundTrip
import ChronosLedger.Library.Decimals
import ChronosLedger.CivilDates
import ChronosLedger.IsoForms
import ChronosLedger.ArchiveValues
import ChronosLedger.ArchiveContents
import ChronosLedger.ArchiveTables
import ChronosLedger.Archive
import ChronosLedger.ArchiveSchema
import ChronosLedger.ArchiveRecords
import ChronosLedger.ArchiveLoads
import ChronosLedger.ArchiveReferences
import ChronosLedger.ArchiveImport
import ChronosLedger.ArchiveTransfers
import ChronosLedger.ArchiveChains
import ChronosLedger.ArchiveWrites
import ChronosLedger.ArchiveRoundTrip
import ChronosLedger.PortableArchives
import ChronosLedger.PaddedHolds
import ChronosLedger.FirstEntries
import ChronosLedger.ExactChecks
import ChronosLedger.Library.Overwrites
import ChronosLedger.FileLines
import ChronosLedger.GatheredLines
import ChronosLedger.RemoveMissing
import ChronosLedger.ImportAgain
import ChronosLedger.ImportMirror
import ChronosLedger.Corrections
import ChronosLedger.DraftedSlots
import ChronosLedger.CycleOpening
import ChronosLedger.AdminRequests
import ChronosLedger.LastAdmin
import ChronosLedger.Library.Joins
import ChronosLedger.Fingerprints
import ChronosLedger.Library.Worklist
import ChronosLedger.RequirementGraph
import ChronosLedger.ReportingLines
import ChronosLedger.Library.Replacing
import ChronosLedger.Zones
import ChronosLedger.CalendarFeed
import ChronosLedger.CalendarReader
import ChronosLedger.ScheduledJobs
import ChronosLedger.LeapsAndSteps
import ChronosLedger.GuestVisits
import ChronosLedger.Overruns
import ChronosLedger.FederatedAccounts
import ChronosLedger.FederatedRuns
import ChronosLedger.BookingsTogether
import ChronosLedger.RulesExpand
import ChronosLedger.NightJob
import ChronosLedger.RoomRace
import ChronosLedger.PoolArithmetic
import ChronosLedger.ConflictsFound
import ChronosLedger.SessionNames
import ChronosLedger.Library.Rotations
import ChronosLedger.PresentedTokens
import ChronosLedger.RefreshClients
import ChronosLedger.BrowserTabs
import ChronosLedger.SdkTokens
import ChronosLedger.SdkCalls
import ChronosLedger.Library.OffsetWalks
import ChronosLedger.Paging
import ChronosLedger.Library.Relays
import ChronosLedger.SocketRelay
import ChronosLedger.RateLimit
import ChronosLedger.HostIdentity
import ChronosLedger.HostRuns
import ChronosLedger.EnvFile
import ChronosLedger.Deployment
import ChronosLedger.WebhookSecrets
import ChronosLedger.VisitCodes
import ChronosLedger.Library.Outboxes
import ChronosLedger.OfflineMarks
import ChronosLedger.Library.Purging
import ChronosLedger.Organizations
import ChronosLedger.WebhookSends
