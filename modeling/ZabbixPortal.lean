import ZabbixPortal.Foundation.HalfOpen
import ZabbixPortal.Foundation.OrderedMap
import ZabbixPortal.Foundation.Grouping
import ZabbixPortal.Foundation.Pattern
import ZabbixPortal.Domain.Naming
import ZabbixPortal.Foundation.Sorting
import ZabbixPortal.Sli.Events
import ZabbixPortal.Sli.EventsProperties
import ZabbixPortal.Sli.Window
import ZabbixPortal.Sli.Report
import ZabbixPortal.Sli.Replay
import ZabbixPortal.Sli.ReplayProperties
import ZabbixPortal.Sli.ReplaySchedule
import ZabbixPortal.Sli.ReplayExactness
import ZabbixPortal.Sli.Intervals
import ZabbixPortal.Sli.IntervalsProperties
import ZabbixPortal.Sli.Engine
import ZabbixPortal.Sli.WanPathProperties
import ZabbixPortal.Domain.Problems
import ZabbixPortal.Sli.Tree
import ZabbixPortal.Sli.TreeLeaves
import ZabbixPortal.Sli.TreeDevices
import ZabbixPortal.Sli.TreeFigures
import ZabbixPortal.Services.Incidents
import ZabbixPortal.Services.EventHistory
import ZabbixPortal.Services.IncidentsProperties
import ZabbixPortal.Services.IncidentsExactness
import ZabbixPortal.Foundation.Text
import ZabbixPortal.Foundation.Runs
import ZabbixPortal.Security.Auth
import ZabbixPortal.Security.SignOut
import ZabbixPortal.Services.Stream
import ZabbixPortal.Services.StreamProperties
import ZabbixPortal.Core.Cache
import ZabbixPortal.Core.CacheProperties
import ZabbixPortal.Core.CacheAccounting
import ZabbixPortal.Core.CacheFit
import ZabbixPortal.Services.Actions
import ZabbixPortal.Services.CachedReads
import ZabbixPortal.Services.CacheRuns
import ZabbixPortal.Services.CachedReadsProperties
import ZabbixPortal.Services.AnswerFreshness
import ZabbixPortal.Services.Coalescing
import ZabbixPortal.Services.CoalescingProperties
import ZabbixPortal.Services.LiveWriteBack
import ZabbixPortal.Services.StreamEffects
import ZabbixPortal.Services.LiveWriteBackProperties
import ZabbixPortal.Services.LiveWriteBackSafety
import ZabbixPortal.Security.Roles
import ZabbixPortal.Foundation.Number
import ZabbixPortal.Sli.Delay
import ZabbixPortal.Domain.Reachability
import ZabbixPortal.Services.Links
import ZabbixPortal.Services.PingTruth
import ZabbixPortal.Sli.HostFigures
import ZabbixPortal.Security.Tabs
import ZabbixPortal.Security.TabsProperties
import ZabbixPortal.Services.StaleHeaders
import ZabbixPortal.Services.StaleHeadersProperties
import ZabbixPortal.Services.CacheOrder
import ZabbixPortal.Services.CacheCalls
import ZabbixPortal.Services.AssistantSnapshot
import ZabbixPortal.Services.AssistantSnapshotProperties
import ZabbixPortal.Sli.IntervalMemory
import ZabbixPortal.Sli.Trends
import ZabbixPortal.Sli.ReplayWindows
import ZabbixPortal.Sli.GroupFigures
import ZabbixPortal.Sli.CoverageReads
import ZabbixPortal.Sli.CoverageExactness
import ZabbixPortal.Foundation.Calendar
import ZabbixPortal.Sli.Time
import ZabbixPortal.Sli.TimeProperties
import ZabbixPortal.Services.PromptLines
import ZabbixPortal.Services.SnapshotText
import ZabbixPortal.Services.SnapshotTextProperties
import ZabbixPortal.Foundation.Bytes
import ZabbixPortal.Export.Zip
import ZabbixPortal.Export.ZipReader
import ZabbixPortal.Export.ZipRecords
import ZabbixPortal.Export.ZipProperties
import ZabbixPortal.Export.ZipRoundTrip
import ZabbixPortal.Clients.ModelSlots
import ZabbixPortal.Clients.ModelSlotsProperties
import ZabbixPortal.Foundation.Decimal
import ZabbixPortal.Foundation.Replace
import ZabbixPortal.Export.Percent
import ZabbixPortal.Export.WorkbookFigures
import ZabbixPortal.Export.CellText
import ZabbixPortal.Sli.TreeStatus
import ZabbixPortal.Foundation.TopOf
import ZabbixPortal.Sli.TreeIds
import ZabbixPortal.Sli.TreeLive
import ZabbixPortal.Foundation.Walks
import ZabbixPortal.Services.ServiceTree
import ZabbixPortal.Services.ServiceTreeProperties
import ZabbixPortal.Sli.WebChecks
import ZabbixPortal.Sli.WebChecksProperties
import ZabbixPortal.Sli.Maintenance
import ZabbixPortal.Sli.MaintenanceProperties
import ZabbixPortal.Security.SignInLock
import ZabbixPortal.Security.SignInLockProperties
import ZabbixPortal.Core.CacheAlike
import ZabbixPortal.Services.ZabbixItems
import ZabbixPortal.Services.Capacity
import ZabbixPortal.Foundation.TwoRuns
import ZabbixPortal.Services.ItemReads
import ZabbixPortal.Services.SharedCacheProperties
import ZabbixPortal.Services.ItemReadsProperties
import ZabbixPortal.Services.ViewerRoutes
import ZabbixPortal.Services.ViewerRoutesProperties
import ZabbixPortal.Services.MeterZones
import ZabbixPortal.Foundation.Shares
import ZabbixPortal.Export.ColumnWidths
import ZabbixPortal.Foundation.Firsts
import ZabbixPortal.Services.LinkPaths
import ZabbixPortal.Services.GraphSeries
import ZabbixPortal.Services.GraphSeriesProperties
import ZabbixPortal.Export.Surrogates
import ZabbixPortal.Export.SheetNames
import ZabbixPortal.Foundation.Marks
import ZabbixPortal.Export.SheetNamesProperties
import ZabbixPortal.Services.BlockLayout
import ZabbixPortal.Services.PromptTextProperties
import ZabbixPortal.Services.ProblemSection
import ZabbixPortal.Services.DataBlock
import ZabbixPortal.Foundation.GreedyPattern
import ZabbixPortal.Services.UpdateIntervals
import ZabbixPortal.Web.ChartTable
import ZabbixPortal.Services.Acknowledge
import ZabbixPortal.Services.AcknowledgeProperties
import ZabbixPortal.Foundation.Joined
import ZabbixPortal.Export.PdfFonts
import ZabbixPortal.Export.TextWrapping
import ZabbixPortal.Export.PdfStrings
import ZabbixPortal.Export.PdfStringsProperties
import ZabbixPortal.Export.PdfObjects
import ZabbixPortal.Export.PdfObjectsProperties
import ZabbixPortal.Foundation.Chunks
import ZabbixPortal.Foundation.Utf8
import ZabbixPortal.Clients.ModelStreams
import ZabbixPortal.Clients.ModelStreamsProperties
import ZabbixPortal.Web.LiveStream
import ZabbixPortal.Web.LiveStreamProperties
import ZabbixPortal.Web.LiveStreamRuns
import ZabbixPortal.Web.UseAsync
import ZabbixPortal.Web.UseAsyncProperties
import ZabbixPortal.Foundation.Loops
import ZabbixPortal.Foundation.Breaks
import ZabbixPortal.Export.PageLayout
import ZabbixPortal.Export.PageLayoutProperties
import ZabbixPortal.Export.PageLayoutTables
import ZabbixPortal.Export.PageLayoutNotes
import ZabbixPortal.Export.PageLayoutReport
import ZabbixPortal.Core.Gate
import ZabbixPortal.Sli.MapLimit
import ZabbixPortal.Foundation.LongestSuffix
import ZabbixPortal.Services.ChatTurns
import ZabbixPortal.Web.Csv
import ZabbixPortal.Foundation.Greedy
import ZabbixPortal.Web.MapLabels
import ZabbixPortal.Web.MapLabelsProperties
import ZabbixPortal.Services.Meters
import ZabbixPortal.Services.MetersProperties
import ZabbixPortal.Clients.Limits
import ZabbixPortal.Clients.LimitsProperties
import ZabbixPortal.Clients.BudgetProperties
import ZabbixPortal.Foundation.JsonText
import ZabbixPortal.Web.LiveChange
import ZabbixPortal.Web.ParseMarkdown
import ZabbixPortal.Web.ParseMarkdownInline
import ZabbixPortal.Web.ParseMarkdownLines
import ZabbixPortal.Web.ParseMarkdownProperties
import ZabbixPortal.Foundation.Contractive
import ZabbixPortal.Web.GuardShapes
import ZabbixPortal.Web.GuardShapesProperties
import ZabbixPortal.Web.UnreadableAnswers
import ZabbixPortal.Web.SessionRenewal
import ZabbixPortal.Web.SessionRenewalProperties
import ZabbixPortal.Web.ChangeHighlight
import ZabbixPortal.Web.ChangeHighlightProperties
import ZabbixPortal.Web.LiveList
import ZabbixPortal.Services.GraphSamples
import ZabbixPortal.Services.Availability
import ZabbixPortal.Services.Noise
import ZabbixPortal.Services.CapacityProperties
import ZabbixPortal.Http.HealthProperties
import ZabbixPortal.Http.HealthPromptness
import ZabbixPortal.Foundation.FormUrlEncoded
import ZabbixPortal.Web.UrlState
