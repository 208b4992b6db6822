import BidEvaluation.QueueLaws
import BidEvaluation.DlqLaws
import BidEvaluation.AgreementLaws
import BidEvaluation.AnnounceLaws
import BidEvaluation.ReviewLaws
import BidEvaluation.ParseLaws
import BidEvaluation.WorkerLaws
import BidEvaluation.IterationLaws
import BidEvaluation.FailureLaws
import BidEvaluation.RouteLaws
import BidEvaluation.ResumeLaws
import BidEvaluation.EditLaws
import BidEvaluation.ScoringLaws
import BidEvaluation.GateLaws
import BidEvaluation.RedisLaws
import BidEvaluation.RelayLaws
import BidEvaluation.PostgresStore
import BidEvaluation.AuditLaws
import BidEvaluation.RedisKeys
import BidEvaluation.AdminLaws
import BidEvaluation.ScopeLaws
import BidEvaluation.RequeueLaws
import BidEvaluation.BackendLaws
import BidEvaluation.CloseLaws
import BidEvaluation.IndexLaws
import BidEvaluation.ProtectionLaws
import BidEvaluation.CleanupLaws
import BidEvaluation.TableLaws
import BidEvaluation.ReadLaws
import BidEvaluation.SnapshotLaws
import BidEvaluation.JobRowLaws
import BidEvaluation.TenantFolders
import BidEvaluation.ItemLaws
import BidEvaluation.RetryLaws
import BidEvaluation.ChunkLaws
import BidEvaluation.SaverLaws
import BidEvaluation.HoldReview
import BidEvaluation.ReleaseLaws
import BidEvaluation.ReportArchive
import BidEvaluation.MineruLaws
import BidEvaluation.HoldAgreement
import BidEvaluation.BudgetLaws
import BidEvaluation.ScoreBounds
import BidEvaluation.ToolLaws
import BidEvaluation.TotalLaws
import BidEvaluation.UploadLaws
import BidEvaluation.RerankLaws
import BidEvaluation.AnswerLaws
import BidEvaluation.DocScopeLaws
import BidEvaluation.FallbackLaws
import BidEvaluation.DiscoveryLaws
import BidEvaluation.ChunkIdLaws
import BidEvaluation.ImageLaws
import BidEvaluation.OffsetLaws
import BidEvaluation.PageLaws
import BidEvaluation.NormalLaws
import BidEvaluation.JobPages
import BidEvaluation.StructuredHits
import BidEvaluation.FeedbackLaws
import BidEvaluation.ChunkRows
import BidEvaluation.ViewLaws
import BidEvaluation.TimeConstraints
import BidEvaluation.CitationRuns
import BidEvaluation.DeliveryLaws
import BidEvaluation.CrashLaws
import BidEvaluation.ReleaseRuns
import BidEvaluation.SecurityLaws
import BidEvaluation.MineruPolls
import BidEvaluation.S3Laws
import BidEvaluation.ConsistencyLaws
import BidEvaluation.SavedLaws
import BidEvaluation.LatencyLaws
