import MinicoreAgent.Lib.Runs
import MinicoreAgent.Lib.Slots
import MinicoreAgent.InputQueue
import MinicoreAgent.SessionState
import MinicoreAgent.SessionSystem
import MinicoreAgent.InputLedger
import MinicoreAgent.SessionTransitions
import MinicoreAgent.SessionInputs
import MinicoreAgent.CompactionBoard
import MinicoreAgent.HistoryLoad
import MinicoreAgent.QueueOrder
import MinicoreAgent.QueuedStarts
import MinicoreAgent.SnapshotHub
import MinicoreAgent.SourceBudget
import MinicoreAgent.SettledSummary
import MinicoreAgent.HistoryAnchors
import MinicoreAgent.UtilityUsage
import MinicoreAgent.SourceChunks
import MinicoreAgent.EventStream
import MinicoreAgent.EditText
import MinicoreAgent.DiffProgress
import MinicoreAgent.DiffReading
import MinicoreAgent.HistoryAppend
import MinicoreAgent.ItemPages
import MinicoreAgent.PinnedReads
import MinicoreAgent.TurnResults
import MinicoreAgent.MeasuredResults
import MinicoreAgent.ReopenedSession
import MinicoreAgent.SseParser
import MinicoreAgent.StreamProtocol
import MinicoreAgent.AuxLedger
import MinicoreAgent.PatchCompleteness
import MinicoreAgent.DiffRebuild
import MinicoreAgent.RpcFraming
import MinicoreAgent.RpcAdmission
import MinicoreAgent.PatchSoundness
import MinicoreAgent.CodexBuild
import MinicoreAgent.ChangeList
import MinicoreAgent.CodexEnding
import MinicoreAgent.ToolOutput
import MinicoreAgent.ReadPages
import MinicoreAgent.StatusResult
import MinicoreAgent.WorkspacePages
import MinicoreAgent.ThresholdCall
import MinicoreAgent.ScanKeys
import MinicoreAgent.FileSearch
import MinicoreAgent.PageCursors
import MinicoreAgent.PreviewObserver
import MinicoreAgent.StreamWindows
import MinicoreAgent.StoredRecords
import MinicoreAgent.TruncateTail
import MinicoreAgent.Timestamps
import MinicoreAgent.QuotedPaths
import MinicoreAgent.FittingPrefix
import MinicoreAgent.ToolReads
import MinicoreAgent.SnapshotBudget
