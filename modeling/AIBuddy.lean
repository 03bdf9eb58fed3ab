import AIBuddy.Support.Json
import AIBuddy.Support.Text
import AIBuddy.Support.Coalesce
import AIBuddy.Support.CallLedger
import AIBuddy.Support.Pass
import AIBuddy.Support.Seam
import AIBuddy.Conversation.Message
import AIBuddy.Conversation.Fix
import AIBuddy.Conversation.FixPasses
import AIBuddy.Conversation.FixVisibility
import AIBuddy.Conversation.FixPairing
import AIBuddy.Conversation.FixShape
import AIBuddy.Conversation.FixQuiet
import AIBuddy.Conversation.FixRuns
import AIBuddy.Conversation.FixMiddle
import AIBuddy.Conversation.FixIdempotent
import AIBuddy.Support.LastSuffix
import AIBuddy.Agent.Session
import AIBuddy.Agent.Store
import AIBuddy.Agent.Operation
import AIBuddy.Agent.ToolRequests
import AIBuddy.Agent.Inspection
import AIBuddy.Agent.Environment
import AIBuddy.Agent.ContextOperations
import AIBuddy.Agent.Compaction
import AIBuddy.Agent.ToolOperations
import AIBuddy.Agent.TurnOperations
import AIBuddy.Agent.Commands
import AIBuddy.Agent.Inference
import AIBuddy.Agent.Reassembly
import AIBuddy.Agent.Machine
import AIBuddy.Support.Runs
import AIBuddy.Agent.Run
import AIBuddy.Agent.RetryReset
import AIBuddy.Agent.ToolPairs
import AIBuddy.Agent.Interleaving
import AIBuddy.Agent.Results
import AIBuddy.Agent.Offers
import AIBuddy.Agent.ToolConfirmation
import AIBuddy.Agent.Submissions
import AIBuddy.Agent.Replacements
import AIBuddy.Agent.ContextMeter
import AIBuddy.Support.Blocks
import AIBuddy.Agent.TurnBudget
import AIBuddy.Agent.OpenRequests
import AIBuddy.Agent.Gate
import AIBuddy.Agent.Progress
import AIBuddy.Agent.TurnGrowth
import AIBuddy.Agent.StreamRequests
import AIBuddy.Config.Permission
import AIBuddy.Config.PermissionManager
import AIBuddy.Config.PermissionProgress
import AIBuddy.Support.Closure
import AIBuddy.Session.UsageLedger
import AIBuddy.Support.Scanner
import AIBuddy.Provider.ThinkFilter
import AIBuddy.Provider.ThinkTags
import AIBuddy.Provider.ThinkScan
import AIBuddy.Provider.ThinkChunks
import AIBuddy.Provider.ThinkSplit
import AIBuddy.Provider.ToolArguments
import AIBuddy.Provider.MessageStream
import AIBuddy.Provider.ResponsesStream
import AIBuddy.Provider.ResponsesCalls
import AIBuddy.Support.Table
import AIBuddy.Provider.OpenAiStream
import AIBuddy.Provider.OpenAiFrames
import AIBuddy.Provider.OpenAiCalls
import AIBuddy.Provider.RecoveredCalls
import AIBuddy.Provider.OpenAiText
import AIBuddy.Provider.OpenAiMessage
import AIBuddy.Provider.OpenAiThinking
import AIBuddy.Provider.OpenAiAgreement
import AIBuddy.Conversation.ToolResultSerde
import AIBuddy.Roaming.Directory
import AIBuddy.Roaming.SharedDirectory
import AIBuddy.Roaming.Node
import AIBuddy.Roaming.Revocation
import AIBuddy.Roaming.LiveCount
import AIBuddy.Support.Paging
import AIBuddy.Session.SessionPages
import AIBuddy.Support.Resume
import AIBuddy.Cli.MarkdownBuffer
import AIBuddy.Cli.MarkdownScan
import AIBuddy.Support.CallOrder
import AIBuddy.Provider.FormatMedia
import AIBuddy.Provider.OpenAiFormat
import AIBuddy.Provider.AnthropicFormat
import AIBuddy.Provider.PromptCache
import AIBuddy.Provider.ResponsesFormat
import AIBuddy.Provider.GoogleFormat
import AIBuddy.Provider.CallReplay
import AIBuddy.Provider.OpenAiReplay
import AIBuddy.Provider.OpenAiOrder
import AIBuddy.Provider.ConversationOrder
import AIBuddy.Extensions.ToolsCache
import AIBuddy.Extensions.CacheFreshness
import AIBuddy.Elicitation.ActionRequired
import AIBuddy.Elicitation.Answers
import AIBuddy.Support.JsonText
import AIBuddy.Support.JsonWriter
import AIBuddy.Support.Occurrences
import AIBuddy.Toolshim.ToolNames
import AIBuddy.Toolshim.Markup
import AIBuddy.Toolshim.ExecuteAlias
import AIBuddy.Support.StringLiteral
import AIBuddy.Toolshim.TokenizedCalls
import AIBuddy.Toolshim.InlineCalls
import AIBuddy.Toolshim.Augment
import AIBuddy.Toolshim.MarkerLeaks
import AIBuddy.Toolshim.TextDialect
import AIBuddy.Toolshim.ExecuteGuard
import AIBuddy.Toolshim.ExecuteRequests
import AIBuddy.Toolshim.OfferedCalls
import AIBuddy.Support.Yaml
import AIBuddy.Config.Migrations
import AIBuddy.Config.MigratedProviders
import AIBuddy.Config.Secrets
import AIBuddy.Config.SecretLog
import AIBuddy.Support.Tasks
import AIBuddy.Gateway.PairingCodes
import AIBuddy.Gateway.PairingRuns
import AIBuddy.Gateway.Confirmations
import AIBuddy.Gateway.ConfirmationRuns
import AIBuddy.Support.Gather
import AIBuddy.Session.MessageTable
import AIBuddy.Desktop.Message
import AIBuddy.Desktop.EditMessage
import AIBuddy.Desktop.Adapter
import AIBuddy.Desktop.StreamedMessages
import AIBuddy.Desktop.UserInput
import AIBuddy.Desktop.SessionReplay
import AIBuddy.Desktop.AdapterAgreement
import AIBuddy.Desktop.SessionReplayRuns
import AIBuddy.Desktop.UserInputRuns
import AIBuddy.Config.ExtensionKeys
import AIBuddy.Conversation.MergeBoundaries
import AIBuddy.Agent.InspectionBuckets
import AIBuddy.Agent.ModeUpdate
import AIBuddy.Agent.FinalTurn
import AIBuddy.Agent.Visibility
import AIBuddy.Agent.RetryCount
import AIBuddy.Agent.ContextErrors
import AIBuddy.Support.Joining
import AIBuddy.Agent.StreamedThinking
import AIBuddy.Support.Exclusion
import AIBuddy.Scheduler.Jobs
import AIBuddy.Scheduler.Storage
import AIBuddy.Scheduler.Executions
import AIBuddy.Support.ByteOffsets
import AIBuddy.LocalInference.ToolEmulation
import AIBuddy.LocalInference.EmulatorChunks
import AIBuddy.Downloads.DownloadTask
import AIBuddy.Downloads.DownloadManager
import AIBuddy.Downloads.DownloadRuns
import AIBuddy.Support.JsonSorted
import AIBuddy.Agent.RepetitionInspector
import AIBuddy.Support.Middle
import AIBuddy.Conversation.Summarize
import AIBuddy.Provider.AnthropicUsage
import AIBuddy.Provider.JsonNesting
import AIBuddy.Provider.TruncatedArguments
import AIBuddy.Provider.RawControls
import AIBuddy.Support.JsonAgrees
import AIBuddy.Provider.ToolSchemas
import AIBuddy.Provider.SettledSchemas
import AIBuddy.Hints.ImportPaths
import AIBuddy.Hints.ImportFiles
import AIBuddy.Hints.ImportBounds
import AIBuddy.Hints.ImportCycles
import AIBuddy.Scheduler.Registration
import AIBuddy.Recipe.TemplateText
import AIBuddy.Recipe.RawBlocks
import AIBuddy.Recipe.EmptyQuotes
import AIBuddy.Recipe.RenderedRecipe
import AIBuddy.Recipe.ScanEngine
import AIBuddy.LocalInference.NativeToolText
import AIBuddy.LocalInference.NativeCalls
import AIBuddy.Downloads.FileTransfer
import AIBuddy.Downloads.TransferBounds
import AIBuddy.Downloads.TransferSteps
import AIBuddy.Session.ImportFormats
import AIBuddy.Session.ImportedUsage
import AIBuddy.Session.ImportedText
import AIBuddy.Support.LikePattern
import AIBuddy.Support.LowerCase
import AIBuddy.Session.ChatHistorySearch
import AIBuddy.Session.HistoryMatches
import AIBuddy.Extensions.ToolRouting
