import AgyProxy.Host.ParserSpec
import AgyProxy.Host.Recording
import AgyProxy.Lib.Emit
import AgyProxy.Lib.Machine
import AgyProxy.Lib.Search
import AgyProxy.Host.Mapper
import AgyProxy.Host.MapperSpec
import AgyProxy.Host.SpanSystem
import AgyProxy.Host.Transcript
import AgyProxy.Host.RecordingSpec
import AgyProxy.Host.SpanSystemSpec
import AgyProxy.Host.Chain
import AgyProxy.Host.ChainSpec
import AgyProxy.Host.Replay
import AgyProxy.Host.Usage
import AgyProxy.Host.UsageSpec
import AgyProxy.Host.Continuation
import AgyProxy.Host.Attempt
import AgyProxy.Host.Dispatch
import AgyProxy.Host.DispatchSpec
import AgyProxy.Host.LateOutput
import AgyProxy.Host.RetryGate
import AgyProxy.Host.Engine
import AgyProxy.Host.EngineSpec
import AgyProxy.Host.Redaction
import AgyProxy.Host.ParserStream
import AgyProxy.Host.Prose
import AgyProxy.Server.SemaphoreSpec
import AgyProxy.Server.StreamGuardsSpec
import AgyProxy.Lib.Backlog
import AgyProxy.Server.Events
import AgyProxy.Server.EventsSpec
import AgyProxy.Server.PoolViewSpec
import AgyProxy.Host.Tenants
import AgyProxy.Host.TenantsSpec
import AgyProxy.Server.AbortCascade
import AgyProxy.Server.AbortCascadeSpec
import AgyProxy.Server.Errors
import AgyProxy.Server.OpenAiAdapter
import AgyProxy.Server.AnthropicAdapter
import AgyProxy.Server.StreamLegs
import AgyProxy.Server.StreamLegsSpec
import AgyProxy.Server.Assemble
import AgyProxy.Server.AssembleSpec
import AgyProxy.Server.UsageLedgerSpec
import AgyProxy.Server.KeyStoreSpec
import AgyProxy.Host.Models
import AgyProxy.Server.ModelGate
import AgyProxy.Server.ModelGateSpec
import AgyProxy.Host.PoolDirsSpec
import AgyProxy.Host.PoolAuthSpec
import AgyProxy.Host.RateLimit
import AgyProxy.Server.StreamGrammar
import AgyProxy.Server.AnthropicGrammar
import AgyProxy.Server.OpenAiGrammar
import AgyProxy.Host.Prompt
import AgyProxy.Host.PromptSpec
import AgyProxy.Server.ChatMessages
import AgyProxy.Server.TurnDelivery
import AgyProxy.Server.TurnDeliverySpec
import AgyProxy.Lib.Memo
import AgyProxy.Server.DailyBudget
import AgyProxy.Server.DailyBudgetSpec
import AgyProxy.Common.Config
import AgyProxy.Server.Settings
import AgyProxy.Server.SettingsSpec
import AgyProxy.Js.JsonSpec
import AgyProxy.Server.SettingsWriteSpec
import AgyProxy.Lib.FirstLeast
import AgyProxy.Host.RunRegistry
import AgyProxy.Host.RunRegistrySpec
import AgyProxy.Host.ParserChunks
import AgyProxy.Server.HoldbackSpec
import AgyProxy.Common.ResetDuration
import AgyProxy.Lib.Cyclic
import AgyProxy.Host.Pool
import AgyProxy.Host.PoolSelectSpec
import AgyProxy.Host.PoolActiveSpec
import AgyProxy.Lib.Rotation
import AgyProxy.Host.PoolRotationSpec
import AgyProxy.Lib.LeastOf
import AgyProxy.Server.RetryAfterSpec
import AgyProxy.Server.Tokens
import AgyProxy.Host.CallIdSpec
import AgyProxy.Host.DigestSpec
import AgyProxy.Server.ModelPagesSpec
import AgyProxy.Host.ModelListSpec
import AgyProxy.Host.QuotaSpec
import AgyProxy.Host.Refresh
import AgyProxy.Common.ConfigMemoSpec
import AgyProxy.Host.StepTextSpec
import AgyProxy.Server.EventRingSpec
import AgyProxy.Host.RunnerSpec
import AgyProxy.Server.KeyTouchSpec
import AgyProxy.Lib.Deferred
import AgyProxy.Host.Persistence
import AgyProxy.Lib.Csv
import AgyProxy.Web.Csv
import AgyProxy.Js.Int32
import AgyProxy.Server.AllowList
import AgyProxy.Host.ResetDurationSpec
import AgyProxy.Js.Date
import AgyProxy.Host.StoredToken
import AgyProxy.Lib.Tally
import AgyProxy.Server.SlotsSpec
import AgyProxy.Server.BusyMarksSpec
import AgyProxy.Server.BusyMarks
import AgyProxy.Lib.Timers
import AgyProxy.Host.KillLadder
import AgyProxy.Host.KillLadderSpec
import AgyProxy.Server.SemaphoreFairness
import AgyProxy.Js.EventStream
import AgyProxy.Server.Sse
import AgyProxy.Server.SseSpec
import AgyProxy.Server.Shutdown
import AgyProxy.Server.ShutdownSpec
import AgyProxy.Lib.FixedWindow
import AgyProxy.Lib.Simulation
import AgyProxy.Server.ApiAuth
import AgyProxy.Server.ApiAuthSpec
import AgyProxy.Js.Uri
import AgyProxy.Server.AdminSession
import AgyProxy.Server.AdminSessionSpec
import AgyProxy.Server.AdminGate
import AgyProxy.Server.AdminGateSpec
import AgyProxy.Lib.SerialQueue
import AgyProxy.Host.AccountQueue
import AgyProxy.Host.AccountQueueSpec
import AgyProxy.Lib.Resume
import AgyProxy.Server.Db
import AgyProxy.Server.DbSpec
