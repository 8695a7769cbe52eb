import FormRespondentRole.Foundations.Reachability
import FormRespondentRole.Foundations.Program
import FormRespondentRole.Foundations.SortedSet
import FormRespondentRole.Foundations.Text
import FormRespondentRole.Foundations.Binary64
import FormRespondentRole.Foundations.Json
import FormRespondentRole.Error
import FormRespondentRole.Condition
import FormRespondentRole.ConditionEval
import FormRespondentRole.Tables
import FormRespondentRole.Sync
import FormRespondentRole.SyncWorld
import FormRespondentRole.SyncContract
import FormRespondentRole.SyncPaths
import FormRespondentRole.SyncAgreement
import FormRespondentRole.SyncRace
import FormRespondentRole.Jobs
import FormRespondentRole.JobWorker
import FormRespondentRole.JobExclusion
import FormRespondentRole.SyncFailure
import FormRespondentRole.Retry
import FormRespondentRole.Submit
import FormRespondentRole.SubmitRuns
import FormRespondentRole.SubmitInvariant
import FormRespondentRole.CanonicalRow
import FormRespondentRole.AttemptLimits
import FormRespondentRole.Foundations.Fields
import FormRespondentRole.Credentials
import FormRespondentRole.CredentialKinds
import FormRespondentRole.Foundations.JsonText
import FormRespondentRole.Foundations.JsonRoundTrip
import FormRespondentRole.JobOwnership
import FormRespondentRole.JobAttempts
import FormRespondentRole.JobShutdown
import FormRespondentRole.FormSchema
import FormRespondentRole.RoleConfig
import FormRespondentRole.Database
import FormRespondentRole.AdminHandlers
import FormRespondentRole.ResponseHandlers
import FormRespondentRole.RoleConfigHandlers
import FormRespondentRole.AdminRuns
import FormRespondentRole.FormSpelling
import FormRespondentRole.ResyncQueued
import FormRespondentRole.Connections
import FormRespondentRole.Foundations.Protocol
import FormRespondentRole.BuilderTabs
import FormRespondentRole.ConditionValues
import FormRespondentRole.RoleConfigRoundTrip
import FormRespondentRole.Service
import FormRespondentRole.Conduct
import FormRespondentRole.Foundations.JsonPath
import FormRespondentRole.Foundations.IpAddr
import FormRespondentRole.FormPage
import FormRespondentRole.Webhook
import FormRespondentRole.ReadOnlyGuard
import FormRespondentRole.JobRows
import FormRespondentRole.StartupBackfill
import FormRespondentRole.BulkUpload
import FormRespondentRole.CappedLink
import FormRespondentRole.FormGate
import FormRespondentRole.UnboundLink
import FormRespondentRole.PluginContract
import FormRespondentRole.RetryWait
import FormRespondentRole.Foundations.Binary64Value
import FormRespondentRole.NumericThresholds
import FormRespondentRole.FormValidation
import FormRespondentRole.CheckboxSets
import FormRespondentRole.RoleLogicClient
import FormRespondentRole.UploadSessions
import FormRespondentRole.UploadTransports
import FormRespondentRole.Unlink
import FormRespondentRole.SaveAtomicity
import FormRespondentRole.GuildIsolation
import FormRespondentRole.SaveBursts
import FormRespondentRole.RecheckChain
import FormRespondentRole.Foundations.JsonStrings
import FormRespondentRole.PageBootstrap
import FormRespondentRole.IframeSession
import FormRespondentRole.EqualityOperators
import FormRespondentRole.DamagedConditions
import FormRespondentRole.SchemaChecks
import FormRespondentRole.QuizScore
import FormRespondentRole.AcceptedAnswers
import FormRespondentRole.ChoiceScoring
import FormRespondentRole.NumericAnswers
import FormRespondentRole.FullMarks
import FormRespondentRole.Foundations.Rearranged
import FormRespondentRole.SchemaReading
import FormRespondentRole.Shuffling
import FormRespondentRole.Foundations.Observation
import FormRespondentRole.QuizRuns
import FormRespondentRole.QuizMachine
import FormRespondentRole.PassBit
import FormRespondentRole.Foundations.CharCodes
import FormRespondentRole.Foundations.Csv
import FormRespondentRole.CsvExport
import FormRespondentRole.Homes
import FormRespondentRole.Tenants
import FormRespondentRole.Cascades
import FormRespondentRole.FormReferences
import FormRespondentRole.Foundations.Templates
import FormRespondentRole.Foundations.ScriptText
import FormRespondentRole.Foundations.JsLiteral
import FormRespondentRole.AdminPages
import FormRespondentRole.Statements
import FormRespondentRole.FormVersions
import FormRespondentRole.ServiceSubmits
import FormRespondentRole.StarterTemplates
import FormRespondentRole.FormChecks
import FormRespondentRole.StoredForms
import FormRespondentRole.CurrentResponses
import FormRespondentRole.Access
import FormRespondentRole.GuildAccess
import FormRespondentRole.Outbox
import FormRespondentRole.Deliveries
import FormRespondentRole.Picker
import FormRespondentRole.Foundations.DistinctOn
import FormRespondentRole.Respondents
import FormRespondentRole.Foundations.Ddl
import FormRespondentRole.Migrations
