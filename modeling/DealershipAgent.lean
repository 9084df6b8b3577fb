import DealershipAgent.Py.Str
import DealershipAgent.Py.Num
import DealershipAgent.Py.Exc
import DealershipAgent.Py.Json.Value
import DealershipAgent.Py.Json.Dump
import DealershipAgent.Py.Json.Grammar
import DealershipAgent.Py.Regex
import DealershipAgent.Py.Json.Load
import DealershipAgent.Interact.Prog
import DealershipAgent.Interact.Par
import DealershipAgent.Interact.Graph
import DealershipAgent.Interact.Loop
import DealershipAgent.Interact.Triple
import DealershipAgent.RowSecurity.Session
import DealershipAgent.RowSecurity.Call
import DealershipAgent.Llm.Span
import DealershipAgent.Llm.Normalize
import DealershipAgent.Tools.Identity
import DealershipAgent.Tools.Results
import DealershipAgent.Agents.State
import DealershipAgent.Agents.ActionClaims
import DealershipAgent.Agents.Compaction
import DealershipAgent.Agents.Degradation
import DealershipAgent.Agents.Pricing
import DealershipAgent.Agents.Prompts
import DealershipAgent.Agents.ToolBinding
import DealershipAgent.Agents.ToolLoop
import DealershipAgent.Agents.Nodes
import DealershipAgent.Agents.Graph
import DealershipAgent.Agents.Turn
import DealershipAgent.Agents.FinalResponse
import DealershipAgent.Agents.IdentityFree
import DealershipAgent.Agents.ToolLoopSpec
import DealershipAgent.Agents.ProviderFailure
import DealershipAgent.Db.Models
import DealershipAgent.Db.Rls
import DealershipAgent.Db.CustomerReads
import DealershipAgent.Api.RateLimit
import DealershipAgent.Agents.RouterReply
import DealershipAgent.Agents.VerifiedText
import DealershipAgent.Tools.Server
import DealershipAgent.Py.Json.Text
import DealershipAgent.Agents.Requests
import DealershipAgent.Agents.TurnShape
import DealershipAgent.Agents.LeastPrivilege
import DealershipAgent.Agents.Escalation
import DealershipAgent.Agents.HonestDegradation
import DealershipAgent.Agents.Evidence
import DealershipAgent.Agents.ToolText
import DealershipAgent.Api.Conversations
import DealershipAgent.Interact.Shared
import DealershipAgent.Api.Chat
import DealershipAgent.Api.Answered
import DealershipAgent.Py.Lines
import DealershipAgent.Data.Transaction
import DealershipAgent.Data.EmbedPolicies
import DealershipAgent.Data.ParseDocument
import DealershipAgent.Llm.Groq
import DealershipAgent.Agents.InformedDrafts
import DealershipAgent.Agents.LoopHistory
import DealershipAgent.Ranking.Nearest
import DealershipAgent.Retrieval.PolicySearch
import DealershipAgent.Sql.Where
import DealershipAgent.Db.Vehicles
import DealershipAgent.Retrieval.Search
import DealershipAgent.Sql.Upsert
import DealershipAgent.Data.LoadListings
import DealershipAgent.Data.EmbedListings
import DealershipAgent.Ranking.Sieve
import DealershipAgent.Data.NearDuplicates
import DealershipAgent.Py.Sub
import DealershipAgent.Data.RedactPii
import DealershipAgent.Data.StripBoilerplate
import DealershipAgent.Data.CleanListings
import DealershipAgent.Agents.PolicyObservations
import DealershipAgent.Llm.Truncated
import DealershipAgent.Py.Json.RoundTrip
import DealershipAgent.Agents.Memoization
import DealershipAgent.Py.Json.Reorder
import DealershipAgent.Agents.MemoKey
import DealershipAgent.Py.Language
import DealershipAgent.Py.Pieces
import DealershipAgent.Data.Unredacted
import DealershipAgent.Api.Sessions
import DealershipAgent.Interact.Stateful
import DealershipAgent.RowSecurity.Noninterference
import DealershipAgent.Tools.Store
import DealershipAgent.Tools.Isolation
import DealershipAgent.Tools.StoreResults
import DealershipAgent.Tools.Concurrent
import DealershipAgent.Agents.StoredTurn
import DealershipAgent.Api.Admission
import DealershipAgent.Retrieval.Exact
import DealershipAgent.Data.Pipeline
import DealershipAgent.Llm.Bedrock
import DealershipAgent.Agents.PromptRoles
import DealershipAgent.Api.Dialogues
import DealershipAgent.Interact.Gate
import DealershipAgent.Api.Auth
import DealershipAgent.Sql.Schema
import DealershipAgent.Db.Migrations
