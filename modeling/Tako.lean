import Tako.Theory.Merkle
import Tako.Governance.Sigstore.Basic
import Tako.Governance.Sigstore.Inclusion
import Tako.Governance.Sigstore.Chain
import Tako.Governance.Sigstore.ChainTrust
import Tako.Theory.Regex
import Tako.Governance.Sigstore.Identity
import Tako.Governance.Sigstore.Sample
import Tako.Governance.Sigstore.Verify
import Tako.Governance.Sigstore.Acceptance
import Tako.Governance.Sigstore.Freshness
import Tako.Governance.SigstoreState
import Tako.Rust.Net
import Tako.Http.Client
import Tako.Providers.UrlPrefetch
import Tako.Core.Chat
import Tako.Governance.Policy
import Tako.Governance.SigstoreStateRedis
import Tako.Orchestrator.AbMcts
import Tako.Orchestrator.AbMctsStream
import Tako.Orchestrator.AbMctsTree
import Tako.Orchestrator.BudgetProtocol
import Tako.Orchestrator.Conductor.Attribution
import Tako.Orchestrator.Conductor.RunStream
import Tako.Orchestrator.Conductor.Workers
import Tako.Orchestrator.Conversation
import Tako.Orchestrator.Coverage
import Tako.Orchestrator.SelfCaller.Depth
import Tako.Orchestrator.SelfCaller.RunStream
import Tako.Runtime.Budget
import Tako.Mcp.Framing
import Tako.Mcp.Matching
import Tako.Mcp.Stranding
import Tako.Mcp.StreamableHttp
import Tako.Providers.Stream.Truncation
import Tako.Providers.Convert.Agreement
import Tako.Providers.Convert.ToolResults
import Tako.Auth.Basic
import Tako.Auth.Chained
import Tako.Auth.Jsonwebtoken
import Tako.Auth.Jwt
import Tako.Auth.MtlsWatcher
import Tako.Auth.Oidc
import Tako.Auth.OidcRotation
import Tako.Auth.Outage
import Tako.Orchestrator.AbMctsUsage
import Tako.Orchestrator.Conductor.Usage
import Tako.Orchestrator.SelfCaller.Usage
import Tako.Orchestrator.Texts
import Tako.Compat.Content
import Tako.Compat.Forwarding
import Tako.Compat.SseToolCalls
import Tako.Governance.CreditCard
import Tako.Orchestrator.Features
import Tako.Orchestrator.Interleaved
import Tako.Providers.Convert.VertexAgreement
import Tako.Providers.ModelNames
import Tako.Providers.Transience
import Tako.Runtime.Fallback
import Tako.Auth.ChainedCascade
import Tako.Providers.Convert.AnthropicSystem
import Tako.Providers.Convert.BedrockAgreement
import Tako.Providers.Convert.OllamaAgreement
import Tako.Providers.Convert.ToolIds
import Tako.Runtime.BudgetRedis
import Tako.Runtime.FallbackCascade
import Tako.Runtime.Retry
import Tako.Auth.OidcConfig
import Tako.Auth.OidcIssuer
import Tako.Auth.OidcRetry
import Tako.Auth.VaultPath
import Tako.Auth.MtlsProvider
import Tako.Orchestrator.TrinityRoles
import Tako.Orchestrator.AbMctsTexts
import Tako.Governance.Sigstore.PemChain
import Tako.Governance.Sigstore.CriticalExtensions
import Tako.Governance.PolicySources
import Tako.Providers.UrlPrefetchRanges
import Tako.Orchestrator.Router
import Tako.Orchestrator.Conductor.Report
import Tako.Providers.UrlPrefetchRewrite
import Tako.Providers.Convert.Templates
import Tako.Orchestrator.StepHash
import Tako.Orchestrator.JudgeReply
import Tako.Mcp.Registry
import Tako.Compat.Body
import Tako.Orchestrator.CallBounds
import Tako.Auth.OidcConcurrent
import Tako.Auth.VaultConcurrent
import Tako.Runtime.FallbackNesting
import Tako.Governance.Sigstore.CosignMeaning
import Tako.Auth.MtlsRefreshConcurrent
import Tako.Governance.AuditConcurrent
import Tako.Governance.StateFileCrash
