import VicoopBridge.Verification.AttachMarkers
import VicoopBridge.Verification.Base64Size
import VicoopBridge.Verification.Bridge.Approvals
import VicoopBridge.Verification.Bridge.Buffer
import VicoopBridge.Verification.Bridge.Replay
import VicoopBridge.Verification.CallerBlock
import VicoopBridge.Verification.CallerFileDelivery
import VicoopBridge.Verification.CallerPolicyWatch
import VicoopBridge.Verification.CallerScopedBackend.Contract
import VicoopBridge.Verification.CallerStorageManager
import VicoopBridge.Verification.CallerToken
import VicoopBridge.Verification.ChatHistory
import VicoopBridge.Verification.ChatHistoryBlocks
import VicoopBridge.Verification.ClaudeApprovals
import VicoopBridge.Verification.ClaudeEvents
import VicoopBridge.Verification.ClaudeUsageThrottle
import VicoopBridge.Verification.CodexCatalogLoads
import VicoopBridge.Verification.CodexRequests
import VicoopBridge.Verification.CodexSessions
import VicoopBridge.Verification.DetachableStream
import VicoopBridge.Verification.DeviceFlow
import VicoopBridge.Verification.DeviceSignIn
import VicoopBridge.Verification.DidWebResolver
import VicoopBridge.Verification.DispatchChains
import VicoopBridge.Verification.EventDelivery
import VicoopBridge.Verification.ExecutionScope
import VicoopBridge.Verification.Executor.ArtifactFold
import VicoopBridge.Verification.Executor.Settlement
import VicoopBridge.Verification.FetchUri
import VicoopBridge.Verification.FetchUriAddresses
import VicoopBridge.Verification.FileAttach
import VicoopBridge.Verification.IdentityVc
import VicoopBridge.Verification.ManifestVersion
import VicoopBridge.Verification.OfferStore
import VicoopBridge.Verification.OpenclawRouting.Contract
import VicoopBridge.Verification.OpenclawSession
import VicoopBridge.Verification.Principal
import VicoopBridge.Verification.Registry.Condemned
import VicoopBridge.Verification.RequestBoundary
import VicoopBridge.Verification.SendFileMcp
import VicoopBridge.Verification.TaskAccess
import VicoopBridge.Verification.TaskStore.CancelRace
import VicoopBridge.Verification.TaskStore.Ownership
import VicoopBridge.Verification.TokenExchange
import VicoopBridge.Verification.VicoopCodexStream
import VicoopBridge.Verification.Ws.Answers
import VicoopBridge.Verification.Ws.Assignments
import VicoopBridge.Verification.Ws.LateAuthentication
import VicoopBridge.Verification.Ws.Noninterference
import VicoopBridge.Verification.Ws.OneTerminal
import VicoopBridge.Verification.Ws.Reconnect
import VicoopBridge.Verification.X402Usage
