import CodeWide.Accounts.PoolRuns
import CodeWide.Accounts.Rotation
import CodeWide.Agent.BindingCache
import CodeWide.Agent.EventProjector
import CodeWide.Agent.Fork
import CodeWide.Agent.Handoff
import CodeWide.Agent.History
import CodeWide.Agent.MergedPages
import CodeWide.Agent.RequestIds
import CodeWide.Agent.Tracker
import CodeWide.Claude.Deletion
import CodeWide.Claude.Requests
import CodeWide.Content.Budget
import CodeWide.Content.Chunks
import CodeWide.Content.Retained
import CodeWide.Device.CommandLanes
import CodeWide.Device.ExactlyOnce
import CodeWide.Device.Recovery
import CodeWide.HistoryCache.Consistency
import CodeWide.HostUpdate.Admission
import CodeWide.Index.Agreement
import CodeWide.Index.ReverseScan
import CodeWide.Messages.Projected
import CodeWide.Messages.SearchRouting
import CodeWide.Projection.CatchUp
import CodeWide.Projection.Repair
import CodeWide.Projection.SkippedRows
import CodeWide.Relay.Enrollment
import CodeWide.Server.DeviceRegistry
import CodeWide.Server.Revocation
import CodeWide.Server.Tunnels
import CodeWide.Server.Workspaces
import CodeWide.Sqlite.Durability
import CodeWide.Sqlite.HotOrder
import CodeWide.Store.Descendants
import CodeWide.Store.Pruning
import CodeWide.Store.SteerGrants
import CodeWide.Store.SubagentLinks
import CodeWide.Summary.RaceRule
import CodeWide.Sync.AnsweredOnce
import CodeWide.Sync.Declarations
import CodeWide.Sync.FenceCover
import CodeWide.Sync.LiveSocket
import CodeWide.Sync.LostHolder
import CodeWide.Sync.Observers
import CodeWide.Sync.QueueMoves
import CodeWide.Sync.ThreadLane
import CodeWide.ThreadList.Flushing
import CodeWide.ThreadList.HubRun
import CodeWide.ThreadList.PinConvergence
import CodeWide.Transcript.Protocol
import CodeWide.Transcript.Segmentation
import CodeWide.Transcript.SubagentRuns
import CodeWide.Transport.Fences
import CodeWide.Uploads.Leases
import CodeWide.Usage.Repricing
