import Mae.Sync.Membership.RotatedSeat
import Mae.Sync.Membership.Introspection
import Mae.Sync.Membership.Inviter
import Mae.Sync.Membership.Coverage
import Mae.Sync.Membership.RetiredKey
import Mae.Sync.Membership.Quorum
import Mae.Sync.Membership.RotateOnRemove
import Mae.Scheme.Balance
import Mae.Scheme.StackDiscipline
import Mae.Scheme.Continuations
import Mae.Scheme.DefineLibrary
import Mae.Scheme.LibraryState
import Mae.Scheme.Batch
import Mae.Editor.CleanFlag
import Mae.Editor.Collaboration
import Mae.Editor.WindowNaming
import Mae.Sync.OpRecord
import Mae.Daemon.ShareDoc
import Mae.Daemon.Durability
import Mae.Kb.Rejoin
import Mae.Kb.Federated
import Mae.Kb.Versions
import Mae.Daemon.MembershipCache
import Mae.Daemon.ClientCounts
import Mae.Editor.MacroKeys
import Mae.Editor.Scrolling
import Mae.Editor.WindowTree
import Mae.Editor.CursorClamp
import Mae.Editor.RemoteCursors
import Mae.Org.Anchors
import Mae.Org.Source
import Mae.Org.Html
import Mae.Mcp.Broadcast
import Mae.Sync.TextReconcile
import Mae.Sync.TagSet
import Mae.Mcp.FileLock
