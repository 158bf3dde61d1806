import EsphomeMcp.Python.JsonRoundTrip
import EsphomeMcp.Addon.IngressPath
import EsphomeMcp.Addon.ManagePosts
import EsphomeMcp.Addon.NativeCalls
import EsphomeMcp.Addon.DeviceBuilderAnswers
import EsphomeMcp.Addon.IngressSecrecy
import EsphomeMcp.Addon.StreamEvents
import EsphomeMcp.Addon.OptionUpdates
import EsphomeMcp.Addon.DeviceListing
import EsphomeMcp.Addon.ConfigFallback
import EsphomeMcp.Server.Query
import EsphomeMcp.Webhook.Lifecycle
import EsphomeMcp.Webhook.EntrySecrets
import EsphomeMcp.Webhook.Relay
import EsphomeMcp.OAuth.Pkce
import EsphomeMcp.OAuth.PkceIsolation
import EsphomeMcp.OAuth.Forgery
import EsphomeMcp.OAuth.Register
import EsphomeMcp.OAuth.RefreshIdentity
import EsphomeMcp.OAuth.Frame
import EsphomeMcp.OAuth.Discovery
import EsphomeMcp.OAuth.CimdConcurrent
import EsphomeMcp.OAuth.CappedRead
import EsphomeMcp.Server.Ready
import EsphomeMcp.Server.ImportRetry
import EsphomeMcp.Server.Snapshot
import EsphomeMcp.Files.CleanUp
import EsphomeMcp.Release.Notes
import EsphomeMcp.Release.Bump
import EsphomeMcp.Vendor.Merging
import EsphomeMcp.Vendor.RuntimeRequirements
import EsphomeMcp.Vendor.Sync
import EsphomeMcp.OAuth.Continuity
import EsphomeMcp.OAuth.ViewErrors
import EsphomeMcp.Entry.BringUp
import EsphomeMcp.Entry.Lifecycle
import EsphomeMcp.Entry.Updates
import EsphomeMcp.Server.Tools
import EsphomeMcp.OAuth.NoneServer
import EsphomeMcp.Diagnostics.Redact
import EsphomeMcp.Vendor.Rewrite
