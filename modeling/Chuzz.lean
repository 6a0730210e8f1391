import Chuzz.Audio.Rendering
import Chuzz.Cookies.Barrier
import Chuzz.Gpu.Accounting
import Chuzz.Session.Capture
import Chuzz.Sockets.ReadyState
import Chuzz.Video.Atomicity
import Chuzz.Video.Decodability
import Chuzz.Video.Extents
import Chuzz.Video.Indexing
import Chuzz.Video.Memory
import Chuzz.Webrtc.Atomicity
import Chuzz.WebAuthn.Delivery
import Chuzz.Locks.Manager
import Chuzz.Workers.Messages
import Chuzz.Egress.Relay
import Chuzz.Egress.Connection
import Chuzz.Headless.Actions
import Chuzz.Headless.Inspection
import Chuzz.Forms.RoundTrip
import Chuzz.Webrtc.Playout
import Chuzz.Webrtc.Agreement
import Chuzz.Broadcast.Progress
import Chuzz.PageControl.Channel
import Chuzz.Media.Host
import Chuzz.PageNet.Cors
import Chuzz.Streams.Demand
import Chuzz.Streams.PipeSignals
import Chuzz.Images.Epochs
import Chuzz.Canvas2D.Cropping
import Chuzz.Canvas2D.DashArcs
import Chuzz.Canvas2D.SubPaths
import Chuzz.Languages.Canonical
import Chuzz.Files.Lifecycle
import Chuzz.PageServer.Serving
import Chuzz.PageServer.TlsPump
import Chuzz.Canvas2D.Immediate
import Chuzz.Cookies.Slices
import Chuzz.Tabs.Preview
import Chuzz.Shims.Base64
import Chuzz.Session.Forms
import Chuzz.Audio.Holding
import Chuzz.Video.Removal
import Chuzz.Video.Rounded
import Chuzz.Gpu.Completing
import Chuzz.Gpu.Attribution
import Chuzz.Webrtc.Timeline
import Chuzz.Video.Ranges
import Chuzz.Video.ContentType
import Chuzz.Webrtc.CodecPolicy
import Chuzz.Webrtc.Gather
import Chuzz.Video.Showing
import Chuzz.Observers.Geometry
import Chuzz.Gpu.External
import Chuzz.Shims.Animations
import Chuzz.Shims.Utf8
import Chuzz.WebAuthn.Base64Url
import Chuzz.Gpu.Labels
