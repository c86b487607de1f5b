import VideoNode.Lts.Machine
import VideoNode.Lts.Channel
import VideoNode.Lts.Parties
import VideoNode.Lts.Alternation
import VideoNode.Common.AsyncContext
import VideoNode.Common.Delivery
import VideoNode.Js.Value
import VideoNode.Js.Map
import VideoNode.Frames.Options
import VideoNode.Frames.FrameStream
import VideoNode.Frames.Consumption
import VideoNode.Frames.Receiver
import VideoNode.Frames.Latest
import VideoNode.Frames.MediaTrack
import VideoNode.Local.DataTrack
import VideoNode.Local.Publishing
import VideoNode.Local.Rooms
import VideoNode.Local.Counting
import VideoNode.Local.Failures
import VideoNode.Local.Observer
import VideoNode.Room.Stats
import VideoNode.Remote.Participant
import VideoNode.Remote.Binding
import VideoNode.Remote.Room
import VideoNode.Remote.Wiring
import VideoNode.Remote.Coherence
import VideoNode.Remote.Logs
import VideoNode.Remote.Effects
import VideoNode.Remote.Records
import VideoNode.Remote.Flow
import VideoNode.Remote.Teardown
import VideoNode.Remote.Joining
import VideoNode.Remote.Reuse
import VideoNode.Tracks.RemoteTrack
import VideoNode.Tracks.Registry
import VideoNode.Tracks.Subscription
import VideoNode.Tracks.Resubscription
import VideoNode.Tracks.Ending
import VideoNode.Tracks.Slots
import VideoNode.Tracks.Receivers
import VideoNode.Data.RemoteDataTrack
import VideoNode.Data.Registrations
import VideoNode.Data.Messages
import VideoNode.Room.Settling
import VideoNode.Participants.Identity
import VideoNode.Participants.Cleanup
import VideoNode.Audio.Accounting
import VideoNode.Audio.PublishQueue
import VideoNode.Js.Napi
import VideoNode.Video.I420
import VideoNode.Video.LocalVideoTrack
import VideoNode.Video.Bounds
import VideoNode.Video.Republish
import VideoNode.Video.PinnedSource
import VideoNode.Js.Decode
import VideoNode.Room.ConnectOptions
import VideoNode.Room.DeclaredOptions
import VideoNode.Room.Encoding
import VideoNode.Room.EncodingLimits
import VideoNode.Lts.Timed
import VideoNode.Room.Timeout
import VideoNode.Frames.DropReports
import VideoNode.Lts.Tally
import VideoNode.Audio.WriteInput
import VideoNode.Local.GivenFrames
import VideoNode.Local.WriteStats
import VideoNode.Tracks.Registries
import VideoNode.Tracks.Reception
import VideoNode.Js.Utf16
import VideoNode.Data.Payload
import VideoNode.Frames.Sinks
import VideoNode.Frames.SinkLeaks
import VideoNode.Frames.TrackStats
import VideoNode.Lts.Window
import VideoNode.Frames.Policy
import VideoNode.Remote.Closing
import VideoNode.Local.TrackOptions
import VideoNode.Local.Names
import VideoNode.Room.Index
import VideoNode.Local.ConnectTime
import VideoNode.Audio.Relay
import VideoNode.Local.Hold
import VideoNode.Common.Errors
import VideoNode.Remote.Announcements
import VideoNode.Remote.EventRuns
import VideoNode.Local.Publications
