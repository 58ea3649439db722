import MediaEngine.Models
import MediaEngine.Transcode.Profiles
import MediaEngine.Transcode.Decision
import MediaEngine.Transcode.Commands
import MediaEngine.Transcode.Pipes
import MediaEngine.Transcode.FfmpegList
import MediaEngine.Jobs.Record
import MediaEngine.Jobs.Manager
import MediaEngine.Jobs.Purge
import MediaEngine.Jobs.Invariant
import MediaEngine.Jobs.Effect
import MediaEngine.Jobs.Lifecycle
import MediaEngine.Jobs.Admission
import MediaEngine.Transcode.Engine
import MediaEngine.Transcode.Probe
import MediaEngine.Jobs.Progress
import MediaEngine.Callbacks
import MediaEngine.Jobs.Writes
import MediaEngine.Jobs.Files
import MediaEngine.Api
import MediaEngine.Service
