import SwarmSampler.Check.Run
import SwarmSampler.Client.Engine
import SwarmSampler.Client.Scripted
import SwarmSampler.Sampler.Open
import SwarmSampler.Sampler.Schedule
import SwarmSampler.Settings.Load
import SwarmSampler.Settings.Write
import SwarmSampler.Store.Outside
import SwarmSampler.Writer.Run
import SwarmSampler.Json.Write
import SwarmSampler.Proofs.Check.Settling
import SwarmSampler.Proofs.Check.Headroom
import SwarmSampler.Proofs.Check.Releasing
import SwarmSampler.Proofs.Sampler.Opening
import SwarmSampler.Proofs.Sampler.Trends
import SwarmSampler.Proofs.Store.Sound
import SwarmSampler.Proofs.Writer.Once
import SwarmSampler.Proofs.Writer.Latching
import SwarmSampler.Proofs.Client.Sessions
import SwarmSampler.Proofs.Client.Polling
import SwarmSampler.Proofs.Sampler.Isolation
import SwarmSampler.Proofs.Sampler.Permits
import SwarmSampler.Proofs.Sampler.Lifecycle
import SwarmSampler.Proofs.Store.Listing
import SwarmSampler.Proofs.Store.Rotation
import SwarmSampler.Proofs.Store.Atomic
import SwarmSampler.Proofs.Settings.RoundTrip
import SwarmSampler.Proofs.Store.Admitting
import SwarmSampler.Proofs.Store.Windows
import SwarmSampler.Proofs.Store.DueOrder
import SwarmSampler.Proofs.Check.Timing
import SwarmSampler.Proofs.Target.Normal
import SwarmSampler.Proofs.Trend.Rising
import SwarmSampler.Proofs.Trend.Bounds
import SwarmSampler.Proofs.Store.Ingesting
import SwarmSampler.Proofs.Reader.Depth
import SwarmSampler.Proofs.Reader.Agreement
