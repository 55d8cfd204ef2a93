import EntityFoundry.Assets.Cache
import EntityFoundry.Assets.Disk
import EntityFoundry.Assets.Path
import EntityFoundry.Blueprint
import EntityFoundry.Bytes
import EntityFoundry.Component.Kinds
import EntityFoundry.Component.Record
import EntityFoundry.Component.Tag
import EntityFoundry.Console
import EntityFoundry.Console.Directive
import EntityFoundry.Console.Pattern
import EntityFoundry.Demo.Cart
import EntityFoundry.Demo.Run
import EntityFoundry.Dict
import EntityFoundry.Entity
import EntityFoundry.Factory.Assets
import EntityFoundry.Factory.Basic
import EntityFoundry.Factory.Config
import EntityFoundry.Factory.Creation
import EntityFoundry.Factory.Destruction
import EntityFoundry.Factory.Error
import EntityFoundry.Factory.Routing
import EntityFoundry.Factory.Starting
import EntityFoundry.Journal
import EntityFoundry.Main
import EntityFoundry.Number.Binary
import EntityFoundry.Number.Decimal
import EntityFoundry.Proofs.Assets.Coherence
import EntityFoundry.Proofs.Assets.Confinement
import EntityFoundry.Proofs.Blueprint
import EntityFoundry.Proofs.Component.Hashing
import EntityFoundry.Proofs.Component.Payloads
import EntityFoundry.Proofs.Component.ReadBack
import EntityFoundry.Proofs.Factory.Arranging
import EntityFoundry.Proofs.Factory.AssetPath
import EntityFoundry.Proofs.Factory.Attaching
import EntityFoundry.Proofs.Factory.Calls
import EntityFoundry.Proofs.Factory.Cascade
import EntityFoundry.Proofs.Factory.Counting
import EntityFoundry.Proofs.Factory.Destroying
import EntityFoundry.Proofs.Factory.Failing
import EntityFoundry.Proofs.Factory.Forest
import EntityFoundry.Proofs.Factory.Growth
import EntityFoundry.Proofs.Factory.Initializing
import EntityFoundry.Proofs.Factory.Invariants
import EntityFoundry.Proofs.Factory.Issuing
import EntityFoundry.Proofs.Factory.Labelling
import EntityFoundry.Proofs.Factory.Latest
import EntityFoundry.Proofs.Factory.Maxima
import EntityFoundry.Proofs.Factory.Mirror
import EntityFoundry.Proofs.Factory.Moves
import EntityFoundry.Proofs.Factory.Naming
import EntityFoundry.Proofs.Factory.Opening
import EntityFoundry.Proofs.Factory.PreOrder
import EntityFoundry.Proofs.Factory.Queueing
import EntityFoundry.Proofs.Factory.Routes
import EntityFoundry.Proofs.Factory.Runs
import EntityFoundry.Proofs.Factory.Spawning
import EntityFoundry.Proofs.Factory.Steps
import EntityFoundry.Proofs.Factory.Teardown
import EntityFoundry.Proofs.Factory.Threads
import EntityFoundry.Proofs.Factory.Views
import EntityFoundry.Proofs.Families
import EntityFoundry.Proofs.Numbering
import EntityFoundry.Proofs.Schema.Dropping
import EntityFoundry.Proofs.Schema.Evolution
import EntityFoundry.Proofs.Schema.Flat
import EntityFoundry.Proofs.Schema.Framing
import EntityFoundry.Proofs.Schema.Layout
import EntityFoundry.Proofs.Schema.Limits
import EntityFoundry.Proofs.Schema.Loaded
import EntityFoundry.Proofs.Schema.ReadBack
import EntityFoundry.Proofs.Schema.RoundTrip
import EntityFoundry.Proofs.Schema.Standing
import EntityFoundry.Proofs.Schema.Unlisted
import EntityFoundry.Proofs.Systems.Judging
import EntityFoundry.Proofs.Systems.Kept
import EntityFoundry.Proofs.Systems.Lacking
import EntityFoundry.Proofs.Systems.Links
import EntityFoundry.Proofs.Systems.Reattaching
import EntityFoundry.Proofs.Systems.Startup
import EntityFoundry.Proofs.Systems.Taking
import EntityFoundry.Proofs.Systems.Told
import EntityFoundry.Proofs.Text.Utf8
import EntityFoundry.Proofs.Wire.Delimited
import EntityFoundry.Proofs.Wire.Entries
import EntityFoundry.Proofs.Wire.Forms
import EntityFoundry.Proofs.Wire.Numbers
import EntityFoundry.Proofs.Wire.ReadBack
import EntityFoundry.Proofs.Wire.Revision
import EntityFoundry.Proofs.Wire.Skipping
import EntityFoundry.Proofs.Wire.Standing
import EntityFoundry.Proofs.Wire.Words
import EntityFoundry.Proofs.Wire.Yields
import EntityFoundry.Schema.Error
import EntityFoundry.Schema.Finalizing
import EntityFoundry.Schema.Loading
import EntityFoundry.Schema.Table
import EntityFoundry.Schema.TypeIndex
import EntityFoundry.Systems.Basic
import EntityFoundry.Systems.Call
import EntityFoundry.Systems.Id
import EntityFoundry.Systems.Links
import EntityFoundry.Systems.Probe
import EntityFoundry.Systems.Registry
import EntityFoundry.Systems.Startup
import EntityFoundry.Text.Alphabetic
import EntityFoundry.Text.Blank
import EntityFoundry.Text.Extending
import EntityFoundry.Text.Hex
import EntityFoundry.Text.Numeric
import EntityFoundry.Text.Quoted
import EntityFoundry.Text.Ranges
import EntityFoundry.Text.Unprintable
import EntityFoundry.Text.Utf8
import EntityFoundry.Wire.Fault
import EntityFoundry.Wire.Marker
import EntityFoundry.Wire.Reader
import EntityFoundry.Wire.Record
import EntityFoundry.Wire.Target
import EntityFoundry.Wire.Value
import EntityFoundry.Wire.Writer
