import Sightline.Budget.Ledger
import Sightline.Clock
import Sightline.Decimal.Binary
import Sightline.Decimal.Scientific
import Sightline.Decimal.Shortest
import Sightline.Decimal.Text
import Sightline.Event
import Sightline.Files.Path
import Sightline.Files.Tree
import Sightline.Geometry.Bounds
import Sightline.Geometry.OrientedBox
import Sightline.Geometry.Placement
import Sightline.Geometry.Segment
import Sightline.Geometry.Triangle
import Sightline.Geometry.Vector
import Sightline.Identity
import Sightline.Intersection.Contact
import Sightline.Intersection.Culler
import Sightline.Intersection.Frame
import Sightline.Intersection.Surface
import Sightline.Mesh.Basic
import Sightline.Mesh.Cache
import Sightline.Mesh.CacheCall
import Sightline.Mesh.Generator
import Sightline.Mesh.Library
import Sightline.Proofs.Budget.Recovery
import Sightline.Proofs.Budget.Window
import Sightline.Proofs.Collector.Accounting
import Sightline.Proofs.Collector.Arrival
import Sightline.Proofs.Collector.Omission
import Sightline.Proofs.Collector.Report
import Sightline.Proofs.Collector.Scopes
import Sightline.Proofs.Collector.Selection
import Sightline.Proofs.Collector.Separation
import Sightline.Proofs.Decimal.Conversion
import Sightline.Proofs.Decimal.Notation
import Sightline.Proofs.Decimal.Rounding
import Sightline.Proofs.Decimal.Search
import Sightline.Proofs.Files.Writing
import Sightline.Proofs.Geometry.Euclidean
import Sightline.Proofs.Intersection.Entry
import Sightline.Proofs.Intersection.Exactness
import Sightline.Proofs.Intersection.Faithful
import Sightline.Proofs.Intersection.Margin
import Sightline.Proofs.Intersection.Surface
import Sightline.Proofs.Mesh.Agreement
import Sightline.Proofs.Mesh.Counting
import Sightline.Proofs.Mesh.FirstStored
import Sightline.Proofs.Mesh.Indexing
import Sightline.Proofs.Mesh.Recency
import Sightline.Proofs.Mesh.Steps
import Sightline.Proofs.Mesh.Ticks
import Sightline.Proofs.Query.Decoding
import Sightline.Proofs.Query.Parsing
import Sightline.Proofs.Ron.Records
import Sightline.Proofs.Ron.Words
import Sightline.Proofs.Scalar.Field
import Sightline.Proofs.Scene.Enclosure
import Sightline.Proofs.Scene.Layout
import Sightline.Proofs.Service.Billing
import Sightline.Proofs.Service.Casting
import Sightline.Proofs.Service.Culling
import Sightline.Proofs.Service.Fallback
import Sightline.Proofs.Service.Fewer
import Sightline.Proofs.Service.Gathering
import Sightline.Proofs.Service.History
import Sightline.Proofs.Service.Rendering
import Sightline.Proofs.Service.SweepInvariant
import Sightline.Proofs.Service.Visibility
import Sightline.Proofs.Settings.RoundTrip
import Sightline.Proofs.Settings.Saving
import Sightline.Proofs.Settings.Spelling
import Sightline.Proofs.Single.Bits
import Sightline.Proofs.Single.Exact
import Sightline.Proofs.Single.Neutral
import Sightline.Proofs.Single.Operations
import Sightline.Proofs.Single.Order
import Sightline.Proofs.Single.Patterns
import Sightline.Proofs.Single.Rounding
import Sightline.Proofs.Single.Storing
import Sightline.Proofs.Single.Units
import Sightline.Proofs.Single.Whole
import Sightline.Proofs.Terrain.Coverage
import Sightline.Proofs.Terrain.Safety
import Sightline.Proofs.Terrain.Singles
import Sightline.Proofs.Terrain.Skipping
import Sightline.Proofs.Terrain.Spans
import Sightline.Proofs.Terrain.Walking
import Sightline.Proofs.Text.Reading
import Sightline.Proofs.Toml.Document
import Sightline.Proofs.Toml.Values
import Sightline.Proofs.Toml.Words
import Sightline.Query.Collector
import Sightline.Query.Hit
import Sightline.Query.Option
import Sightline.Query.Reply
import Sightline.Query.Request
import Sightline.Ron.Lexical
import Sightline.Ron.Printer
import Sightline.Ron.Reader
import Sightline.Scalar
import Sightline.Scene.Basic
import Sightline.Scene.Group
import Sightline.Scene.Heightmap
import Sightline.Service.Basic
import Sightline.Service.Sweep
import Sightline.Settings.Basic
import Sightline.Settings.Files
import Sightline.Settings.Format
import Sightline.Settings.Schema
import Sightline.Settings.Spelling
import Sightline.Shape.Basic
import Sightline.Shape.Family
import Sightline.Single
import Sightline.Terrain.Footprint
import Sightline.Terrain.Survey
import Sightline.Text.Reader
import Sightline.Toml.Lexical
import Sightline.Toml.Parser
import Sightline.Toml.Printer
import Sightline.Toml.Table
import Sightline.Toml.Value
