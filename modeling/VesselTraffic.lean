import VesselTraffic.Chart.Plot
import VesselTraffic.Journal.Formatter
import VesselTraffic.Retagging.Retagger
import VesselTraffic.Time.DateText
import VesselTraffic.Timeline.Frame
import VesselTraffic.Tracking.Tracker
import VesselTraffic.Proofs.KeyedList
import VesselTraffic.Proofs.TagBlock.Checksum
import VesselTraffic.Proofs.TagBlock.Writing
import VesselTraffic.Proofs.TagBlock.Legible
import VesselTraffic.Proofs.TagBlock.RoundTrip
import VesselTraffic.Proofs.Packet.Cropping
import VesselTraffic.Proofs.Packet.Lines
import VesselTraffic.Proofs.Retagging.Blocks
import VesselTraffic.Proofs.Retagging.Merging
import VesselTraffic.Proofs.Retagging.Sentences
import VesselTraffic.Proofs.Tracking.Registry
import VesselTraffic.Proofs.Tracking.Routing
import VesselTraffic.Proofs.Timeline.Putting
import VesselTraffic.Proofs.Number.DoubleOrder
import VesselTraffic.Proofs.Number.QuantityOrder
import VesselTraffic.Proofs.Geo.Extents
import VesselTraffic.Proofs.Tracking.Histories
import VesselTraffic.Proofs.Tracking.Reordering
import VesselTraffic.Proofs.TagBlock.Grammar
import VesselTraffic.Proofs.Packet.Taggings
import VesselTraffic.Proofs.Retagging.Prepending
import VesselTraffic.Proofs.Number.IntegerText
import VesselTraffic.Proofs.Retagging.Replacing
import VesselTraffic.Proofs.Retagging.Repeating
import VesselTraffic.Proofs.TagBlock.Edits
import VesselTraffic.Proofs.Tracking.Operations
import VesselTraffic.Proofs.Number.DoubleRange
import VesselTraffic.Proofs.Record.Rows
import VesselTraffic.Proofs.Tracking.Arrivals
import VesselTraffic.Proofs.Geo.Growth
import VesselTraffic.Proofs.Tracking.Indexes
import VesselTraffic.Proofs.Tracking.Conflicts
import VesselTraffic.Proofs.Tracking.Redelivery
import VesselTraffic.Proofs.Geo.ExactNavigation
import VesselTraffic.Proofs.Timeline.Querying
import VesselTraffic.Proofs.Tracking.Whereabouts
import VesselTraffic.Proofs.Chart.Marks
import VesselTraffic.Proofs.Timeline.Indexing
import VesselTraffic.Proofs.Timeline.Discarding
import VesselTraffic.Proofs.Timeline.Storing
import VesselTraffic.Proofs.Timeline.Refinement
import VesselTraffic.Proofs.Timeline.Answering
import VesselTraffic.Proofs.Timeline.Locality
import VesselTraffic.Proofs.Timeline.Windows
import VesselTraffic.Proofs.Tracking.Bounds
import VesselTraffic.Proofs.Packet.TaggingRoundTrip
import VesselTraffic.Proofs.TagBlock.Corruption
import VesselTraffic.Proofs.Number.DoubleArithmetic
import VesselTraffic.Proofs.Geo.Motion
import VesselTraffic.Proofs.Record.Positions
import VesselTraffic.Proofs.Tracking.Standing
import VesselTraffic.Proofs.Journal.LeftLayouts
import VesselTraffic.Proofs.Chart.FreeNames
import VesselTraffic.Proofs.Tracking.Refusals
import VesselTraffic.Proofs.Number.DoubleValues
import VesselTraffic.Proofs.Number.DoubleSums
import VesselTraffic.Proofs.Geo.Sides
import VesselTraffic.Proofs.Tracking.Ordering
import VesselTraffic.Proofs.Tracking.Interleaving
import VesselTraffic.Proofs.Chart.Drawings
import VesselTraffic.Proofs.Packet.Pieces
import VesselTraffic.Proofs.Packet.FixedPoints
import VesselTraffic.Proofs.Packet.BlockLines
import VesselTraffic.Proofs.Number.Quotients
import VesselTraffic.Proofs.Time.MillisRoundTrip
import VesselTraffic.Proofs.Packet.Completion
