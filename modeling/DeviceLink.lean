import DeviceLink.Main
import DeviceLink.Device.Listing
import DeviceLink.Device.MemoryLink
import DeviceLink.Device.Snapshot
import DeviceLink.Proofs.Lists
import DeviceLink.Proofs.Results
import DeviceLink.Proofs.Text.Blanks
import DeviceLink.Proofs.Text.Comments
import DeviceLink.Proofs.Text.Segments
import DeviceLink.Proofs.Text.Lines
import DeviceLink.Proofs.Text.Octets
import DeviceLink.Proofs.Text.Words
import DeviceLink.Proofs.Number.Rounding
import DeviceLink.Proofs.Number.Exactness
import DeviceLink.Proofs.Number.Decimals
import DeviceLink.Proofs.Number.Literals
import DeviceLink.Proofs.Number.Values
import DeviceLink.Proofs.Number.Significance
import DeviceLink.Proofs.Number.Text
import DeviceLink.Proofs.Json.Unambiguous
import DeviceLink.Proofs.Json.MemberOrder
import DeviceLink.Proofs.Json.Members
import DeviceLink.Proofs.Files.Places
import DeviceLink.Proofs.Unit.Quantities
import DeviceLink.Proofs.Unit.Grammar
import DeviceLink.Proofs.Unit.Magnitudes
import DeviceLink.Proofs.Tree.Arena
import DeviceLink.Proofs.Tree.Descent
import DeviceLink.Proofs.Tree.Paths
import DeviceLink.Proofs.Tree.Traversal
import DeviceLink.Proofs.Tree.Additions
import DeviceLink.Proofs.Tree.Documentation
import DeviceLink.Proofs.Tree.Endpoints
import DeviceLink.Proofs.Wire.Codec
import DeviceLink.Proofs.Wire.RoundTrip
import DeviceLink.Proofs.Wire.Counts
import DeviceLink.Proofs.Wire.Integers
import DeviceLink.Proofs.Wire.Coercion
import DeviceLink.Proofs.Wire.Positional
import DeviceLink.Proofs.Validation.Collisions
import DeviceLink.Proofs.Validation.Identifiers
import DeviceLink.Proofs.Validation.Validity
import DeviceLink.Proofs.Schema.Grammar
import DeviceLink.Proofs.Schema.Depiction
import DeviceLink.Proofs.Schema.Fields
import DeviceLink.Proofs.Schema.Drafts
import DeviceLink.Proofs.Schema.Advance
import DeviceLink.Proofs.Schema.Growth
import DeviceLink.Proofs.Schema.Acceptance
import DeviceLink.Proofs.Schema.FaultyDrafts
import DeviceLink.Proofs.Schema.Fidelity
import DeviceLink.Proofs.Schema.Names
import DeviceLink.Proofs.Schema.Leftovers
import DeviceLink.Proofs.Schema.Outcomes
import DeviceLink.Proofs.Schema.Repeats
import DeviceLink.Proofs.Device.Addressing
import DeviceLink.Proofs.Device.Choices
import DeviceLink.Proofs.Device.Restoring
import DeviceLink.Proofs.Device.Bytes
import DeviceLink.Proofs.Device.Codes
import DeviceLink.Proofs.Device.Denotation
import DeviceLink.Proofs.Device.Storage
import DeviceLink.Proofs.Device.Traces
import DeviceLink.Proofs.Device.Requests
import DeviceLink.Proofs.Device.EmptyPayloads
import DeviceLink.Proofs.Device.Snapshots
import DeviceLink.Proofs.Device.Inspections
import DeviceLink.Proofs.Device.Exchanges
import DeviceLink.Proofs.Device.Recovery
import DeviceLink.Proofs.Device.ExportedTexts
import DeviceLink.Proofs.Device.FullNames
import DeviceLink.Proofs.Device.ImportExport
import DeviceLink.Proofs.Device.Imports
import DeviceLink.Proofs.Device.Paths
import DeviceLink.Proofs.Device.Rereading
import DeviceLink.Proofs.Device.TypedText
import DeviceLink.Proofs.Device.WideReadings
import DeviceLink.Proofs.Dispatch.Printed
import DeviceLink.Proofs.Dispatch.Slots
import DeviceLink.Proofs.Dispatch.FileScope
import DeviceLink.Proofs.Dispatch.Announcements
import DeviceLink.Proofs.Dispatch.Layout
import DeviceLink.Proofs.Dispatch.Definitions
import DeviceLink.Proofs.Dispatch.Words
import DeviceLink.Proofs.Dispatch.Scope
import DeviceLink.Proofs.Dispatch.Capture
import DeviceLink.Proofs.Dispatch.ComposedNames
import DeviceLink.Proofs.Dispatch.Documentation
import DeviceLink.Proofs.Dispatch.Enumerators
import DeviceLink.Proofs.Dispatch.Gate
import DeviceLink.Proofs.Reference.Headlines
import DeviceLink.Proofs.Reference.Tables
import DeviceLink.Proofs.Reference.Sections
import DeviceLink.Proofs.Generation.Delivery
import DeviceLink.Proofs.Generation.AllOrNothing
