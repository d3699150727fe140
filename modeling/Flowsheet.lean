import Flowsheet.Load
import Flowsheet.Proofs.Build.Absence
import Flowsheet.Proofs.Build.Atomic
import Flowsheet.Proofs.Build.Copy
import Flowsheet.Proofs.Build.Edit
import Flowsheet.Proofs.Build.Lockstep
import Flowsheet.Proofs.Build.Lookup
import Flowsheet.Proofs.Build.MapRuns
import Flowsheet.Proofs.Build.Order
import Flowsheet.Proofs.Fault.History
import Flowsheet.Proofs.Fault.Listing
import Flowsheet.Proofs.PortType
import Flowsheet.Proofs.Reading.Clean
import Flowsheet.Proofs.Reading.Conform
import Flowsheet.Proofs.Reading.DocumentOrder
import Flowsheet.Proofs.Reading.Isolation
import Flowsheet.Proofs.Reading.Nulls
import Flowsheet.Proofs.Reading.Origin
import Flowsheet.Proofs.Reading.Parts
import Flowsheet.Proofs.Reading.Places
import Flowsheet.Proofs.Reading.Rearranged
import Flowsheet.Proofs.Reading.Roles
import Flowsheet.Proofs.Reading.RoundTrip
import Flowsheet.Proofs.Reading.Sections
import Flowsheet.Proofs.Reading.Strict
import Flowsheet.Proofs.Writing
import Flowsheet.Proofs.Build.FellBack
import Flowsheet.Proofs.Reading.Scalars
import Flowsheet.Proofs.Reading.Oversized
import Flowsheet.Proofs.Fault.Merged
import Flowsheet.Proofs.Reading.Rendered
