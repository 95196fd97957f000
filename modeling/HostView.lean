import HostView.Attribute
import HostView.Calendar.Moment
import HostView.Calendar.Reader
import HostView.CommandLine
import HostView.Exposure.Answering
import HostView.Exposure.Fault
import HostView.Exposure.Inbound
import HostView.Exposure.Integers
import HostView.Exposure.Ledger
import HostView.Exposure.Naming
import HostView.Exposure.Offsets
import HostView.Exposure.Outbound
import HostView.Exposure.Reading
import HostView.Exposure.Receiver
import HostView.Exposure.Snapshot
import HostView.Exposure.Writing
import HostView.Folder
import HostView.Host.Atom
import HostView.Host.Entries
import HostView.Host.Fault
import HostView.Host.Heap
import HostView.Host.Image
import HostView.Host.Type
import HostView.Json.Document
import HostView.Json.Fields
import HostView.Json.Printer
import HostView.Json.Reader
import HostView.Main
import HostView.Net.Address
import HostView.Net.Document
import HostView.Net.Literal
import HostView.Net.Port
import HostView.Net.Subnet
import HostView.Number.Binary64
import HostView.Number.Notation
import HostView.Number.Numeral
import HostView.Number.Places
import HostView.Number.Real
import HostView.Number.Shortest
import HostView.Pattern.Basic
import HostView.Pattern.Reader
import HostView.Pattern.Search
import HostView.Proofs.Acyclicity
import HostView.Proofs.Atomicity
import HostView.Proofs.ExactIntegers
import HostView.Proofs.Exposure.Denotations
import HostView.Proofs.Exposure.Lookups
import HostView.Proofs.Exposure.Naming
import HostView.Proofs.Exposure.Traps
import HostView.Proofs.FaultPaths
import HostView.Proofs.FieldWrites
import HostView.Proofs.LazyWraps
import HostView.Proofs.Masks
import HostView.Proofs.Net.Grammar
import HostView.Proofs.Net.Literals
import HostView.Proofs.Net.Subnets
import HostView.Proofs.Number.Binary64
import HostView.Proofs.Number.Rational
import HostView.Proofs.ObjectMaps
import HostView.Proofs.ObjectRecords
import HostView.Proofs.PrivateSymbol
import HostView.Proofs.RequiredFields
import HostView.Proofs.Restoring
import HostView.Proofs.RoundTrip
import HostView.Proofs.Script.Shapes
import HostView.Proofs.SeveralRoots
import HostView.Proofs.SilentReads
import HostView.Proofs.SnapshotMembers
import HostView.Proofs.Snapshots
import HostView.Proofs.Spreading
import HostView.Proofs.TableMap
import HostView.Proofs.TypeSafety
import HostView.Proofs.Views
import HostView.Sample
import HostView.Sandbox
import HostView.Script.Access
import HostView.Script.Builtin
import HostView.Script.Callable
import HostView.Script.Coercion
import HostView.Script.Content
import HostView.Script.Content.Reader
import HostView.Script.Descriptor
import HostView.Script.Document
import HostView.Script.Eval
import HostView.Script.Intrinsics
import HostView.Script.Intrinsics.Builder
import HostView.Script.Intrinsics.Fundamental
import HostView.Script.Intrinsics.Primitives
import HostView.Script.Intrinsics.Sequences
import HostView.Script.Iterator
import HostView.Script.Library
import HostView.Script.Library.Addresses
import HostView.Script.Library.Dates
import HostView.Script.Library.Documents
import HostView.Script.Library.Functions
import HostView.Script.Library.Items
import HostView.Script.Library.Iteration
import HostView.Script.Library.Iterators
import HostView.Script.Library.Numbers
import HostView.Script.Library.Objects
import HostView.Script.Library.Patterns
import HostView.Script.Library.Promises
import HostView.Script.Library.Searches
import HostView.Script.Library.Sequences
import HostView.Script.Library.Substitution
import HostView.Script.Library.Texts
import HostView.Script.Listing
import HostView.Script.Machine
import HostView.Script.Mutation
import HostView.Script.Object
import HostView.Script.Outline
import HostView.Script.Reach
import HostView.Script.Result
import HostView.Script.Syntax
import HostView.Script.Thrown
import HostView.Script.Value
import HostView.Settings
import HostView.Text.Decimal
import HostView.Text.Entries
import HostView.Text.Hexadecimal
import HostView.Text.LetterCase
import HostView.Text.LetterCase.Tables
import HostView.Text.Normal
import HostView.Text.Normal.Classes
import HostView.Text.Normal.Decompositions
import HostView.Text.Units
