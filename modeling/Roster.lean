import Roster.Json.Equality
import Roster.Json.Reader
import Roster.Json.Writer
import Roster.Schema.Read
import Roster.Schema.Extract
import Roster.Schema.Nest
import Roster.Schema.Standard
import Roster.Filter.Parser
import Roster.Paging
import Roster.ListOrder
import Roster.Status
import Roster.Members
import Roster.Store.Write
import Roster.Config.Build
import Roster.Patch.Basic
import Roster.Uuid
import Roster.Service.Request
import Roster.Web.Exchange
import Roster.Proofs.Configuration
import Roster.Proofs.Session
import Roster.Proofs.Attributes
import Roster.Proofs.Locality
import Roster.Proofs.Rendering
import Roster.Proofs.Atomicity
import Roster.Proofs.Rows
import Roster.Proofs.Writing
import Roster.Proofs.Lookup
import Roster.Proofs.Patching
import Roster.Proofs.PatchSequence
import Roster.Proofs.Distinct
import Roster.Proofs.MemberLists
import Roster.Proofs.Contracts
import Roster.Proofs.Insertion
import Roster.Proofs.Runs
import Roster.Proofs.MembershipInvariant
import Roster.Proofs.GroupAttributes
import Roster.Proofs.NamedMembers
import Roster.Proofs.OrderedMembers
import Roster.Proofs.Requests
import Roster.Proofs.Tenancy
import Roster.Proofs.Frame
import Roster.Proofs.Values
import Roster.Proofs.NaturalKeys
import Roster.Proofs.UniqueAddresses
import Roster.Proofs.Upsert
import Roster.Proofs.Renumbering
import Roster.Proofs.Mirroring
import Roster.Proofs.MirroredRequests
import Roster.Proofs.Noninterference
import Roster.Proofs.Edits
import Roster.Proofs.WriteBack
import Roster.Proofs.Replay
import Roster.Proofs.Footprint
import Roster.Proofs.Commutation
import Roster.Proofs.RowOrder
import Roster.Proofs.Pages
import Roster.Proofs.StoredAnswers
import Roster.Proofs.RequiredAttributes
import Roster.Proofs.CustomAttributes
import Roster.Proofs.Configured
import Roster.Proofs.CheckedNames
import Roster.Proofs.ConfigurationErrors
import Roster.Proofs.Timestamps
import Roster.Proofs.Admission
import Roster.Proofs.Listeners
import Roster.Proofs.Reasons
import Roster.Proofs.Replacement
import Roster.Proofs.NewRows
import Roster.Proofs.Creation
import Roster.Proofs.FilterGrammar
import Roster.Proofs.Comparisons
import Roster.Proofs.ReadBack
import Roster.Proofs.SchemaPaths
import Roster.Proofs.TextReplacement
import Roster.Proofs.BracketPaths
import Roster.Proofs.ListedMembers
import Roster.Proofs.FieldPlaces
import Roster.Proofs.AddressedParts
import Roster.Proofs.Numerals
import Roster.Proofs.Windows
import Roster.Proofs.MemberTexts
import Roster.Proofs.WrittenOrders
import Roster.Proofs.ProperValues
import Roster.Proofs.Sameness
import Roster.Proofs.DistinctIdentifiers
import Roster.Proofs.ShownFields
