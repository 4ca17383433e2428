import ProxyPlan.Audit.Report
import ProxyPlan.Client.Compile
import ProxyPlan.Compile.Basic
import ProxyPlan.Pattern.Reader
import ProxyPlan.Project.Basic
import ProxyPlan.Proofs.Accounts
import ProxyPlan.Proofs.Admission
import ProxyPlan.Proofs.Assembled
import ProxyPlan.Proofs.Audit
import ProxyPlan.Proofs.BlamedNode
import ProxyPlan.Proofs.Chains
import ProxyPlan.Proofs.Choices
import ProxyPlan.Proofs.ClientDocuments
import ProxyPlan.Proofs.CodecLaw
import ProxyPlan.Proofs.Collapse
import ProxyPlan.Proofs.Collisions
import ProxyPlan.Proofs.Dangling
import ProxyPlan.Proofs.Decider
import ProxyPlan.Proofs.Decoration
import ProxyPlan.Proofs.DefaultFirst
import ProxyPlan.Proofs.DirectRules
import ProxyPlan.Proofs.DocumentFormat
import ProxyPlan.Proofs.DomainLabels
import ProxyPlan.Proofs.Draft
import ProxyPlan.Proofs.EdgeBalancers
import ProxyPlan.Proofs.Endpoints
import ProxyPlan.Proofs.Faithful
import ProxyPlan.Proofs.FileNames
import ProxyPlan.Proofs.FirstRule
import ProxyPlan.Proofs.Forecast
import ProxyPlan.Proofs.FreshTags
import ProxyPlan.Proofs.Graph
import ProxyPlan.Proofs.Grid
import ProxyPlan.Proofs.Groups
import ProxyPlan.Proofs.Growth
import ProxyPlan.Proofs.Hop
import ProxyPlan.Proofs.Index
import ProxyPlan.Proofs.Layers
import ProxyPlan.Proofs.LiftedRules
import ProxyPlan.Proofs.ListedInbounds
import ProxyPlan.Proofs.Locality
import ProxyPlan.Proofs.Loops
import ProxyPlan.Proofs.MadeUpNames
import ProxyPlan.Proofs.NormalDocument
import ProxyPlan.Proofs.Partition
import ProxyPlan.Proofs.Placement
import ProxyPlan.Proofs.PortLists
import ProxyPlan.Proofs.PredicateOrder
import ProxyPlan.Proofs.Priority
import ProxyPlan.Proofs.Progress
import ProxyPlan.Proofs.Reach
import ProxyPlan.Proofs.Reimport
import ProxyPlan.Proofs.ReopenedProject
import ProxyPlan.Proofs.Reordering
import ProxyPlan.Proofs.RoundTrip
import ProxyPlan.Proofs.Rounding
import ProxyPlan.Proofs.RuleListing
import ProxyPlan.Proofs.RuleMeaning
import ProxyPlan.Proofs.RuleOrder
import ProxyPlan.Proofs.Rules
import ProxyPlan.Proofs.ScanEffect
import ProxyPlan.Proofs.ScannedParts
import ProxyPlan.Proofs.Selectors
import ProxyPlan.Proofs.SettledReading
import ProxyPlan.Proofs.StreamForms
import ProxyPlan.Proofs.Streams
import ProxyPlan.Proofs.TaggedLaw
import ProxyPlan.Proofs.TakeOver
import ProxyPlan.Proofs.Text
import ProxyPlan.Proofs.TopologyFormat
import ProxyPlan.Proofs.Vocabulary
import ProxyPlan.Proofs.Walk
import ProxyPlan.Proofs.WalkedEdges
import ProxyPlan.Proofs.WellLinked
import ProxyPlan.Proofs.WholeNumber
import ProxyPlan.Proofs.WrittenDocument
import ProxyPlan.Proofs.WrittenFiles
import ProxyPlan.Proofs.WrittenNumber
import ProxyPlan.Proofs.WrittenText
import ProxyPlan.Topology.Reading
import ProxyPlan.Trace.Walk
