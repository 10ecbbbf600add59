import EdgeScan.Address.Basic
import EdgeScan.Address.Block
import EdgeScan.Address.Numbers
import EdgeScan.Address.Parser
import EdgeScan.Address.Printer
import EdgeScan.Calendar
import EdgeScan.Candidates
import EdgeScan.Command.Arguments
import EdgeScan.Command.Basic
import EdgeScan.Command.Flag
import EdgeScan.Command.Help
import EdgeScan.Command.Options
import EdgeScan.Config
import EdgeScan.Credentials
import EdgeScan.Crypto.Base64
import EdgeScan.Crypto.Blake2s
import EdgeScan.Crypto.Bytes
import EdgeScan.Crypto.ChaCha20
import EdgeScan.Crypto.X25519
import EdgeScan.Decimal.Binary
import EdgeScan.Decimal.Fixed
import EdgeScan.Decimal.Shortest
import EdgeScan.Distinct
import EdgeScan.Duration
import EdgeScan.Error
import EdgeScan.Event
import EdgeScan.FileTree
import EdgeScan.Files
import EdgeScan.FullCycle
import EdgeScan.Handshake.Initiation
import EdgeScan.Handshake.Keys
import EdgeScan.Handshake.Responder
import EdgeScan.Handshake.Transcript
import EdgeScan.Icmp
import EdgeScan.Json.Fault
import EdgeScan.Json.Numbers
import EdgeScan.Json.Reader
import EdgeScan.Json.Strings
import EdgeScan.Json.Tree
import EdgeScan.Json.Values
import EdgeScan.Main
import EdgeScan.Measurement
import EdgeScan.Options.Assembly
import EdgeScan.Options.Basic
import EdgeScan.PortList
import EdgeScan.Program
import EdgeScan.Proofs.Address.Block
import EdgeScan.Proofs.Address.Parser
import EdgeScan.Proofs.Address.Printer
import EdgeScan.Proofs.Address.RoundTrip
import EdgeScan.Proofs.Candidates
import EdgeScan.Proofs.Crypto.ChaCha20
import EdgeScan.Proofs.Distinct
import EdgeScan.Proofs.FullCycle.CheckedSearch
import EdgeScan.Proofs.FullCycle.Choice
import EdgeScan.Proofs.FullCycle.Criterion
import EdgeScan.Proofs.FullCycle.Draws
import EdgeScan.Proofs.FullCycle.Period
import EdgeScan.Proofs.FullCycle.Radical
import EdgeScan.Proofs.FullCycle.TrialDivision
import EdgeScan.Proofs.Handshake.Agreement
import EdgeScan.Proofs.Handshake.Authenticity
import EdgeScan.Proofs.Icmp.Checksum
import EdgeScan.Proofs.Icmp.Echo
import EdgeScan.Proofs.Options.HostPorts
import EdgeScan.Proofs.Options.Merging
import EdgeScan.Proofs.Options.Ports
import EdgeScan.Proofs.Options.Precedence
import EdgeScan.Proofs.Options.Targets
import EdgeScan.Proofs.Options.UsablePorts
import EdgeScan.Proofs.PortList
import EdgeScan.Proofs.PortList.Grammar
import EdgeScan.Proofs.PortList.Reading
import EdgeScan.Proofs.Random
import EdgeScan.Proofs.Ranking
import EdgeScan.Proofs.Sampling.Blocks
import EdgeScan.Proofs.Sampling.Coverage
import EdgeScan.Proofs.Sampling.Exact
import EdgeScan.Proofs.Sampling.Segments
import EdgeScan.Proofs.Sampling.Units
import EdgeScan.Proofs.Sampling.Widths
import EdgeScan.Proofs.Scan.Bounded
import EdgeScan.Proofs.Scan.Cancellation
import EdgeScan.Proofs.Scan.Closing
import EdgeScan.Proofs.Scan.Completion
import EdgeScan.Proofs.Scan.Determinism
import EdgeScan.Proofs.Scan.EarlyStop
import EdgeScan.Proofs.Scan.Flow
import EdgeScan.Proofs.Scan.HandshakePorts
import EdgeScan.Proofs.Scan.Moves
import EdgeScan.Proofs.Scan.Pairs
import EdgeScan.Proofs.Scan.PortScan
import EdgeScan.Proofs.Scan.Progress
import EdgeScan.Proofs.Scan.Results
import EdgeScan.Proofs.Scan.Runs
import EdgeScan.Proofs.Scan.Statistics
import EdgeScan.Proofs.Scan.StepsLeft
import EdgeScan.Proofs.Scan.Timeline
import EdgeScan.Proofs.Scan.Traces
import EdgeScan.Proofs.Scan.Valuation
import EdgeScan.Proofs.Target.Endpoints
import EdgeScan.Proofs.Target.Hosts
import EdgeScan.Proofs.Target.Listing
import EdgeScan.Proofs.Text.Blank
import EdgeScan.Proofs.Text.Number
import EdgeScan.Proofs.Text.Numeral
import EdgeScan.Proofs.Text.Split
import EdgeScan.Proofs.Traversal
import EdgeScan.Random.Source
import EdgeScan.Random.Uniform
import EdgeScan.Ranking
import EdgeScan.Report
import EdgeScan.Resolver
import EdgeScan.Sampling
import EdgeScan.Scan.Behaviour
import EdgeScan.Scan.Ledger
import EdgeScan.Scan.Pipeline
import EdgeScan.Scan.Pool
import EdgeScan.Scan.PortScan
import EdgeScan.Scan.Scanner
import EdgeScan.Scan.Timeline
import EdgeScan.Setup
import EdgeScan.Target.Blocks
import EdgeScan.Target.Endpoints
import EdgeScan.Target.Hosts
import EdgeScan.Text.Blank
import EdgeScan.Text.Number
import EdgeScan.Text.Numeral
import EdgeScan.Text.Printable
import EdgeScan.Text.Quoted
import EdgeScan.Text.Split
