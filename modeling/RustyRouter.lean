import RustyRouter.Transition
import RustyRouter.Precedence
import RustyRouter.Backoff
import RustyRouter.OnesComplement
import RustyRouter.Bits.Runs
import RustyRouter.Store.HashMap
import RustyRouter.Store.Expiring
import RustyRouter.Text.Separated
import RustyRouter.Text.Division
import RustyRouter.Text.Lines
import RustyRouter.Text.Words
import RustyRouter.Leasing
import RustyRouter.Net.Address
import RustyRouter.Net.Block
import RustyRouter.Net.Dhcp
import RustyRouter.Net.Frame
import RustyRouter.Net.RoundTrip
import RustyRouter.Net.RawPacket
import RustyRouter.Lan.LeaseTable
import RustyRouter.Lan.Server
import RustyRouter.Lan.Runs
import RustyRouter.Lan.Exclusive
import RustyRouter.Lan.Index
import RustyRouter.Lan.Pool
import RustyRouter.Lan.Offer
import RustyRouter.Lan.Renewal
import RustyRouter.Lan.Allocation
import RustyRouter.Lan.Incoming
import RustyRouter.Lan.Isolation
import RustyRouter.Lan.Acknowledged
import RustyRouter.Lan.Setting
import RustyRouter.Lan.Service
import RustyRouter.Wan.Messages
import RustyRouter.Wan.Client
import RustyRouter.Wan.Interface
import RustyRouter.Wan.Masks
import RustyRouter.Wan.Moves
import RustyRouter.Wan.Configured
import RustyRouter.Wan.Advertised
import RustyRouter.Wan.LeaseTime
import RustyRouter.Wan.Requesting
import RustyRouter.Wan.Rounds
import RustyRouter.Wan.Unanswered
import RustyRouter.Wan.Progress
import RustyRouter.Wan.Dialogue
import RustyRouter.Wan.Addresses
import RustyRouter.Exchange
import RustyRouter.Transactions
import RustyRouter.Lan.OnWire
import RustyRouter.Segment
import RustyRouter.Dns.Message
import RustyRouter.Dns.Forwarder
import RustyRouter.Dns.Steps
import RustyRouter.Dns.Cache
import RustyRouter.Dns.Moves
import RustyRouter.Dns.Turns
import RustyRouter.Dns.Registry
import RustyRouter.Dns.Pending
import RustyRouter.Dns.Cleanup
import RustyRouter.Dns.Provenance
import RustyRouter.Dns.Acting
import RustyRouter.Dns.Replies
import RustyRouter.Dns.Transparency
import RustyRouter.Dns.CacheKey
import RustyRouter.Dns.Pairing
import RustyRouter.Dns.Spoof
import RustyRouter.Dns.Upstream
import RustyRouter.Dns.Freshness
import RustyRouter.Dns.Deadline
import RustyRouter.Services
import RustyRouter.Sntp
import RustyRouter.Netfilter.Rules
import RustyRouter.Netfilter.Firewall
import RustyRouter.Netfilter.Ruleset
import RustyRouter.Kmod.Files
import RustyRouter.Kmod.Alias
import RustyRouter.Kmod.Loader
import RustyRouter.Kmod.LoadOrder
import RustyRouter.Kmod.Modprobe
import RustyRouter.Init.Lifecycle
import RustyRouter.Init.Reaping
import RustyRouter.Init.Shutdown
import RustyRouter.Init.Config
import RustyRouter.Init.Boot
