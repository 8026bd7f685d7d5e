import DaygleDns.AddressFacts
import DaygleDns.AddressText
import DaygleDns.Addresses
import DaygleDns.Ai.ClassifyAll
import DaygleDns.Ai.EffectiveMode
import DaygleDns.Ai.LatestSettings
import DaygleDns.Ai.RelabelRuns
import DaygleDns.Ai.Scanner
import DaygleDns.Ai.Scanning
import DaygleDns.Authoritative.AccountGroups
import DaygleDns.Authoritative.Accounts
import DaygleDns.Authoritative.Alias
import DaygleDns.Authoritative.AutoPtr
import DaygleDns.Authoritative.CatalogKept
import DaygleDns.Authoritative.CatalogMembers
import DaygleDns.Authoritative.CatalogWakeUps
import DaygleDns.Authoritative.CatalogZone
import DaygleDns.Authoritative.CompleteTransfers
import DaygleDns.Authoritative.Dnssec
import DaygleDns.Authoritative.Failover
import DaygleDns.Authoritative.HealthChecks
import DaygleDns.Authoritative.LastNs
import DaygleDns.Authoritative.MailboxNames
import DaygleDns.Authoritative.NameFacts
import DaygleDns.Authoritative.Names
import DaygleDns.Authoritative.OwnerNames
import DaygleDns.Authoritative.PublishedCatalog
import DaygleDns.Authoritative.ReceivedTransfers
import DaygleDns.Authoritative.RelayedZones
import DaygleDns.Authoritative.ReverseNames
import DaygleDns.Authoritative.ReverseRuns
import DaygleDns.Authoritative.ReverseSteps
import DaygleDns.Authoritative.ReverseSync
import DaygleDns.Authoritative.ReverseZones
import DaygleDns.Authoritative.RolloverFacts
import DaygleDns.Authoritative.RolloverRuns
import DaygleDns.Authoritative.RolloverSerial
import DaygleDns.Authoritative.RootAnswer
import DaygleDns.Authoritative.RootCopies
import DaygleDns.Authoritative.RootServer
import DaygleDns.Authoritative.RootZone
import DaygleDns.Authoritative.Rpz
import DaygleDns.Authoritative.RpzAddresses
import DaygleDns.Authoritative.RpzCompile
import DaygleDns.Authoritative.RpzOrder
import DaygleDns.Authoritative.RpzSpellings
import DaygleDns.Authoritative.Secondary
import DaygleDns.Authoritative.SecondaryRetry
import DaygleDns.Authoritative.SerialRuns
import DaygleDns.Authoritative.SignedStreams
import DaygleDns.Authoritative.SplitHorizon
import DaygleDns.Authoritative.SplitHorizonLookup
import DaygleDns.Authoritative.SplitHorizonOrder
import DaygleDns.Authoritative.Store
import DaygleDns.Authoritative.StoreFacts
import DaygleDns.Authoritative.StoredData
import DaygleDns.Authoritative.StoredTransfers
import DaygleDns.Authoritative.Transfer
import DaygleDns.Authoritative.TransferFacts
import DaygleDns.Authoritative.TransferServer
import DaygleDns.Authoritative.Tsig
import DaygleDns.Authoritative.TsigBindings
import DaygleDns.Authoritative.TsigKeys
import DaygleDns.Authoritative.Update
import DaygleDns.Authoritative.UpdateOrder
import DaygleDns.Authoritative.WeightedChoice
import DaygleDns.Authoritative.ZoneFile
import DaygleDns.Authoritative.ZoneFileFacts
import DaygleDns.Authoritative.ZoneFileLines
import DaygleDns.Authoritative.ZoneFileRecords
import DaygleDns.Authoritative.ZoneFileRoundTrip
import DaygleDns.Authoritative.ZonemdCoverage
import DaygleDns.Canonical
import DaygleDns.CanonicalNames
import DaygleDns.Chunks
import DaygleDns.Console.ForwardedClients
import DaygleDns.Console.LastAdmin
import DaygleDns.Console.LoginRuns
import DaygleDns.Console.LoginThrottle
import DaygleDns.Console.RevokedAccess
import DaygleDns.Console.Sessions
import DaygleDns.Console.TwoFactor
import DaygleDns.Console.TwoFactorRuns
import DaygleDns.Console.UserRequests
import DaygleDns.Console.Users
import DaygleDns.Core.FixedWindows
import DaygleDns.Core.QueryStats
import DaygleDns.Core.QueryTotals
import DaygleDns.Core.RateLimit
import DaygleDns.Core.ResponseRateLimit
import DaygleDns.Core.RrlAccounts
import DaygleDns.Core.RrlCredit
import DaygleDns.Core.RrlForgiveness
import DaygleDns.Core.RrlSweep
import DaygleDns.Dhcp.Carried
import DaygleDns.Dhcp.Changes
import DaygleDns.Dhcp.Ddns
import DaygleDns.Dhcp.DdnsFacts
import DaygleDns.Dhcp.DdnsTasks
import DaygleDns.Dhcp.Held
import DaygleDns.Dhcp.LeaseFacts
import DaygleDns.Dhcp.LeaseNames
import DaygleDns.Dhcp.Leases
import DaygleDns.Dhcp.SavedLeases
import DaygleDns.Dhcp.Scope
import DaygleDns.Dhcp.Service
import DaygleDns.Dhcp.ServiceSteps
import DaygleDns.Dhcp.V4
import DaygleDns.Dhcp.V4Exclusive
import DaygleDns.Dhcp.V4Facts
import DaygleDns.Dhcp.V4OneLease
import DaygleDns.Dhcp.V6
import DaygleDns.Dhcp.V6Exclusive
import DaygleDns.Dhcp.V6Facts
import DaygleDns.Dhcp.V6Search
import DaygleDns.Dispatch.ChainOrder
import DaygleDns.Dispatch.ClientSlots
import DaygleDns.Dispatch.ConfiguredZones
import DaygleDns.Dispatch.Dns64
import DaygleDns.Dispatch.EmptyZones
import DaygleDns.Dispatch.ProxyProtocol
import DaygleDns.Dispatch.QueryDbLog
import DaygleDns.Dispatch.RecursiveAdmission
import DaygleDns.Dispatch.RecursiveAnswer
import DaygleDns.Dispatch.ResponseFilter
import DaygleDns.Dispatch.SynthesizedAnswers
import DaygleDns.DottedText
import DaygleDns.EditScript
import DaygleDns.Fallible
import DaygleDns.Framing
import DaygleDns.Grouping
import DaygleDns.Hysteresis
import DaygleDns.KeyedMap
import DaygleDns.LastMax
import DaygleDns.Numerals
import DaygleDns.Obligations
import DaygleDns.OrderedTable
import DaygleDns.Policy.Blocklist
import DaygleDns.Policy.BlocklistSources
import DaygleDns.Policy.Engine
import DaygleDns.Policy.Explained
import DaygleDns.Policy.FeedReaders
import DaygleDns.Policy.FeedVerdicts
import DaygleDns.Policy.GroupClients
import DaygleDns.Policy.Groups
import DaygleDns.Policy.LookupCache
import DaygleDns.Policy.LookupRuns
import DaygleDns.Policy.NegativeEntries
import DaygleDns.Policy.PublishedLists
import DaygleDns.Policy.RpzFeed
import DaygleDns.Policy.SafeBrowsing
import DaygleDns.Promises
import DaygleDns.Quoting
import DaygleDns.Reading
import DaygleDns.Recursive.AssistFacts
import DaygleDns.Recursive.CacheAssist
import DaygleDns.Recursive.CachePersist
import DaygleDns.Recursive.DeepestZone
import DaygleDns.Recursive.Flush
import DaygleDns.Recursive.LabelRouting
import DaygleDns.Recursive.LabelledNames
import DaygleDns.Recursive.Lookups
import DaygleDns.Recursive.PrefetchEpoch
import DaygleDns.Recursive.Restarts
import DaygleDns.Recursive.RestoredEntries
import DaygleDns.Recursive.RouteScopes
import DaygleDns.Recursive.Routing
import DaygleDns.Recursive.StaleAnswers
import DaygleDns.Recursive.UpstreamEntries
import DaygleDns.Recursive.UpstreamForms
import DaygleDns.Recursive.Upstreams
import DaygleDns.Settings.NetworkLists
import DaygleDns.Settings.NetworkNames
import DaygleDns.Settings.NetworkSaves
import DaygleDns.Settings.RejectedSaves
import DaygleDns.Settings.Reload
import DaygleDns.Settings.ReloadedSettings
import DaygleDns.Settings.RestartedSettings
import DaygleDns.Settings.RuntimeSettings
import DaygleDns.Settings.SaveSections
import DaygleDns.Settings.SavedNetworks
import DaygleDns.Settings.UpdateSettings
import DaygleDns.Table
import DaygleDns.Tallies
import DaygleDns.Tasks
import DaygleDns.Templates
import DaygleDns.TextFacts
import DaygleDns.Utf8
import DaygleDns.Writes
