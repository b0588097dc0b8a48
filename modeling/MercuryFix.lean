import MercuryFix.BatchWrites
import MercuryFix.BeginStringSearch
import MercuryFix.Brackets
import MercuryFix.ByteOrder
import MercuryFix.CommandLine
import MercuryFix.CompletionInPlace
import MercuryFix.ComposerMemory
import MercuryFix.ComposerRuns
import MercuryFix.ConfigBuffer
import MercuryFix.ConfigErrors
import MercuryFix.ConfigFiles
import MercuryFix.ConfigItemize
import MercuryFix.ConfigLines
import MercuryFix.ConfigSafety
import MercuryFix.ConfigSyntax
import MercuryFix.DecimalScans
import MercuryFix.DelimitedSearch
import MercuryFix.DisruptorRegistration
import MercuryFix.DisruptorSafety
import MercuryFix.FailedPushes
import MercuryFix.FieldBounds
import MercuryFix.FieldTraversal
import MercuryFix.FloatCodec
import MercuryFix.FoxtrotLine
import MercuryFix.FuelledLoops
import MercuryFix.GapFills
import MercuryFix.GuardedPops
import MercuryFix.IpcFraming
import MercuryFix.IpcLeaks
import MercuryFix.IpcWidths
import MercuryFix.MarshalWhitespace
import MercuryFix.MessageHandout
import MercuryFix.NetworkEndpoints
import MercuryFix.NumberReadings
import MercuryFix.NumberTexts
import MercuryFix.OptionLookup
import MercuryFix.OutgoingDelivery
import MercuryFix.PartialWrites
import MercuryFix.PopperBinding
import MercuryFix.PreparedStatements
import MercuryFix.PusherNumbers
import MercuryFix.ResendDatabase
import MercuryFix.ResendRequests
import MercuryFix.RestartMatching
import MercuryFix.RuleCriteria
import MercuryFix.RuleExpressions
import MercuryFix.RuleMeaning
import MercuryFix.RuleSets
import MercuryFix.RuleSkips
import MercuryFix.RuleTermination
import MercuryFix.SenderReceiverRoundTrip
import MercuryFix.SendingTimeUpdate
import MercuryFix.SessionTransport
import MercuryFix.SplitterAllocations
import MercuryFix.SplitterDatabase
import MercuryFix.SplitterRecovery
import MercuryFix.StandardTags
import MercuryFix.StoredRows
import MercuryFix.TagTypes
import MercuryFix.TimeToLive
import MercuryFix.UnmarshalBounds
import MercuryFix.VerbatimDelivery
