import BitPark.TimePeriod
import BitPark.Rounding
import BitPark.Tariff
import BitPark.RuleTable
import BitPark.DivideTime
import BitPark.ParkingTimes
import BitPark.ChargeByTime
import BitPark.BillSound
import BitPark.EffectiveTime
import BitPark.BillingTime
import BitPark.DayFee
import BitPark.FeeMonotone
import BitPark.Effect
import BitPark.Fallible
import BitPark.Json
import BitPark.Server
import BitPark.Database
import BitPark.Devices
import BitPark.Gate
import BitPark.Charging
import BitPark.Settlement
import BitPark.Members
import BitPark.Release
import BitPark.Requests
import BitPark.ClientRequest
import BitPark.Changes
import BitPark.Retention
import BitPark.ServerRun
import BitPark.History
import BitPark.Checkout
import BitPark.StoredValue
import BitPark.Balance
import BitPark.DeviceTable
import BitPark.Decimal
import BitPark.Ipnc
import BitPark.SessionLock
import BitPark.Classification
import BitPark.Search
import BitPark.Multipart
import BitPark.Paths
import BitPark.PictureFiles
import BitPark.Storage
import BitPark.DeviceMessage
import BitPark.Passage
import BitPark.DetectRow
import BitPark.DeviceReport
import BitPark.TurnBack
import BitPark.Housekeeping
import BitPark.Voucher
import BitPark.Connections
import BitPark.SqlText
import BitPark.Statements
import BitPark.PeriodFees
import BitPark.Carry
import BitPark.FreeMinutes
import BitPark.ExactTime
import BitPark.RoundedTime
import BitPark.Discount
import BitPark.RuleQueries
import BitPark.MemberCharge
import BitPark.ReportedCharge
import BitPark.VehicleType
import BitPark.Interrupted
import BitPark.Significant
import BitPark.FloatText
import BitPark.RemainMoney
import BitPark.StatementRecords
import BitPark.MaxElement
import BitPark.Pairing
import BitPark.Waiting
import BitPark.WaitingTime
import BitPark.ParkingNumbers
import BitPark.LiveDevice
import BitPark.OneConnection
import BitPark.PassNotice
import BitPark.Shift
import BitPark.LikePattern
import BitPark.FuzzyMatch
import BitPark.EditDistance
import BitPark.MatchScore
import BitPark.StableSort
import BitPark.Stepwise
import BitPark.ParkingVehicles
import BitPark.Indexing
import BitPark.IndexSafety
import BitPark.PictureUrl
import BitPark.Orphans
import BitPark.Threshold
import BitPark.Calendar
import BitPark.PassTime
import BitPark.DeviceCodec
import BitPark.Presence
import BitPark.Authority
import BitPark.Sessions
import BitPark.JsonText
import BitPark.JsonWriters
import BitPark.JsonTokens
import BitPark.JsonLayout
import BitPark.JsonRoundTrip
import BitPark.JsonReading
import BitPark.JsonAccepted
import BitPark.LedTimers
import BitPark.Conversation
import BitPark.JsonWire
import BitPark.ReportText
import BitPark.SelfDelimiting
import BitPark.CommandStream
import BitPark.DeviceRequests
