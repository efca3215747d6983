import HapRust.Ble.Attempts
import HapRust.Ble.BroadcastValues
import HapRust.Ble.Fragments
import HapRust.Ble.Generation
import HapRust.Ble.Interrupted
import HapRust.Ble.ResponseReads
import HapRust.Ble.ScanGate
import HapRust.Ble.SleepyDelivery
import HapRust.Ble.SleepySealed
import HapRust.Ble.SleepyShared
import HapRust.Ble.StoredValues
import HapRust.Controller.ConfigRefresh
import HapRust.Controller.Discovery
import HapRust.Controller.Read
import HapRust.Controller.Reconnect
import HapRust.Controller.SetupCode
import HapRust.Controller.SleepyWatch
import HapRust.Controller.Snapshot
import HapRust.Controller.Stored
import HapRust.Controller.Subscriptions
import HapRust.Controller.WhenAdvertised
import HapRust.Crypto.Restart
import HapRust.Model.UuidForms
import HapRust.Pairing.DeviceIds
import HapRust.Pairing.Linearizable
import HapRust.Pairing.ListReply
import HapRust.Thread.EmptyAck
import HapRust.Thread.SessionChannels
import HapRust.Thread.SignatureAgreement
import HapRust.ThreadDut.BlockTransfer
import HapRust.ThreadDut.Commissioning
import HapRust.ThreadDut.EventDelivery
import HapRust.ThreadDut.PairingHistory
import HapRust.ThreadDut.Pushing
import HapRust.ThreadDut.Register
import HapRust.Tlv8.Acceptance
import HapRust.Transport.HttpChunks
import HapRust.Transport.HttpRender
import HapRust.Transport.ReaderTask
import HapRust.Transport.WireFrames
