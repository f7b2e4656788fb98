import Ferusa.Lib.Prog
import Ferusa.Lib.RelyGuarantee
import Ferusa.Lib.Pool
import Ferusa.Core.Auth
import Ferusa.Core.Crypto
import Ferusa.Phone.Store
import Ferusa.Phone.StoreStep
import Ferusa.Phone.StoreSpec
import Ferusa.Lib.Sequence
import Ferusa.Lib.Hosting
import Ferusa.Phone.Integrity
import Ferusa.Phone.StoreRuns
import Ferusa.Core.Payload
import Ferusa.Desktop.Twofa
import Ferusa.Joint.Approval
import Ferusa.Desktop.Files
import Ferusa.Core.Program
import Ferusa.Desktop.Paths
import Ferusa.Desktop.PathsStep
import Ferusa.Desktop.PathsSpec
import Ferusa.Desktop.Pair
import Ferusa.Desktop.Commands
import Ferusa.Desktop.Logic
import Ferusa.Desktop.PairSpec
import Ferusa.Desktop.CommandsSpec
import Ferusa.Desktop.Runs
import Ferusa.Desktop.SessionRuns
import Ferusa.Desktop.CrashRuns
import Ferusa.Lib.Framing
import Ferusa.Joint.Framing
import Ferusa.Desktop.History
import Ferusa.Desktop.HistoryRules
import Ferusa.Desktop.HistorySpec
import Ferusa.Desktop.HistoryCommands
import Ferusa.Desktop.HistoryRuns
import Ferusa.Desktop.Saving
import Ferusa.Lib.Threads
import Ferusa.Phone.App
import Ferusa.Phone.AppState
import Ferusa.Phone.Locking
import Ferusa.Phone.Pin
import Ferusa.Phone.Requests
import Ferusa.Phone.Serve
import Ferusa.Phone.Commands
import Ferusa.Phone.Process
import Ferusa.Phone.Parts
import Ferusa.Phone.Cooldown
import Ferusa.Desktop.Repl
import Ferusa.Desktop.Editing
import Ferusa.Desktop.Clipboard
import Ferusa.Desktop.SessionApproval
import Ferusa.Desktop.Delivery
import Ferusa.Desktop.Rotation
import Ferusa.Phone.Replay
import Ferusa.Phone.Expiry
import Ferusa.Phone.Tracking
import Ferusa.Phone.TrackingSpec
import Ferusa.Phone.Tracked
import Ferusa.Phone.Release
import Ferusa.Phone.AdmittedOnce
import Ferusa.Lib.Tally
import Ferusa.Phone.Sources
import Ferusa.Lib.BigEndian
import Ferusa.Phone.Keystore
import Ferusa.Desktop.Passwords
import Ferusa.Desktop.ClipboardTargets
import Ferusa.Desktop.PairingFiles
import Ferusa.Phone.PinGate
import Ferusa.Phone.Guessing
import Ferusa.Phone.Instances
import Ferusa.Phone.ApprovedOnce
import Ferusa.Phone.SlotKept
import Ferusa.Phone.Accepting
import Ferusa.Phone.Identity
import Ferusa.Phone.Entering
import Ferusa.Phone.Replacing
import Ferusa.Phone.Resuming
import Ferusa.Phone.Recording
import Ferusa.Desktop.Shell
import Ferusa.Desktop.Settings
import Ferusa.Desktop.Prompting
import Ferusa.Joint.Showing
