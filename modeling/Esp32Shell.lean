import Esp32Shell.Library.CText
import Esp32Shell.Library.GuardedChoice
import Esp32Shell.Shell.CommandCore
import Esp32Shell.Shell.CommandTable
import Esp32Shell.Shell.Routing
import Esp32Shell.Library.Feed
import Esp32Shell.Shell.Session
import Esp32Shell.Shell.Chunking
import Esp32Shell.Shell.LineDiscipline
import Esp32Shell.Library.Trace
import Esp32Shell.Shell.Overflow
import Esp32Shell.Arduino.RetryTiming
import Esp32Shell.Arduino.ConfigOutput
import Esp32Shell.Idf.CommandServices
import Esp32Shell.Shell.CommandLines
import Esp32Shell.Idf.FileCalls
import Esp32Shell.Idf.FileMap
import Esp32Shell.Idf.SshAuth
import Esp32Shell.Idf.WifiProfiles
import Esp32Shell.Arduino.LegacyProfile
import Esp32Shell.Handover.SshCredentials
import Esp32Shell.Handover.WifiProfiles
import Esp32Shell.Arduino.Rotation
import Esp32Shell.Arduino.UnfinishedAttempts
import Esp32Shell.Idf.FileConfinement
import Esp32Shell.Idf.AppRuntime
import Esp32Shell.Library.Ownership
import Esp32Shell.Idf.AppRegistry
import Esp32Shell.Idf.SignedApps
import Esp32Shell.Idf.AppStart
import Esp32Shell.Arduino.BoundedAttempts
import Esp32Shell.Arduino.LiveAssociation
import Esp32Shell.Idf.Failover
import Esp32Shell.Idf.WifiStatus
import Esp32Shell.Idf.SshTransport
import Esp32Shell.Arduino.SerialLoop
import Esp32Shell.Arduino.Truncation
import Esp32Shell.Handover.Provisioning
import Esp32Shell.Idf.ConfigOutput
import Esp32Shell.Idf.ConfigTruth
import Esp32Shell.Idf.ConfigClear
import Esp32Shell.Arduino.OtaService
import Esp32Shell.Library.Table
import Esp32Shell.Arduino.Supervisor
import Esp32Shell.Library.Ring
import Esp32Shell.Arduino.DeviceToolbox
import Esp32Shell.Idf.LogBuffer
import Esp32Shell.Arduino.AppCommands
import Esp32Shell.Idf.AtomicWrite
import Esp32Shell.Idf.ProfileWrites
import Esp32Shell.Idf.Heartbeat
import Esp32Shell.Handover.HostKey
import Esp32Shell.Library.Intervals
import Esp32Shell.Tools.ValidatePartitions
import Esp32Shell.Arduino.FileRemoval
import Esp32Shell.Idf.DescriptorCheck
import Esp32Shell.Idf.BundleNames
import Esp32Shell.Shell.LineMemory
import Esp32Shell.Library.Ledger
import Esp32Shell.Library.Precedence
import Esp32Shell.Idf.SshServer
import Esp32Shell.Idf.SshResources
import Esp32Shell.Idf.SshAccess
import Esp32Shell.Idf.SshSessions
import Esp32Shell.Library.Scan
import Esp32Shell.Idf.Firmware
import Esp32Shell.Idf.LineFrame
import Esp32Shell.Idf.SshLifetime
import Esp32Shell.Idf.LogInterleavings
import Esp32Shell.Shell.Twins
import Esp32Shell.Storage.VeiledFlash
import Esp32Shell.Idf.Secrecy
import Esp32Shell.Arduino.Sketch
import Esp32Shell.Arduino.Secrecy
import Esp32Shell.Arduino.FileMap
import Esp32Shell.Handover.Files
import Esp32Shell.Library.Terminal
import Esp32Shell.Shell.Screen
import Esp32Shell.Arduino.ConsoleStore
import Esp32Shell.Handover.Onboarding
import Esp32Shell.Idf.SshProgress
import Esp32Shell.Handover.Pins
import Esp32Shell.Arduino.SshSession
