import Innit.Lib.Prog
import Innit.Lib.Acyclic
import Innit.Lib.Run
import Innit.Lib.Windows
import Innit.Lib.LexicalPath
import Innit.Lib.Wire
import Innit.Lib.DepthFirst
import Innit.Lib.Frame
import Innit.Lib.CString
import Innit.Lib.Trim
import Innit.Lib.Fgets
import Innit.Lib.Access
import Innit.Text
import Innit.PersistentProperties
import Innit.Policy
import Innit.PolicyLoad
import Innit.Keyword
import Innit.Action
import Innit.ActionManager
import Innit.Service
import Innit.System
import Innit.SharedState
import Innit.Subcontext
import Innit.SubcontextProto
import Innit.PropertyService
import Innit.Reboot
import Innit.Descriptors
import Innit.ServiceOps
import Innit.ServiceList
import Innit.Tokenizer
import Innit.TokenizerBuffer
import Innit.Parser
import Innit.ServiceParser
import Innit.RcParser
import Innit.BootScripts
import Innit.BuiltinArgs
import Innit.Builtins
import Innit.Init
import Innit.ServiceRuns
import Innit.UserspaceReboot
import Innit.MainLoop
import Innit.DoReboot
import Innit.RebootUtils
import Innit.PropertyFiles
import Innit.Keychords
import Innit.Lmkd
import Innit.MountHandler
import Innit.FirmwareHandlers
import Innit.Uevent
import Innit.MenuConfig
import Innit.Lemmas.Calls
import Innit.Lemmas.Services
import Innit.Lemmas.Reap
import Innit.Lemmas.Members
import Innit.Lemmas.Writes
import Innit.Lemmas.Changes
import Innit.Lemmas.OptionWrites
import Innit.Lemmas.Parsing
import Innit.Lemmas.Simulation
import Innit.Lemmas.Imports
import Innit.Lemmas.Loading
import Innit.Lemmas.Sections
import Innit.Lemmas.Commands
import Innit.Lemmas.Steps
import Innit.Lemmas.Builtins
import Innit.Lemmas.Alike
import Innit.Lemmas.AlikeWorlds
import Innit.Lemmas.Powerctl
import Innit.Theorems.PolicyMeaning
import Innit.Theorems.ServiceState
import Innit.Theorems.FailurePolicy
import Innit.Theorems.RequestedStops
import Innit.Theorems.ExecWait
import Innit.Theorems.ExecGate
import Innit.Theorems.CommandGate
import Innit.Theorems.ActionOrder
import Innit.Theorems.RcGate
import Innit.Theorems.RcSpelling
import Innit.Theorems.DeniedServices
import Innit.Theorems.ManagerState
import Innit.Theorems.SectionProtocol
import Innit.Theorems.LinesHanded
import Innit.Theorems.QuotedLines
import Innit.Theorems.InPlaceTokens
import Innit.Theorems.PhysicalLines
import Innit.Theorems.PropsExpanded
import Innit.Theorems.ExecArguments
import Innit.Lemmas.Numerals
import Innit.Theorems.NumericIds
import Innit.Theorems.ChmodModes
import Innit.Theorems.TriggerGrammar
import Innit.Theorems.FatalRebootTarget
import Innit.Theorems.PersistentWrites
import Innit.Theorems.PropertyStore
import Innit.Theorems.ControlMessages
import Innit.Theorems.PropertyWait
import Innit.Theorems.TriggerHandOff
import Innit.Theorems.ShutdownCritical
import Innit.Theorems.ShutdownOrder
import Innit.Theorems.ShutdownRequests
import Innit.Theorems.MessagesOff
import Innit.Theorems.GlobLanguage
import Innit.Theorems.SubcontextReplies
import Innit.Theorems.TimerWakeups
import Innit.Theorems.ArgsExpanded
import Innit.Theorems.BuiltinIsolation
import Innit.Theorems.TriggerCounts
import Innit.Theorems.LoadingEnds
import Innit.Theorems.ServiceLookup
import Innit.Theorems.ImportOrder
import Innit.Theorems.ProcessesTracked
import Innit.Theorems.VerifierOrder
import Innit.Theorems.FailureRestart
import Innit.Theorems.FailureRules
import Innit.Theorems.PublishedState
import Innit.Theorems.PostDataRounds
import Innit.Theorems.DelayedStarts
import Innit.Theorems.CrashWindow
import Innit.Theorems.FailedOptions
import Innit.Theorems.OverrideInterfaces
import Innit.Theorems.KeptDisabled
import Innit.Theorems.DeadlineBounds
import Innit.Theorems.DescriptorNames
import Innit.Theorems.PropertyNames
import Innit.Theorems.UeventFields
import Innit.Theorems.MemoryLimit
import Innit.Theorems.GroupLimits
import Innit.Theorems.LoadedProperties
import Innit.Theorems.KeyChords
import Innit.Theorems.LmkdRegistrations
import Innit.Theorems.MountProperties
import Innit.Theorems.FirmwareDuplicates
import Innit.Theorems.EmptyArguments
import Innit.Theorems.MenuConfigRoundTrip
import Innit.Lib.PathNames
import Innit.Lib.Ownership
import Innit.Lib.Contract
import Innit.Devices
import Innit.Lemmas.DeviceSteps
import Innit.Theorems.DeviceLinks
import Innit.Theorems.DeviceCredentials
import Innit.UeventdParser
import Innit.Lemmas.LineCallbacks
import Innit.Theorems.UeventdRules
import Innit.UeventListener
import Innit.Theorems.RegeneratedUevents
import Innit.Lib.Shares
import Innit.ColdBoot
import Innit.Theorems.ColdBootShares
import Innit.Lib.Transcript
import Innit.FirmwareLoading
import Innit.Theorems.FirmwareAnswers
import Innit.PropertySocket
import Innit.Lemmas.SocketReading
import Innit.Lemmas.SocketConnections
import Innit.Theorems.SocketRequests
import Innit.Lib.WriteOnce
import Innit.BootProperties
import Innit.Lemmas.PropertyRules
import Innit.Theorems.PropertyPrecedence
import Innit.Theorems.BootPropertyFiles
