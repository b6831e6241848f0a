import NewtonTLS.Reentrant
import NewtonTLS.ReentrantLogic
import NewtonTLS.BufferList
import NewtonTLS.Ledger
import NewtonTLS.Gregorian
import NewtonTLS.MachineInt
import NewtonTLS.ConnectionEndInterface
import NewtonTLS.ConnectionEnd
import NewtonTLS.ConnectionEndRuns
import NewtonTLS.ConnectionEndSetup
import NewtonTLS.ConnectionEndTraffic
import NewtonTLS.ConnectionEndRules
import NewtonTLS.ConnectionEndStreams
import NewtonTLS.DataPath
import NewtonTLS.HandshakeRequests
import NewtonTLS.HandshakeOutcome
import NewtonTLS.TrustAnchors
import NewtonTLS.SendStream
import NewtonTLS.ReceiveStream
import NewtonTLS.ReceiveNeed
import NewtonTLS.CompletionAttribution
import NewtonTLS.ConnectionEndChain
import NewtonTLS.Distrust
import NewtonTLS.CalendarTime
import NewtonTLS.CivilTime
import NewtonTLS.CertificateDates
import NewtonTLS.ClassRegistry
import NewtonTLS.ContextHandles
import NewtonTLS.EntropyStream
import NewtonTLS.ReadTermination
import NewtonTLS.EffectiveRoots
import NewtonTLS.ReceiveWakeUp
import NewtonTLS.OutstandingGet
import NewtonTLS.PlaintextStream
import NewtonTLS.OrderlyDisconnect
import NewtonTLS.SessionIsolation
import NewtonTLS.ResourceBalance
import NewtonTLS.RaisingCalls
import NewtonTLS.StoreCalls
import NewtonTLS.BoundedListing
import NewtonTLS.ListedNames
import NewtonTLS.ReentrantTriple
import NewtonTLS.LoadingRules
import NewtonTLS.ChangingStore
import NewtonTLS.StoreFailures
import NewtonTLS.FailedOptions
import NewtonTLS.OptionSequences
import NewtonTLS.CallersHeap
import NewtonTLS.HandshakeTimer
import NewtonTLS.Steps
import NewtonTLS.EntropySplit
import NewtonTLS.CollectionSchedule
import NewtonTLS.ClientWrites
import NewtonTLS.PeerCertificates
import NewtonTLS.RootLoading
import NewtonTLS.CertificateChain
import NewtonTLS.Ownership
import NewtonTLS.Bindings
import NewtonTLS.BindingRules
import NewtonTLS.HandleOwners
import NewtonTLS.BindingOutcomes
import NewtonTLS.HandleKinds
import NewtonTLS.Arm
import NewtonTLS.LongDivision
import NewtonTLS.DivisionText
import NewtonTLS.DivisionBlocks
import NewtonTLS.UnsignedDivision
import NewtonTLS.UnsignedRemainder
import NewtonTLS.SignedDivision
import NewtonTLS.DivisionRoutines
import NewtonTLS.PortCalls
import NewtonTLS.TaskCalls
import NewtonTLS.TaskCallRuns
import NewtonTLS.Output
import NewtonTLS.Printf
import NewtonTLS.PrintfText
import NewtonTLS.Reading
import NewtonTLS.PrintfFormats
import NewtonTLS.PrintfIntegers
import NewtonTLS.PrintfPrefixes
import NewtonTLS.Installation
import NewtonTLS.InterfaceObject
import NewtonTLS.GetCompletions
import NewtonTLS.Images
import NewtonTLS.ProtocolCalls
import NewtonTLS.ProtocolObjects
