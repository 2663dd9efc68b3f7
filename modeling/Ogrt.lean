import Ogrt.Lib.BigEndian
import Ogrt.Lib.ByteBuffer
import Ogrt.Lib.StepSystem
import Ogrt.Protocol
import Ogrt.Server.ReceiveLoop
import Ogrt.Client.SendBuffer
import Ogrt.Framing
import Ogrt.Server.ReceiveIsolation
import Ogrt.Server.SharedBuffer
import Ogrt.Lib.CleanPath
import Ogrt.Lib.JsonText
import Ogrt.Lib.JsonValue
import Ogrt.Lib.Utf8
import Ogrt.Output.JobFiles
import Ogrt.Output.JsonFileHistory
import Ogrt.Output.JsonFileWorkers
import Ogrt.Server.Dispatch
import Ogrt.Server.FanOut
import Ogrt.Server.SharedMessage
import Ogrt.Server.Starvation
import Ogrt.Client.InitHook
import Ogrt.Client.InitHookSafety
import Ogrt.Client.KeptSignature
import Ogrt.Client.NoteLayout
import Ogrt.Client.NoteWalk
import Ogrt.Client.ReadInfo
import Ogrt.Client.ReaderAgreement
import Ogrt.Client.Watermark
import Ogrt.Output.AcceptedMessages
import Ogrt.Server.Shutdown
import Ogrt.Client.CommandLine
import Ogrt.Client.ConfiguredLists
import Ogrt.Client.CountedNotes
import Ogrt.Client.HookCalls
import Ogrt.Client.HookDecision
import Ogrt.Client.HookRuns
import Ogrt.Client.LinkerWrapper
import Ogrt.Client.LoadedModules
import Ogrt.Client.ReportedObjects
import Ogrt.Client.SendResult
import Ogrt.Client.WhitelistedEnvironment
import Ogrt.Client.CmdlineParser
import Ogrt.Client.CmdlineReading
import Ogrt.Client.CmdlineRefinement
import Ogrt.Client.OgrtCli
import Ogrt.Lib.ProtoWire
import Ogrt.Service.Delivered
import Ogrt.Service.StoredReports
import Ogrt.Client.HookLeaks
import Ogrt.Service.StreamedReports
import Ogrt.Service.SignedPrograms
