import ScriptedModel.Files.Disk
import ScriptedModel.Http.Server
import ScriptedModel.Main
import ScriptedModel.Stream.Channel
import ScriptedModel.Proofs.Http.Echo
import ScriptedModel.Proofs.Script.Window
import ScriptedModel.Proofs.Stream.Lifecycle
import ScriptedModel.Proofs.Client.Message
import ScriptedModel.Proofs.Client.Ending
import ScriptedModel.Proofs.Stream.Storage
import ScriptedModel.Proofs.Client.Mention
import ScriptedModel.Proofs.Client.Assembly
import ScriptedModel.Proofs.Script.Composition
import ScriptedModel.Proofs.Script.Image
import ScriptedModel.Proofs.Http.Recall
import ScriptedModel.Proofs.Http.Keys
import ScriptedModel.Proofs.Stream.Departure
import ScriptedModel.Proofs.Client.Sharing
import ScriptedModel.Proofs.Script.Grammar
import ScriptedModel.Proofs.Script.Account
import ScriptedModel.Proofs.Client.Documents
import ScriptedModel.Proofs.Stream.Pace
import ScriptedModel.Proofs.Script.Place
import ScriptedModel.Proofs.Http.Prompts
import ScriptedModel.Proofs.Stream.Notice
import ScriptedModel.Proofs.Stream.ChunkSize
import ScriptedModel.Proofs.Script.Magnitude
import ScriptedModel.Proofs.Http.Admission
import ScriptedModel.Proofs.Http.Naming
import ScriptedModel.Proofs.Http.Returning
import ScriptedModel.Proofs.Config.Saving
import ScriptedModel.Proofs.Config.Binding
import ScriptedModel.Proofs.CommandLine.Listing
