import LangBundle.EntryName
import LangBundle.Role
import LangBundle.Files.Access
import LangBundle.Process.Schedule
import LangBundle.Shell.Launch
import LangBundle.Stage.Run
import LangBundle.Pipeline
import LangBundle.Http.Server
import LangBundle.Http.ListenAddress
import LangBundle.CommandLine.Run
import LangBundle.Main
import LangBundle.Proofs.SoleTool
import LangBundle.Proofs.StageOrder
import LangBundle.Proofs.PathNames
import LangBundle.Proofs.TakingIn
import LangBundle.Proofs.CommandLines
import LangBundle.Proofs.ArchiveRoundTrip
import LangBundle.Proofs.Places
import LangBundle.Proofs.Resolving
import LangBundle.Proofs.Writing
import LangBundle.Proofs.SoundTrees
import LangBundle.Proofs.Confinement
import LangBundle.Proofs.TidyFiles
import LangBundle.Proofs.Contracts
import LangBundle.Proofs.WorkspaceUse
import LangBundle.Proofs.WorkspaceLifetime
import LangBundle.Proofs.Stocking
import LangBundle.Proofs.Reaching
import LangBundle.Proofs.Succeeding
import LangBundle.Proofs.Assembling
import LangBundle.Proofs.WritingTools
import LangBundle.Proofs.BundleContents
import LangBundle.Proofs.WorkingDirectories
import LangBundle.Proofs.Fencing
import LangBundle.Proofs.Cancellation
import LangBundle.Proofs.LocalViews
import LangBundle.Proofs.SideBySide
import LangBundle.Proofs.Ownership
import LangBundle.Proofs.IntakeHistory
import LangBundle.Proofs.FieldSequences
import LangBundle.Proofs.Answers
import LangBundle.Proofs.SameInputs
import LangBundle.Proofs.FrontEnds
import LangBundle.Proofs.Neighbours
import LangBundle.Proofs.FailedRemovals
import LangBundle.Proofs.BundleNames
import LangBundle.Proofs.ClosingBoundaries
import LangBundle.Proofs.ArrivingUploads
import LangBundle.Proofs.DeclaredNames
import LangBundle.Proofs.Abreast
import LangBundle.Proofs.ManyBuilds
import LangBundle.Proofs.HeldStreams
import LangBundle.Proofs.LeftProcesses
import LangBundle.Proofs.StageDiagnostics
import LangBundle.Proofs.NameSearch
import LangBundle.Proofs.Delivering
import LangBundle.Proofs.Touching
import LangBundle.Proofs.AssemblyFaults
import LangBundle.Proofs.CompleteOutput
import LangBundle.Proofs.BareNames
import LangBundle.Proofs.DeclaredSizes
import LangBundle.Proofs.ListenAddresses
import LangBundle.Proofs.CopiedBundles
import LangBundle.Proofs.ModuleStems
