import FatVolume.Layout
import FatVolume.Bytes
import FatVolume.Text.Utf8
import FatVolume.Text.Fields
import FatVolume.Text.Numeral
import FatVolume.Text.Quoted
import FatVolume.Error
import FatVolume.Timestamp
import FatVolume.Tree.Record
import FatVolume.Tree.Path
import FatVolume.Disk.Image
import FatVolume.Disk.Superblock
import FatVolume.Allocation.FatEntry
import FatVolume.Program.Basic
import FatVolume.Program.Host
import FatVolume.Allocation.Chain
import FatVolume.Tree.Lookup
import FatVolume.Volume
import FatVolume.Check
import FatVolume.Session.Basic
import FatVolume.Session.Operation
import FatVolume.Shell.Basic
import FatVolume.Cli
import FatVolume.Main
import FatVolume.Proofs.CheckedHistories
import FatVolume.Proofs.TreeRefinement
import FatVolume.Proofs.Isolation
import FatVolume.Proofs.Contents
import FatVolume.Proofs.OpenPaths
import FatVolume.Proofs.DeviceCalls
import FatVolume.Proofs.HostFiles
import FatVolume.Proofs.ServingHosts
import FatVolume.Proofs.SessionCalls
import FatVolume.Proofs.Borrowing
import FatVolume.Proofs.RefusedReads
import FatVolume.Proofs.FailedOperations
import FatVolume.Proofs.Listing
import FatVolume.Proofs.Remounting
import FatVolume.Proofs.AgreeingChanges
import FatVolume.Proofs.AgreeingSessions
import FatVolume.Proofs.StaleData
import FatVolume.Proofs.Writing
import FatVolume.Proofs.Handles
import FatVolume.Proofs.ShellSessions
import FatVolume.Proofs.Faultless
import FatVolume.Proofs.ChainOperations
import FatVolume.Proofs.TypedContent
import FatVolume.Proofs.RetriedShutdown
import FatVolume.Proofs.LostCopies
import FatVolume.Proofs.FailedCreation
import FatVolume.Proofs.LostCursors
import FatVolume.Proofs.FailedWrites
import FatVolume.Proofs.GuardedCheck
import FatVolume.Proofs.EndingChecks
import FatVolume.Proofs.PathLaws
import FatVolume.Proofs.CanonicalFormat
import FatVolume.Proofs.ClosingOrder
import FatVolume.Proofs.BlankSlots
import FatVolume.Proofs.SpaceGivenBack
import FatVolume.Proofs.SuperblockEncoding
import FatVolume.Proofs.NameGrammar
import FatVolume.Proofs.RecordEncoding
import FatVolume.Proofs.Slicing
import FatVolume.Proofs.Walks
import FatVolume.Proofs.Mirroring
import FatVolume.Proofs.BusyPaths
