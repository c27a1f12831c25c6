import FileShell.FileSystem.Inventory
import FileShell.FileSystem.Blueprint
import FileShell.Completion
import FileShell.LineSource.Editor
import FileShell.LineSource.History
import FileShell.Main
import FileShell.Proofs.CopyContents
import FileShell.Proofs.RemoveCommand
import FileShell.Proofs.PathNames
import FileShell.Proofs.WordSpelling
import FileShell.Proofs.ReachableFiles
import FileShell.Proofs.RefusedRemoval
import FileShell.Proofs.DirectoryListings
import FileShell.Proofs.FindingsOrder
import FileShell.Proofs.SearchExact
import FileShell.Proofs.CanonicalPaths
import FileShell.Proofs.Utf8Codec
import FileShell.Proofs.SessionDirectory
import FileShell.Proofs.RelativePaths
import FileShell.Proofs.LimitedOutput
import FileShell.Proofs.QuotedNames
import FileShell.Proofs.Utf8Strict
import FileShell.Proofs.CursorWords
import FileShell.Proofs.Completions
import FileShell.Proofs.KnownDirectory
import FileShell.Proofs.TextOrder
import FileShell.Proofs.AlikePaths
import FileShell.Proofs.CompletedWord
import FileShell.Proofs.HomePaths
import FileShell.Proofs.PathCandidates
import FileShell.Proofs.Utf8Ascii
import FileShell.Proofs.CalendarDates
import FileShell.Proofs.LinesOfBytes
import FileShell.Proofs.ListingRows
import FileShell.Proofs.ListCommand
import FileShell.Proofs.ListingOrder
import FileShell.Proofs.FlagGrammar
import FileShell.Proofs.MovedEntries
import FileShell.Proofs.ParentDirectory
import FileShell.Proofs.RepeatedCopy
import FileShell.Proofs.ModeNumerals
import FileShell.Proofs.BlamedOperand
import FileShell.Proofs.PermissionCalls
import FileShell.Proofs.ListedEntries
import FileShell.Proofs.HighlightedLines
