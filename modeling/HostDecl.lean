import HostDecl.Doc.Block
import HostDecl.Main
import HostDecl.Proofs.OverrideHistory
import HostDecl.Proofs.Reports
import HostDecl.Proofs.ArgumentLists
import HostDecl.Proofs.DescriptorValues
import HostDecl.Proofs.SharedLog
import HostDecl.Proofs.TypeCommand
import HostDecl.Version
import HostDecl.Proofs.CommentEnd
import HostDecl.Proofs.ApiTypes
import HostDecl.Proofs.JsonGrammar
import HostDecl.Proofs.DocumentEntries
import HostDecl.Proofs.FailedLookUps
import HostDecl.Proofs.IncludedDocument
import HostDecl.Proofs.PackageNames
import HostDecl.Proofs.SettingsArrays
import HostDecl.Proofs.CommentLines
import HostDecl.Proofs.DocumentNames
import HostDecl.Proofs.DescriptorFiles
import HostDecl.Proofs.FailedWrites
import HostDecl.Proofs.IssueLocations
import HostDecl.Proofs.FlattenedDocs
import HostDecl.Proofs.SummaryCounts
import HostDecl.Proofs.RecentEntries
import HostDecl.Proofs.PlainValues
import HostDecl.Proofs.ScopeSpellings
import HostDecl.Proofs.EntryKeys
import HostDecl.Proofs.SelectedChannel
import HostDecl.Proofs.EscapedNames
import HostDecl.Proofs.RecordedTypes
