import UnitCache.Path.Components
import UnitCache.Text.Lines
import UnitCache.Flags
import UnitCache.Verbosity
import UnitCache.FileRole
import UnitCache.Buffer
import UnitCache.Log
import UnitCache.Disk.Basic
import UnitCache.Disk.Files
import UnitCache.Json.Token
import UnitCache.Json.Basic
import UnitCache.Json.Printer
import UnitCache.ShellWords
import UnitCache.IncludeFlag
import UnitCache.CommandDatabase.Arguments
import UnitCache.CommandDatabase.Basic
import UnitCache.Text.Printable
import UnitCache.Text.Quoted
import UnitCache.Include.Directive
import UnitCache.Include.SearchDirectories
import UnitCache.Engine.Basic
import UnitCache.Include.Closure
import UnitCache.Include.Engine
import UnitCache.Engine.Scripted
import UnitCache.Cache.Basic
import UnitCache.Cache.Teardown
import UnitCache.Cache.Update
import UnitCache.Cache.Request
import UnitCache.Collaborators
import UnitCache.Toml.Value
import UnitCache.Toml.Reader
import UnitCache.Config
import UnitCache.CommandLine.Arguments
import UnitCache.CommandLine.Project
import UnitCache.CommandLine.Report
import UnitCache.CommandLine.Run
import UnitCache.CommandLine.Snapshot
import UnitCache.Main
import UnitCache.Proofs.CanonicalPath
import UnitCache.Proofs.Journal
import UnitCache.Proofs.Refresh
import UnitCache.Proofs.RefreshEntries
import UnitCache.Proofs.Search
import UnitCache.Proofs.Runs
import UnitCache.Proofs.UnitLifecycle
import UnitCache.Proofs.Representation
import UnitCache.Proofs.RefreshJournal
import UnitCache.Proofs.StalenessPolicy
import UnitCache.Proofs.EngineCalls
import UnitCache.Proofs.HeaderResolution
import UnitCache.Proofs.Reachability
import UnitCache.Proofs.SearchFootprint
import UnitCache.Proofs.Outages
import UnitCache.Proofs.Provenance
import UnitCache.Proofs.Transparency
import UnitCache.Proofs.FreshEntries
import UnitCache.Proofs.IncludeArguments
import UnitCache.Proofs.Noninterference
import UnitCache.Proofs.ListedArguments
import UnitCache.Proofs.FirstCommands
import UnitCache.Proofs.Refusals
import UnitCache.Proofs.Spellings
import UnitCache.Proofs.Teardown
import UnitCache.Proofs.HiddenContents
import UnitCache.Proofs.BufferSpellings
import UnitCache.Proofs.LexicalPlace
import UnitCache.Proofs.ArgumentReading
import UnitCache.Proofs.SearchTurns
import UnitCache.Proofs.LookupReports
import UnitCache.Proofs.DirectiveLines
import UnitCache.Proofs.CommentRegions
import UnitCache.Proofs.LineChanges
import UnitCache.Proofs.DirectiveSearch
import UnitCache.Proofs.QuotedWords
import UnitCache.Proofs.History
import UnitCache.Proofs.BufferHistory
import UnitCache.Proofs.Rereading
import UnitCache.Proofs.UnitIdentity
import UnitCache.Proofs.EnsureRenew
import UnitCache.Proofs.SearchComposition
import UnitCache.Proofs.PathAncestors
import UnitCache.Proofs.NearestConfig
