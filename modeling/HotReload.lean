import HotReload.App.App
import HotReload.App.Clock
import HotReload.App.Run
import HotReload.Body.Fault
import HotReload.Body.Grammar
import HotReload.Body.Lexer
import HotReload.Body.Machine
import HotReload.Body.ParseFault
import HotReload.Body.Syntax
import HotReload.Body.Token
import HotReload.Body.Value
import HotReload.Main
import HotReload.Report.Diagnostic
import HotReload.Report.Log
import HotReload.Script.Context
import HotReload.Script.Event
import HotReload.Script.Extraction
import HotReload.Script.Group
import HotReload.Script.Registry
import HotReload.Script.Reload
import HotReload.Script.Script
import HotReload.Script.ScriptError
import HotReload.Script.Workspace
import HotReload.Settings.CommandLine
import HotReload.Settings.Document
import HotReload.Settings.Reader
import HotReload.Settings.Record
import HotReload.Settings.Settings
import HotReload.Storage.Change
import HotReload.Storage.Fault
import HotReload.Storage.Files
import HotReload.Storage.Path
import HotReload.Storage.Watch
import HotReload.Text.Blank
import HotReload.Text.Decimal
import HotReload.Text.Place
import HotReload.Text.Quoted
import HotReload.Types.Assembly
import HotReload.Types.Compiler
import HotReload.Types.Module
import HotReload.Unit.Declaration
import HotReload.Unit.Scan
import HotReload.World.Entity
import HotReload.World.Host
import HotReload.World.World
import HotReload.Proofs.World.Soundness
import HotReload.Proofs.World.Stage
import HotReload.Proofs.HostedScripts.Correspondence
import HotReload.Proofs.HostedScripts.Retention
import HotReload.Proofs.Script.Exactness
import HotReload.Proofs.Script.Polling
import HotReload.Proofs.Registry.Uses
import HotReload.Proofs.App.Respawn
import HotReload.Proofs.Script.Marking
import HotReload.Proofs.Types.Store
import HotReload.Proofs.Unit.Lexical
import HotReload.Proofs.Types.Report
import HotReload.Proofs.Script.Sparing
import HotReload.Proofs.Registry.HostedRegistry
import HotReload.Proofs.Script.Chronicle
import HotReload.Proofs.HostedScripts.Restart
import HotReload.Proofs.Script.Skipping
import HotReload.Proofs.Registry.RegistrySession
import HotReload.Proofs.Registry.Identities
import HotReload.Proofs.Storage.Canonical
import HotReload.Proofs.Registry.Spellings
import HotReload.Proofs.Script.Offering
import HotReload.Proofs.App.Arrivals
import HotReload.Proofs.HostedScripts.Tracking
import HotReload.Proofs.HostedScripts.SharedHost
import HotReload.Proofs.Registry.Rosters
import HotReload.Proofs.Registry.Oblivion
import HotReload.Proofs.App.Tidiness
import HotReload.Proofs.Types.Location
import HotReload.Proofs.Unit.Cutoff
import HotReload.Proofs.Script.Reporting
import HotReload.Proofs.Registry.Formation
import HotReload.Proofs.Registry.Dissolution
import HotReload.Proofs.Registry.Turns
import HotReload.Proofs.App.Service
import HotReload.Proofs.Body.Faults
import HotReload.Proofs.Body.Measure
import HotReload.Proofs.Body.Sufficiency
import HotReload.Proofs.World.Schedule
import HotReload.Proofs.Script.Agreement
import HotReload.Proofs.App.Lineup
import HotReload.Proofs.Script.Window
import HotReload.Proofs.Settings.Counts
import HotReload.Proofs.World.Bookkeeping
import HotReload.Proofs.Settings.Overrides
import HotReload.Proofs.Settings.Json
import HotReload.Proofs.Settings.Numerals
import HotReload.Proofs.Settings.Texts
import HotReload.Proofs.Settings.Parsing
import HotReload.Proofs.Settings.Overlay
import HotReload.Proofs.Settings.Restating
