import Formulary.Disk.Listing
import Formulary.Formula.Json
import Formulary.Main
import Formulary.Proofs.Cook.Steps
import Formulary.Proofs.Cook.Trail
import Formulary.Proofs.Disk.Table
import Formulary.Proofs.Disk.Walk
import Formulary.Proofs.Disk.Removal
import Formulary.Proofs.Disk.Clearing
import Formulary.Proofs.Cache.Retrieve
import Formulary.Proofs.Cook.Journal
import Formulary.Proofs.Cook.Order
import Formulary.Proofs.Installation
import Formulary.Proofs.Disk.Member
import Formulary.Proofs.Disk.Writing
import Formulary.Proofs.Text
import Formulary.Proofs.Checksum
import Formulary.Proofs.Path
import Formulary.Proofs.Cache.Store
import Formulary.Proofs.Cache.Contract
import Formulary.Proofs.Cache.Shared
import Formulary.Proofs.Cache.Others
import Formulary.Proofs.Archive.Tar
import Formulary.Proofs.Flags
import Formulary.Proofs.Bindings
import Formulary.Proofs.Cook.Context
import Formulary.Proofs.Depends
import Formulary.Proofs.Preflight
import Formulary.Proofs.Cook.Course
import Formulary.Proofs.Cook.Evidence
import Formulary.Proofs.Cook.Failures
import Formulary.Proofs.Cook.FirstSteps
import Formulary.Proofs.Cook.Foreseen
import Formulary.Proofs.Destination.Grammar
import Formulary.Proofs.Lifecycle.Moves
import Formulary.Proofs.Probe
import Formulary.Proofs.Disk.Filling
import Formulary.Proofs.Path.Exchange
import Formulary.Proofs.Disk.Exchange
import Formulary.Proofs.Disk.Mirrored
import Formulary.Proofs.Disk.Drawn
import Formulary.Proofs.Archive.Mirrored
import Formulary.Proofs.Installation.Remains
import Formulary.Proofs.Toml.Record
import Formulary.Proofs.Toml.Keys
import Formulary.Proofs.Settings
import Formulary.Proofs.CommandLine.Precedence
import Formulary.Proofs.Formula.Document
import Formulary.Proofs.Sandbox
import Formulary.Proofs.Cook.BuildDirectory
import Formulary.Proofs.Cook.Draws
import Formulary.Proofs.Payload
import Formulary.Proofs.Checksum.Spelling
import Formulary.Proofs.Variables.Resolution
import Formulary.Proofs.Procedure
import Formulary.Proofs.Installation.Delivery
import Formulary.Proofs.Cellar
import Formulary.Proofs.OsVersion.Spelling
import Formulary.Proofs.Depends.Decision
import Formulary.Proofs.Depends.Classification
import Formulary.Proofs.Host
import Formulary.Proofs.Variables.Toolchain
import Formulary.Proofs.Procedure.Attempts
import Formulary.Proofs.Text.Words
import Formulary.Proofs.Installation.Programs
import Formulary.Proofs.Cook.Base
import Formulary.Proofs.Path.Exchange
