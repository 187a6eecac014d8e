import Keyfile.Command.Arguments
import Keyfile.Command.Execution
import Keyfile.Command.Invocation
import Keyfile.Command.Listing
import Keyfile.Command.Word
import Keyfile.Configuration.Basic
import Keyfile.Configuration.Context
import Keyfile.Configuration.Reference
import Keyfile.Configuration.Saved
import Keyfile.Configuration.Surroundings
import Keyfile.Directive.Block
import Keyfile.Directive.Pass
import Keyfile.Directive.Statement
import Keyfile.Directive.Word
import Keyfile.File.Path
import Keyfile.File.Replacement
import Keyfile.File.Tree
import Keyfile.Journal
import Keyfile.Key
import Keyfile.LoadError
import Keyfile.Log.Configuration
import Keyfile.Log.Delivery
import Keyfile.Log.Level
import Keyfile.Log.Logger
import Keyfile.Log.Stream
import Keyfile.Log.Timestamp
import Keyfile.Main
import Keyfile.Number.Binary64
import Keyfile.Number.Decimal
import Keyfile.Number.Integer
import Keyfile.Number.Shortest
import Keyfile.Proofs.AutoIndexing
import Keyfile.Proofs.Backups
import Keyfile.Proofs.BlockLengths
import Keyfile.Proofs.BlockStructure
import Keyfile.Proofs.Built
import Keyfile.Proofs.CacheFallback
import Keyfile.Proofs.Caching
import Keyfile.Proofs.CaseFolding
import Keyfile.Proofs.CommandFiles
import Keyfile.Proofs.Concatenation
import Keyfile.Proofs.ContextAgreement
import Keyfile.Proofs.ContextHistory
import Keyfile.Proofs.Denotation
import Keyfile.Proofs.DoubleReplacement
import Keyfile.Proofs.EditedDefinitions
import Keyfile.Proofs.EditedLines
import Keyfile.Proofs.Encodable
import Keyfile.Proofs.EncodedTexts
import Keyfile.Proofs.Entries
import Keyfile.Proofs.EntryOrder
import Keyfile.Proofs.ExactIntegers
import Keyfile.Proofs.ExitCodes
import Keyfile.Proofs.ExpansionDepth
import Keyfile.Proofs.FileOperations
import Keyfile.Proofs.InnermostBlock
import Keyfile.Proofs.Layers
import Keyfile.Proofs.LetterCase
import Keyfile.Proofs.Letters
import Keyfile.Proofs.LikeRuns
import Keyfile.Proofs.Likeness
import Keyfile.Proofs.LineBreaks
import Keyfile.Proofs.Loaded
import Keyfile.Proofs.LoadingInPlace
import Keyfile.Proofs.LogHistory
import Keyfile.Proofs.LogSetup
import Keyfile.Proofs.LoggedFiles
import Keyfile.Proofs.NestedSections
import Keyfile.Proofs.Nesting
import Keyfile.Proofs.Origins
import Keyfile.Proofs.Outcomes
import Keyfile.Proofs.Overriding
import Keyfile.Proofs.Parts
import Keyfile.Proofs.Piece
import Keyfile.Proofs.Readable
import Keyfile.Proofs.Recasing
import Keyfile.Proofs.ReferenceSpans
import Keyfile.Proofs.Reloading
import Keyfile.Proofs.RenderedLines
import Keyfile.Proofs.RepeatedEdits
import Keyfile.Proofs.ReplacedTrees
import Keyfile.Proofs.Replacing
import Keyfile.Proofs.Resolution
import Keyfile.Proofs.Results
import Keyfile.Proofs.Returning
import Keyfile.Proofs.Rewriting
import Keyfile.Proofs.RoundTrip
import Keyfile.Proofs.SavedFile
import Keyfile.Proofs.SavedForm
import Keyfile.Proofs.SavedLines
import Keyfile.Proofs.SectionFrames
import Keyfile.Proofs.SectionViews
import Keyfile.Proofs.SessionLoading
import Keyfile.Proofs.Simulation
import Keyfile.Proofs.Steps
import Keyfile.Proofs.StoreHistory
import Keyfile.Proofs.StraightNames
import Keyfile.Proofs.StructuralViews
import Keyfile.Proofs.Substitution
import Keyfile.Proofs.Tree
import Keyfile.Proofs.TreeNesting
import Keyfile.Proofs.TreePass
import Keyfile.Proofs.Trimming
import Keyfile.Proofs.TwoWorlds
import Keyfile.Proofs.TypedValues
import Keyfile.Proofs.Undisturbed
import Keyfile.Proofs.Unrecorded
import Keyfile.Proofs.UntakenBranches
import Keyfile.Proofs.Utf8
import Keyfile.Proofs.Views
import Keyfile.Proofs.Writing
import Keyfile.Proofs.WrittenAddresses
import Keyfile.Proofs.WrittenBindings
import Keyfile.Proofs.WrittenIdentifiers
import Keyfile.Proofs.WrittenNumbers
import Keyfile.Provider.Fetching
import Keyfile.Provider.Settings
import Keyfile.Record
import Keyfile.Reference.Expansion
import Keyfile.Reference.Form
import Keyfile.Reference.Source
import Keyfile.Session.Environment
import Keyfile.Session.Failure
import Keyfile.Session.Files
import Keyfile.Session.World
import Keyfile.Store
import Keyfile.Table
import Keyfile.Template.Definition
import Keyfile.Template.Installation
import Keyfile.Template.Line
import Keyfile.Template.Marker
import Keyfile.Template.Rendering
import Keyfile.Text.Basic
import Keyfile.Text.Blank
import Keyfile.Text.Case
import Keyfile.Text.CaseTable
import Keyfile.Text.Digit
import Keyfile.Text.Encoding
import Keyfile.Text.Hexadecimal
import Keyfile.Text.Lines
import Keyfile.Text.PrintableTable
import Keyfile.Text.Quoted
import Keyfile.Value.Address
import Keyfile.Value.Basic
import Keyfile.Value.Binding
import Keyfile.Value.Boolean
import Keyfile.Value.Catalogue
import Keyfile.Value.Custom
import Keyfile.Value.Duration
import Keyfile.Value.Enumeration
import Keyfile.Value.Error
import Keyfile.Value.Integer
import Keyfile.Value.Kind
import Keyfile.Value.Netmask
import Keyfile.Value.Octets
import Keyfile.Value.Uri
import Keyfile.Value.Uuid
