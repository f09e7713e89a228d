import SqlFragments.Main
import SqlFragments.Value.Wire
import SqlFragments.Proofs.Balance
import SqlFragments.Proofs.QuotedName
import SqlFragments.Proofs.Simulation
import SqlFragments.Proofs.Remembering
import SqlFragments.Proofs.Parts
import SqlFragments.Proofs.Spelling
import SqlFragments.Proofs.PredicateAlignment
import SqlFragments.Proofs.Building
import SqlFragments.Proofs.SelectAlignment
import SqlFragments.Proofs.InsertAlignment
import SqlFragments.Proofs.UpdateAlignment
import SqlFragments.Proofs.WritingAlignment
import SqlFragments.Proofs.CompiledAlignment
import SqlFragments.Proofs.Forms
import SqlFragments.Proofs.Numbering
import SqlFragments.Proofs.GrammarHistory
import SqlFragments.Proofs.Exchange
import SqlFragments.Proofs.ExchangedText
import SqlFragments.Proofs.ValueIndependence
import SqlFragments.Proofs.Keeping
import SqlFragments.Proofs.Sessions
import SqlFragments.Proofs.Phases
import SqlFragments.Proofs.Configuration
import SqlFragments.Proofs.CarriedOperators
import SqlFragments.Proofs.Evaluations
import SqlFragments.Proofs.Calls
import SqlFragments.Proofs.Mistakes
import SqlFragments.Proofs.Freshness
import SqlFragments.Proofs.Wrapping
import SqlFragments.Proofs.PageText
import SqlFragments.Proofs.Pages
import SqlFragments.Proofs.Rows
import SqlFragments.Proofs.InsertedRows
import SqlFragments.Proofs.PageForms
import SqlFragments.Proofs.FilledLists
import SqlFragments.Proofs.Lexing
import SqlFragments.Proofs.WrittenNames
import SqlFragments.Proofs.PlaceholderOffsets
import SqlFragments.Proofs.JsonPaths
import SqlFragments.Proofs.JsonUpdates
import SqlFragments.Proofs.Markings
import SqlFragments.Proofs.Brackets
import SqlFragments.Proofs.VersionOrder
import SqlFragments.Proofs.VersionText
import SqlFragments.Proofs.WholeNumbers
import SqlFragments.Proofs.PageRouting
import SqlFragments.Proofs.UnionLayout
import SqlFragments.Proofs.OptionSpellings
import SqlFragments.Proofs.Templates
import SqlFragments.Proofs.Checkups
