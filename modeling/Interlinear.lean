import Interlinear.Gloss.Printer
import Interlinear.Lexicon.Index
import Interlinear.Morphology.Config
import Interlinear.Translation.Translator
import Interlinear.Document.Render
import Interlinear.Generator.Basic
import Interlinear.Generator.Twister
import Interlinear.Project.Settings
import Interlinear.Command.Run
import Interlinear.Command.Printing
import Interlinear.Main
import Interlinear.Proofs.Dictionary
import Interlinear.Proofs.Gloss.Grammar
import Interlinear.Proofs.Gloss.Reading
import Interlinear.Proofs.Gloss.RoundTrip
import Interlinear.Proofs.Gloss.Completion
import Interlinear.Proofs.Gloss.Lookahead
import Interlinear.Proofs.Translation.Calls
import Interlinear.Proofs.Translation.Reachability
import Interlinear.Proofs.Translation.Plain
import Interlinear.Proofs.Translation.Relevance
import Interlinear.Proofs.Morphology.Configured
import Interlinear.Proofs.Translation.DepthLimit
import Interlinear.Proofs.Translation.Flattening
import Interlinear.Proofs.Translation.Expansion
import Interlinear.Proofs.Translation.Failure
import Interlinear.Proofs.Lexicon.TableText
import Interlinear.Proofs.Lexicon.Decoding
import Interlinear.Proofs.Document.Layout
import Interlinear.Proofs.Document.Rewriting
import Interlinear.Proofs.Yaml.Display
import Interlinear.Proofs.Morphology.Offences
import Interlinear.Proofs.Morphology.Reports
import Interlinear.Proofs.Morphology.Bindings
import Interlinear.Proofs.Command.Endings
import Interlinear.Proofs.Numeral.Digits
import Interlinear.Proofs.Yaml.Keys
import Interlinear.Proofs.Yaml.NamedTokens
import Interlinear.Proofs.Yaml.Values
import Interlinear.Proofs.Yaml.NamedNodes
import Interlinear.Proofs.Morphology.Names
import Interlinear.Proofs.Gloss.Merging
import Interlinear.Proofs.Lexicon.Lines
import Interlinear.Proofs.Lexicon.Blocks
import Interlinear.Proofs.Lexicon.Faults
import Interlinear.Proofs.Lexicon.UserColumns
import Interlinear.Proofs.Translation.Termination
import Interlinear.Proofs.Pattern.Leftmost
import Interlinear.Proofs.Morphology.Nesting
import Interlinear.Proofs.Morphology.Acceptance
import Interlinear.Proofs.Morphology.Places
import Interlinear.Proofs.Translation.Seams
import Interlinear.Proofs.Document.Pieces
import Interlinear.Proofs.Generator.Choice
import Interlinear.Proofs.Generator.Derivations
import Interlinear.Proofs.Generator.Draws
import Interlinear.Proofs.Generator.Language
import Interlinear.Proofs.Generator.Gaps
import Interlinear.Proofs.Generator.Tokens
import Interlinear.Proofs.Generator.Reading
import Interlinear.Proofs.Generator.Shares
import Interlinear.Proofs.Lexicon.Overrides
import Interlinear.Proofs.Pattern.Cursors
import Interlinear.Proofs.Pattern.TemplateGrammar
import Interlinear.Proofs.Translation.Sources
import Interlinear.Proofs.Generator.Faults
import Interlinear.Proofs.Command.Sequences
import Interlinear.Proofs.Command.Outputs
import Interlinear.Proofs.Command.Printing
import Interlinear.Proofs.Command.Exits
