import UiCatalog.Main
import UiCatalog.Proofs.Lifecycle
import UiCatalog.Proofs.Stream
import UiCatalog.Proofs.Sessions
import UiCatalog.Proofs.Properties
import UiCatalog.Proofs.DemoMerge
import UiCatalog.Proofs.DemoGaps
import UiCatalog.Proofs.Precedence
import UiCatalog.Proofs.ParameterDefaults
import UiCatalog.Proofs.Blanks
import UiCatalog.Proofs.Nesting
import UiCatalog.Proofs.Places
import UiCatalog.Proofs.Matching
import UiCatalog.Proofs.ObjectText
import UiCatalog.Proofs.VariantText
import UiCatalog.Proofs.VariantBindings
import UiCatalog.Proofs.VariantRoundTrip
import UiCatalog.Proofs.Comments
import UiCatalog.Proofs.CommentedConfig
import UiCatalog.Proofs.IgnoredComments
import UiCatalog.Proofs.Declarations
import UiCatalog.Proofs.AttachedComment
import UiCatalog.Proofs.ExportedComponents
import UiCatalog.Proofs.FieldTags
import UiCatalog.Proofs.DocCommentText
import UiCatalog.Proofs.JsonGrammar
import UiCatalog.Proofs.Nearest
import UiCatalog.Proofs.NumberText
import UiCatalog.Proofs.JsonText
import UiCatalog.Proofs.JsonOrder
import UiCatalog.Proofs.Meaning
import UiCatalog.Proofs.CatalogText
import UiCatalog.Proofs.CatalogViews
import UiCatalog.Proofs.LoadOnce
import UiCatalog.Proofs.RecordFields
import UiCatalog.Proofs.SnippetOrder
import UiCatalog.Proofs.MessageGrammar
import UiCatalog.Proofs.Answering
import UiCatalog.Proofs.ToolAnswers
import UiCatalog.Proofs.ReplyText
import UiCatalog.Proofs.Walks
import UiCatalog.Proofs.Gathering
import UiCatalog.Proofs.Reachable
import UiCatalog.Proofs.Writing
import UiCatalog.Proofs.Rebuild
import UiCatalog.Proofs.CodeText
import UiCatalog.Proofs.ParameterText
import UiCatalog.Proofs.Elements
import UiCatalog.Proofs.CodeElements
import UiCatalog.Proofs.ExampleList
import UiCatalog.Proofs.TemplateText
import UiCatalog.Proofs.Sections
import UiCatalog.Proofs.ExampleTitles
import UiCatalog.Proofs.Locality
import UiCatalog.Proofs.ElementAttributes
import UiCatalog.Proofs.MarkupText
import UiCatalog.Proofs.TableElements
import UiCatalog.Proofs.PropsSection
import UiCatalog.Proofs.TableBars
import UiCatalog.Proofs.ImportStatements
import UiCatalog.Proofs.BracketDepth
import UiCatalog.Proofs.Searching
import UiCatalog.Proofs.CategoryOrder
import UiCatalog.Proofs.SnippetText
import UiCatalog.Proofs.Indentation
import UiCatalog.Proofs.ByteSlices
