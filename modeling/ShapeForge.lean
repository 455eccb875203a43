import ShapeForge.Assoc
import ShapeForge.Context.Basic
import ShapeForge.Context.Reader
import ShapeForge.Emission.Artifact
import ShapeForge.Emission.Constant
import ShapeForge.Emission.Docstring
import ShapeForge.Emission.Generator
import ShapeForge.Emission.InstanceDsl
import ShapeForge.Emission.Interface
import ShapeForge.Emission.Names
import ShapeForge.Emission.Package
import ShapeForge.Emission.Source
import ShapeForge.Emission.Validation
import ShapeForge.Emission.Wrapper
import ShapeForge.Instance.Builder
import ShapeForge.Instance.Workbench
import ShapeForge.Json.Basic
import ShapeForge.Json.Printer
import ShapeForge.Json.Reader
import ShapeForge.Model.Basic
import ShapeForge.Model.Dictionary
import ShapeForge.Model.File
import ShapeForge.Model.Names
import ShapeForge.Model.Reader
import ShapeForge.Model.Resolution
import ShapeForge.Model.Typing
import ShapeForge.Naming.Allocator
import ShapeForge.Naming.Identifier
import ShapeForge.Naming.Words
import ShapeForge.Notice
import ShapeForge.Number.Bound
import ShapeForge.Number.Decimal
import ShapeForge.Number.Double
import ShapeForge.Number.Numeral
import ShapeForge.Number.Shortest
import ShapeForge.Options
import ShapeForge.Package.Basic
import ShapeForge.Package.Loading
import ShapeForge.Package.Routine
import ShapeForge.Pattern.Basic
import ShapeForge.Pattern.Matcher
import ShapeForge.Pattern.Reader
import ShapeForge.Playground
import ShapeForge.Rdf.Collection
import ShapeForge.Rdf.Format
import ShapeForge.Rdf.Graph
import ShapeForge.Rdf.Iri
import ShapeForge.Rdf.Literal
import ShapeForge.Rdf.NTriples
import ShapeForge.Rdf.Term
import ShapeForge.Rdf.Turtle.Document
import ShapeForge.Rdf.Turtle.Token
import ShapeForge.Rdf.Vocabulary
import ShapeForge.Report
import ShapeForge.Session.Basic
import ShapeForge.Session.Building
import ShapeForge.Session.Reading
import ShapeForge.Session.Wrapping
import ShapeForge.Shape.Basic
import ShapeForge.Shape.Dictionary
import ShapeForge.Shape.Extraction
import ShapeForge.Shape.Order
import ShapeForge.Text.Blank
import ShapeForge.Text.Case
import ShapeForge.Text.CharClass
import ShapeForge.Text.Code
import ShapeForge.Text.Keyword
import ShapeForge.Text.Quoted
import ShapeForge.Text.Segments
import ShapeForge.Validation.Dictionary
import ShapeForge.Validation.Rule
import ShapeForge.Value.Basic
import ShapeForge.Value.Scalar
import ShapeForge.Wrapper.Handle
import ShapeForge.Wrapper.Interface
import ShapeForge.Wrapper.Registry
import ShapeForge.Proofs.Allocator
import ShapeForge.Proofs.ClassNames
import ShapeForge.Proofs.Resolution
import ShapeForge.Proofs.NamePools
import ShapeForge.Proofs.ValidationNames
import ShapeForge.Proofs.Members
import ShapeForge.Proofs.Inheritance
import ShapeForge.Proofs.Marks
import ShapeForge.Proofs.Hierarchy
import ShapeForge.Proofs.Predicates
import ShapeForge.Proofs.ClassOrder
import ShapeForge.Proofs.LookupOrder
import ShapeForge.Proofs.Objects
import ShapeForge.Proofs.Conformance
import ShapeForge.Proofs.Actions
import ShapeForge.Proofs.Declarations
import ShapeForge.Proofs.Setters
import ShapeForge.Proofs.Accessors
import ShapeForge.Proofs.Numerals
import ShapeForge.Proofs.RoundTrip
import ShapeForge.Proofs.Substitutability
import ShapeForge.Proofs.DslNames
import ShapeForge.Proofs.Imports
import ShapeForge.Proofs.Rounding
import ShapeForge.Proofs.ShortestDecimals
import ShapeForge.Proofs.DoubleTexts
import ShapeForge.Proofs.Extraction
import ShapeForge.Proofs.IntegerBounds
import ShapeForge.Proofs.FirstOccurrences
import ShapeForge.Proofs.ReportedClasses
import ShapeForge.Proofs.SharedScope
import ShapeForge.Proofs.TextConstants
import ShapeForge.Proofs.WordNames
import ShapeForge.Proofs.SourceNumbers
import ShapeForge.Proofs.Expressions
import ShapeForge.Proofs.SourceLines
import ShapeForge.Proofs.EmittedTexts
import ShapeForge.Proofs.RuleValues
import ShapeForge.Proofs.LexicalForms
import ShapeForge.Proofs.ViolationReports
import ShapeForge.Proofs.EnumerationOrder
import ShapeForge.Proofs.Republication
import ShapeForge.Proofs.ReadingFaults
import ShapeForge.Proofs.PlaygroundAnswers
import ShapeForge.Proofs.RefusedValues
import ShapeForge.Proofs.DoubleLiterals
import ShapeForge.Proofs.CanonicalForms
import ShapeForge.Proofs.FallbackTexts
import ShapeForge.Proofs.Collections
import ShapeForge.Proofs.DocumentErrors
import ShapeForge.Proofs.TargetedShapes
import ShapeForge.Proofs.Extras
import ShapeForge.Proofs.FieldOrder
import ShapeForge.Proofs.ContextEntries
import ShapeForge.Proofs.ContextOrder
import ShapeForge.Proofs.Expansion
import ShapeForge.Proofs.ClaimedNames
import ShapeForge.Proofs.ClassBodies
import ShapeForge.Proofs.DocumentationBlocks
import ShapeForge.Proofs.EmittedDocumentation
import ShapeForge.Proofs.NamingRuns
import ShapeForge.Proofs.PropertyOrder
