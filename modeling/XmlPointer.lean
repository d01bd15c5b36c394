import XmlPointer.Binary64.Basic
import XmlPointer.Binary64.Shortest
import XmlPointer.Binary64.Text
import XmlPointer.Binary64.Arith
import XmlPointer.Text.Blank
import XmlPointer.Text.Name
import XmlPointer.Text.Utf8
import XmlPointer.Text.Entity
import XmlPointer.Path.Number
import XmlPointer.Markup.Fault
import XmlPointer.Markup.Scan
import XmlPointer.Markup.Token
import XmlPointer.Markup.Attribute
import XmlPointer.Markup.Dtd
import XmlPointer.Markup.Event
import XmlPointer.Document.Basic
import XmlPointer.Document.Scope
import XmlPointer.Document.Error
import XmlPointer.Document.Lines
import XmlPointer.Document.Build
import XmlPointer.Document.Printer
import XmlPointer.Document.Cursor
import XmlPointer.Document.StringPool
import XmlPointer.Stream.Token
import XmlPointer.Stream.NodeReader
import XmlPointer.Path.Token
import XmlPointer.Path.Error
import XmlPointer.Path.Lexer
import XmlPointer.Path.Expr
import XmlPointer.Path.Parser
import XmlPointer.Text.Search
import XmlPointer.Path.Bindings
import XmlPointer.Path.NodeSet
import XmlPointer.Path.Value
import XmlPointer.Path.Axis
import XmlPointer.Path.Function
import XmlPointer.Path.Eval
import XmlPointer.Path.Compile
import XmlPointer.Pointer.Error
import XmlPointer.Pointer.Lexer
import XmlPointer.Pointer.Part
import XmlPointer.Pointer.Parser
import XmlPointer.Pointer.Eval
import XmlPointer.Location.Percent
import XmlPointer.Unicode.Packed
import XmlPointer.Unicode.CombiningClass
import XmlPointer.Unicode.Decomposition
import XmlPointer.Unicode.Normalization
import XmlPointer.Unicode.Bidi
import XmlPointer.Unicode.Joining
import XmlPointer.Unicode.Mark
import XmlPointer.Location.DomainMap
import XmlPointer.Location.Punycode
import XmlPointer.Location.Domain
import XmlPointer.Location.Host
import XmlPointer.Location.Url
import XmlPointer.Location.Identifier
import XmlPointer.Stream.Cache
import XmlPointer.Stream.FileStore
import XmlPointer.Stream.Source
import XmlPointer.Stream.Reader
import XmlPointer.Stream.Session
import XmlPointer.Proofs.Tree
import XmlPointer.Proofs.Build
import XmlPointer.Proofs.NestingDepth
import XmlPointer.Proofs.CompileCorrect
import XmlPointer.Proofs.PointerSelection
import XmlPointer.Proofs.IntegerFloats
import XmlPointer.Proofs.PathParsing
import XmlPointer.Proofs.ElementPaths
import XmlPointer.Proofs.ElementPointer
import XmlPointer.Proofs.NodeStream
import XmlPointer.Proofs.PointerStream
import XmlPointer.Proofs.Namespaces
import XmlPointer.Proofs.Fragments
import XmlPointer.Proofs.ReaderRestart
import XmlPointer.Proofs.PointerLexing
import XmlPointer.Proofs.PointerGrammar
import XmlPointer.Proofs.PointerParse
import XmlPointer.Proofs.PointerDisplay
import XmlPointer.Proofs.StrictParse
import XmlPointer.Proofs.ScopeHistory
import XmlPointer.Proofs.IdIndex
import XmlPointer.Proofs.Axes
import XmlPointer.Proofs.PathGrammar
import XmlPointer.Proofs.PathParseSound
import XmlPointer.Proofs.PathParseComplete
import XmlPointer.Proofs.DocumentOrder
import XmlPointer.Proofs.Comparison
import XmlPointer.Proofs.PathLexing
import XmlPointer.Proofs.Utf8Units
import XmlPointer.Proofs.TokenOffsets
import XmlPointer.Proofs.LinePositions
import XmlPointer.Proofs.References
import XmlPointer.Proofs.Escaping
import XmlPointer.Proofs.Interning
import XmlPointer.Proofs.InternalSubset
import XmlPointer.Proofs.PointerNumerals
import XmlPointer.Proofs.SubtreeCursors
import XmlPointer.Proofs.DocumentCaches
import XmlPointer.Proofs.StringFunctions
import XmlPointer.Proofs.TokenTiling
import XmlPointer.Proofs.PointerOffsets
