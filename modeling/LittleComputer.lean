import LittleComputer.Assembler
import LittleComputer.Command.Definition
import LittleComputer.Command.Host
import LittleComputer.Command.Options
import LittleComputer.Command.Run
import LittleComputer.Encoding
import LittleComputer.Expression.Binary64
import LittleComputer.Expression.Bytes
import LittleComputer.Expression.Collection
import LittleComputer.Expression.Comparison
import LittleComputer.Expression.Dictionary
import LittleComputer.Expression.Evaluation
import LittleComputer.Expression.Grammar
import LittleComputer.Expression.Library
import LittleComputer.Expression.Memory
import LittleComputer.Expression.Names
import LittleComputer.Expression.NumberText
import LittleComputer.Expression.Operator
import LittleComputer.Expression.Statement
import LittleComputer.Expression.StringMethod
import LittleComputer.Expression.Template
import LittleComputer.Expression.Term
import LittleComputer.Expression.Token
import LittleComputer.Expression.Value
import LittleComputer.Expression.Written
import LittleComputer.Fault
import LittleComputer.Instruction
import LittleComputer.Layout.Locator
import LittleComputer.Layout.Locator64
import LittleComputer.Layout.Size
import LittleComputer.Layout.Survey
import LittleComputer.Layout.Walk
import LittleComputer.Main
import LittleComputer.Message
import LittleComputer.Mnemonic
import LittleComputer.Object.Image
import LittleComputer.Object.Memory
import LittleComputer.Object.Report
import LittleComputer.Operand.Field
import LittleComputer.Operand.Field64
import LittleComputer.Operand.Interpreter
import LittleComputer.Operand.Literal
import LittleComputer.Operand.Scope
import LittleComputer.Operand.StringLiteral
import LittleComputer.Program
import LittleComputer.Proofs.Expression.Meanings
import LittleComputer.Proofs.Interpreter
import LittleComputer.Proofs.Outcome
import LittleComputer.Proofs.Symbols
import LittleComputer.Source.Input
import LittleComputer.Source.Label
import LittleComputer.Source.Quoting
import LittleComputer.Source.Statement
import LittleComputer.Source.Word
import LittleComputer.Symbols
import LittleComputer.Text.Blank
import LittleComputer.Text.Category
import LittleComputer.Text.Glyph
import LittleComputer.Text.Graphic
import LittleComputer.Text.Letter
import LittleComputer.Text.Line
import LittleComputer.Text.Lower
import LittleComputer.Text.Numeral
import LittleComputer.Text.Quoted
import LittleComputer.Text.Upper
import LittleComputer.Proofs.Operand
import LittleComputer.Proofs.Label
import LittleComputer.Proofs.Step
import LittleComputer.Proofs.Walk
import LittleComputer.Proofs.Agreement
import LittleComputer.Proofs.Tiling
import LittleComputer.Proofs.LabelAddress
import LittleComputer.Proofs.Decoding
import LittleComputer.Proofs.InstructionTable
import LittleComputer.Proofs.Layout
import LittleComputer.Proofs.BranchTarget
import LittleComputer.Proofs.ObjectFile
import LittleComputer.Proofs.StringLine
import LittleComputer.Proofs.ImageSource
import LittleComputer.Proofs.WellFormed
import LittleComputer.Proofs.FaultLocation
import LittleComputer.Proofs.Relocation
import LittleComputer.Proofs.LetterCase
import LittleComputer.Proofs.Bytes
import LittleComputer.Proofs.Comment
import LittleComputer.Proofs.CommandEffect
import LittleComputer.Proofs.Renaming
import LittleComputer.Proofs.SizeBound
import LittleComputer.Proofs.StatementSize
import LittleComputer.Proofs.SymbolOffset
import LittleComputer.Proofs.NumberGrammar
import LittleComputer.Proofs.Expression.Arithmetic
import LittleComputer.Proofs.ExpressionOffset
import LittleComputer.Proofs.CellSearch
import LittleComputer.Proofs.AfterEnd
import LittleComputer.Proofs.LiteralRange
import LittleComputer.Proofs.Scan
import LittleComputer.Proofs.ImplicitLabel
import LittleComputer.Proofs.ByteLine
import LittleComputer.Proofs.LineEnding
import LittleComputer.Proofs.ObjectFormat
import LittleComputer.Proofs.Loading
import LittleComputer.Proofs.ByteOrder
import LittleComputer.Proofs.SymbolHistory
import LittleComputer.Proofs.Separator
import LittleComputer.Proofs.StringGrammar
import LittleComputer.Proofs.Definition
import LittleComputer.Proofs.LocatorBounds
import LittleComputer.Proofs.FieldPacking
