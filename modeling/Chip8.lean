import Chip8.Assembly
import Chip8.Bits
import Chip8.Decoding
import Chip8.Disassembly
import Chip8.Encoding
import Chip8.Failure
import Chip8.Fault
import Chip8.Field
import Chip8.Files.Content
import Chip8.Files.FileSystem
import Chip8.Files.Naming
import Chip8.Files.Path
import Chip8.Files.Store
import Chip8.Files.SystemError
import Chip8.Form
import Chip8.Log
import Chip8.Operand
import Chip8.Pattern
import Chip8.Rejection
import Chip8.Session
import Chip8.Settings
import Chip8.Slot
import Chip8.Table
import Chip8.Text.Blank
import Chip8.Text.CaseTable
import Chip8.Text.ControlSequence
import Chip8.Text.DecimalDigit
import Chip8.Text.Hex
import Chip8.Text.Integer
import Chip8.Text.Lines
import Chip8.Text.Numeral
import Chip8.Text.Printable
import Chip8.Text.Quoted
import Chip8.Text.Uppercase
import Chip8.Text.Utf8
import Chip8.Token
import Chip8.Tool
import Chip8.Tool.Arguments
import Chip8.Tool.Assembler
import Chip8.Tool.Disassembler
import Chip8.Tool.Script
import Chip8.Tool.Streams
import Chip8.Word
import Chip8.Main
import Chip8.Proofs.Lines
import Chip8.Proofs.Numerals
import Chip8.Proofs.Packing
import Chip8.Proofs.FieldValues
import Chip8.Proofs.Excerpts
import Chip8.Proofs.Layouts
import Chip8.Proofs.FieldScan
import Chip8.Proofs.Tokens
import Chip8.Proofs.Tokenization
import Chip8.Proofs.Operands
import Chip8.Proofs.Classification
import Chip8.Proofs.OperandKinds
import Chip8.Proofs.WellFormed
import Chip8.Proofs.Spelling
import Chip8.Proofs.Dispatch
import Chip8.Proofs.Rendering
import Chip8.Proofs.Lookup
import Chip8.Proofs.TableRoundTrip
import Chip8.Proofs.StandardTable
import Chip8.Proofs.Precedence
import Chip8.Proofs.Blame
import Chip8.Proofs.LineGrammar
import Chip8.Proofs.WordTexts
import Chip8.Proofs.AddressWalk
import Chip8.Proofs.RomRoundTrip
import Chip8.Proofs.Sweeps
import Chip8.Proofs.Normalisation
import Chip8.Proofs.Runs
import Chip8.Proofs.Accounts
import Chip8.Proofs.Concatenation
import Chip8.Proofs.Completion
import Chip8.Proofs.Sessions
import Chip8.Proofs.Subtables
import Chip8.Proofs.Utf8
import Chip8.Proofs.Naming
import Chip8.Proofs.OutputPaths
import Chip8.Proofs.FileSystems
import Chip8.Proofs.SourceFiles
import Chip8.Proofs.Reasons
import Chip8.Proofs.Listings
import Chip8.Proofs.Scripts
import Chip8.Proofs.ToolScripts
import Chip8.Proofs.ToolRuns
import Chip8.Proofs.NamedFiles
import Chip8.Proofs.FileRoundTrip
