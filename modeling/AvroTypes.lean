import AvroTypes.Main
import AvroTypes.Proofs.Schema.Place
import AvroTypes.Proofs.Schema.Members
import AvroTypes.Proofs.Schema.Resolution
import AvroTypes.Proofs.Schema.Standalone
import AvroTypes.Proofs.Schema.WellFormed
import AvroTypes.Proofs.Schema.Hoisting
import AvroTypes.Proofs.Table.Lookup
import AvroTypes.Proofs.Schema.Holding
import AvroTypes.Proofs.Table.Grouping
import AvroTypes.Proofs.TypeScript.Declared
import AvroTypes.Proofs.Conversion.Success
import AvroTypes.Proofs.TypeScript.ReferenceText
import AvroTypes.Proofs.FileSystem.Following
import AvroTypes.Proofs.FileSystem.Naming
import AvroTypes.Proofs.FileSystem.Operations
import AvroTypes.Proofs.FileSystem.Reading
import AvroTypes.Proofs.TypeScript.FileNames
import AvroTypes.Proofs.FileSystem.Clearing
import AvroTypes.Proofs.FileSystem.Replacement
import AvroTypes.Proofs.Conversion.Directory
import AvroTypes.Proofs.Schema.Grammar
import AvroTypes.Proofs.TypeScript.TypeExpressions
import AvroTypes.Proofs.Schema.PostOrder
import AvroTypes.Proofs.Schema.Alike
import AvroTypes.Proofs.Json.Members
import AvroTypes.Proofs.Schema.Inheritance
import AvroTypes.Proofs.Json.DistinctKeys
import AvroTypes.Proofs.Schema.Pruning
import AvroTypes.Proofs.Conversion.Pruning
import AvroTypes.Proofs.Schema.Lists
import AvroTypes.Proofs.Enumeration
import AvroTypes.Proofs.Table.FirstSeen
import AvroTypes.Proofs.Table.Violations
import AvroTypes.Proofs.TypeScript.Strict
import AvroTypes.Proofs.TypeScript.LegalNames
import AvroTypes.Proofs.TypeScript.CodeReader
import AvroTypes.Proofs.TypeScript.QuietCode
import AvroTypes.Proofs.TypeScript.ExportedNames
import AvroTypes.Proofs.Json.Reading
import AvroTypes.Proofs.Json.Numerals
import AvroTypes.Proofs.Json.RoundTrip
import AvroTypes.Proofs.Text.Lines
import AvroTypes.Proofs.Table.Partition
import AvroTypes.Proofs.TypeScript.FileContents
import AvroTypes.Proofs.TypeScript.Independence
import AvroTypes.Proofs.TypeScript.SchemaConstant
import AvroTypes.Proofs.TypeScript.Redeclaration
import AvroTypes.Proofs.Table.Reordering
import AvroTypes.Proofs.Table.Collisions
import AvroTypes.Proofs.Conversion.Merged
import AvroTypes.Proofs.Schema.PointerText
import AvroTypes.Proofs.Schema.FaultPlaces
import AvroTypes.Proofs.FileSystem.Leading
import AvroTypes.Proofs.FileSystem.Confinement
import AvroTypes.Proofs.FileSystem.StayingWithin
import AvroTypes.Proofs.Conversion.Confinement
import AvroTypes.Proofs.Schema.Wrapping
import AvroTypes.Proofs.Table.FileLayout
import AvroTypes.Proofs.FileSystem.Reaching
import AvroTypes.Proofs.FileSystem.Overwriting
import AvroTypes.Proofs.Conversion.Overwriting
import AvroTypes.Proofs.Text.Spreading
import AvroTypes.Proofs.TypeScript.Keys
import AvroTypes.Proofs.TypeScript.Blocks
import AvroTypes.Proofs.TypeScript.LineBreaks
import AvroTypes.Proofs.Table.Scan
import AvroTypes.Proofs.TypeScript.CommentEnd
import AvroTypes.Proofs.TypeScript.TypeReader
import AvroTypes.Proofs.Json.OneLine
import AvroTypes.Proofs.TypeScript.Identifiers
import AvroTypes.Proofs.TypeScript.Tabulators
import AvroTypes.Proofs.TypeScript.Wrapping
import AvroTypes.Proofs.Text.ByteOrder
import AvroTypes.Proofs.FileSystem.Descending
import AvroTypes.Proofs.FileSystem.Walking
import AvroTypes.Proofs.Conversion.Loading
import AvroTypes.Proofs.Schema.PointerSpelling
