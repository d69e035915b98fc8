import Shaderworks.Data.NameMap
import Shaderworks.Data.Table
import Shaderworks.Text.Blank
import Shaderworks.Text.LetterCase
import Shaderworks.Text.Lines
import Shaderworks.Text.Search
import Shaderworks.Shader.Expansion
import Shaderworks.Shader.Stage
import Shaderworks.Data.Bytes
import Shaderworks.Data.Cause
import Shaderworks.Shader.Bindings
import Shaderworks.Shader.Dialect
import Shaderworks.Shader.Toolchain
import Shaderworks.Bytecode.Key
import Shaderworks.Files.Path
import Shaderworks.Files.Tree
import Shaderworks.Decimal.Binary64
import Shaderworks.Decimal.Shortest
import Shaderworks.Json.Outline
import Shaderworks.Json.Number
import Shaderworks.Json.Reading
import Shaderworks.Json.Printing
import Shaderworks.Pack.Manifest
import Shaderworks.Failure
import Shaderworks.Pack
import Shaderworks.Pack.Shelf
import Shaderworks.Bytecode.Artifact
import Shaderworks.Bytecode.Cache
import Shaderworks.Bytecode.Compiler
import Shaderworks.Pipeline
import Shaderworks.Pipeline.Catalog
import Shaderworks.Settings
import Shaderworks.Archive.Crc32
import Shaderworks.Archive.Deflate
import Shaderworks.Archive.EndRecord
import Shaderworks.Archive.EntryText
import Shaderworks.Archive.Scan
import Shaderworks.Archive.Zip
import Shaderworks.Archive.ZipEntry
import Shaderworks.Pack.Files
import Shaderworks.Pack.Loading
import Shaderworks.Engine
import Shaderworks.Proofs.Bytecode.Dependants
import Shaderworks.Proofs.Bytecode.KeySharing
import Shaderworks.Proofs.Bytecode.Transparency
import Shaderworks.Proofs.Engine.AutoOverride
import Shaderworks.Proofs.Pipeline.History
import Shaderworks.Proofs.Shader.Completeness
import Shaderworks.Proofs.Shader.Copies
import Shaderworks.Proofs.Shader.DepthCount
import Shaderworks.Proofs.Shader.Structure
import Shaderworks.Proofs.Pipeline.Handles
import Shaderworks.Proofs.Pipeline.Accounts
import Shaderworks.Proofs.Pipeline.OverrideHistory
import Shaderworks.Proofs.Bytecode.Custody
import Shaderworks.Proofs.Pipeline.Registering
import Shaderworks.Proofs.Engine.Compiling
import Shaderworks.Proofs.Engine.Reached
import Shaderworks.Proofs.Engine.LoadOutcome
import Shaderworks.Proofs.Engine.Reload
import Shaderworks.Proofs.Bytecode.Recall
import Shaderworks.Proofs.Bytecode.Metadata
import Shaderworks.Proofs.Bytecode.Ledger
import Shaderworks.Proofs.Pack.Collecting
import Shaderworks.Proofs.Pack.Closure
import Shaderworks.Proofs.Pack.MissingIncludes
import Shaderworks.Proofs.Pack.Selection
import Shaderworks.Proofs.Engine.Building
import Shaderworks.Proofs.Pipeline.Numbers
import Shaderworks.Proofs.Engine.Accepted
import Shaderworks.Proofs.Engine.Provenance
import Shaderworks.Proofs.Files.Below
import Shaderworks.Proofs.Pack.Confinement
import Shaderworks.Proofs.Json.ReadBack
import Shaderworks.Proofs.Pack.ManifestText
import Shaderworks.Proofs.Shader.Grammar
import Shaderworks.Proofs.Shader.Reexpansion
import Shaderworks.Proofs.Shader.DepthLimit
import Shaderworks.Proofs.Shader.Qualifiers
import Shaderworks.Proofs.Pack.FirstDefect
import Shaderworks.Proofs.Engine.MissingStages
import Shaderworks.Proofs.Shader.FinalReturns
import Shaderworks.Proofs.Bytecode.Clearing
import Shaderworks.Proofs.Files.Listing
import Shaderworks.Proofs.Pack.Discovery
import Shaderworks.Proofs.Pack.Rewording
import Shaderworks.Proofs.Text.ByteOrder
import Shaderworks.Proofs.Engine.Shadowing
