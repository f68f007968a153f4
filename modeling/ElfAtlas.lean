import ElfAtlas.Code.BundledEngine
import ElfAtlas.Code.PlainEngine
import ElfAtlas.Json.Parse
import ElfAtlas.Json.Print
import ElfAtlas.Report.Analysis
import ElfAtlas.Report.Config
import ElfAtlas.Report.Outline
import ElfAtlas.Proofs.Analysis.Bounds
import ElfAtlas.Proofs.Analysis.Companion
import ElfAtlas.Proofs.Analysis.Completeness
import ElfAtlas.Proofs.Analysis.Coverage
import ElfAtlas.Proofs.Analysis.Numbering
import ElfAtlas.Proofs.Analysis.Pieces
import ElfAtlas.Proofs.Analysis.Translation
import ElfAtlas.Proofs.Analysis.Truncation
import ElfAtlas.Proofs.Analysis.WindowedWalk
import ElfAtlas.Proofs.Code.Family
import ElfAtlas.Proofs.Elf.Dynamic
import ElfAtlas.Proofs.Elf.HeaderEncoding
import ElfAtlas.Proofs.Elf.MaximalWalk
import ElfAtlas.Proofs.Elf.RoundTrip
import ElfAtlas.Proofs.Elf.SymbolNames
import ElfAtlas.Proofs.Report.Config
import ElfAtlas.Proofs.Search.Listing
import ElfAtlas.Proofs.Search.Literal
import ElfAtlas.Proofs.Strings.Acceptor
import ElfAtlas.Proofs.Strings.Attribution
import ElfAtlas.Proofs.Strings.Distinct
import ElfAtlas.Proofs.Xref.Seed
import ElfAtlas.Proofs.Code.BranchTarget
import ElfAtlas.Proofs.TableText
import ElfAtlas.Proofs.Xref.Literals
import ElfAtlas.Proofs.Elf.OffsetSums
