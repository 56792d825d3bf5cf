import CopyLint.Document.Writer
import CopyLint.Layout.Recursive
import CopyLint.Main
import CopyLint.Proofs.AppendedField
import CopyLint.Proofs.DeclarationOrder
import CopyLint.Proofs.DeclaredKeys
import CopyLint.Proofs.DocumentRoundTrip
import CopyLint.Proofs.DocumentSearch
import CopyLint.Proofs.Expansion
import CopyLint.Proofs.Findings
import CopyLint.Proofs.GraphVerdict
import CopyLint.Proofs.MemoContents
import CopyLint.Proofs.PackageOrder
import CopyLint.Proofs.PackedSize
import CopyLint.Proofs.PatternMeaning
import CopyLint.Proofs.PointerErasure
import CopyLint.Proofs.PrintedReport
import CopyLint.Proofs.Queries
import CopyLint.Proofs.Repetition
import CopyLint.Proofs.RunOutcome
import CopyLint.Proofs.SiteDescriptions
import CopyLint.Proofs.TableAgreement
import CopyLint.Proofs.Wrapping
import CopyLint.Proofs.ExcludedNames
import CopyLint.Proofs.PlainPatterns
import CopyLint.Proofs.ShownLines
import CopyLint.Proofs.LoadMessages
import CopyLint.Proofs.TomlText
import CopyLint.Proofs.ConfigFaults
import CopyLint.Proofs.LayoutLoop
