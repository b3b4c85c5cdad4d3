import ScriptHost.Host.Routine
import ScriptHost.Host.Sequence
import ScriptHost.Loader.Document
import ScriptHost.Loader.LineScript
import ScriptHost.Tree.Encoding
import ScriptHost.Tree.Print
import ScriptHost.Tree.Sample
import ScriptHost.Json.Reader
import ScriptHost.Proofs.Tree.Signs
import ScriptHost.Proofs.Tree.Branches
import ScriptHost.Proofs.Tree.Expression
import ScriptHost.Proofs.Tree.Statement
import ScriptHost.Proofs.Loader.RunOnce
import ScriptHost.Proofs.Host.Shadowing
import ScriptHost.Proofs.Host.Iteration
import ScriptHost.Proofs.Json.Compact
import ScriptHost.Proofs.Tree.Encoding
import ScriptHost.Proofs.Tree.Leaves
import ScriptHost.Proofs.Tree.Brackets
import ScriptHost.Proofs.Host.Assignment
import ScriptHost.Proofs.Tree.ElseBranch
import ScriptHost.Proofs.Value.Conversion
import ScriptHost.Proofs.Host.Symbols
import ScriptHost.Proofs.Host.MemberFunctions
import ScriptHost.Proofs.Host.Conversions
import ScriptHost.Proofs.Number.Integers
import ScriptHost.Proofs.Loader.Settings
import ScriptHost.Proofs.Loader.Unreadable
import ScriptHost.Proofs.Host.Failures
import ScriptHost.Proofs.Value.Equality
import ScriptHost.Proofs.Host.EqualTexts
import ScriptHost.Proofs.Tree.Indentation
import ScriptHost.Proofs.Tree.Numerals
import ScriptHost.Proofs.Tree.Spelling
import ScriptHost.Proofs.Host.Listing
import ScriptHost.Proofs.Host.Sequences
import ScriptHost.Proofs.Loader.Spellings
import ScriptHost.Proofs.Loader.FirstFile
