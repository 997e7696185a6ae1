import MonkeyLang.Main
import MonkeyLang.Proofs.Grammar.Derivation
import MonkeyLang.Proofs.Grammar.Rejection
import MonkeyLang.Proofs.Value.Equality
import MonkeyLang.Proofs.Session.Plain
import MonkeyLang.Proofs.Value.Codec
import MonkeyLang.Proofs.Token.Munch
import MonkeyLang.Proofs.Eval.Effects
import MonkeyLang.Proofs.Session.Display
import MonkeyLang.Proofs.Value.Equivalence
import MonkeyLang.Proofs.Session.Layout
import MonkeyLang.Proofs.Session.Joining
import MonkeyLang.Proofs.Session.Lines
import MonkeyLang.Proofs.Grammar.Table
import MonkeyLang.Proofs.Session.Checked
import MonkeyLang.Proofs.Value.Writing
import MonkeyLang.Proofs.Eval.ArrayCalls
import MonkeyLang.Proofs.Value.Reencoding
import MonkeyLang.Proofs.Eval.Returning
import MonkeyLang.Proofs.Repl.Reading
import MonkeyLang.Proofs.Report.Location
import MonkeyLang.Proofs.Repl.Labels
import MonkeyLang.Proofs.Eval.Callbacks
import MonkeyLang.Proofs.Eval.Refusals
import MonkeyLang.Proofs.Grammar.Nesting
import MonkeyLang.Proofs.Repl.Brackets
import MonkeyLang.Proofs.Grammar.Writing
import MonkeyLang.Proofs.Value.Rendering
import MonkeyLang.Proofs.Eval.Positions
import MonkeyLang.Proofs.Eval.Searching
import MonkeyLang.Proofs.Eval.Arithmetic
import MonkeyLang.Proofs.Eval.Ordering
import MonkeyLang.Proofs.Store.Scopes
import MonkeyLang.Proofs.Repl.Joining
import MonkeyLang.Proofs.Text.Numbering
import MonkeyLang.Proofs.Ast.Json
