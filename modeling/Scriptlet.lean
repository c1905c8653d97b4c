import Scriptlet.Cursor
import Scriptlet.Main
import Scriptlet.Proofs.BlockTraces
import Scriptlet.Proofs.EndOfInput
import Scriptlet.Proofs.ForLoops
import Scriptlet.Proofs.LayoutIndependence
import Scriptlet.Proofs.LexicalScoping
import Scriptlet.Proofs.LineNumbers
import Scriptlet.Proofs.OutlineReading
import Scriptlet.Proofs.SessionHistory
import Scriptlet.Proofs.UnmentionedNames
import Scriptlet.Proofs.WrittenExpressions
import Scriptlet.Proofs.ReservedWords
import Scriptlet.Proofs.PrintedNumbers
