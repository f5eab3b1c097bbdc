import Mientras.Python.Stmt
import Mientras.Token.Scanner
import Mientras.Tree.Read.Stmt

/-!
# Compiling to Python

`compile` takes a source text to Python text: it scans the source, reads the program that its
tokens spell, and writes the program as Python text.
-/

namespace Mientras

/-- The program that a source text spells. -/
def Program.ofSource (source : String) : Except Fault Program :=
  tokenize source >>= Program.ofTokens

/-- The Python text for a source text. -/
def compile (style : Style) (source : String) : Except Fault String :=
  (Program.ofSource source).map (·.toPython style)

end Mientras
