import Elasto.Document.Yaml.Tree

/-! # YAML documents

A YAML text is read in three steps: every character must be printable, the scanner cuts
the text into tokens, and the tokens are built into the tree of the one document the
text may hold. A text without a document reads as an empty tree. -/

namespace Elasto.Document

/-- The document a YAML text holds, or why the text is not one YAML document. -/
def readYaml (text : String) : Except String Tree := do
  let cs := text.toList
  if !cs.all Yaml.isPrintable then throw "control characters are not allowed"
  let tokens ← Yaml.Token.scan cs
  Tree.ofTokens tokens.toList

end Elasto.Document
