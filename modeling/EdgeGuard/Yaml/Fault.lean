/-!
# `EdgeGuard.Yaml.Fault`: why a text is no YAML document of the expected shape
-/

set_option autoImplicit false

namespace EdgeGuard.Yaml

/-- Why a YAML text was refused. -/
inductive Fault where
  /-- A character that no text may hold. -/
  | forbiddenCharacter
  /-- A character with which no token starts. -/
  | unknownToken
  /-- A token that starts but does not go on as it must. -/
  | brokenToken
  /-- A tab where indentation is expected. -/
  | tab
  /-- A token that may not stand at its place in a block. -/
  | misplaced
  /-- A key without a colon. -/
  | missingColon
  /-- Tokens that make up no node. -/
  | noNode
  /-- A directive that is unknown, repeated or of another version. -/
  | directive
  /-- A tag whose handle stands for nothing. -/
  | unknownHandle
  /-- A reference to a node that is not there. -/
  | unknownAnchor
  /-- More than one document. -/
  | severalDocuments
  /-- Nodes that nest too deep. -/
  | tooDeep
  /-- References that repeat too much. -/
  | tooManyRepeats
  /-- A node of another shape than was asked for. -/
  | shape
deriving DecidableEq, Repr

end EdgeGuard.Yaml
