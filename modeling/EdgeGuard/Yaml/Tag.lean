/-!
# `EdgeGuard.Yaml.Tag`: the tag of a node

A tag names the kind of a node. Its bytes may be written as percent escapes, so they need not be a
text; a zero byte ends a tag wherever it is written. The core tags name the kinds that every
document knows. A tag that starts with an exclamation mark is local to its document and, when it is
a text, names a kind of the document's own.

* `Yaml.Tag.core` gives the core tags.
* `Yaml.Tag.isOwn` tells the tags for which no kind of value is known.
-/

set_option autoImplicit false

namespace EdgeGuard.Yaml

/-- A tag. -/
structure Tag where
  bytes : List UInt8
deriving DecidableEq

namespace Tag

/-- The tag of bytes as they are written: a zero byte and what follows it do not count. -/
def ofBytes (bytes : List UInt8) : Tag := ⟨bytes.takeWhile (· != 0)⟩

/-- The bytes of a text. -/
def bytesOf (text : List Char) : List UInt8 := text.flatMap String.utf8EncodeChar

/-- The tag of a text. -/
def ofString (text : String) : Tag := ofBytes (bytesOf text.toList)

/-- A tag with another one behind it. -/
def append (first second : Tag) : Tag := ⟨first.bytes ++ second.bytes⟩

/-- Whether the tag has no bytes. -/
def isEmpty (tag : Tag) : Bool := tag.bytes.isEmpty

/-- The text with which the core tags start. -/
def coreStart : String := "tag:yaml.org,2002:"

/-- The core tag of a kind of scalar. -/
def core (kind : String) : Tag := (ofString coreStart).append (ofString kind)

/-- The tag of a lone exclamation mark. -/
def lone : Tag := ofString "!"

/-- Whether the tag starts with an exclamation mark. -/
def isLocal (tag : Tag) : Bool := tag.bytes.head? == some 0x21

/-- Whether the bytes of the tag are the encoding of a text. -/
def isText (tag : Tag) : Bool := (String.fromUTF8? ⟨tag.bytes.toArray⟩).isSome

/-- Whether the tag names a kind of the document's own. -/
def isOwn (tag : Tag) : Bool := tag.isLocal && tag.isText

end Tag

end EdgeGuard.Yaml
