import EdgeGuard.Operator
import EdgeGuard.Text.Blank

/-!
# `EdgeGuard.Locale`: the words of a language

Two languages. Each has words for the operators, for the kinds of leaves and for what cannot be
put into words.
-/

set_option autoImplicit false

namespace EdgeGuard

/-- A language of rendered conditions. -/
inductive Locale where
  | en
  | zh
deriving DecidableEq, Repr

/-- A text that names no language. -/
structure UnknownLocale where
  text : String
deriving DecidableEq

/-- The words for a text that names no language. -/
def UnknownLocale.message (cause : UnknownLocale) : String :=
  "Configuration error: Unknown locale: " ++ cause.text

/-- The words of an operator over two operands: one between them and perhaps one behind. -/
structure Phrase where
  middle : String
  closing : Option String := none
deriving DecidableEq

namespace Locale

/-- The tag of a language. -/
def tag : Locale → String
  | .en => "en"
  | .zh => "zh"

/-- The languages in their usual order. -/
def all : List Locale := [.en, .zh]

/-- The languages under their tags. -/
def tags : List (String × Locale) := all.map fun locale => (locale.tag, locale)

/-- The names under which a user asks for a language. -/
def names : List (String × Locale) :=
  [("en", .en), ("en-us", .en), ("english", .en), ("zh", .zh), ("zh-cn", .zh), ("chinese", .zh)]

/-- The language that a text names. Blanks around the name and the case of its letters do not
matter. -/
def ofText (text : String) : Except UnknownLocale Locale :=
  let name := Text.lowerAscii (Text.trim text)
  match names.lookup name with
  | some locale => .ok locale
  | none => .error ⟨name⟩

/-- The word between the operands of `and`. -/
def conjunction : Locale → String
  | .en => "and"
  | .zh => "且"

/-- The word between the operands of `or`. -/
def disjunction : Locale → String
  | .en => "or"
  | .zh => "或"

/-- The word before the operand of `not`. -/
def negation : Locale → String
  | .en => "not"
  | .zh => "非"

/-- The words behind an operand that is asked to be null. -/
def isNull : Locale → String
  | .en => "is empty"
  | .zh => "为空"

/-- The words behind an operand that is asked not to be null. -/
def isNotNull : Locale → String
  | .en => "is not empty"
  | .zh => "不为空"

/-- The words of an operator over two operands. Other operators have their symbol. -/
def phrase : Locale → Operator → Phrase
  | .en, .eq => ⟨"equals", none⟩
  | .en, .neq => ⟨"does not equal", none⟩
  | .en, .gt => ⟨"is greater than", none⟩
  | .en, .lt => ⟨"is less than", none⟩
  | .en, .gte => ⟨"is greater than or equal to", none⟩
  | .en, .lte => ⟨"is less than or equal to", none⟩
  | .en, .contains => ⟨"contains", none⟩
  | .en, .startsWith => ⟨"starts with", none⟩
  | .en, .endsWith => ⟨"ends with", none⟩
  | .en, .isIn => ⟨"is in", none⟩
  | .en, .notIn => ⟨"is not in", none⟩
  | .zh, .eq => ⟨"等于", none⟩
  | .zh, .neq => ⟨"不等于", none⟩
  | .zh, .gt => ⟨"大于", none⟩
  | .zh, .lt => ⟨"小于", none⟩
  | .zh, .gte => ⟨"大于等于", none⟩
  | .zh, .lte => ⟨"小于等于", none⟩
  | .zh, .contains => ⟨"包含", none⟩
  | .zh, .startsWith => ⟨"以", some "开始"⟩
  | .zh, .endsWith => ⟨"以", some "结束"⟩
  | .zh, .isIn => ⟨"在", some "中"⟩
  | .zh, .notIn => ⟨"不在", some "中"⟩
  | _, operator => ⟨operator.symbol, none⟩

/-- The words for an operator in a list to choose from. -/
def label : Locale → Operator → String
  | .en, .eq => "equals"
  | .en, .neq => "not equals"
  | .en, .gt => "greater than"
  | .en, .lt => "less than"
  | .en, .gte => "greater than or equal"
  | .en, .lte => "less than or equal"
  | .en, .and => "and"
  | .en, .or => "or"
  | .en, .not => "not"
  | .en, .contains => "contains"
  | .en, .startsWith => "starts with"
  | .en, .endsWith => "ends with"
  | .en, .isIn => "in collection"
  | .en, .notIn => "not in collection"
  | .en, .isNull => "is empty"
  | .en, .isNotNull => "is not empty"
  | .zh, .eq => "等于"
  | .zh, .neq => "不等于"
  | .zh, .gt => "大于"
  | .zh, .lt => "小于"
  | .zh, .gte => "大于等于"
  | .zh, .lte => "小于等于"
  | .zh, .and => "与"
  | .zh, .or => "或"
  | .zh, .not => "非"
  | .zh, .contains => "包含"
  | .zh, .startsWith => "以...开始"
  | .zh, .endsWith => "以...结束"
  | .zh, .isIn => "在集合中"
  | .zh, .notIn => "不在集合中"
  | .zh, .isNull => "为空"
  | .zh, .isNotNull => "不为空"

/-- The words for a variable. -/
def variableText : Locale → String → String
  | .en, name => "variable[" ++ name ++ "]"
  | .zh, name => "变量[" ++ name ++ "]"

/-- The words for a function. -/
def functionText : Locale → String → String
  | .en, name => "function[" ++ name ++ "]"
  | .zh, name => "函数[" ++ name ++ "]"

/-- The words for an operand that is no node. -/
def unknownOperand : Locale → String
  | .en => "unknown operand"
  | .zh => "未知操作数"

/-- The words for a tree that has no text. -/
def invalidExpression : Locale → String
  | .en => "invalid expression"
  | .zh => "无效的表达式"

end Locale

end EdgeGuard
