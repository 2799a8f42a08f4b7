import XQuery.Token.Keyword

/-!
# Tokens

The kinds of token that the lexers report, their names in listings, and the token itself: a kind,
a span in UTF-16 units and the state in which the token was read.
-/

namespace XQuery

/-- What a token is. -/
inductive Kind where
  | whiteSpace
  | badCharacter
  | commentStartTag
  | comment
  | commentEndTag
  | partialComment
  | docCommentMarker
  | docContents
  | docTrim
  | docTagMarker
  | docTag
  | docTaggedKeyword
  | docWhiteSpace
  | docVariableIndicator
  | docNCName
  | stringLiteralStart
  | stringLiteralContents
  | stringLiteralEnd
  | escapedCharacter
  | predefinedEntityReference
  | characterReference
  | partialEntityReference
  | emptyEntityReference
  | bracedUriLiteralStart
  | bracedUriLiteralEnd
  | integerLiteral
  | decimalLiteral
  | doubleLiteral
  | partialDoubleLiteralExponent
  | ncName
  | keyword (k : Keyword)
  | pragmaBegin
  | pragmaContents
  | pragmaEnd
  | variableIndicator
  | equal
  | notEqual
  | lessThan
  | lessThanOrEqual
  | nodeBefore
  | greaterThan
  | greaterThanOrEqual
  | nodeAfter
  | concatenation
  | union
  | mapOperator
  | directDescendants
  | allDescendants
  | axisSeparator
  | assign
  | qnameSeparator
  | parentSelector
  | contextItem
  | attributeSelector
  | comma
  | parenthesisOpen
  | parenthesisClose
  | squareOpen
  | squareClose
  | blockOpen
  | blockClose
  | plus
  | minus
  | star
  | optional
  | arrowOperator
  | functionRefOperator
  | separator
deriving DecidableEq

namespace Kind

/-- Tokens that belong to an xqDoc comment. -/
def isDoc : Kind → Bool
  | docCommentMarker | docContents | docTrim | docTagMarker | docTag | docTaggedKeyword
  | docWhiteSpace | docVariableIndicator | docNCName => true
  | _ => false

/-- White space and comments. -/
def isTrivia : Kind → Bool
  | whiteSpace | commentStartTag | comment | commentEndTag | partialComment => true
  | k => k.isDoc

/-- Reserved words. -/
def isKeyword : Kind → Bool
  | keyword _ => true
  | _ => false

/-- The name of the kind; all reserved words share one. -/
def name : Kind → String
  | whiteSpace => "WHITE_SPACE"
  | badCharacter => "BAD_CHARACTER"
  | commentStartTag => "COMMENT_START_TAG"
  | comment => "COMMENT"
  | commentEndTag => "COMMENT_END_TAG"
  | partialComment => "PARTIAL_COMMENT"
  | docCommentMarker => "XQDOC_COMMENT_MARKER"
  | docContents => "XQDOC_CONTENTS"
  | docTrim => "XQDOC_TRIM"
  | docTagMarker => "XQDOC_TAG_MARKER"
  | docTag => "XQDOC_TAG"
  | docTaggedKeyword => "XQDOC_TAGGED_KEYWORD"
  | docWhiteSpace => "XQDOC_WHITE_SPACE"
  | docVariableIndicator => "XQDOC_VARIABLE_INDICATOR"
  | docNCName => "XQDOC_NCNAME"
  | stringLiteralStart => "STRING_LITERAL_START"
  | stringLiteralContents => "STRING_LITERAL_CONTENTS"
  | stringLiteralEnd => "STRING_LITERAL_END"
  | escapedCharacter => "ESCAPED_CHARACTER"
  | predefinedEntityReference => "PREDEFINED_ENTITY_REFERENCE"
  | characterReference => "CHARACTER_REFERENCE"
  | partialEntityReference => "PARTIAL_ENTITY_REFERENCE"
  | emptyEntityReference => "EMPTY_ENTITY_REFERENCE"
  | bracedUriLiteralStart => "BRACED_URI_LITERAL_START"
  | bracedUriLiteralEnd => "BRACED_URI_LITERAL_END"
  | integerLiteral => "INTEGER_LITERAL"
  | decimalLiteral => "DECIMAL_LITERAL"
  | doubleLiteral => "DOUBLE_LITERAL"
  | partialDoubleLiteralExponent => "PARTIAL_DOUBLE_LITERAL_EXPONENT"
  | ncName => "NCNAME"
  | keyword _ => "KEYWORD"
  | pragmaBegin => "PRAGMA_BEGIN"
  | pragmaContents => "PRAGMA_CONTENTS"
  | pragmaEnd => "PRAGMA_END"
  | variableIndicator => "VARIABLE_INDICATOR"
  | equal => "EQUAL"
  | notEqual => "NOT_EQUAL"
  | lessThan => "LESS_THAN"
  | lessThanOrEqual => "LESS_THAN_OR_EQUAL"
  | nodeBefore => "NODE_BEFORE"
  | greaterThan => "GREATER_THAN"
  | greaterThanOrEqual => "GREATER_THAN_OR_EQUAL"
  | nodeAfter => "NODE_AFTER"
  | concatenation => "CONCATENATION"
  | union => "UNION"
  | mapOperator => "MAP_OPERATOR"
  | directDescendants => "DIRECT_DESCENDANTS"
  | allDescendants => "ALL_DESCENDANTS"
  | axisSeparator => "AXIS_SEPARATOR"
  | assign => "ASSIGN"
  | qnameSeparator => "QNAME_SEPARATOR"
  | parentSelector => "PARENT_SELECTOR"
  | contextItem => "CONTEXT_ITEM"
  | attributeSelector => "ATTRIBUTE_SELECTOR"
  | comma => "COMMA"
  | parenthesisOpen => "PARENTHESIS_OPEN"
  | parenthesisClose => "PARENTHESIS_CLOSE"
  | squareOpen => "SQUARE_OPEN"
  | squareClose => "SQUARE_CLOSE"
  | blockOpen => "BLOCK_OPEN"
  | blockClose => "BLOCK_CLOSE"
  | plus => "PLUS"
  | minus => "MINUS"
  | star => "STAR"
  | optional => "OPTIONAL"
  | arrowOperator => "ARROW"
  | functionRefOperator => "FUNCTION_REF_OPERATOR"
  | separator => "SEPARATOR"

/-- The kind as it is listed: reserved words are spelled out. -/
def label : Kind → String
  | keyword k => "K_" ++ k.upper
  | k => k.name

/-- The kinds that are not reserved words. -/
def plainKinds : List Kind :=
  [whiteSpace, badCharacter, commentStartTag, comment, commentEndTag, partialComment,
   docCommentMarker, docContents, docTrim, docTagMarker, docTag, docTaggedKeyword, docWhiteSpace,
   docVariableIndicator, docNCName, stringLiteralStart, stringLiteralContents, stringLiteralEnd,
   escapedCharacter, predefinedEntityReference, characterReference, partialEntityReference,
   emptyEntityReference, bracedUriLiteralStart, bracedUriLiteralEnd, integerLiteral,
   decimalLiteral, doubleLiteral, partialDoubleLiteralExponent, ncName, pragmaBegin,
   pragmaContents, pragmaEnd, variableIndicator, equal, notEqual, lessThan, lessThanOrEqual,
   nodeBefore, greaterThan, greaterThanOrEqual, nodeAfter, concatenation, union, mapOperator,
   directDescendants, allDescendants, axisSeparator, assign, qnameSeparator, parentSelector,
   contextItem, attributeSelector, comma, parenthesisOpen, parenthesisClose, squareOpen,
   squareClose, blockOpen, blockClose, plus, minus, star, optional, arrowOperator,
   functionRefOperator, separator]

/-- The kind that is listed as `s`. -/
def ofLabel? (s : String) : Option Kind :=
  match plainKinds.find? (·.name == s) with
  | some k => some k
  | none => if s.startsWith "K_" then (Keyword.ofUpper? (s.drop 2).toString).map keyword else none

end Kind

/-- A token: its kind, its span in UTF-16 units, and the state that reading it started in. -/
structure Token where
  kind : Kind
  start : Nat
  stop : Nat
  state : Nat
deriving DecidableEq

end XQuery
