import Verbatim.Peg.Parse
import Verbatim.Text.Blank
import Verbatim.Toml.Rule

/-!
# The TOML grammar

One definition for each production. Blanks between the tokens of a line are skipped by the mode;
line breaks and full-line comments between expressions are `trivia` and belong to no node. An inline
comment is a node of its own and never ends in a blank, so that what trails it stays available to
whoever asks for the text before the next node.
-/

namespace Verbatim.Toml

open Peg Peg.Expr

/-- A parsing expression over the rules of TOML. -/
abbrev Production := Expr Rule

namespace Grammar

/-! ### Characters -/

/-- A fixed text. -/
def lit (s : String) : Production := .word s.toList

/-- One of the given characters. -/
def oneOf (s : String) : Production := .char fun c => s.toList.contains c

/-- A decimal digit. -/
def digit : Production := .char Char.isDigit

/-- A decimal digit other than zero. -/
def nonzeroDigit : Production := .char fun c => c.isDigit && c != '0'

/-- A hexadecimal digit of either case. -/
def hexDigit : Production :=
  .char fun c => c.isDigit || ('a' ≤ c && c ≤ 'f') || ('A' ≤ c && c ≤ 'F')

/-- An octal digit. -/
def octDigit : Production := .char fun c => '0' ≤ c && c ≤ '7'

/-- A binary digit. -/
def binDigit : Production := oneOf "01"

/-- A line break: a line feed, the pair of both, or a carriage return. -/
def newline : Production := first [lit "\n", lit "\r\n", lit "\r"]

/-- A blank that does not break the line. -/
def inlineBlank : Production := all [absent newline, .char Text.isBlank]

/-- The end of the whole text. -/
def endOfInput : Production := .rule .endOfInput .landmark (absent any)

/-! ### Comments -/

/-- A comment on a line of its own, up to the line break. -/
def commentLine : Production := all [lit "#", star (all [absent newline, any])]

/-- What may stand between expressions. -/
def trivia : Production := first [newline, commentLine]

/-- The blanks that lead to the end of a line or of the text. -/
def commentBlanks : Production := all [star inlineBlank, first [newline, absent any]]

/-- A comment behind an expression, without the blanks at its end. -/
def comment : Production :=
  .rule .comment .token (all [lit "#", star (all [absent commentBlanks, any])])

/-- The blanks behind an expression or its comment. -/
def lineTail : Production := star inlineBlank

/-! ### Strings -/

/-- A backslash and the character it protects, whatever that is. -/
def escaped : Production := all [lit "\\", any]

def basicString : Production :=
  .rule .basicString .token
    (all [lit "\"",
      star (first [escaped, all [absent (first [lit "\"", lit "\\", newline]), any]]),
      lit "\""])

/-- Up to two quotes may stand directly before the closing delimiter. -/
def mlBasicString : Production :=
  .rule .mlBasicString .token
    (all [lit "\"\"\"",
      star (first [escaped, all [absent (lit "\"\"\""), any]]),
      lit "\"\"\"", opt (lit "\""), opt (lit "\"")])

def literalString : Production :=
  .rule .literalString .token
    (all [lit "'", star (all [absent (first [lit "'", newline]), any]), lit "'"])

/-- Up to two quotes may stand directly before the closing delimiter. -/
def mlLiteralString : Production :=
  .rule .mlLiteralString .token
    (all [lit "'''", star (all [absent (lit "'''"), any]), lit "'''",
      opt (lit "'"), opt (lit "'")])

def string : Production :=
  .rule .string .compound (first [mlBasicString, basicString, mlLiteralString, literalString])

/-! ### Numbers and truth values -/

/-- Digits of one kind, where an underscore may stand between two of them. -/
def digitRun (one : Production) : Production := all [one, star (all [opt (lit "_"), one])]

/-- A sign, or nothing. -/
def sign : Production := opt (oneOf "+-")

/-- A decimal number without a sign and without leading zeros. -/
def unsignedDec : Production :=
  first [lit "0", all [nonzeroDigit, star (all [opt (lit "_"), digit])]]

def decInt : Production := .rule .decInt .token (all [sign, unsignedDec])

def hexInt : Production := .rule .hexInt .token (all [lit "0x", digitRun hexDigit])

def octInt : Production := .rule .octInt .token (all [lit "0o", digitRun octDigit])

def binInt : Production := .rule .binInt .token (all [lit "0b", digitRun binDigit])

def integer : Production := .rule .integer .compound (first [hexInt, octInt, binInt, decInt])

def fraction : Production := all [lit ".", digitRun digit]

def exponent : Production := all [oneOf "eE", sign, digitRun digit]

def floatingPoint : Production :=
  .rule .floatingPoint .token
    (all [sign,
      first [first [lit "inf", lit "nan"],
        all [unsignedDec, first [exponent, all [fraction, opt exponent]]]]])

def boolean : Production := .rule .boolean .token (first [lit "true", lit "false"])

/-! ### Dates and times -/

def fullDate : Production :=
  all [times 4 digit, lit "-", times 2 digit, lit "-", times 2 digit]

def partialTime : Production :=
  all [times 2 digit, lit ":", times 2 digit, lit ":", times 2 digit,
    opt (all [lit ".", plus digit])]

def timeOffset : Production :=
  first [oneOf "Zz", all [oneOf "+-", times 2 digit, lit ":", times 2 digit]]

/-- What joins a date and a time. -/
def timeDelim : Production := oneOf "Tt "

def offsetDateTime : Production :=
  .rule .offsetDateTime .token (all [fullDate, timeDelim, partialTime, timeOffset])

def localDateTime : Production :=
  .rule .localDateTime .token (all [fullDate, timeDelim, partialTime])

def localDate : Production := .rule .localDate .token fullDate

def localTime : Production := .rule .localTime .token partialTime

def dateTime : Production :=
  .rule .dateTime .compound (first [offsetDateTime, localDateTime, localDate, localTime])

/-! ### Keys -/

def unquotedKey : Production :=
  .rule .unquotedKey .token (plus (.char fun c => c.isAlphanum || c == '_' || c == '-'))

def quotedKey : Production := .rule .quotedKey .token (first [basicString, literalString])

def simpleKey : Production := .rule .simpleKey .plain (first [quotedKey, unquotedKey])

/-- The blanks around the dot of a dotted key. -/
def keyBlanks : Production := star (oneOf " \t")

/-- The blanks are spelled out, so that the key never ends in one. -/
def dottedKey : Production :=
  .rule .dottedKey .compound
    (all [simpleKey, plus (all [keyBlanks, lit ".", keyBlanks, simpleKey])])

def key : Production := .rule .key .plain (first [dottedKey, simpleKey])

/-! ### Values -/

def equals : Production := .rule .equals .plain (lit "=")

def keyValue : Production := .rule .keyValue .plain (all [key, equals, nested])

/-- What may stand between the values of an array. -/
def arrayTrivia : Production := star (first [newline, commentLine])

def array : Production :=
  .rule .array .plain
    (all [lit "[", arrayTrivia,
      opt (all [nested, arrayTrivia,
        star (all [lit ",", arrayTrivia, nested, arrayTrivia]),
        opt (all [lit ",", arrayTrivia])]),
      lit "]"])

def inlineTable : Production :=
  .rule .inlineTable .plain
    (all [lit "\x7b", opt (all [keyValue, star (all [lit ",", keyValue])]), lit "\x7d"])

/-- The recursive expression of the grammar. -/
def value : Production :=
  .rule .value .plain
    (first [string, dateTime, floatingPoint, integer, boolean, array, inlineTable])

/-! ### Documents -/

def standardTable : Production := .rule .standardTable .plain (all [lit "[", key, lit "]"])

def arrayTable : Production := .rule .arrayTable .plain (all [lit "[[", key, lit "]]"])

def table : Production := .rule .table .plain (first [arrayTable, standardTable])

/-- One line of content. The choice is spelled out: with an optional comment, the blanks before a
comment that is not there would end up inside the expression. -/
def expression : Production :=
  .rule .expression .plain
    (first [all [first [keyValue, table], comment], keyValue, table])

/-- A line break, trivia, and one more line of content. -/
def nextLine : Production := all [newline, star trivia, expression, lineTail]

def document : Production :=
  .rule .document .plain
    (all [startOfInput, star trivia, opt (all [expression, lineTail, star nextLine]),
      star trivia, endOfInput])

end Grammar

/-- The grammar of TOML: spaces and tabs are skipped, and values contain values. -/
def grammar : Peg.Grammar Rule := ⟨Text.isIndent, Grammar.value⟩

end Verbatim.Toml
