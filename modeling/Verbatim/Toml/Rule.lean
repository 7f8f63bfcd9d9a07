/-!
# The rules of the grammar

The constructors stand in the order in which failures are reported.
-/

namespace Verbatim.Toml

/-- A rule of the TOML grammar that makes nodes or is reported when it fails. -/
inductive Rule where
  | endOfInput
  | document | expression | comment
  | keyValue | equals
  | key | dottedKey | simpleKey | quotedKey | unquotedKey
  | value
  | string | basicString | mlBasicString | literalString | mlLiteralString
  | integer | decInt | hexInt | octInt | binInt
  | floatingPoint | boolean
  | dateTime | offsetDateTime | localDateTime | localDate | localTime
  | array | inlineTable
  | table | standardTable | arrayTable
  deriving DecidableEq, Repr

namespace Rule

/-- All rules, in the order in which failures are reported. -/
def all : List Rule :=
  [endOfInput, document, expression, comment, keyValue, equals, key, dottedKey, simpleKey,
   quotedKey, unquotedKey, value, string, basicString, mlBasicString, literalString,
   mlLiteralString, integer, decInt, hexInt, octInt, binInt, floatingPoint, boolean, dateTime,
   offsetDateTime, localDateTime, localDate, localTime, array, inlineTable, table, standardTable,
   arrayTable]

theorem mem_all (r : Rule) : r ∈ all := by cases r <;> decide

/-- The rule's name in the grammar. -/
def name : Rule → String
  | .endOfInput => "EOI"
  | .document => "document"
  | .expression => "expression"
  | .comment => "comment"
  | .keyValue => "key_value"
  | .equals => "equals"
  | .key => "key"
  | .dottedKey => "dotted_key"
  | .simpleKey => "simple_key"
  | .quotedKey => "quoted_key"
  | .unquotedKey => "unquoted_key"
  | .value => "value"
  | .string => "string"
  | .basicString => "basic_string"
  | .mlBasicString => "ml_basic_string"
  | .literalString => "literal_string"
  | .mlLiteralString => "ml_literal_string"
  | .integer => "integer"
  | .decInt => "dec_int"
  | .hexInt => "hex_int"
  | .octInt => "oct_int"
  | .binInt => "bin_int"
  | .floatingPoint => "floating_point"
  | .boolean => "boolean"
  | .dateTime => "date_time"
  | .offsetDateTime => "offset_date_time"
  | .localDateTime => "local_date_time"
  | .localDate => "local_date"
  | .localTime => "local_time"
  | .array => "array"
  | .inlineTable => "inline_table"
  | .table => "table"
  | .standardTable => "standard_table"
  | .arrayTable => "array_table"

/-- What a reader of an error message calls the rule. Rules that differ only in how a construct is
spelled share one phrase; every other rule goes by its name with blanks for the underscores. -/
def phrase : Rule → String
  | .endOfInput => "end of file"
  | .key | .simpleKey | .unquotedKey | .quotedKey => "key"
  | .equals => "'='"
  | .value => "value"
  | .comment => "comment"
  | .expression | .keyValue => "key/value pair"
  | .table | .standardTable | .arrayTable => "table header"
  | r => r.name.map fun c => if c = '_' then ' ' else c

end Rule

end Verbatim.Toml
