import Verbatim.Text.Offset

/-!
# Parsing expressions

`Expr ρ` is a parsing expression over rules named by `ρ`: choice is ordered, repetition takes all it
can and never gives back. A rule carries its body, so a grammar is a family of expressions; the one
expression that may contain itself is reached through `Expr.nested`.

A match of an expression is the text it consumed, the nodes it made and the text that is left.
-/

namespace Verbatim.Peg

variable {ρ : Type}

/-- What a rule changes for its body. -/
inductive RuleKind where
  /-- Nothing: blanks and nodes are treated as outside. -/
  | plain
  /-- Blanks are not skipped inside. -/
  | compound
  /-- Blanks are not skipped inside, and the rules inside make no nodes. -/
  | token
  /-- As `plain`, but the rule itself makes no node either. -/
  | landmark
  deriving DecidableEq, Repr

/-- How blanks and nodes are treated where an expression stands. -/
inductive Mode where
  /-- Blanks between the parts of a sequence are skipped, and rules make nodes. -/
  | spaced
  /-- Parts stand next to each other, and rules make nodes. -/
  | adjacent
  /-- Parts stand next to each other, and rules make no nodes. -/
  | token
  deriving DecidableEq, Repr

/-- The mode of a rule's body. -/
def RuleKind.inside : RuleKind → Mode → Mode
  | plain, mode => mode
  | landmark, mode => mode
  | compound, _ => .adjacent
  | token, _ => .token

/-- A parsing expression. -/
inductive Expr (ρ : Type) where
  /-- One character of a class. -/
  | char (member : Char → Bool)
  /-- A fixed text. -/
  | word (text : List Char)
  /-- One part and then the other. -/
  | seq (a b : Expr ρ)
  /-- The first part, or the second where the first does not match. -/
  | alt (a b : Expr ρ)
  /-- The part, or nothing where it does not match. -/
  | opt (a : Expr ρ)
  /-- The part as often as it matches. -/
  | star (a : Expr ρ)
  /-- Nothing, where the part does not match. -/
  | absent (a : Expr ρ)
  /-- A named rule with its body. -/
  | rule (name : ρ) (kind : RuleKind) (body : Expr ρ)
  /-- The grammar's recursive expression. -/
  | nested

namespace Expr

/-- Any single character. -/
def any : Expr ρ := .char fun _ => true

/-- The place before the first character of the input, where every match of a whole input starts. -/
def startOfInput : Expr ρ := .word []

/-- The parts one after another. -/
def all : List (Expr ρ) → Expr ρ
  | [] => .word []
  | [a] => a
  | a :: as => .seq a (all as)

/-- The first part that matches. -/
def first : List (Expr ρ) → Expr ρ
  | [] => .char fun _ => false
  | [a] => a
  | a :: as => .alt a (first as)

/-- The part once or more often. -/
def plus (a : Expr ρ) : Expr ρ := .seq a (.star a)

/-- The part a fixed number of times. -/
def times (n : Nat) (a : Expr ρ) : Expr ρ := all (List.replicate n a)

end Expr

/-- A grammar: the characters that `Mode.spaced` skips, and what `Expr.nested` stands for. -/
structure Grammar (ρ : Type) where
  /-- The characters skipped between parts. -/
  blank : Char → Bool
  /-- The recursive expression. -/
  nested : Expr ρ

/-- A node of a parse tree: its rule, the byte offset where it starts, the text it matched, and the
nodes inside it from left to right. -/
inductive Tree (ρ : Type) where
  /-- A rule that matched. -/
  | node (rule : ρ) (start : Nat) (text : List Char) (children : List (Tree ρ))

namespace Tree

/-- The rule that matched. -/
def rule : Tree ρ → ρ
  | node r _ _ _ => r

/-- The byte offset of the first character. -/
def start : Tree ρ → Nat
  | node _ p _ _ => p

/-- The text that matched. -/
def text : Tree ρ → List Char
  | node _ _ s _ => s

/-- The nodes inside, from left to right. -/
def children : Tree ρ → List (Tree ρ)
  | node _ _ _ ts => ts

/-- The byte offset just past the last character. -/
def stop (t : Tree ρ) : Nat := t.start + Text.byteLength t.text

/-- The byte offset of the last character, or `none` if the node matched no text. -/
def last? (t : Tree ρ) : Option Nat := t.text.getLast?.map fun c => t.stop - c.utf8Size

/-- The first child made by a rule. -/
def child? [DecidableEq ρ] (t : Tree ρ) (r : ρ) : Option (Tree ρ) :=
  t.children.find? (·.rule = r)

/-- All children made by a rule. -/
def childrenOf [DecidableEq ρ] (t : Tree ρ) (r : ρ) : List (Tree ρ) :=
  t.children.filter (·.rule = r)

end Tree

/-- The outcome of a successful match. -/
structure Match (ρ : Type) where
  /-- The text consumed. -/
  text : List Char
  /-- The outermost nodes made, from left to right. -/
  trees : List (Tree ρ)
  /-- The text left over. -/
  rest : List Char

/-- The match that consumes nothing. -/
def Match.empty (s : List Char) : Match ρ := ⟨[], [], s⟩

end Verbatim.Peg
