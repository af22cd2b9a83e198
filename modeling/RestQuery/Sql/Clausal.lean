import RestQuery.Sql.Statement

/-!
# Conditions as sequences

A condition is written as a sequence of leaves, connectives and parentheses. The members of a group
are joined from the left. A leaf that compares needs no parentheses; one that is a custom
expression always has them as an operand; a chain of the same connective needs none on the left, and
any other group always has them.
-/

namespace RestQuery.Sql

inductive Piece where
  | leaf (l : Leaf)
  | truth (holds : Bool)
  | and
  | or
  | opening
  | closing
deriving DecidableEq, Repr

def Leaf.isCustom : Leaf → Bool
  | fullText _ _ => true
  | constant _ => true
  | _ => false

/-- What a condition looks like from outside. -/
inductive Shape where
  | simple
  | custom
  | chain (conjunctive : Bool)
deriving DecidableEq, Repr

namespace Condition

def shape : Condition → Shape
  | leaf l => if l.isCustom then .custom else .simple
  | any [] => .simple
  | all [] => .simple
  | any [c] => c.shape
  | all [c] => c.shape
  | any _ => .chain false
  | all _ => .chain true

def bareOnLeft (conjunctive : Bool) (c : Condition) : Bool :=
  match c.shape with
  | .simple => true
  | .custom => false
  | .chain k => k == conjunctive

def bareOnRight (c : Condition) : Bool := c.shape == .simple

def parenthesize (bare : Bool) (pieces : List Piece) : List Piece :=
  if bare then pieces else .opening :: (pieces ++ [.closing])

def connective (conjunctive : Bool) : Piece := if conjunctive then .and else .or

mutual

def pieces : Condition → List Piece
  | leaf l => [.leaf l]
  | any parts => chain false parts
  | all parts => chain true parts

/-- The members of a group; the empty group is the truth value of its connective. -/
def chain (conjunctive : Bool) : List Condition → List Piece
  | [] => [.truth conjunctive]
  | [c] => pieces c
  | c :: next :: rest =>
    parenthesize (bareOnLeft conjunctive c) (pieces c) ++ operands conjunctive (next :: rest)

def operands (conjunctive : Bool) : List Condition → List Piece
  | [] => []
  | c :: rest =>
    connective conjunctive :: (parenthesize (bareOnRight c) (pieces c) ++ operands conjunctive rest)

end

end Condition

end RestQuery.Sql
