/-!
# Precedence

How tightly a production holds on to the operand on its left. An expression read with a minimum is
only extended by productions that bind strictly tighter than the minimum.
-/

namespace FrontEnd

/-- The levels of binding, loosest first. -/
inductive Precedence where
  /-- Below every production. -/
  | lowest
  | statement
  | assignment
  | conditional
  | sum
  | product
  | exponent
  | unary
  | post
  | call
  | property
  /-- Above every production: nothing extends an expression read at this level. -/
  | tightest
  deriving DecidableEq, Repr

namespace Precedence

/-- The place of a level on the scale, in tenths. -/
def rank : Precedence → Nat
  | lowest => 0
  | statement => 5
  | assignment => 9
  | conditional => 20
  | sum => 30
  | product => 40
  | exponent => 50
  | unary => 60
  | post => 70
  | call => 80
  | property => 90
  | tightest => 1000

/-- Whether a production of level `p` extends an expression read with minimum `least`. -/
def exceeds (p least : Precedence) : Bool :=
  least.rank < p.rank

/-- A level as a number. -/
def text : Precedence → String
  | lowest => "0"
  | statement => "0.5"
  | assignment => "0.9"
  | conditional => "2"
  | sum => "3"
  | product => "4"
  | exponent => "5"
  | unary => "6"
  | post => "7"
  | call => "8"
  | property => "9"
  | tightest => "inf"

/-- The levels below `tightest`, tightest first. -/
def descending : List Precedence :=
  [property, call, post, unary, exponent, product, sum, conditional, assignment, statement]

/-- The tightest level that is not above a number of tenths. As a minimum it admits the same
productions as the number. -/
def ofTenths (tenths : Int) : Precedence :=
  (descending.find? fun p => p.rank ≤ tenths).getD lowest

end Precedence

end FrontEnd
