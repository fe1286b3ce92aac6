import TableBrowser.Text.Basic

/-!
# Estimates

Numbers of rows and costs are estimated as ten times their binary logarithm, rounded
down on a coarse scale.  A product is then a sum, and sums are read off a table.
-/

namespace TableBrowser.Database

abbrev Estimate := Int

namespace Estimate

def eighths : List Estimate :=
  [0, 2, 3, 5, 6, 7, 8, 9]

def ofNat (n : Nat) : Estimate :=
  if n < 2 then 0
  else 10 * n.log2 + (eighths[((8 * n) >>> n.log2) % 8]?).getD 0

/-- What the larger of two numbers grows by when the smaller one is added, for each
difference of their estimates. -/
def gains : List Estimate :=
  [10, 10, 9, 9, 8, 8, 7, 7, 7, 6, 6, 6, 5, 5, 5, 4, 4, 4, 4, 3, 3, 3, 3, 3, 3,
    2, 2, 2, 2, 2, 2, 2]

def add (a b : Estimate) : Estimate :=
  let difference := (max a b - min a b).toNat
  max a b + (gains[difference]?).getD (if difference ≤ 49 then 1 else 0)

def log (a : Estimate) : Estimate :=
  if a ≤ 10 then 0 else ofNat a.toNat - 33

end Estimate

/-- The rows a table is taken to have. -/
def tableRows : Estimate := 200

/-- The cost of finding a place in an order of the rows of a table. -/
def seekCost : Estimate := Estimate.log tableRows

/-- What the cost of visiting a row of a table is a multiple of. -/
def rowCost : Estimate := 16

def sortCost (rows : Estimate) (columns : Nat) : Estimate :=
  rows + Estimate.ofNat ((columns + 59) / 30) + Estimate.log rows

end TableBrowser.Database
