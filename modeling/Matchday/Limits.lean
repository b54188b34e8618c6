/-
# Limits

How many participants the parts of a plan are made for.
-/
namespace Matchday.Limits

/-- The smallest round. -/
def smallestRound : Nat := 2

/-- The smallest round with a referee who does not play in the match. -/
def smallestRoundWithReferee : Nat := 3

/-- The smallest round that has an ideal table. -/
def idealFrom : Nat := 5

/-- The largest round that has an ideal table. -/
def idealTo : Nat := 14

/-- The smallest round whose turns are put in a new order, unless the settings say otherwise. -/
def sequencedFrom : Nat := 3

/-- The largest round whose turns are put in a new order, unless the settings say otherwise. -/
def sequencedTo : Nat := 9

end Matchday.Limits
