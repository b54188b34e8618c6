/-
# Ideal tables

For five to fourteen participants there are tables of pairings in which home and guest matches
alternate as strictly as they can: an odd number of participants never repeats a role, an even
number `n` does so exactly `n - 2` times in the whole leg, and nobody plays three times in a row
in one role. The tables cannot be computed cheaply, so they stand here as data.

A table is a list of turns, and a turn a list of pairings, the participant at home first.
Participants go by number, counted from one. The table for twelve gives the first listed the
home match, as the usual tables for tournaments of twelve do.
-/
namespace Matchday.Ideal

/-- The pairings of one turn. -/
abbrev Turn := List (Nat × Nat)

/-- The table for five participants. -/
def forFive : List Turn := [
  [(4, 3), (5, 2)],
  [(1, 4), (3, 5)],
  [(2, 3), (5, 1)],
  [(1, 2), (4, 5)],
  [(2, 4), (3, 1)]]

/-- The table for six participants. -/
def forSix : List Turn := [
  [(1, 5), (3, 2), (6, 4)],
  [(2, 6), (4, 1), (5, 3)],
  [(1, 2), (3, 6), (5, 4)],
  [(2, 4), (3, 1), (6, 5)],
  [(1, 6), (4, 3), (5, 2)]]

/-- The table for seven participants. -/
def forSeven : List Turn := [
  [(5, 4), (6, 3), (7, 2)],
  [(1, 6), (3, 5), (4, 7)],
  [(2, 4), (5, 1), (7, 3)],
  [(1, 7), (3, 2), (6, 5)],
  [(2, 1), (4, 3), (7, 6)],
  [(1, 4), (5, 7), (6, 2)],
  [(2, 5), (3, 1), (4, 6)]]

/-- The table for eight participants. -/
def forEight : List Turn := [
  [(1, 7), (3, 6), (5, 4), (8, 2)],
  [(2, 5), (4, 3), (6, 1), (7, 8)],
  [(1, 4), (3, 2), (5, 8), (7, 6)],
  [(2, 1), (4, 7), (5, 3), (8, 6)],
  [(1, 5), (3, 8), (6, 4), (7, 2)],
  [(2, 6), (3, 1), (5, 7), (8, 4)],
  [(1, 8), (4, 2), (6, 5), (7, 3)]]

/-- The table for nine participants. -/
def forNine : List Turn := [
  [(6, 5), (7, 4), (8, 3), (9, 2)],
  [(1, 8), (3, 6), (4, 9), (5, 7)],
  [(2, 4), (6, 1), (7, 3), (9, 5)],
  [(1, 7), (3, 9), (5, 2), (8, 6)],
  [(2, 3), (4, 5), (7, 8), (9, 1)],
  [(1, 2), (3, 4), (6, 7), (8, 9)],
  [(2, 8), (4, 1), (5, 3), (9, 6)],
  [(1, 5), (6, 2), (7, 9), (8, 4)],
  [(2, 7), (3, 1), (4, 6), (5, 8)]]

/-- The table for ten participants. -/
def forTen : List Turn := [
  [(1, 9), (3, 7), (6, 2), (8, 5), (10, 4)],
  [(2, 10), (4, 8), (5, 3), (7, 1), (9, 6)],
  [(1, 5), (3, 4), (6, 10), (8, 2), (9, 7)],
  [(2, 3), (4, 1), (5, 9), (7, 6), (10, 8)],
  [(1, 2), (3, 10), (6, 8), (7, 5), (9, 4)],
  [(2, 9), (4, 7), (5, 6), (8, 3), (10, 1)],
  [(1, 8), (3, 6), (5, 4), (7, 2), (9, 10)],
  [(2, 5), (3, 1), (6, 4), (8, 9), (10, 7)],
  [(1, 6), (4, 2), (5, 10), (7, 8), (9, 3)]]

/-- The table for eleven participants. -/
def forEleven : List Turn := [
  [(7, 6), (8, 5), (9, 4), (10, 3), (11, 2)],
  [(1, 10), (3, 8), (4, 11), (5, 7), (6, 9)],
  [(2, 4), (7, 3), (8, 1), (9, 5), (11, 6)],
  [(1, 7), (3, 9), (5, 11), (6, 2), (10, 8)],
  [(2, 5), (4, 6), (7, 10), (9, 1), (11, 3)],
  [(1, 11), (3, 2), (5, 4), (8, 7), (10, 9)],
  [(2, 1), (4, 3), (6, 5), (9, 8), (11, 10)],
  [(1, 4), (3, 6), (7, 9), (8, 11), (10, 2)],
  [(2, 8), (4, 10), (5, 3), (6, 1), (11, 7)],
  [(1, 5), (7, 2), (8, 4), (9, 11), (10, 6)],
  [(2, 9), (3, 1), (4, 7), (5, 10), (6, 8)]]

/-- The table for twelve participants. -/
def forTwelve : List Turn := [
  [(1, 12), (2, 11), (3, 10), (4, 9), (5, 8), (6, 7)],
  [(12, 7), (8, 6), (9, 5), (10, 4), (11, 3), (1, 2)],
  [(2, 12), (3, 1), (4, 11), (5, 10), (6, 9), (7, 8)],
  [(12, 8), (9, 7), (10, 6), (11, 5), (1, 4), (2, 3)],
  [(3, 12), (4, 2), (5, 1), (6, 11), (7, 10), (8, 9)],
  [(12, 9), (10, 8), (11, 7), (1, 6), (2, 5), (3, 4)],
  [(4, 12), (5, 3), (6, 2), (7, 1), (8, 11), (9, 10)],
  [(12, 10), (11, 9), (1, 8), (2, 7), (3, 6), (4, 5)],
  [(5, 12), (6, 4), (7, 3), (8, 2), (9, 1), (10, 11)],
  [(12, 11), (1, 10), (2, 9), (3, 8), (4, 7), (5, 6)],
  [(6, 12), (7, 5), (8, 4), (9, 3), (10, 2), (11, 1)]]

/-- The table for thirteen participants. -/
def forThirteen : List Turn := [
  [(8, 7), (9, 6), (10, 5), (11, 4), (12, 3), (13, 2)],
  [(1, 12), (3, 10), (4, 13), (5, 8), (6, 11), (7, 9)],
  [(2, 4), (8, 3), (9, 5), (10, 1), (11, 7), (13, 6)],
  [(1, 8), (3, 9), (5, 11), (6, 2), (7, 13), (12, 10)],
  [(2, 7), (4, 6), (8, 12), (9, 1), (11, 3), (13, 5)],
  [(1, 11), (3, 13), (5, 2), (7, 4), (10, 8), (12, 9)],
  [(2, 3), (4, 5), (6, 7), (9, 10), (11, 12), (13, 1)],
  [(1, 2), (3, 4), (5, 6), (8, 9), (10, 11), (12, 13)],
  [(2, 12), (4, 1), (6, 3), (7, 5), (11, 8), (13, 10)],
  [(1, 6), (3, 7), (8, 13), (9, 11), (10, 2), (12, 4)],
  [(2, 8), (4, 10), (5, 3), (6, 12), (7, 1), (13, 9)],
  [(1, 5), (8, 4), (9, 2), (10, 6), (11, 13), (12, 7)],
  [(2, 11), (3, 1), (4, 9), (5, 12), (6, 8), (7, 10)]]

/-- The table for fourteen participants. -/
def forFourteen : List Turn := [
  [(1, 14), (4, 9), (6, 7), (8, 5), (10, 3), (12, 2), (13, 11)],
  [(2, 10), (3, 8), (5, 6), (7, 4), (9, 13), (11, 1), (14, 12)],
  [(1, 9), (4, 5), (6, 3), (8, 2), (10, 12), (11, 14), (13, 7)],
  [(2, 6), (3, 4), (5, 13), (7, 1), (9, 11), (12, 8), (14, 10)],
  [(1, 5), (4, 2), (6, 12), (8, 10), (9, 14), (11, 7), (13, 3)],
  [(2, 13), (3, 1), (5, 11), (7, 9), (10, 6), (12, 4), (14, 8)],
  [(1, 2), (4, 10), (6, 8), (7, 14), (9, 5), (11, 3), (13, 12)],
  [(2, 11), (3, 9), (5, 7), (8, 4), (10, 13), (12, 1), (14, 6)],
  [(1, 10), (4, 6), (5, 14), (7, 3), (9, 2), (11, 12), (13, 8)],
  [(2, 7), (3, 5), (6, 13), (8, 1), (10, 11), (12, 9), (14, 4)],
  [(1, 6), (3, 14), (5, 2), (7, 12), (9, 10), (11, 8), (13, 4)],
  [(2, 3), (4, 1), (6, 11), (8, 9), (10, 7), (12, 5), (13, 14)],
  [(1, 13), (3, 12), (5, 10), (7, 8), (9, 6), (11, 4), (14, 2)]]

/-- The tables by number of participants. -/
def tables : List (Nat × List Turn) := [
  (5, forFive), (6, forSix), (7, forSeven), (8, forEight), (9, forNine), (10, forTen),
  (11, forEleven), (12, forTwelve), (13, forThirteen), (14, forFourteen)]

end Matchday.Ideal
