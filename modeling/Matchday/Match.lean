/-
# Matches

A match has a turn, a participant at home and a guest. Schedules are lists of matches in playing
order. What a turn and a participant are is left open: schedules of positions become schedules of
participants by `Match.map`, and a fixture is a match of arbitrary values.

Turns and participants are compared by `==`, which for values is coarser than equality. Where
several are the same, the first one stands for all.
-/
import Matchday.Value.Equivalence

namespace Matchday

/-! ## 1. One match -/

/-- A match of a turn between two participants. -/
structure Match (τ α : Type) where
  turn : τ
  home : α
  guest : α
deriving DecidableEq

/-- A role in a match. -/
inductive Role where
  | home
  | guest
deriving DecidableEq

/-- The opposite role. -/
def Role.opposite : Role → Role
  | .home => .guest
  | .guest => .home

namespace Match

variable {τ τ' α β : Type}

/-- The same match the other way round. -/
def swapped (m : Match τ α) : Match τ α := ⟨m.turn, m.guest, m.home⟩

/-- The participant in a role. -/
def player (m : Match τ α) : Role → α
  | .home => m.home
  | .guest => m.guest

/-- Both participants, the one at home first. -/
def players (m : Match τ α) : List α := [m.home, m.guest]

/-- The match with its turn and its participants renamed. -/
def map (f : τ → τ') (g : α → β) (m : Match τ α) : Match τ' β :=
  ⟨f m.turn, g m.home, g m.guest⟩

@[simp] theorem turn_swapped (m : Match τ α) : m.swapped.turn = m.turn := rfl

@[simp] theorem turn_map (f : τ → τ') (g : α → β) (m : Match τ α) : (m.map f g).turn = f m.turn :=
  rfl

@[simp] theorem player_map (f : τ → τ') (g : α → β) (m : Match τ α) (r : Role) :
    (m.map f g).player r = g (m.player r) := by cases r <;> rfl

@[simp] theorem swapped_map (f : τ → τ') (g : α → β) (m : Match τ α) :
    (m.map f g).swapped = m.swapped.map f g := rfl

end Match

/-- A match of values. -/
abbrev Fixture := Match Value Value

/-! ## 2. Schedules -/

namespace Schedule

variable {τ α : Type}

/-- The turns of a schedule, in order of first appearance. -/
def turns [BEq τ] (ms : List (Match τ α)) : List τ := (ms.map (·.turn)).eraseDups

/-- The matches of a turn, in playing order: those whose turn is equal to it. -/
def ofTurn [BEq τ] [Equality τ] (ms : List (Match τ α)) (t : τ) : List (Match τ α) :=
  ms.filter fun m => equals m.turn t

/-- A turn that is equal to itself has all matches with a turn that is the same. -/
theorem ofTurn_eq_filter [BEq τ] [Equality τ] [PartialEquivBEq τ] {t : τ}
    (ht : equals t t = true) (ms : List (Match τ α)) : ofTurn ms t = ms.filter (·.turn == t) :=
  List.filter_congr fun m _ => equals_eq_beq ht m.turn

/-- The participants of a schedule, in order of first appearance. -/
def players [BEq α] (ms : List (Match τ α)) : List α := (ms.flatMap Match.players).eraseDups

/-- The participants who are at home. -/
def homes (ms : List (Match τ α)) : List α := ms.map (·.home)

end Schedule
end Matchday
