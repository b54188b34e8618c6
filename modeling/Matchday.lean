import Matchday.Balance
import Matchday.Choice
import Matchday.Choice.Reading
import Matchday.Circle
import Matchday.Decimal
import Matchday.Equality
import Matchday.Fault
import Matchday.Ideal
import Matchday.Ideal.Tables
import Matchday.Leg
import Matchday.Leg.Session
import Matchday.Limits
import Matchday.Log
import Matchday.Log.Threshold
import Matchday.Match
import Matchday.NextTurn
import Matchday.Number
import Matchday.Outcome
import Matchday.Pick
import Matchday.Planner
import Matchday.Planner.Session
import Matchday.Proofs.Blocks
import Matchday.Proofs.Breaks
import Matchday.Proofs.Circle.Breaks
import Matchday.Proofs.Circle.Byes
import Matchday.Proofs.Circle.Counts
import Matchday.Proofs.Circle.Meetings
import Matchday.Proofs.Circle.Round
import Matchday.Proofs.Circle.Schedule
import Matchday.Proofs.Circle.Seating
import Matchday.Proofs.Counting
import Matchday.Proofs.Distinct
import Matchday.Proofs.Ideal
import Matchday.Proofs.Keys
import Matchday.Proofs.Leg
import Matchday.Proofs.Numbering
import Matchday.Proofs.Picks
import Matchday.Proofs.Planner.Acceptance
import Matchday.Proofs.Planner.Attendance
import Matchday.Proofs.Planner.Evenness
import Matchday.Proofs.Planner.Legs
import Matchday.Proofs.Planner.Participants
import Matchday.Proofs.Planner.Paths
import Matchday.Proofs.Planner.Positions
import Matchday.Proofs.Planner.Records
import Matchday.Proofs.Planner.Referees
import Matchday.Proofs.Planner.Sessions
import Matchday.Proofs.Planner.Success
import Matchday.Proofs.Planner.Turns
import Matchday.Proofs.Rearrangement
import Matchday.Proofs.Records
import Matchday.Proofs.Records.Parts
import Matchday.Proofs.Renaming
import Matchday.Proofs.Roles
import Matchday.Proofs.Rota.Duties
import Matchday.Proofs.Rota.Levels
import Matchday.Proofs.Rota.Places
import Matchday.Proofs.Rota.Rounds
import Matchday.Proofs.Rota.Sessions
import Matchday.Proofs.Rota.SmallRounds
import Matchday.Proofs.Round
import Matchday.Proofs.Runs
import Matchday.Proofs.Sequencer.Forms
import Matchday.Proofs.Sequencer.Greedy
import Matchday.Proofs.Sequencer.Order
import Matchday.Proofs.Sequencer.Picking
import Matchday.Proofs.Sequencer.Questions
import Matchday.Proofs.Sequencer.Renaming
import Matchday.Proofs.Sequencer.Repeats
import Matchday.Proofs.Sequencer.Sessions
import Matchday.Proofs.Sequencer.Steps
import Matchday.Proofs.Sequencer.Swapping
import Matchday.Proofs.Settings
import Matchday.Proofs.Sorting
import Matchday.Proofs.Streaks
import Matchday.Proofs.Tables
import Matchday.Rota
import Matchday.Row
import Matchday.Sequencer
import Matchday.Sequencer.Session
import Matchday.Session
import Matchday.Settings
import Matchday.Settings.Panel
import Matchday.Settings.Session
import Matchday.Source
import Matchday.Streak
import Matchday.Summary
import Matchday.Tally
import Matchday.Text.Capitals
import Matchday.Text.Printable
import Matchday.Text.Quoted
import Matchday.Text.Whole
import Matchday.Value
import Matchday.Value.Equivalence
import Matchday.Value.Key
import Matchday.Value.Kind
import Matchday.Value.Order
import Matchday.Value.Parts
import Matchday.Value.Same
import Matchday.Value.Written
