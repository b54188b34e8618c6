/-
# Failures of a planner are reported

A planner is put together from parts that report their rejections, and so does it.  One of them is
caught.  Where ideal tables are to be used and there is none for the number of participants, the
planner falls back on the circle (`FallsBack`), and by then the record of the table that was not
found is written.

So this record may stand in the log of a request that succeeds, as it does for any three participants
(`leg_of_three_writes_error`), and it is the only one at the level `error` that may.  Apart from it
a request writes such a record just when it is turned away, and that record is the report of the
rejection (`error_records`).
-/
import Matchday.Proofs.Ideal
import Matchday.Proofs.Planner.Sessions
import Matchday.Proofs.Records.Parts

namespace Matchday.Planner

open Outcome (reports_pure reports_reject reports_ofExcept reports_writeAll)

/-! ## 1. Setting up -/

theorem reports_create (kind refereeKind : Kind) (s : Settings) :
    Outcome.Reports [] (create kind refereeKind s) := by
  unfold create
  split
  · exact s.reports_validate.bind fun _ _ => reports_pure _
  · exact reports_reject _

/-- **Participants that are not accepted are reported.** -/
theorem reports_accept (kind : Kind) (source : Source) :
    Outcome.Reports [] (accept kind source) := by
  unfold accept
  split
  · exact reports_reject _
  refine (reports_ofExcept source.noRejection_items).bind fun items _ => ?_
  split
  · exact reports_reject _
  split
  · exact reports_reject _
  split
  · exact reports_pure _
  · exact reports_reject _

theorem reports_setParticipants (source : Source) : Action.Reports (setParticipants source) :=
  Action.reports_state.bind fun _ =>
    (Action.reports_lift (reports_accept _ source)).bind fun _ => Action.reports_change _

/-! ## 2. Schedules -/

section Schedules

variable {s : Settings} {ps : List Value}

theorem noRejection_isWithin (lower upper : Value) (n : Nat) :
    NoRejection (isWithin lower upper n) := by
  unfold isWithin
  split
  · exact .misused _
  · exact .ok _
  · split
    · exact .misused _
    · exact .ok _

theorem reports_circled (s : Settings) (ps : List Value) :
    Outcome.Reports [] (circled s ps) := by
  refine (Circle.reports_plan ps).bind fun ms _ =>
    (reports_ofExcept (noRejection_isWithin _ _ _)).bind fun within _ => ?_
  split
  · exact Sequencer.reports_sequence _
  · exact reports_pure _

/-- An ideal table is wanted and there is none. -/
def LacksTable (s : Settings) (n : Nat) : Prop :=
  s.usesIdeal.isOn = true ∧ (n < Limits.idealFrom ∨ Limits.idealTo < n)

theorem lookup_eq_none_iff {n : Nat} :
    Ideal.tables.lookup n = none ↔ n < Limits.idealFrom ∨ Limits.idealTo < n := by
  have h := not_congr (Ideal.exists_table_iff (n := n))
  rw [← Option.isSome_iff_exists, Option.not_isSome_iff_eq_none] at h
  rw [h, Limits.idealFrom, Limits.idealTo]
  omega

/-- **Falling back leaves a record** of the table that was not found, and no other. -/
theorem reports_schedule_of_lacksTable (h : LacksTable s ps.length) :
    Outcome.Reports [(Rejection.noTable ps.length).record] (schedule s ps) := by
  unfold schedule Ideal.plan
  rw [if_pos h.1, Ideal.schedule?_eq_none (lookup_eq_none_iff.mpr h.2)]
  refine Outcome.reports_orElseOn rfl ((reports_writeAll fun r hr => ?_).bind fun _ _ =>
    reports_circled s ps)
  rw [List.mem_singleton.mp hr]
  exact nofun

/-- Otherwise there is none. -/
theorem reports_schedule (h : ¬ LacksTable s ps.length) :
    Outcome.Reports [] (schedule s ps) := by
  unfold schedule
  split
  · rename_i hon
    cases htable : Ideal.tables.lookup ps.length with
    | none => exact absurd ⟨hon, lookup_eq_none_iff.mp htable⟩ h
    | some turns =>
      obtain ⟨hplan, ms, hms⟩ :
          Outcome.Reports [] (Ideal.plan ps) ∧ ∃ ms, (Ideal.plan ps).result = .ok ms := by
        unfold Ideal.plan
        rw [Ideal.schedule?_eq htable]
        exact ⟨rfl, _, rfl⟩
      exact Outcome.reports_orElseOn_of_ok hplan hms _
  · exact reports_circled s ps

end Schedules

/-! ## 3. Legs -/

section Legs

variable {p : Planner}

theorem reports_requireCount (rule : RefereeRule) (n : Nat) :
    Outcome.Reports [] (requireCount rule n) := by
  unfold requireCount
  split
  · exact reports_reject _
  split
  · exact reports_reject _
  · exact reports_pure _

/-- The participants are enough just when nothing is said against them. -/
theorem requireCount_eq_ok_iff {rule : RefereeRule} {n : Nat} :
    (requireCount rule n).result = .ok () ↔
      Limits.smallestRound ≤ n ∧ (rule = .other → Limits.smallestRoundWithReferee ≤ n) := by
  unfold requireCount
  split
  · rename_i hfew
    exact ⟨nofun, fun h => absurd h.1 (Nat.not_le_of_lt hfew)⟩
  · rename_i henough
    split
    · rename_i hfew
      exact ⟨nofun, fun h => absurd (h.2 hfew.1) (Nat.not_le_of_lt hfew.2)⟩
    · rename_i hreferee
      refine ⟨fun _ => ⟨Nat.le_of_not_lt henough, fun hother => ?_⟩, fun _ => rfl⟩
      exact Nat.le_of_not_lt fun hfew => hreferee ⟨hother, hfew⟩

/-- After its schedule, a draft takes referees, and whoever is missing is reported. -/
theorem reports_draft {rule : RefereeRule} {before : List Record}
    (hcount : (requireCount rule p.participants.length).result = .ok ())
    (hschedule : Outcome.Reports before (schedule p.settings p.participants)) :
    Outcome.Reports before (draft p rule) := by
  refine Outcome.reports_bind_of_ok (reports_requireCount _ _) hcount ?_
  refine Outcome.reports_bind_of_ok (a := ()) (reports_writeAll fun r hr => ?_) rfl ?_
  · rw [List.mem_singleton.mp hr]
    exact nofun
  · exact hschedule.bind fun ms _ =>
      ((reports_ofExcept (Source.noRejection_items _)).bind fun _ _ => reports_pure _).bind
        fun rota _ => (Rota.reports_assignAll _ rota).bind fun _ _ => reports_pure _

/-- **The planner falls back on the circle.**  Rule and half are defined, the participants are
enough, an ideal table is wanted and there is none for so many. -/
structure FallsBack (p : Planner) (rule half : Value) : Prop where
  enough : ∃ r, (p.ruleFor rule).result = .ok r ∧
    Limits.smallestRound ≤ p.participants.length ∧
    (r = .other → Limits.smallestRoundWithReferee ≤ p.participants.length)
  half : ∃ h, (Half.read half).result = .ok h
  lacksTable : LacksTable p.settings p.participants.length

theorem reports_ruleFor (p : Planner) (rule : Value) : Outcome.Reports [] (p.ruleFor rule) := by
  unfold ruleFor
  split
  · exact Choice.reports_read _ _
  · exact Choice.reports_read _ _

/-- **A leg is reported on**: the record of a table that was not found comes first where the planner
falls back, and a rejection last. -/
theorem reports_leg_of_fallsBack {rule half : Value} (h : p.FallsBack rule half) :
    Outcome.Reports [(Rejection.noTable p.participants.length).record] (p.leg rule half) := by
  obtain ⟨⟨r, hr, hcount⟩, ⟨h', hhalf⟩, hlacks⟩ := h
  refine Outcome.reports_bind_of_ok (reports_ruleFor p rule) hr ?_
  refine Outcome.reports_bind_of_ok (Choice.reports_read _ half) hhalf ?_
  exact (reports_draft (requireCount_eq_ok_iff.mpr hcount)
    (reports_schedule_of_lacksTable hlacks)).bind fun _ _ => reports_pure _

theorem reports_leg {rule half : Value} (h : ¬ p.FallsBack rule half) :
    Outcome.Reports [] (p.leg rule half) := by
  refine (reports_ruleFor p rule).bind fun r hr => (Choice.reports_read _ half).bind
    fun h' hhalf => Outcome.Reports.bind ?_ fun _ _ => reports_pure _
  cases hcount : (requireCount r p.participants.length).result with
  | error e => exact Outcome.reports_bind_of_error (reports_requireCount _ _) hcount
  | ok =>
    exact reports_draft hcount (reports_schedule fun hlacks =>
      h ⟨⟨r, hr, requireCount_eq_ok_iff.mp hcount⟩, ⟨h', hhalf⟩, hlacks⟩)

end Legs

/-! ## 4. Requests -/

section Requests

variable {d : Desk}

/-- The request makes the planner fall back on the circle. -/
def Request.FallsBack (p : Planner) : Request → Prop
  | .leg rule half _ => p.FallsBack rule half
  | _ => False

theorem noRejection_place? (d : Desk) (name : String) : NoRejection (d.place? name) := by
  unfold Desk.place?
  split
  · exact .ok _
  · exact .misused _

theorem noRejection_leg? (d : Desk) (name : String) : NoRejection (d.leg? name) :=
  (noRejection_place? d name).bind fun _ => .ok _

theorem reports_onLeg (name : String) (q : Leg.Request) : Action.Reports (onLeg name q) := by
  intro d
  unfold onLeg
  split
  · rename_i e he
    exact Outcome.reports_fail fun r hr => noRejection_place? d name r (hr ▸ he)
  · exact Leg.reports_answer q _

/-- **A request that falls back** reports the table that was not found. -/
theorem reports_answer_of_fallsBack {r : Request} (h : r.FallsBack d.planner) :
    Outcome.Reports [(Rejection.noTable d.planner.participants.length).record]
      (answer r d).1 := by
  cases r with
  | leg rule half name =>
    rw [fst_answer_leg]
    exact (reports_leg_of_fallsBack h).bind fun _ _ => reports_pure _
  | _ => cases h

/-- **Any other request** reports its rejection and nothing else. -/
theorem reports_answer {r : Request} (h : ¬ r.FallsBack d.planner) :
    Outcome.Reports [] (answer r d).1 := by
  cases r with
  | participants | matchesPerLeg => exact reports_pure _
  | setParticipants source =>
    have hset : Action.Reports (onPlanner (setParticipants source)) := fun d =>
      reports_setParticipants source d.planner
    exact (hset.bind fun _ => (Action.reports_change _).bind fun _ =>
      Action.reports_state.bind fun _ => Action.reports_pure _) d
  | leg rule half name =>
    rw [fst_answer_leg]
    exact (reports_leg h).bind fun _ _ => reports_pure _
  | set name v =>
    exact (Action.reports_state.bind fun d =>
      (Action.reports_lift (reports_ofExcept (Settings.Panel.noRejection_give _ name v))).bind
        fun _ => (Action.reports_change _).bind fun _ => Action.reports_pure _) d
  | sameLegs name other =>
    exact (Action.reports_state.bind fun d =>
      (Action.reports_lift (reports_ofExcept (noRejection_leg? d name))).bind fun _ =>
        (Action.reports_lift (reports_ofExcept (noRejection_leg? d other))).bind fun _ =>
          Action.reports_pure _) d
  | ofLeg name q =>
    exact ((reports_onLeg name q).bind fun _ => Action.reports_pure _) d

end Requests

/-! ## 5. Whole sessions -/

/-- **Records at the level `error` tell of rejections.**  Settings and planners that are made write
one just when they are turned away.  So does every request in a session, except one that falls back
on the circle: that one writes the record of the table that was not found, whatever comes after.
All other records at the level are the reports of rejections, and a request that succeeds and does
not fall back writes none. -/
theorem error_records (kind refereeKind : Kind) (settings : Settings) (rs : List Request)
    (r : Request) :
    (∀ entries, ((Settings.create entries).WritesError ↔ (Settings.create entries).IsRejected) ∧
      ((Settings.ofEntries entries).WritesError ↔ (Settings.ofEntries entries).IsRejected)) ∧
    ((create kind refereeKind settings).WritesError ↔
      (create kind refereeKind settings).IsRejected) ∧
    ∃ d : Desk, (Session.run answer rs (.opened ⟨kind, refereeKind, settings, []⟩)).2 = d ∧
      d.planner = ⟨kind, refereeKind, settingsOfMoment settings rs, lastAccepted kind rs⟩ ∧
      ((answer r d).1.WritesError ↔ (answer r d).1.IsRejected ∨ r.FallsBack d.planner) ∧
      (r.FallsBack d.planner → visibleAt .error (answer r d).1.log
        = (Rejection.noTable d.planner.participants.length).record
          :: reported (answer r d).1.result) ∧
      (¬ r.FallsBack d.planner → visibleAt .error (answer r d).1.log
        = reported (answer r d).1.result) ∧
      (∀ a, (answer r d).1.result = .ok a → ∀ e ∈ (answer r d).1.log, e.level = .error →
        r.FallsBack d.planner ∧
          e = (Rejection.noTable d.planner.participants.length).record) := by
  have hmade : ∀ {α : Type} {x : Outcome α}, Outcome.Reports [] x →
      (x.WritesError ↔ x.IsRejected) := fun h =>
    h.writesError_iff.trans (or_iff_left (not_not_intro rfl))
  refine ⟨fun entries => ⟨hmade (Settings.reports_create entries),
    hmade (Settings.reports_ofEntries entries)⟩, hmade (reports_create _ _ _), _, rfl,
    planner_run rfl rs, ?_⟩
  generalize (Session.run answer rs (.opened ⟨kind, refereeKind, settings, []⟩)).2 = d
  refine ⟨?_, reports_answer_of_fallsBack, reports_answer, fun a ha e he hlevel => ?_⟩
  · by_cases hfalls : r.FallsBack d.planner
    · refine (reports_answer_of_fallsBack hfalls).writesError_iff.trans (or_congr_right ?_)
      exact iff_of_true (List.cons_ne_nil _ _) hfalls
    · refine (reports_answer hfalls).writesError_iff.trans (or_congr_right ?_)
      exact iff_of_false (not_not_intro rfl) hfalls
  · have hvisible := mem_visibleAt_error.mpr ⟨he, hlevel⟩
    by_cases hfalls : r.FallsBack d.planner
    · rw [reports_answer_of_fallsBack hfalls, ha] at hvisible
      exact ⟨hfalls, List.mem_singleton.mp hvisible⟩
    · rw [reports_answer hfalls, ha] at hvisible
      exact absurd hvisible List.not_mem_nil

/-- Three participants have a leg, and yet a record at the level `error`: there is no ideal table
for three, and the settings of a new planner ask for one. -/
theorem leg_of_three_writes_error :
    ∃ d : Desk, (Session.run answer
        [.setParticipants (.value (.list [.int 1, .int 2, .int 3]))]
        (.opened ⟨.any, .any, .default, []⟩)).2 = d ∧
      (∃ a, (answer (.leg .none (.half .first) "a") d).1.result = .ok a) ∧
      ¬ ((answer (.leg .none (.half .first) "a") d).1.WritesError ↔
        (answer (.leg .none (.half .first) "a") d).1.IsRejected) := by
  obtain ⟨a, ha⟩ : ∃ a, (answer (.leg .none (.half .first) "a") (Session.run answer
      [.setParticipants (.value (.list [.int 1, .int 2, .int 3]))]
      (.opened ⟨.any, .any, .default, []⟩)).2).1.result = .ok a := ⟨_, rfl⟩
  refine ⟨_, rfl, ⟨a, ha⟩, fun h => ?_⟩
  have hfalls : Request.FallsBack (Session.run answer
      [.setParticipants (.value (.list [.int 1, .int 2, .int 3]))]
      (.opened ⟨.any, .any, .default, []⟩)).2.planner (.leg .none (.half .first) "a") :=
    ⟨⟨.nobody, rfl, by decide, nofun⟩, ⟨.first, rfl⟩, rfl, Or.inl (by decide)⟩
  obtain ⟨r, hr⟩ := h.mp ((reports_answer_of_fallsBack hfalls).writesError_iff.mpr
    (Or.inr (List.cons_ne_nil _ _)))
  cases ha.symm.trans hr

end Matchday.Planner
