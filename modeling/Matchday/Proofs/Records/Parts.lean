/-
# What the parts of planning report

Choices and settings, the circle, the sequencer, the referees, the legs: each of them reports its
rejections and nothing else at the level `error`.  For every part this is put together from the steps
it is made of, along the lines of the program; a loop goes by induction on the list it runs over.

Most of what can go wrong is a misuse, of which the log says nothing.  Only choices, settings and
referees turn anything away.  The circle, the sequencer and the legs do not, whatever they are given.
-/
import Matchday.Leg.Session
import Matchday.Planner
import Matchday.Proofs.Records
import Matchday.Proofs.Sequencer.Swapping
import Matchday.Settings.Panel

namespace Matchday

open Outcome (reports_pure reports_reject reports_misuse reports_ofExcept reports_writeAll)

/-! ## 1. Choices and settings -/

theorem Choice.reports_read {β : Type} (c : Choice β) (v : Value) :
    Outcome.Reports [] (c.read v) := by
  unfold Choice.read
  split
  · exact reports_pure _
  · exact reports_reject _

namespace Settings

theorem reports_validate (s : Settings) : Outcome.Reports [] s.validate := by
  unfold validate
  split
  · exact reports_misuse _
  · exact reports_reject _
  · split
    · exact reports_misuse _
    · exact reports_reject _
    · exact reports_pure _

theorem reports_withRule (s : Settings) : Outcome.Reports [] s.withRule :=
  (Choice.reports_read _ _).bind fun _ _ => reports_pure _

/-- **Making settings reports** what it turns away. -/
theorem reports_create (entries : Entries) : Outcome.Reports [] (create entries) := by
  unfold create
  split
  · exact reports_withRule _
  · exact reports_misuse _

theorem reports_ofEntries (entries : Entries) : Outcome.Reports [] (ofEntries entries) :=
  (reports_withRule _).bind fun s _ => (reports_validate s).bind fun _ _ => reports_pure s

theorem Panel.noRejection_give (p : Panel) (name : String) (v : Value) :
    NoRejection (p.give name v) := by
  unfold give
  split
  · exact .misused _
  · exact .misused _
  · split
    · exact .ok _
    · exact .misused _
  · exact .ok _

end Settings

/-! ## 2. Collections and keys -/

theorem Value.noRejection_asKey (v : Value) : NoRejection v.asKey := .ite (.ok _) (.misused _)

theorem Value.noRejection_asSought (v : Value) : NoRejection v.asSought := by
  unfold asSought
  split
  · exact .ok _
  · exact v.noRejection_asKey

theorem Source.noRejection_items (source : Source) : NoRejection source.items := by
  unfold items
  split
  all_goals first | exact .ok _ | exact .misused _

namespace Row

theorem noRejection_fixture (r : Row) : NoRejection r.fixture := by
  unfold fixture
  split
  · exact .ok _
  · exact .misused _

theorem noRejection_part (r : Row) (i : Nat) : NoRejection (r.part i) := by
  unfold part
  split
  · exact .ok _
  · exact .misused _

theorem noRejection_counted (m : Fixture) : NoRejection (counted m) :=
  m.home.noRejection_asKey.bind fun _ => m.guest.noRejection_asKey.bind fun _ => .ok m

theorem noRejection_timed (m : Fixture) : NoRejection (timed m) :=
  m.turn.noRejection_asKey.bind fun _ => .ok m

end Row

/-! ## 3. The circle -/

/-- **Repairing a turn rejects nothing.** -/
theorem Balance.reports_repair (t : Value) (ms : List Fixture) :
    Outcome.Reports [] (repair t ms) := by
  refine (reports_ofExcept (.mapM fun m _ => Row.noRejection_counted m)).bind fun ns _ =>
    (reports_writeAll fun r hr => ?_).bind fun _ _ => reports_pure _
  obtain ⟨m, -, hm⟩ := List.mem_filterMap.mp hr
  obtain ⟨t, -, rfl⟩ := Option.map_eq_some_iff.mp hm
  exact nofun

theorem Circle.reports_plan (ps : List Value) : Outcome.Reports [] (plan ps) := by
  refine (reports_writeAll fun r hr => ?_).bind fun _ _ => ?_
  · rcases List.mem_cons.mp hr with rfl | hr
    · exact nofun
    · obtain ⟨t, -, rfl⟩ := List.mem_map.mp hr
      exact nofun
  · split
    · exact reports_pure _
    · exact Balance.reports_repair _ _

/-! ## 4. The sequencer -/

namespace NextTurn

theorem noRejection_allSplit (team : List Value) (ms : List Fixture) :
    NoRejection (allSplit team ms) := by
  induction ms with
  | nil => exact .ok true
  | cons m ms ih =>
    exact m.home.noRejection_asSought.bind fun _ =>
      m.guest.noRejection_asSought.bind fun _ => .ite ih (.ok false)

theorem noRejection_apart? (ms : List Fixture) (last : Value) (turns : List Value) :
    NoRejection (apart? ms last turns none) := by
  refine (NoRejection.mapM fun v _ => v.noRejection_asKey).bind fun _ => ?_
  induction turns with
  | nil => exact .ok none
  | cons t ts ih =>
    refine (noRejection_allSplit _ _).bind fun split => ?_
    cases split with
    | true => exact .ok _
    | false => exact ih

end NextTurn

namespace Sequencer

theorem noRejection_formOf (ps : List Value) (ms : List Fixture) (p : Value) :
    NoRejection (formOf ps ms p) :=
  p.noRejection_asKey.bind fun _ => .ite (.ok _) (.misused _)

theorem noRejection_repeatsRole (placed : List Value) (working : List Fixture) (m : Fixture) :
    NoRejection (repeatsRole placed working m) := by
  unfold repeatsRole
  split
  · exact .misused _
  · exact .ok _

theorem noRejection_wantsSwap {home guest : Form} {repeated : Except Fault Bool}
    (h : NoRejection repeated) : NoRejection (wantsSwap home guest repeated) :=
  .ite (.ok _) (.ite (.ok _) (.ite (.ok _) (.ite h (.ok _))))

/-- **Deciding about a swap rejects nothing.** -/
theorem noRejection_decides (s : Sequencer) (working : List Fixture) (m : Fixture) :
    NoRejection (s.decides working m) :=
  (noRejection_formOf _ _ _).bind fun _ => (noRejection_formOf _ _ _).bind fun _ =>
    noRejection_wantsSwap (noRejection_repeatsRole _ _ _)

/-- The fault that ends a pass is that of a decision. -/
theorem exists_of_fault_swapTurn {wants : List Fixture → Fixture → Except Fault Bool} {t : Value}
    {before ms : List Fixture} {e : Fault} (h : (swapTurn wants t before ms).fault = some e) :
    ∃ ns m, wants ns m = .error e := by
  induction ms generalizing before with
  | nil => cases h
  | cons m ms ih =>
    rw [swapTurn] at h
    split at h
    · split at h
      · rename_i e' hwants
        cases h
        exact ⟨_, m, hwants⟩
      · rw [fault_cons] at h
        exact ih h
    · rw [fault_cons] at h
      exact ih h

theorem fault_pass_ne (s : Sequencer) (t : Value) (r : Rejection) :
    (s.pass t).fault ≠ some (.rejected r) := by
  intro h
  unfold pass at h
  dsimp only at h
  split at h
  · split at h
    · rename_i hnone _
      rw [hnone] at h
      cases h
    · cases h
  · obtain ⟨ns, m, hwants⟩ := exists_of_fault_swapTurn h
    exact noRejection_decides s ns m r hwants

theorem reports_shorten (t : Value) : Action.Reports (shorten t) := by
  refine Action.reports_state.bind fun s => ?_
  split
  · exact Action.reports_pure _
  refine (Action.reports_lift (reports_ofExcept (.mapM fun v _ => v.noRejection_asKey))).bind
    fun _ => (Action.reports_change _).bind fun _ =>
      (Action.reports_lift (reports_writeAll fun r hr => ?_)).bind fun _ => ?_
  · obtain ⟨m, -, rfl⟩ := List.mem_map.mp hr
    exact nofun
  · split
    · exact Action.reports_pure _
    · rename_i e he
      refine Action.reports_lift (Outcome.reports_fail fun r hr => fault_pass_ne s t r ?_)
      rw [he, hr]

theorem noRejection_nextTurn? (s : Sequencer) (last : Value) :
    NoRejection (s.nextTurn? last) := by
  unfold nextTurn?
  dsimp only
  split
  · exact (NextTurn.noRejection_apart? _ _ _).bind fun _ => .ok _
  · exact (NoRejection.ok none).bind fun _ => .ok _

theorem reports_placeNext : Action.Reports placeNext := by
  refine Action.reports_state.bind fun s => ?_
  split
  · exact Action.reports_pure _
  refine (Action.reports_lift (reports_ofExcept (s.noRejection_nextTurn? _))).bind fun next => ?_
  split
  · exact Action.reports_pure _
  rename_i last _ _ t
  have hplace : Action.Reports (do
      Outcome.writeAll [placingRecord t last]
      Action.change (place t)) := by
    refine (Action.reports_lift (reports_writeAll fun r hr => ?_)).bind fun _ =>
      Action.reports_change _
    rw [List.mem_singleton.mp hr]
    exact nofun
  split
  · exact (reports_shorten t).bind fun _ => hplace
  · exact hplace

theorem reports_placeAll (k : Nat) : Action.Reports (placeAll k) := by
  induction k with
  | zero => exact Action.reports_pure _
  | succ k ih => exact reports_placeNext.bind fun _ => ih

theorem noRejection_turnsOf (sheet : Sheet) : NoRejection (turnsOf sheet) :=
  (NoRejection.mapM fun m _ => Row.noRejection_timed m).bind fun _ => .ite (.ok _) (.misused _)

/-- **A sequencer rejects nothing.** -/
theorem reports_sequence : Action.Reports sequence := by
  refine (Action.reports_change _).bind fun _ => Action.reports_state.bind fun s =>
    (Action.reports_lift (reports_ofExcept (noRejection_turnsOf _))).bind fun turns => ?_
  split
  · exact Action.reports_pure _
  · refine (Action.reports_change _).bind fun _ => (reports_placeAll _).bind fun _ =>
      Action.reports_state.bind fun s' =>
        (Action.reports_lift (reports_writeAll fun r hr => ?_)).bind fun _ => Action.reports_pure _
    rw [List.mem_singleton.mp hr]
    exact nofun

end Sequencer

/-! ## 5. Referees -/

namespace Rota

/-- **A match that nobody is free for is reported.** -/
theorem reports_assignOther (m : Fixture) : Action.Reports (assignOther m) := by
  refine Action.reports_state.bind fun r => ?_
  split
  · exact Action.reports_lift (reports_reject _)
  · exact (Action.reports_change _).bind fun _ => Action.reports_pure _

theorem reports_assign (row : Row) : Action.Reports (assign row) := by
  refine Action.reports_state.bind fun r => ?_
  split
  · exact Action.reports_lift (reports_misuse _)
  · exact Action.reports_pure _
  · exact Action.reports_lift (reports_ofExcept (row.noRejection_part _))
  · exact Action.reports_lift (reports_ofExcept (row.noRejection_part _))
  · exact (Action.reports_lift (reports_ofExcept row.noRejection_fixture)).bind
      reports_assignOther

theorem reports_assignAll (ms : List Fixture) : Action.Reports (assignAll ms) := by
  induction ms with
  | nil => exact Action.reports_pure _
  | cons m ms ih =>
    exact (reports_assign _).bind fun _ => ih.bind fun _ => Action.reports_pure _

end Rota

/-! ## 6. Legs -/

namespace Leg

theorem noRejection_turns (leg : Leg) : NoRejection (turns leg) := by
  refine (NoRejection.mapM fun c _ => c.turn.noRejection_asKey).bind fun _ => ?_
  split
  · exact .ok _
  · exact .misused _

theorem noRejection_place (leg : Leg) (index : Value) : NoRejection (place leg index) := by
  unfold place
  split
  · exact .misused _
  · exact .ite (.ok _) (.misused _)

theorem noRejection_pairing (leg : Leg) (index : Value) : NoRejection (pairing leg index) := by
  refine (noRejection_place leg index).bind fun place => ?_
  split
  · exact .ok _
  · exact .misused _

theorem noRejection_ofRow (parts : Row) : NoRejection (Pairing.ofRow parts) := by
  unfold Pairing.ofRow
  split
  · exact .ok _
  · exact .ok _
  · exact .misused _

/-- **Requests to a leg reject nothing.** -/
theorem reports_answer (q : Request) : Action.Reports (answer q) := by
  cases q with
  | «show» | ofTurn => exact Action.reports_state.bind fun _ => Action.reports_pure _
  | turns =>
    exact Action.reports_state.bind fun leg =>
      (Action.reports_lift (reports_ofExcept (noRejection_turns leg))).bind fun _ =>
        Action.reports_pure _
  | text =>
    exact Action.reports_state.bind fun leg =>
      (Action.reports_lift (reports_ofExcept ((noRejection_turns leg).bind fun _ => .ok _))).bind
        fun _ => Action.reports_pure _
  | textAt i =>
    exact Action.reports_state.bind fun leg =>
      (Action.reports_lift (reports_ofExcept (noRejection_pairing leg i))).bind fun _ =>
        Action.reports_pure _
  | sameAt i j =>
    exact Action.reports_state.bind fun leg =>
      (Action.reports_lift (reports_ofExcept (noRejection_pairing leg i))).bind fun _ =>
        (Action.reports_lift (reports_ofExcept (noRejection_pairing leg j))).bind fun _ =>
          Action.reports_pure _
  | swapAt i =>
    exact Action.reports_state.bind fun leg =>
      (Action.reports_lift (reports_ofExcept ((noRejection_place leg i).bind fun _ => .ok _))).bind
        fun changed =>
          (Action.reports_lift (reports_ofExcept (noRejection_pairing changed i))).bind fun _ =>
            (Action.reports_change _).bind fun _ => Action.reports_pure _
  | append parts =>
    exact (Action.reports_lift (reports_ofExcept (noRejection_ofRow parts))).bind fun _ =>
      (Action.reports_change _).bind fun _ => Action.reports_state.bind fun _ =>
        Action.reports_pure _

end Leg

end Matchday
