/-
# The turns of a leg

Whichever way a schedule comes about, the matches of a turn stand together in it.  The rotation
starts one turn after the other, the repair of its last turn moves no match, a sequencer goes turn by
turn, and the tables are written in the order of their turns.  No more is needed for the numbers of
the turns to ascend along a leg (`leg_ascends`), so this holds of any accepted participants, even
where a bye among them keeps the schedule from being a round.

A leg as it is handed out is therefore in the order in which it is read, and stays so as long as it
is only looked at (`legs_are_read_by_turn`).
-/
import Matchday.Proofs.Leg
import Matchday.Proofs.Planner.Legs
import Matchday.Proofs.Planner.Sessions
import Matchday.Proofs.Planner.Success

namespace Matchday

/-! ## 1. Schedules in blocks -/

/-- Blocks are a matter of turns alone. -/
theorem Schedule.InBlocks.of_map_turn {τ α : Type} [BEq τ] [Equality τ] {count : Nat}
    {ms ns : List (Match τ α)} (h : Schedule.InBlocks count ms)
    (hturns : ns.map (·.turn) = ms.map (·.turn)) : Schedule.InBlocks count ns := by
  have hmem : ∀ t, Schedule.IsTurn ns t → Schedule.IsTurn ms t := by
    intro t ht
    exact List.mem_map.mp (hturns ▸ List.mem_map.mpr ht)
  obtain ⟨rank, hrank, hasc, hlt⟩ := h
  have hranks : ns.map (fun n => rank n.turn) = ms.map fun m => rank m.turn := by
    have hmap := congrArg (List.map rank) hturns
    rwa [List.map_map, List.map_map] at hmap
  refine ⟨rank, fun s hs t ht => hrank (hmem s hs) (hmem t ht), hranks ▸ hasc, fun n hn => ?_⟩
  obtain ⟨m, hm, hturn⟩ := hmem n.turn ⟨n, hn, rfl⟩
  exact hturn ▸ hlt m hm

namespace Circle

variable {ps : List Value}

theorem turn_of_mem_turn {t : Nat} : ∀ m ∈ turn ps t, m.turn = .int (t + 1 : Nat) := by
  intro m hm
  obtain ⟨n, hn, rfl⟩ := List.mem_map.mp hm
  obtain ⟨pair, -, rfl⟩ := List.mem_map.mp hn
  rfl

/-- **The rotation goes turn by turn**, whoever sits in the circle. -/
theorem inBlocks_rotation (ps : List Value) :
    Schedule.InBlocks (seats ps.length) (rotation ps) := by
  obtain ⟨rank, hrank⟩ : ∃ rank : Value → Nat, ∀ k : Nat, rank (.int k) = k :=
    ⟨fun t => t.numeral.toNat, Int.toNat_natCast⟩
  have hrank_turn : ∀ t, ∀ m ∈ turn ps t, rank m.turn = t + 1 := by
    intro t m hm
    rw [turn_of_mem_turn m hm, hrank]
  refine ⟨rank, ?_, ?_, ?_⟩
  · rintro _ ⟨m, hm, rfl⟩ _ ⟨n, hn, rfl⟩
    obtain ⟨t, -, hm⟩ := List.mem_flatMap.mp hm
    obtain ⟨u, -, hn⟩ := List.mem_flatMap.mp hn
    rw [turn_of_mem_turn m hm, turn_of_mem_turn n hn, hrank, hrank]
    exact (keepsEqual_int (fun _ => True) trivial trivial).symm
  · rw [List.pairwise_map, rotation, List.pairwise_flatMap]
    constructor
    · intro t _
      refine List.pairwise_of_forall_mem_list fun m hm n hn => Nat.le_of_eq ?_
      exact (hrank_turn t m hm).trans (hrank_turn t n hn).symm
    · refine List.pairwise_lt_range.imp fun {t u} htu m hm n hn => ?_
      rw [hrank_turn t m hm, hrank_turn u n hn]
      omega
  · intro m hm
    obtain ⟨t, ht, hm⟩ := List.mem_flatMap.mp hm
    have := List.mem_range.mp ht
    rw [hrank_turn t m hm]
    omega

end Circle

namespace Planner

section Schedules

variable {s : Settings} {ps : List Value} {ms : List Fixture}

/-- The circle, in order or not, goes turn by turn. -/
theorem circled_inBlocks (hne : ps ≠ []) (hkey : ∀ p ∈ ps, p.isKey = true)
    (h : (circled s ps).result = .ok ms) : ∃ count, Schedule.InBlocks count ms := by
  obtain ⟨ns, hns, hturned⟩ := Circle.exists_plan hne hkey
  unfold circled at h
  rw [Outcome.result_bind, hns, ok_bind] at h
  obtain ⟨within, -, h⟩ := Outcome.bind_eq_ok.mp h
  cases within with
  | false =>
    cases h
    exact ⟨_, (Circle.inBlocks_rotation ps).of_map_turn hturned.map_turn⟩
  | true =>
    obtain ⟨os, ts, hresult, -, hperm, -⟩ :=
      exists_sequenced hne hkey hturned s.prefersApart.isOn s.shortensStreaks.isOn
    cases hresult.symm.trans h
    exact ⟨_, Schedule.inBlocks_turnByTurn (Schedule.allDifferent_of_perm hperm) os⟩

/-- **Whichever way a schedule comes about, it goes turn by turn.** -/
theorem schedule_inBlocks (h2 : 2 ≤ ps.length) (hd : AllDifferent ps)
    (hkey : ∀ p ∈ ps, p.isKey = true) (h : (schedule s ps).result = .ok ms) :
    ∃ count, Schedule.InBlocks count ms := by
  have hne : ps ≠ [] := List.ne_nil_of_length_pos (by omega)
  rw [result_schedule] at h
  split at h
  · cases htable : Ideal.tables.lookup ps.length with
    | some turns =>
      obtain ⟨-, hchecked⟩ := Ideal.tables_checked _ (Ideal.mem_of_lookup htable)
      rw [Ideal.schedule?_eq htable] at h
      cases h
      exact ⟨_, (fits_taken hd (hchecked.isSingleRound h2)).inBlocks⟩
    | none =>
      rw [Ideal.schedule?_eq_none htable] at h
      exact circled_inBlocks hne hkey h
  · exact circled_inBlocks hne hkey h

end Schedules

/-! ## 2. Legs -/

section Legs

variable {p : Planner} {rule half : Value} {leg : Leg}

/-- A leg has the numbered turns of a schedule. -/
theorem leg_of_fixtures {ms : List (Match Nat Value)}
    (hleg : leg.map Pairing.fixture = Schedule.fixtures ms)
    (hasc : (ms.map (·.turn)).Pairwise (· ≤ ·)) :
    leg.IsNumbered ∧ leg.Pairwise fun c d => c.number ≤ d.number := by
  have hturns : leg.map (·.turn) = (ms.map (·.turn)).map fun k : Nat => Value.int k := by
    have hmap := congrArg (List.map (·.turn)) hleg
    rw [List.map_map, Schedule.fixtures, List.map_map] at hmap
    rw [List.map_map]
    exact hmap
  have hnumbers : leg.map Pairing.number = (ms.map (·.turn)).map fun k : Nat => (k : Int) := by
    have hmap := congrArg (List.map Value.numeral) hturns
    rw [List.map_map, List.map_map] at hmap
    exact hmap
  constructor
  · intro c hc
    obtain ⟨k, -, hk⟩ := List.mem_map.mp (hturns ▸ List.mem_map_of_mem hc)
    rw [← hk]
    rfl
  · rw [← List.pairwise_map (f := Pairing.number) (R := fun a b => a ≤ b), hnumbers,
      List.pairwise_map]
    exact hasc.imp Int.ofNat_le.mpr

/-- **The turns of a leg are numbers, and they ascend along the leg.** -/
theorem leg_ascends {source : Source}
    (hset : (accept p.participantKind source).result = .ok p.participants)
    (hleg : (p.leg rule half).result = .ok leg) :
    leg.IsNumbered ∧ leg.Pairwise fun c d => c.number ≤ d.number := by
  obtain ⟨-, -, -, hkey, hd⟩ := accept_eq_ok_iff.mp hset
  obtain ⟨-, -, h, hhalf, -⟩ := leg_eq_ok_iff.mp hleg
  obtain ⟨h2, ms, hms, hfirst, hmirrored⟩ := leg_ok hleg
  obtain ⟨count, hblocks⟩ := schedule_inBlocks h2 hd hkey hms
  have hasc := ascending_renumbered hblocks
  cases h with
  | first => exact leg_of_fixtures (hfirst hhalf) hasc
  | mirrored =>
    refine leg_of_fixtures (hmirrored hhalf) ?_
    rw [Schedule.mirrored, List.map_map, List.pairwise_map]
    exact (List.pairwise_map.mp hasc).imp fun hle => Nat.add_le_add_right hle _

end Legs

/-! ## 3. Reading -/

/-- **Legs are read by turn.**  Whatever is swapped in a leg or added to it, as long as its turns are
whole numbers, they are listed in strictly ascending order, and going through their pairings one
turn after the other is the stable sort of the leg by turn; so is what the leg is written as, every
pairing once and under the heading of its turn.  A leg that a planner has handed out, after whatever
was asked of it before, is read as it stands, as long as nothing but looks goes to it under its
name. -/
theorem legs_are_read_by_turn :
    (∀ (start : Leg) (qs : List Leg.Request), start.IsNumbered → (∀ q ∈ qs, q.IsNumbered) →
      ∃ ts, (Session.run Leg.answer qs start).2.ReadByTurn ts) ∧
    ∀ (kind refereeKind : Kind) (settings : Settings) (rs : List Request) (d : Desk),
      (Session.run answer rs (.opened ⟨kind, refereeKind, settings, []⟩)).2 = d →
      ∀ rule half name leg, (answer (.leg rule half name) d).1.result = .ok (.leg (.leg leg)) →
        ∀ qs : List Request,
          (∀ q ∈ qs, q.asks ≠ some name ∧ ∀ r, q.forLeg name = some r → r.looks = true) →
          (Session.run answer qs (answer (.leg rule half name) d).2).2.leg? name = .ok leg ∧
            ∃ ts, leg.ReadByTurn ts ∧ ts.flatMap leg.ofTurn = leg := by
  refine ⟨fun start qs hstart hqs => Leg.exists_readByTurn (Leg.isNumbered_run hqs hstart), ?_⟩
  intro kind refereeKind settings rs d hd rule half name leg hanswer qs hqs
  have htidy : d.Tidy := hd ▸ tidy_run (Desk.tidy_opened _) rs
  have hplanner : d.planner = ⟨kind, refereeKind, settingsOfMoment settings rs,
      lastAccepted kind rs⟩ := hd ▸ planner_run rfl rs
  have hleg := result_answer_leg.mp hanswer
  have hkept := leg?_run (tidy_answer htidy (.leg rule half name)) (leg?_answer_leg hleg)
    fun q hq => (hqs q hq).1
  have hlooks : ∀ q ∈ qs.filterMap (·.forLeg name), Action.Looks (Leg.answer q) := by
    intro r hr
    obtain ⟨q, hq, hfor⟩ := List.mem_filterMap.mp hr
    exact Leg.looks_answer ((hqs q hq).2 r hfor)
  rw [Session.run_of_looks hlooks] at hkept
  rw [hplanner] at hleg
  obtain ⟨hnumbered, hasc⟩ := leg_ascends (accept_lastAccepted kind rs) hleg
  obtain ⟨ts, hts⟩ := Leg.exists_readByTurn hnumbered
  exact ⟨hkept, ts, hts, hts.flatMap_ofTurn_eq_self hasc⟩

/-- Turns that are out of order, repeated and negative are sorted; and a leg of a round with a bye
is read as it was handed out. -/
theorem legs_are_read_by_turn_irregular :
    (∃ changed ts, (Session.run Leg.answer [.append [.int 3, .text "Ann", .int 2],
        .append [.bool true, .int 2, .none, .text "Ann"], .append [.int (-2), .none, .text "Ann"],
        .swapAt (.int (-1)), .append [.int 3, .none, .none], .append [.int 1]] []).2 = changed ∧
      changed.ReadByTurn ts ∧ ts = [.int (-2), .bool true, .int 3] ∧
      changed.text = .ok ("Turn -2:\n  Ann : None / -\nTurn True:\n  2 : None / Ann\n" ++
        "Turn 3:\n  Ann : 2 / -\n  None : None / -")) ∧
    ∃ leg d, (Session.run answer
        [.setParticipants (.value (.list [.text "Ann", .bye, .int 2, .none]))]
        (.opened ⟨.any, .any, .default, []⟩)).2 = d ∧
      (answer (.leg (.rule .other) (.half .mirrored) "a") d).1.result = .ok (.leg (.leg leg)) ∧
      (Session.run answer [.ofLeg "a" .text, .leg .none (.half .first) "b", .ofLeg "b" (.append [])]
        (answer (.leg (.rule .other) (.half .mirrored) "a") d).2).2.leg? "a" = .ok leg ∧
      ∃ ts, leg.ReadByTurn ts ∧ ts.flatMap leg.ofTurn = leg := by
  obtain ⟨hchanged, hkept⟩ := legs_are_read_by_turn
  obtain ⟨leg, hleg⟩ : ∃ leg, (answer (.leg (.rule .other) (.half .mirrored) "a")
      (Session.run answer [.setParticipants (.value (.list [.text "Ann", .bye, .int 2, .none]))]
        (.opened ⟨.any, .any, .default, []⟩)).2).1.result = .ok (.leg (.leg leg)) := ⟨_, rfl⟩
  have hwhole : ∀ q ∈ [Leg.Request.append [.int 3, .text "Ann", .int 2],
      .append [.bool true, .int 2, .none, .text "Ann"], .append [.int (-2), .none, .text "Ann"],
      .swapAt (.int (-1)), .append [.int 3, .none, .none], .append [.int 1]], q.IsNumbered := by
    simp only [List.forall_mem_cons]
    refine ⟨?_, ?_, ?_, trivial, ?_, nofun, nofun⟩
    all_goals
      intro c hc
      cases hc
      rfl
  obtain ⟨ts, hts⟩ := hchanged [] _ nofun hwhole
  refine ⟨⟨_, ts, rfl, hts, ?_, rfl⟩, leg, _, rfl, hleg, hkept _ _ _ _ _ rfl _ _ _ _ hleg _ ?_⟩
  · exact (Except.ok.inj hts.turns).symm
  · simp only [List.forall_mem_cons]
    refine ⟨⟨nofun, ?_⟩, ⟨?_, nofun⟩, ⟨nofun, nofun⟩, nofun⟩
    · intro r hr
      cases hr
      rfl
    · decide

end Planner
end Matchday
