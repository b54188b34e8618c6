/-
# Duties stay even

Whenever the first leg of a round under the fourth rule is broken off, nobody has had more than two
duties more than anybody else (`duties_stay_even`).  Seven or more participants owe this to their
schedule being a single round; for six or fewer it depends on which one it is, so the ways to a
schedule are gone through once more: the table, the circle, and the circle with its turns in another
order (`staysEven_of_few`).

The bye and nothing are left out.  Nobody plays against a bye, so that its schedule is no round, and
a participant called nothing is taken for the one on duty last before there was one.
-/
import Matchday.Proofs.Planner.Referees
import Matchday.Proofs.Rota.SmallRounds

namespace Matchday.Planner

variable {s : Settings} {ps vs : List Value} {ms : List Fixture}

/-! ## 1. Turns in another order -/

/-- Turns of a schedule of places that are put in another order are so by place. -/
theorem exists_order {places : List (Match Nat Nat)} {ts : List Value}
    (hperm : ts.Perm (Schedule.turns (Schedule.fixtures (Schedule.taken ps places))))
    (hhead : ts.head? = (Schedule.turns (Schedule.fixtures (Schedule.taken ps places))).head?) :
    ∃ us : List Nat, us.Perm (Schedule.turns places) ∧
      us.head? = (Schedule.turns places).head? ∧
      ts.flatMap (Schedule.ofTurn (Schedule.fixtures (Schedule.taken ps places)))
        = Schedule.fixtures (Schedule.taken ps (us.flatMap (Schedule.ofTurn places))) := by
  have hturns := tellsApart_int (Schedule.IsTurn places)
  rw [Circle.fixtures_taken, Schedule.turns_map hturns] at hperm hhead
  obtain ⟨us, rfl, hus⟩ :=
    (congrFun (congrFun (List.eq_map_comp_perm fun k : Nat => Value.int k) ts) _).mpr hperm
  have hfirst : us.head? = (Schedule.turns places).head? := by
    rw [List.head?_map, List.head?_map] at hhead
    refine Option.map_injective (fun i j hij => ?_) hhead
    exact Int.ofNat_inj.mp (Value.int.inj hij)
  refine ⟨us, hus, hfirst, ?_⟩
  rw [Circle.fixtures_taken, Circle.fixtures_taken, List.flatMap_map, List.map_flatMap]
  refine List.flatMap_congr fun t ht => ?_
  have hturn : Schedule.IsTurn places t :=
    List.mem_map.mp ((eraseDups_sublist _).subset (hus.mem_iff.mp ht))
  exact Schedule.ofTurn_map (keepsEqual_int _) (fun m hm => ⟨m, hm, rfl⟩) hturn

/-! ## 2. Few participants -/

/-- **The circle, in order or not, keeps the duties of few participants even.** -/
theorem staysEven_circled (h3 : 3 ≤ ps.length) (hfew : ps.length < 7) (hd : AllDifferent ps)
    (hbye : .bye ∉ ps) (hnone : .none ∉ ps) (hkey : ∀ p ∈ ps, p.isKey = true)
    (h : (circled s ps).result = .ok ms) (hvs : Rota.duties ps [] ms = some vs) :
    Rota.StaysEven ps vs := by
  have h2 : 2 ≤ ps.length := by omega
  have hplaces := Circle.places_isSingleRound h2
  have hplayers := hplaces.round.players_mem
  have hsmall : ps.length ∈ [3, 4, 5, 6] := by
    simp only [List.mem_cons, List.not_mem_nil]
    omega
  obtain ⟨hplain, hordered⟩ := Rota.places_keepEven ps.length hsmall
  unfold circled at h
  rw [Outcome.result_bind, Circle.plan_eq_places h2 hd hbye fun _ => hkey] at h
  obtain ⟨within, -, h⟩ := Outcome.bind_eq_ok.mp h
  cases within with
  | false =>
    cases h
    rw [Schedule.fixtures, Rota.duties_map_turn] at hvs
    exact hplain.staysEven hd hnone hplayers hvs
  | true =>
    obtain ⟨os, ts, _, ⟨hresult, -⟩, hturned, -, hperm, hhead⟩ :=
      Sequencer.exists_sequence (knows_taken hd hkey hplaces)
        (fun m hm => by obtain ⟨n, -, rfl⟩ := List.mem_map.mp hm; exact Value.isKey_int n.turn)
        s.prefersApart.isOn s.shortensStreaks.isOn
    cases hresult.symm.trans h
    obtain ⟨us, hus, hfirst, horder⟩ := exists_order hperm hhead
    rw [Rota.duties_turned (hturned.turnByTurn ts), horder, Schedule.fixtures,
      Rota.duties_map_turn] at hvs
    refine (hordered.keepsEven hus hfirst).staysEven hd hnone (fun m hm => ?_) hvs
    obtain ⟨t, -, hm⟩ := List.mem_flatMap.mp hm
    exact hplayers m (List.mem_of_mem_filter hm)

/-- **Whichever way a schedule comes about, it keeps the duties of few participants even.** -/
theorem staysEven_of_few (h3 : 3 ≤ ps.length) (hfew : ps.length < 7) (hd : AllDifferent ps)
    (hbye : .bye ∉ ps) (hnone : .none ∉ ps) (hkey : ∀ p ∈ ps, p.isKey = true)
    (h : (schedule s ps).result = .ok ms) (hvs : Rota.duties ps [] ms = some vs) :
    Rota.StaysEven ps vs := by
  rw [result_schedule] at h
  split at h
  · cases htable : Ideal.tables.lookup ps.length with
    | some turns =>
      have hmem := Ideal.mem_of_lookup htable
      obtain ⟨h2, hchecked⟩ := Ideal.tables_checked _ hmem
      rw [Ideal.schedule?_eq htable] at h
      cases h
      rw [Schedule.fixtures, Rota.duties_map_turn] at hvs
      exact (Rota.tables_keepEven _ hmem hfew).staysEven hd hnone
        (hchecked.isSingleRound h2).round.players_mem hvs
    | none =>
      rw [Ideal.schedule?_eq_none htable] at h
      exact staysEven_circled h3 hfew hd hbye hnone hkey h hvs
  · exact staysEven_circled h3 hfew hd hbye hnone hkey h hvs

/-! ## 3. The first leg -/

/-- **Duties stay even throughout the first leg.**  After any number of its matches nobody has been
on duty more than two times more often than anybody else, whichever way the schedule came about. -/
theorem duties_stay_even {p : Planner} {source : Source} {rule half : Value} {leg : Leg}
    (hset : (accept p.participantKind source).result = .ok p.participants)
    (h3 : 3 ≤ p.participants.length) (hbye : .bye ∉ p.participants)
    (hnone : .none ∉ p.participants) (hrule : (p.ruleFor rule).result = .ok .other)
    (hhalf : (Half.read half).result = .ok .first) (hleg : (p.leg rule half).result = .ok leg) :
    ∀ k, ∀ a ∈ p.participants, ∀ b ∈ p.participants,
      (leg.take k).countP (·.referee == a) ≤ (leg.take k).countP (·.referee == b) + 2 := by
  obtain ⟨-, -, -, hkey, hd⟩ := accept_eq_ok_iff.mp hset
  obtain ⟨r, hr, h, hh, d, hdraft, rfl⟩ := leg_eq_ok_iff.mp hleg
  cases hrule.symm.trans hr
  cases hhalf.symm.trans hh
  obtain ⟨-, ms, hms, vs, rota, hruns, rfl⟩ := draft_eq_ok_iff.mp hdraft
  obtain ⟨hvs, -⟩ := Rota.runs_assignAll_other.mp hruns
  rw [Schedule.fixtures, Rota.duties_map_turn] at hvs
  have heven : Rota.StaysEven p.participants vs := by
    by_cases hfew : p.participants.length < 7
    · rw [renumbered_eq, Rota.duties_map_turn] at hvs
      exact staysEven_of_few h3 hfew hd hbye hnone hkey hms hvs
    · have h2 : 2 ≤ p.participants.length := by omega
      have hfits := (schedule_fits h2 hd hbye hkey hms).1
      have hround := renumbered_isSingleRound hfits.round hd h2 hfits.inBlocks
      exact Rota.staysEven_of_seven hround hd (by omega) hvs
  -- the referees of the leg are the duties, one for each match
  have hcount : ∀ k v, ((legOf .other ((renumbered ms).zip vs) .first).take k).countP
      (·.referee == v) = (vs.take k).count v := by
    intro k v
    have hlen := (Rota.forall₂_duties hvs).length_eq
    have hreferees := map_referee_legOf .first ((renumbered ms).zip vs)
    rw [List.map_snd_zip (Nat.le_of_eq hlen.symm)] at hreferees
    calc ((legOf .other ((renumbered ms).zip vs) .first).take k).countP (·.referee == v)
        = (((legOf .other ((renumbered ms).zip vs) .first).take k).map (·.referee)).count v := by
          rw [List.count, List.countP_map]
          rfl
      _ = (vs.take k).count v := by rw [List.map_take, hreferees]
  intro k a ha b hb
  rw [hcount, hcount]
  exact heven.take k ha hb

/-- Of four participants whose matches are swapped, nobody is on duty more than two times more often
than anybody else in the first five matches: one of them twice, and another one not at all. -/
theorem duties_stay_even_four :
    let leg : Leg := [⟨.int 1, .text "Ann", .int 2, .tuple [.none]⟩,
      ⟨.int 1, .bool false, .tuple [.none], .text "Ann"⟩,
      ⟨.int 2, .tuple [.none], .text "Ann", .int 2⟩,
      ⟨.int 2, .int 2, .bool false, .text "Ann"⟩, ⟨.int 3, .bool false, .text "Ann", .int 2⟩,
      ⟨.int 3, .tuple [.none], .int 2, .bool false⟩]
    ((⟨.any, .any, { Settings.default with shortensStreaks := .bool true },
          [.text "Ann", .int 2, .tuple [.none], .bool false]⟩ : Planner).leg
        (.rule .other) (.half .first)).result = .ok leg ∧
      (leg.take 5).countP (·.referee == .text "Ann") = 2 ∧
      (leg.take 5).countP (·.referee == .bool false) = 0 ∧
      ∀ a ∈ [Value.text "Ann", .int 2, .tuple [.none], .bool false],
        ∀ b ∈ [Value.text "Ann", .int 2, .tuple [.none], .bool false],
          (leg.take 5).countP (·.referee == a) ≤ (leg.take 5).countP (·.referee == b) + 2 := by
  intro leg
  have hset : (accept .any (.value (.list
      [.text "Ann", .int 2, .tuple [.none], .bool false]))).result
      = .ok [.text "Ann", .int 2, .tuple [.none], .bool false] := rfl
  have hleg : ((⟨.any, .any, { Settings.default with shortensStreaks := .bool true },
          [.text "Ann", .int 2, .tuple [.none], .bool false]⟩ : Planner).leg
        (.rule .other) (.half .first)).result = .ok leg := rfl
  exact ⟨hleg, by decide, by decide, duties_stay_even (p := ⟨.any, .any, _, _⟩) hset (by decide)
    (by simp) (by simp) rfl rfl hleg 5⟩

end Matchday.Planner
