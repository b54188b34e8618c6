/-
# The schedule of the circle

What was found on places is carried over to participants.  Any two or more of them who are
different from each other, none of them the bye, get a single round (`plan_isSingleRound`), and it
is balanced (`plan_isBalanced`).  With an odd number the balance is due to the last turn alone: the
schedule is the rotation, in which exactly those matches of the last turn are swapped whose home
participant is at home too often.
-/
import Matchday.Proofs.Circle.Counts

namespace Matchday.Circle

variable {ps : List Value}

/-! ## 1. Who meets whom when -/

/-- **The schedule is a single round.**  With an even number of participants everybody plays in
every turn; with an odd number one of them rests in each turn, and each of them in one turn.  An odd
number of them have to serve as keys, since their matches are counted for the last turn. -/
theorem plan_isSingleRound (h2 : 2 ≤ ps.length) (hd : AllDifferent ps) (hbye : .bye ∉ ps)
    (hkey : ps.length % 2 = 1 → ∀ p ∈ ps, p.isKey = true) :
    ∃ ms : List (Match Nat Value), (plan ps).result = .ok (Schedule.fixtures ms) ∧
      IsSingleRound ps 1 ms ∧
      (ps.length % 2 = 0 → ∀ t, 1 ≤ t → t ≤ ps.length - 1 → ∀ p ∈ ps,
        Schedule.rests ms t p = false) ∧
      (ps.length % 2 = 1 →
        (∀ t, 1 ≤ t → t ≤ ps.length → ps.countP (Schedule.rests ms t) = 1) ∧
        ∀ p ∈ ps, ((List.range' 1 ps.length).countP fun t => Schedule.rests ms t p) = 1) := by
  have hround : IsSingleRound ps 1 (Schedule.taken ps (places ps.length)) :=
    taken_isSingleRound hd (places_isSingleRound h2)
  refine ⟨_, plan_eq_places h2 hd hbye hkey, hround, ?_, ?_⟩
  · intro heven t ht1 ht p hp
    refine hround.nobody_rests hd heven (List.mem_range'_1.mpr ⟨ht1, ?_⟩) hp
    rw [turnCount, if_pos heven]
    omega
  · intro hodd
    have hT : turnCount ps.length = ps.length := by rw [turnCount, if_neg (by omega)]
    constructor
    · intro t ht1 ht
      refine hround.one_rests hd hodd (List.mem_range'_1.mpr ⟨ht1, ?_⟩)
      rw [hT]
      omega
    · intro p hp
      have hrest := hround.rests_once hd hodd hp
      rwa [hT] at hrest

/-- Five participants of different sorts get a single round. -/
theorem plan_isSingleRound_five :
    ∃ ms : List (Match Nat Value),
      (plan [.text "Ann", .int 2, .tuple [.int 1], .bool false, .none]).result
        = .ok (Schedule.fixtures ms) ∧
      IsSingleRound [.text "Ann", .int 2, .tuple [.int 1], .bool false, .none] 1 ms := by
  have hkey : ∀ p ∈ [Value.text "Ann", .int 2, .tuple [.int 1], .bool false, .none],
      p.isKey = true := by decide
  obtain ⟨ms, hms, hround, -⟩ := plan_isSingleRound (by decide) (by decide) (by simp) fun _ => hkey
  exact ⟨ms, hms, hround⟩

/-! ## 2. Home and guest -/

/-- The matches that the repair of the rotation swaps, found by their counts. -/
theorem places_eq_map {h : Nat} (h1 : 1 ≤ h) :
    places (2 * h + 1) = (placesInRotation (2 * h + 1)).map fun m =>
      if m.turn == 2 * h + 1
        && decide (h < Tally.gamesAs .home m.home (placesInRotation (2 * h + 1)))
      then m.swapped else m := by
  have hlast : seats (2 * h + 1) - 1 = 2 * h + 1 := by
    unfold seats
    omega
  rw [places, if_neg (by omega), hlast, Balance.repaired]
  refine List.map_congr_left fun m hm => ?_
  have hp := List.mem_range.mp ((placesInRotation_isRound (by omega)).home_mem m hm)
  have hahead : (Balance.surplus (placesInRotation (2 * h + 1))).contains m.home
      = decide (h < Tally.gamesAs .home m.home (placesInRotation (2 * h + 1))) := by
    rw [Bool.eq_iff_iff, List.contains_iff_mem, mem_surplus_iff_home h1 hp, decide_eq_true_eq]
  rw [Balance.isDue, equals_nat, hahead]

/-- With an odd number, the schedule of participants is their rotation with the same matches
swapped. -/
theorem fixtures_places_of_odd (h2 : 2 ≤ ps.length) (hd : AllDifferent ps) (hbye : .bye ∉ ps)
    (hodd : ps.length % 2 = 1) :
    Schedule.fixtures (Schedule.taken ps (places ps.length)) = (rotation ps).map fun m =>
      if m.turn == .int ps.length
        && decide ((ps.length - 1) / 2 < Tally.gamesAs .home m.home (rotation ps))
      then m.swapped else m := by
  obtain ⟨h, hn⟩ : ∃ h, ps.length = 2 * h + 1 := ⟨ps.length / 2, by omega⟩
  have hround := placesInRotation_isRound h2
  have hhalf : (ps.length - 1) / 2 = h := by omega
  rw [rotation_eq hbye, fixtures_taken, fixtures_taken, List.map_map, hhalf]
  rw [hn] at hround ⊢
  rw [places_eq_map (by omega), List.map_map]
  refine List.map_congr_left fun m hm => ?_
  have hmem : ∀ m ∈ placesInRotation (2 * h + 1),
      m.home ∈ List.range ps.length ∧ m.guest ∈ List.range ps.length := by
    rw [hn]
    exact hround.players_mem
  have hcount : Tally.gamesAs .home (m.map (fun k : Nat => Value.int k) (sitting ps)).home
      ((placesInRotation (2 * h + 1)).map (·.map (fun k : Nat => Value.int k) (sitting ps)))
      = Tally.gamesAs .home m.home (placesInRotation (2 * h + 1)) :=
    Tally.gamesAs_map (tellsApart_sitting hd) hmem .home (hmem m hm).1
  have hturn : ((m.map (fun k : Nat => Value.int k) (sitting ps)).turn
      == .int ((2 * h + 1 : Nat) : Int)) = (m.turn == 2 * h + 1) :=
    tellsApart_int (fun _ => True) trivial trivial
  have hcount := congrArg (fun k => decide (h < k)) hcount
  rw [Function.comp_apply, Function.comp_apply, hturn, hcount]
  split
  · exact (Match.swapped_map _ _ m).symm
  · rfl

/-- **The schedule is balanced.**  With an even number of participants everybody is at home, and
guest, in half of the matches rounded up or down; with an odd number in exactly half of them, and to
get there it is enough to swap, in the last turn of the rotation, the matches whose home participant
is at home too often. -/
theorem plan_isBalanced (h2 : 2 ≤ ps.length) (hd : AllDifferent ps) (hbye : .bye ∉ ps)
    (hkey : ∀ p ∈ ps, p.isKey = true) :
    ∃ ms : List Fixture, (plan ps).result = .ok ms ∧
      (ps.length % 2 = 0 → ∀ p ∈ ps, ∀ r,
        Tally.gamesAs r p ms = ps.length / 2 - 1 ∨ Tally.gamesAs r p ms = ps.length / 2) ∧
      (ps.length % 2 = 1 → ∀ p ∈ ps, ∀ r, Tally.gamesAs r p ms = (ps.length - 1) / 2) ∧
      Tally.unbalancedOfRows (ms.map Row.ofFixture) = .ok [] ∧
      (ps.length % 2 = 1 → ms = (rotation ps).map fun m =>
        if m.turn == .int ps.length
          && decide ((ps.length - 1) / 2 < Tally.gamesAs .home m.home (rotation ps))
        then m.swapped else m) := by
  have hplaces := places_isSingleRound h2
  have hbalanced : IsBalanced ps (Schedule.fixtures (Schedule.taken ps (places ps.length))) :=
    taken_isBalanced hd hplaces (places_isBalanced h2)
  refine ⟨_, plan_eq_places h2 hd hbye fun _ => hkey, ?_, ?_, ?_, ?_⟩
  · intro heven p hp r
    have hp := hbalanced p hp r
    omega
  · intro hodd p hp r
    have hp := hbalanced p hp r
    omega
  · have hplayers := mem_of_mem_taken hd hplaces
    have hcounted := mapM_counted fun m hm =>
      ⟨hkey _ (hplayers m hm).1, hkey _ (hplayers m hm).2⟩
    have hnone : Tally.unbalanced (places ps.length) = [] := by
      refine hplaces.round.unbalanced_eq_nil (allDifferent_range _) ?_ (places_isBalanced h2)
      rwa [List.length_range]
    have hread : ((Schedule.fixtures (Schedule.taken ps (places ps.length))).map
        Row.ofFixture).mapM (·.fixture >>= Row.counted)
        = .ok (Schedule.fixtures (Schedule.taken ps (places ps.length))) := by
      rw [List.mapM_map]
      exact hcounted
    rw [Tally.unbalancedOfRows, hread, fixtures_taken]
    have hmap := Tally.unbalanced_map (f := fun k : Nat => Value.int k) (tellsApart_sitting hd)
      hplaces.round.players_mem
    rw [hnone] at hmap
    exact congrArg Except.ok hmap
  · exact fixtures_places_of_odd h2 hd hbye

/-- Each of five participants is at home twice and guest twice. -/
theorem plan_isBalanced_five :
    ∃ ms, (plan [.text "Ann", .int 2, .tuple [.int 1], .bool false, .none]).result = .ok ms ∧
      (∀ p ∈ [Value.text "Ann", .int 2, .tuple [.int 1], .bool false, .none], ∀ r,
        Tally.gamesAs r p ms = 2) ∧
      Tally.unbalancedOfRows (ms.map Row.ofFixture) = .ok [] := by
  have hkey : ∀ p ∈ [Value.text "Ann", .int 2, .tuple [.int 1], .bool false, .none],
      p.isKey = true := by decide
  obtain ⟨ms, hms, -, hodd, hnone, -⟩ := plan_isBalanced (by decide) (by decide) (by simp) hkey
  exact ⟨ms, hms, hodd rfl, hnone⟩

end Matchday.Circle
