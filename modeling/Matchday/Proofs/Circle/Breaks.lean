/-
# Streaks and breaks on the circle

As long as nobody rests and nothing is swapped, a place changes its role from turn to turn, except
that it keeps it once: when the turn's own seat passes it (`Hosts`, `hosts_iff_hosts_succ`).  Places
`0` and `1` are never passed.  With an even number `n` of participants this is all there is, so
`n - 2` places have one break each, and there is no streak of three.

With an odd number `n = 2 * h + 1` every place also rests once, against the vacant seat (`Rests`),
and in the last turn some matches are swapped (`settled`).  Each of the three may join two streaks,
so it has to be checked that they never join three matches.  If there are three in a row, they are
found in three turns, or in four with the rest among them (`exists_opposite`).  There being passed,
the rest and the last turn are too far apart, with one exception, and in that one it is just the
swap that parts the matches (`not_keeps_before_rest`).
-/
import Matchday.Proofs.Breaks
import Matchday.Proofs.Circle.Schedule

namespace Matchday

/-- At home if the condition holds, else guest. -/
def Role.ofHost (c : Prop) [Decidable c] : Role := if c then .home else .guest

theorem Role.ofHost_eq_iff {c d : Prop} [Decidable c] [Decidable d] :
    Role.ofHost c = Role.ofHost d ↔ (c ↔ d) := by
  unfold Role.ofHost
  by_cases hc : c <;> by_cases hd : d <;> simp [hc, hd]

namespace Circle

/-! ## 1. Roles on the full circle -/

/-- The place is at home in a turn, counted from zero, of the full circle. -/
def Hosts (p t : Nat) : Prop :=
  p = 0 ∧ t % 2 = 0 ∨ t + 1 < p ∧ (t + p) % 2 = 1 ∨ t + 1 = p ∧ p % 2 = 0 ∨
    0 < p ∧ p ≤ t ∧ (t + p) % 2 = 0

instance (p t : Nat) : Decidable (Hosts p t) := inferInstanceAs (Decidable (_ ∨ _))

theorem exists_host_iff {h t p : Nat} (ht : t ≤ 2 * h) (hp : p ≤ 2 * h + 1) :
    (∃ i, i ≤ h ∧ (slot h t i).1 = p) ↔ Hosts p t := by
  unfold Hosts
  rcases Nat.eq_zero_or_pos p with rfl | hpos
  · rw [exists_home_zero_iff ht]
    omega
  · obtain ⟨k, rfl⟩ : ∃ k, p = k + 1 := ⟨p - 1, by omega⟩
    rw [exists_home_iff ht (by omega)]
    omega

/-- **A place keeps its role once**, when it is passed. -/
theorem hosts_iff_hosts_succ (p t : Nat) :
    (Hosts p t ↔ Hosts p (t + 1)) ↔ 2 ≤ p ∧ t + 1 + p % 2 = p := by
  unfold Hosts
  omega

/-- Every seat has a place in every turn. -/
theorem exists_place {h t p : Nat} (ht : t ≤ 2 * h) (hp : p ≤ 2 * h + 1) :
    ∃ i, i ≤ h ∧ ((slot h t i).1 = p ∨ (slot h t i).2 = p) := by
  have h2 : 2 ≤ 2 * h + 2 := by omega
  have hplays := (placesInRotation_isSingleRound h2).nobody_rests (t := t + 1)
    (allDifferent_range _) (by rw [List.length_range]; omega)
    (by rw [List.length_range, turnCount_eq h2, halfway_of_even, List.mem_range'_1]; omega)
    (List.mem_range.mpr (by omega : p < 2 * h + 2))
  have hpos : 0 < (Schedule.ofTurn (placesInRotation (2 * h + 2)) (t + 1)).countP
      (Match.involves p) := Nat.pos_of_ne_zero (by simpa [Schedule.rests] using hplays)
  obtain ⟨m, hm, hinv⟩ := List.countP_pos_iff.mp hpos
  obtain ⟨hm, hturn⟩ := List.mem_filter.mp hm
  obtain ⟨s, i, -, hi, rfl, -⟩ := exists_slot_of_mem h2 hm
  rw [halfway_of_even] at hi hturn hinv
  obtain rfl : s = t := Nat.succ.inj (eq_of_beq (beq_of_equals hturn))
  refine ⟨i, hi, ?_⟩
  simpa [Match.involves, matchOf] using hinv

/-! ## 2. An even number -/

/-- With an even number, everybody plays in the turn and has the role of the full circle. -/
theorem roleIn_of_even {h t p : Nat} (ht : t ≤ 2 * h) (hp : p < 2 * h + 2) :
    Schedule.roleIn p (places (2 * h + 2)) (t + 1)
      = some (.ofHost (Hosts p t)) := by
  have h2 : 2 ≤ 2 * h + 2 := by omega
  have heven : places (2 * h + 2) = placesInRotation (2 * h + 2) := if_pos (by omega)
  have hround := (places_isSingleRound h2).round
  have hp' : p ∈ List.range (2 * h + 2) := List.mem_range.mpr hp
  have hmem : ∀ i, i ≤ h → matchOf h (t, i) ∈ places (2 * h + 2) := by
    intro i hi
    have hrange := slot_range ht hi
    rw [heven, mem_placesInRotation h2, halfway_of_even]
    exact ⟨t, i, ht, hi, rfl, by omega, by omega⟩
  rw [hround.roleIn_place_iff hp', Role.ofHost]
  split
  · obtain ⟨i, hi, hhome⟩ := (exists_host_iff ht (by omega)).mpr ‹Hosts p t›
    exact ⟨_, hmem i hi, BEq.rfl, beq_iff_eq.mpr hhome⟩
  · obtain ⟨i, hi, hhome | hguest⟩ := exists_place ht (by omega : p ≤ 2 * h + 1)
    · exact absurd ((exists_host_iff ht (by omega)).mp ⟨i, hi, hhome⟩) ‹¬ Hosts p t›
    · exact ⟨_, hmem i hi, BEq.rfl, beq_iff_eq.mpr hguest⟩

/-- The roles of a place, the turns being counted from zero. -/
theorem roles_places {n p : Nat} (h2 : 2 ≤ n) (hp : p < n) :
    Schedule.roles p (places n) = (List.range' 0 (2 * halfway n + 1)).filterMap
      fun t => Schedule.roleIn p (places n) (t + 1) := by
  have hroles := (places_isSingleRound h2).roles_eq (List.mem_range.mpr hp)
  rw [List.length_range, turnCount_eq h2] at hroles
  rw [hroles, ← Nat.add_zero 1, ← List.map_add_range', List.filterMap_map]
  refine List.filterMap_congr fun t _ => ?_
  rw [Function.comp_apply, Nat.add_comm]

/-- **With an even number, all but two places have one break.** -/
theorem breaks_of_even {h p : Nat} (hp : p < 2 * h + 2) :
    Streak.breaks (Schedule.roles p (places (2 * h + 2))) = if p < 2 then 0 else 1 := by
  have hroles : Schedule.roles p (places (2 * h + 2))
      = (List.range' 0 (2 * h + 1)).map fun t => Role.ofHost (Hosts p t) := by
    rw [roles_places (by omega) hp, halfway_of_even, ← List.filterMap_eq_map]
    refine List.filterMap_congr fun t ht => ?_
    have ht := List.mem_range'_1.mp ht
    exact roleIn_of_even (by omega) hp
  have hbreak : ∀ t, decide (Role.ofHost (Hosts p t) = .ofHost (Hosts p (t + 1))) = true
      ↔ 2 ≤ p ∧ t + 1 + p % 2 = p := by
    intro t
    rw [decide_eq_true_eq, Role.ofHost_eq_iff, hosts_iff_hosts_succ]
  rw [hroles, Streak.breaks_map_range']
  split
  · refine List.countP_eq_zero.mpr fun t ht hbroken => ?_
    have hpassed := (hbreak t).mp hbroken
    omega
  · have hmem : p - 1 - p % 2 ∈ List.range' 0 (2 * h) := by
      rw [List.mem_range'_1]
      omega
    refine countP_eq_one_of_unique List.nodup_range' hmem fun t _ => ?_
    rw [hbreak t]
    omega

/-! ## 3. An odd number -/

/-- The place rests in a turn, counted from zero: it would meet the vacant seat. -/
def Rests (h p t : Nat) : Prop :=
  p = 0 ∧ t = 2 * h ∨ p = 2 * t + 2 ∨ p + 2 * h = 2 * t + 1

instance (h p t : Nat) : Decidable (Rests h p t) := inferInstanceAs (Decidable (_ ∨ _))

theorem played_iff {h t i p : Nat} (ht : t ≤ 2 * h) (hi : i ≤ h) (hp : p < 2 * h + 1)
    (hpi : (slot h t i).1 = p ∨ (slot h t i).2 = p) :
    (slot h t i).1 < 2 * h + 1 ∧ (slot h t i).2 < 2 * h + 1 ↔ ¬ Rests h p t := by
  unfold Rests
  rcases slot_cases ht hi with hc | hc | ⟨e, hc⟩ <;> omega

/-- **Who rests when.** -/
theorem rests_of_odd {h t p : Nat} (h1 : 1 ≤ h) (ht : t ≤ 2 * h) (hp : p < 2 * h + 1) :
    Schedule.rests (places (2 * h + 1)) (t + 1) p = true ↔ Rests h p t := by
  have h2 : 2 ≤ 2 * h + 1 := by omega
  have hturned : Turned (placesInRotation (2 * h + 1)) (places (2 * h + 1)) := by
    rw [places, if_neg (by omega)]
    exact Balance.turned_repaired _ _
  rw [Schedule.rests, (hturned.ofTurn (t + 1)).countP_eq (Match.involves_swapped p), beq_iff_eq,
    List.countP_eq_zero]
  constructor
  · intro hnone
    obtain ⟨i, hi, hpi⟩ := exists_place ht (by omega : p ≤ 2 * h + 1)
    refine Decidable.of_not_not fun hrest => ?_
    have hplayed := (played_iff ht hi hp hpi).mpr hrest
    refine hnone (matchOf h (t, i)) (List.mem_filter.mpr ⟨?_, equals_nat_self _⟩) ?_
    · rw [mem_placesInRotation h2, halfway_of_odd]
      exact ⟨t, i, ht, hi, rfl, hplayed⟩
    · simpa [Match.involves, matchOf] using hpi
  · intro hrest m hm hinv
    obtain ⟨hm, hturn⟩ := List.mem_filter.mp hm
    obtain ⟨s, i, -, hi, rfl, hplayed⟩ := exists_slot_of_mem h2 hm
    rw [halfway_of_odd] at hi hturn hinv hplayed
    obtain rfl : s = t := Nat.succ.inj (eq_of_beq (beq_of_equals hturn))
    have hpi : (slot h s i).1 = p ∨ (slot h s i).2 = p := by
      simpa [Match.involves, matchOf] using hinv
    exact (played_iff ht hi hp hpi).mp hplayed hrest

/-- The match of a slot as it is played: in the last turn it is swapped if its home place leaves the
remainder two modulo four. -/
def settled (h : Nat) (x : Nat × Nat) : Match Nat Nat :=
  if x.1 = 2 * h ∧ (slot h x.1 x.2).1 % 4 = 2 then (matchOf h x).swapped else matchOf h x

theorem settled_turn (h t i : Nat) : (settled h (t, i)).turn = t + 1 := by
  unfold settled
  split <;> rfl

theorem settled_home (h t i : Nat) : (settled h (t, i)).home
    = if t = 2 * h ∧ (slot h t i).1 % 4 = 2 then (slot h t i).2 else (slot h t i).1 := by
  unfold settled
  split <;> rfl

/-- **The schedule of an odd number** has the matches of the slots that are played. -/
theorem places_eq_settled {h : Nat} (h1 : 1 ≤ h) :
    places (2 * h + 1) = ((slots h).filter (taken (2 * h + 1))).map (settled h) := by
  have h2 : 2 ≤ 2 * h + 1 := by omega
  have hrotation := placesInRotation_eq h2
  rw [halfway_of_odd] at hrotation
  refine ((places_eq_map h1).trans (congrArg (List.map _) hrotation)).trans ?_
  rw [List.map_map]
  refine List.map_congr_left fun x hx => ?_
  obtain ⟨hx, htaken⟩ := List.mem_filter.mp hx
  have hp := ((taken_iff h2).mp htaken).1
  rw [halfway_of_odd] at hp
  have hahead := (mem_surplus_iff_home h1 hp).symm.trans (mem_surplus_iff h1 hp)
  rw [Function.comp_apply, settled]
  refine if_congr ?_ rfl rfl
  rw [Bool.and_eq_true, beq_iff_eq, decide_eq_true_eq]
  exact and_congr Nat.succ_inj hahead

/-- The place is at home in a turn of the schedule, if it plays. -/
def HostsAtLast (h p t : Nat) : Prop :=
  t < 2 * h ∧ Hosts p t ∨ t = 2 * h ∧ (p % 4 = 0 ∨ p % 2 = 1 ∧ (p + (2 * h + 1)) % 4 = 0)

instance (h p t : Nat) : Decidable (HostsAtLast h p t) := inferInstanceAs (Decidable (_ ∨ _))

theorem exists_settled_host_iff {h t p : Nat} (ht : t ≤ 2 * h) (hp : p < 2 * h + 1) :
    (∃ i, i ≤ h ∧ ((slot h t i).1 < 2 * h + 1 ∧ (slot h t i).2 < 2 * h + 1) ∧
        (settled h (t, i)).home = p)
      ↔ HostsAtLast h p t ∧ ¬ Rests h p t := by
  simp only [settled_home]
  rcases Nat.eq_or_lt_of_le ht with rfl | hlt
  · constructor
    · rintro ⟨i, hi, hplayed, hhome⟩
      have hlast := slot_last hi hplayed.1 hplayed.2
      have hpi : (slot h (2 * h) i).1 = p ∨ (slot h (2 * h) i).2 = p := by
        split at hhome
        · exact Or.inr hhome
        · exact Or.inl hhome
      refine ⟨Or.inr ⟨rfl, ?_⟩, (played_iff ht hi hp hpi).mp hplayed⟩
      split at hhome <;> omega
    · rintro ⟨hhosts, hrest⟩
      unfold HostsAtLast at hhosts
      unfold Rests at hrest
      rcases Nat.mod_two_eq_zero_or_one p with heven | hodd
      · obtain ⟨i, hi, hhome, hguest⟩ := exists_slot_last hp (by omega) heven
        exact ⟨i, hi, by omega, by rw [if_neg (by omega), hhome]⟩
      · obtain ⟨i, hi, hhome, hguest⟩ :=
          exists_slot_last (h := h) (p := 2 * h + 1 - p) (by omega) (by omega) (by omega)
        exact ⟨i, hi, by omega, by rw [if_pos (by omega)]; omega⟩
  · have hearly : ∀ i, ¬ (t = 2 * h ∧ (slot h t i).1 % 4 = 2) := fun i => by omega
    simp only [hearly, if_false]
    constructor
    · rintro ⟨i, hi, hplayed, hhome⟩
      refine ⟨Or.inl ⟨hlt, ?_⟩, (played_iff ht hi hp (Or.inl hhome)).mp hplayed⟩
      exact (exists_host_iff ht (by omega)).mp ⟨i, hi, hhome⟩
    · rintro ⟨⟨-, hhosts⟩ | ⟨hlast, -⟩, hrest⟩
      · obtain ⟨i, hi, hhome⟩ := (exists_host_iff ht (by omega)).mpr hhosts
        exact ⟨i, hi, (played_iff ht hi hp (Or.inl hhome)).mpr hrest, hhome⟩
      · exact absurd hlast (Nat.ne_of_lt hlt)

/-- **With an odd number**, the role of a place is read off its number as well. -/
theorem roleIn_of_odd {h t p : Nat} (h1 : 1 ≤ h) (ht : t ≤ 2 * h) (hp : p < 2 * h + 1) :
    Schedule.roleIn p (places (2 * h + 1)) (t + 1)
      = if Rests h p t then none else some (.ofHost (HostsAtLast h p t)) := by
  have h2 : 2 ≤ 2 * h + 1 := by omega
  have hround := (places_isSingleRound h2).round
  have hp' : p ∈ List.range (2 * h + 1) := List.mem_range.mpr hp
  have hnone : Schedule.roleIn p (places (2 * h + 1)) (t + 1) = none ↔ Rests h p t :=
    (hround.roleIn_eq_none_iff hp' (equals_nat_self p) _).trans (rests_of_odd h1 ht hp)
  have hplayed : ∀ i, i ≤ h → ((t, i) ∈ (slots h).filter (taken (2 * h + 1))
      ↔ (slot h t i).1 < 2 * h + 1 ∧ (slot h t i).2 < 2 * h + 1) := by
    intro i hi
    rw [List.mem_filter, mem_slots, taken_iff h2, halfway_of_odd]
    exact and_iff_right ⟨ht, hi⟩
  have hhome : Schedule.roleIn p (places (2 * h + 1)) (t + 1) = some .home
      ↔ HostsAtLast h p t ∧ ¬ Rests h p t := by
    rw [hround.roleIn_place_iff hp', ← exists_settled_host_iff ht hp, places_eq_settled h1]
    constructor
    · rintro ⟨m, hm, hturn, hhome⟩
      obtain ⟨⟨s, i⟩, hx, rfl⟩ := List.mem_map.mp hm
      have hi := (mem_slots.mp (List.mem_of_mem_filter hx)).2
      obtain rfl : s = t := by
        rw [settled_turn, beq_iff_eq] at hturn
        exact Nat.succ.inj hturn
      exact ⟨i, hi, (hplayed i hi).mp hx, eq_of_beq hhome⟩
    · rintro ⟨i, hi, htaken, hhome⟩
      refine ⟨_, List.mem_map_of_mem ((hplayed i hi).mpr htaken), ?_, beq_iff_eq.mpr hhome⟩
      rw [settled_turn, beq_iff_eq]
  by_cases hrest : Rests h p t
  · rw [if_pos hrest, hnone.mpr hrest]
  · rw [if_neg hrest, Role.ofHost]
    by_cases hhosts : HostsAtLast h p t
    · rw [if_pos hhosts, hhome.mpr ⟨hhosts, hrest⟩]
    · rw [if_neg hhosts]
      match hrole : Schedule.roleIn p (places (2 * h + 1)) (t + 1) with
      | none => exact absurd (hnone.mp hrole) hrest
      | some .home => exact absurd (hhome.mp hrole).1 hhosts
      | some .guest => rfl

/-! ## 4. No streak of three -/

/-- **Where to look for three in a row**, if there is no more than one rest: in three turns, or in
four with a rest in the second or third. -/
theorem exists_opposite {x : Nat → Option Role} {r : Role} {last a b c : Nat}
    (hrest : ∀ s t, s ≤ last → t ≤ last → x s = none → x t = none → s = t)
    (hthree : ∀ t, t + 2 ≤ last → x t = some r → x (t + 1) = some r → x (t + 2) ≠ some r)
    (hsecond : ∀ t, t + 3 ≤ last → x t = some r → x (t + 1) = none → x (t + 2) = some r →
      x (t + 3) ≠ some r)
    (hthird : ∀ t, t + 3 ≤ last → x t = some r → x (t + 1) = some r → x (t + 2) = none →
      x (t + 3) ≠ some r)
    (hab : a < b) (hbc : b < c) (hlast : c ≤ last) (ha : x a = some r) (hb : x b = some r)
    (hc : x c = some r) : ∃ t, a < t ∧ t < c ∧ x t = some r.opposite := by
  refine Classical.by_contradiction fun hopp => ?_
  have hsame : ∀ t, a < t → t ≤ c → x t = none ∨ x t = some r := by
    intro t hat htc
    match hx : x t with
    | none => exact Or.inl rfl
    | some q =>
      by_cases hq : q = r
      · exact Or.inr (congrArg some hq)
      · obtain rfl := Role.eq_opposite_of_ne hq
        rcases Nat.eq_or_lt_of_le htc with rfl | htc
        · exact Or.inr (hx.symm.trans hc)
        · exact absurd ⟨t, hat, htc, hx⟩ hopp
  have hnot : ∀ {s t}, x s = none → x t = some r → s ≠ t := by
    rintro s _ hs ht rfl
    rw [hs] at ht
    cases ht
  rcases hsame (a + 1) (by omega) (by omega) with h1 | h1
  · have hne := hnot h1 hb
    rcases hsame (a + 2) (by omega) (by omega) with h2 | h2
    · have := hrest (a + 1) (a + 2) (by omega) (by omega) h1 h2
      omega
    · rcases hsame (a + 3) (by omega) (by omega) with h3 | h3
      · have := hrest (a + 1) (a + 3) (by omega) (by omega) h1 h3
        omega
      · exact hsecond a (by omega) ha h1 h2 h3
  · rcases hsame (a + 2) (by omega) (by omega) with h2 | h2
    · have hne := hnot h2 hc
      rcases hsame (a + 3) (by omega) (by omega) with h3 | h3
      · have := hrest (a + 2) (a + 3) (by omega) (by omega) h2 h3
        omega
      · exact hthird a (by omega) ha h1 h2 h3
    · exact hthree a (by omega) ha h1 h2

/-- Streaks of an even number. -/
theorem lengths_le_two_of_even {h p : Nat} (hp : p < 2 * h + 2) (r : Role) :
    ∀ n ∈ Streak.lengths r p (places (2 * h + 2)), n ≤ 2 := by
  have h2 : 2 ≤ 2 * h + 2 := by omega
  have hroles := roles_places h2 hp
  rw [halfway_of_even] at hroles
  generalize hx : (fun t => Schedule.roleIn p (places (2 * h + 2)) (t + 1)) = x at hroles
  have hrole : ∀ t, t ≤ 2 * h → x t = some (.ofHost (Hosts p t)) := by
    intro t ht
    rw [← hx]
    exact roleIn_of_even ht hp
  have hplays : ∀ t, t ≤ 2 * h → x t ≠ none := by
    intro t ht
    rw [hrole t ht]
    exact nofun
  -- it is passed between two turns in the same role
  have hpassed : ∀ t, t + 1 ≤ 2 * h → x t = some r → x (t + 1) = some r → t + 1 + p % 2 = p := by
    intro t ht hr hr'
    rw [hrole t (by omega)] at hr
    rw [hrole (t + 1) ht] at hr'
    have hkeeps := Role.ofHost_eq_iff.mp (Option.some.inj (hr.trans hr'.symm))
    exact ((hosts_iff_hosts_succ p t).mp hkeeps).2
  refine Streak.lengths_le_two (places_isSingleRound h2).round.not_equals hroles ?_
  intro a b c _ hab hbc hc
  have hlast : c ≤ 2 * h := by omega
  refine exists_opposite ?_ ?_ ?_ ?_ hab hbc hlast
  · exact fun s t hs _ hnone _ => absurd hnone (hplays s hs)
  · intro t ht h0 h1 h2
    have hpassed₁ := hpassed t (by omega) h0 h1
    have hpassed₂ := hpassed (t + 1) (by omega) h1 h2
    omega
  · exact fun t ht _ hnone _ _ => hplays (t + 1) (by omega) hnone
  · exact fun t ht _ _ hnone _ => hplays (t + 2) (by omega) hnone

/-- Before the last turn nothing is swapped. -/
theorem hostsAtLast_of_lt {h p t : Nat} (ht : t < 2 * h) : HostsAtLast h p t ↔ Hosts p t := by
  refine ⟨?_, fun hhosts => Or.inl ⟨ht, hhosts⟩⟩
  rintro (⟨-, hhosts⟩ | ⟨hlast, -⟩)
  · exact hhosts
  · exact absurd hlast (Nat.ne_of_lt ht)

/-- Before the last turn, a place keeps its role when it is passed. -/
theorem passed_of_keeps {h p t : Nat} (ht : t + 1 < 2 * h)
    (hkeeps : HostsAtLast h p t ↔ HostsAtLast h p (t + 1)) : 2 ≤ p ∧ t + 1 + p % 2 = p := by
  rw [hostsAtLast_of_lt ht, hostsAtLast_of_lt (by omega)] at hkeeps
  exact (hosts_iff_hosts_succ p t).mp hkeeps

/-- Whose role is the same in the last two turns. -/
theorem of_keeps_last {h p t : Nat} (ht : t + 1 = 2 * h) (hp : p < 2 * h + 1) (hpos : 0 < p)
    (hkeeps : HostsAtLast h p t ↔ HostsAtLast h p (t + 1)) :
    p % 4 = 0 ∧ p = 2 * h ∨ p % 4 = 2 ∧ p < 2 * h ∨ p % 2 = 1 ∧ (p + (2 * h + 1)) % 4 = 0 := by
  rw [hostsAtLast_of_lt (by omega)] at hkeeps
  unfold HostsAtLast Hosts at hkeeps
  omega

/-- No place keeps its role twice in a row. -/
theorem not_keeps_twice {h p t : Nat} (ht : t + 2 ≤ 2 * h)
    (hkeeps : HostsAtLast h p t ↔ HostsAtLast h p (t + 1)) :
    ¬ (HostsAtLast h p (t + 1) ↔ HostsAtLast h p (t + 2)) := by
  intro hkeeps'
  have hpassed := passed_of_keeps (by omega) hkeeps
  rcases Nat.eq_or_lt_of_le ht with heq | hlt
  · omega
  · have hpassed' := passed_of_keeps hlt hkeeps'
    omega

/-- No place keeps its role right after the match that follows its rest. -/
theorem not_keeps_after_rest {h p t : Nat} (ht : t + 3 ≤ 2 * h) (hp : p < 2 * h + 1)
    (hrest : Rests h p (t + 1)) : ¬ (HostsAtLast h p (t + 2) ↔ HostsAtLast h p (t + 3)) := by
  intro hkeeps
  unfold Rests at hrest
  rcases Nat.eq_or_lt_of_le ht with heq | hlt
  · have hlast := of_keeps_last heq hp (by omega) hkeeps
    omega
  · have hpassed := passed_of_keeps hlt hkeeps
    omega

/-- No place that keeps its role right before its rest keeps it over the rest as well.  There is one
that would, just before the last turn, and it is swapped there. -/
theorem not_keeps_before_rest {h p t : Nat} (ht : t + 3 ≤ 2 * h) (hrest : Rests h p (t + 2))
    (hkeeps : HostsAtLast h p t ↔ HostsAtLast h p (t + 1)) :
    ¬ (HostsAtLast h p (t + 1) ↔ HostsAtLast h p (t + 3)) := by
  have hpassed := passed_of_keeps (by omega) hkeeps
  unfold Rests at hrest
  obtain ⟨hlast, rfl⟩ : t + 3 = 2 * h ∧ p = t + 2 := by omega
  rw [hostsAtLast_of_lt (by omega)]
  unfold HostsAtLast Hosts
  omega

/-- Streaks of an odd number. -/
theorem lengths_le_two_of_odd {h p : Nat} (h1 : 1 ≤ h) (hp : p < 2 * h + 1) (r : Role) :
    ∀ n ∈ Streak.lengths r p (places (2 * h + 1)), n ≤ 2 := by
  have h2 : 2 ≤ 2 * h + 1 := by omega
  have hroles := roles_places h2 hp
  rw [halfway_of_odd] at hroles
  generalize hx : (fun t => Schedule.roleIn p (places (2 * h + 1)) (t + 1)) = x at hroles
  have hrole : ∀ t, t ≤ 2 * h →
      x t = if Rests h p t then none else some (.ofHost (HostsAtLast h p t)) := by
    intro t ht
    rw [← hx]
    exact roleIn_of_odd h1 ht hp
  have hrests : ∀ t, t ≤ 2 * h → x t = none → Rests h p t := by
    intro t ht hnone
    rw [hrole t ht] at hnone
    split at hnone
    · assumption
    · cases hnone
  have hplays : ∀ t, t ≤ 2 * h → x t = some r → Role.ofHost (HostsAtLast h p t) = r := by
    intro t ht hr
    rw [hrole t ht] at hr
    split at hr
    · cases hr
    · exact Option.some.inj hr
  have hkeeps : ∀ s t, s ≤ 2 * h → t ≤ 2 * h → x s = some r → x t = some r →
      (HostsAtLast h p s ↔ HostsAtLast h p t) := fun s t hs ht hsr htr =>
    Role.ofHost_eq_iff.mp ((hplays s hs hsr).trans (hplays t ht htr).symm)
  refine Streak.lengths_le_two (places_isSingleRound h2).round.not_equals hroles ?_
  intro a b c _ hab hbc hc
  have hlast : c ≤ 2 * h := by omega
  refine exists_opposite ?_ ?_ ?_ ?_ hab hbc hlast
  · intro s t hs ht hsnone htnone
    have hsrests := hrests s hs hsnone
    have htrests := hrests t ht htnone
    unfold Rests at hsrests htrests
    omega
  · intro t ht h0 h1 h2
    exact not_keeps_twice ht (hkeeps t (t + 1) (by omega) (by omega) h0 h1)
      (hkeeps (t + 1) (t + 2) (by omega) ht h1 h2)
  · intro t ht _ hnone h2 h3
    exact not_keeps_after_rest ht hp (hrests (t + 1) (by omega) hnone)
      (hkeeps (t + 2) (t + 3) (by omega) ht h2 h3)
  · intro t ht h0 h1 hnone h3
    exact not_keeps_before_rest ht (hrests (t + 2) (by omega) hnone)
      (hkeeps t (t + 1) (by omega) (by omega) h0 h1) (hkeeps (t + 1) (t + 3) (by omega) ht h1 h3)

/-- **No place has three matches in a row in the same role.** -/
theorem places_lengths_le_two {n p : Nat} (h2 : 2 ≤ n) (hp : p < n) (r : Role) :
    ∀ k ∈ Streak.lengths r p (places n), k ≤ 2 := by
  rcases Nat.mod_two_eq_zero_or_one n with heven | hodd
  · obtain ⟨h, rfl⟩ : ∃ h, n = 2 * h + 2 := ⟨n / 2 - 1, by omega⟩
    exact lengths_le_two_of_even hp r
  · obtain ⟨h, rfl⟩ : ∃ h, n = 2 * h + 1 := ⟨n / 2, by omega⟩
    exact lengths_le_two_of_odd (by omega) hp r

/-! ## 5. The schedule -/

/-- All but the first two of an even number of places have one break and one streak of two. -/
theorem twos_of_even {n p : Nat} (h2 : 2 ≤ n) (heven : n % 2 = 0) (hp : p < n) :
    Streak.breaks (Schedule.roles p (places n)) = (if p < 2 then 0 else 1) ∧
      Streak.twos p (places n) = if p < 2 then 0 else 1 := by
  have htwos := Streak.twos_eq_breaks (places_isSingleRound h2).round.not_equals
    (places_lengths_le_two h2 hp)
  obtain ⟨h, rfl⟩ : ∃ h, n = 2 * h + 2 := ⟨n / 2 - 1, by omega⟩
  exact ⟨breaks_of_even hp, htwos.trans (breaks_of_even hp)⟩

/-- How many places are not among the first two. -/
theorem countP_range_two_le {n : Nat} (h2 : 2 ≤ n) : (List.range n).countP (2 ≤ ·) = n - 2 := by
  obtain ⟨k, rfl⟩ : ∃ k, n = 2 + k := ⟨n - 2, by omega⟩
  have hrest : ((List.range k).map (2 + ·)).countP (2 ≤ ·) = k := by
    rw [List.countP_map, List.countP_eq_length.mpr, List.length_range]
    exact fun i _ => decide_eq_true (Nat.le_add_right 2 i)
  rw [List.range_add, List.countP_append, hrest, Nat.add_sub_cancel_left]
  exact Nat.zero_add k

variable {ps : List Value}

/-- **Nobody has three home matches or three matches as guest in a row.**  With an even number of
participants exactly two of them have no break, everybody else has one, a streak of two, and no
single round of these participants has fewer breaks.  Breaks are found by asking for equality, so
participants are counted who are equal to themselves. -/
theorem plan_breaks (h2 : 2 ≤ ps.length) (hd : AllDifferent ps) (hbye : .bye ∉ ps)
    (hkey : ps.length % 2 = 1 → ∀ p ∈ ps, p.isKey = true) :
    ∃ ms : List (Match Nat Value), (plan ps).result = .ok (Schedule.fixtures ms) ∧
      IsSingleRound ps 1 ms ∧
      (∀ p ∈ ps, ∃ home guest,
        Streak.longestOfRows p ((Schedule.fixtures ms).map Row.ofFixture) = .ok (home, guest) ∧
          home ≤ 2 ∧ guest ≤ 2) ∧
      (ps.length % 2 = 0 → (∀ p ∈ ps, equals p p = true) →
        ps.countP (Streak.twos · (Schedule.fixtures ms) == 1) = ps.length - 2 ∧
        (∀ p ∈ ps, Streak.twos p (Schedule.fixtures ms) ≤ 1) ∧
        (ps.map fun p => Streak.breaks (Schedule.roles p ms)).sum = ps.length - 2 ∧
        ∀ first ns, IsSingleRound ps first ns →
          ps.length - 2 ≤ (ps.map fun p => Streak.breaks (Schedule.roles p ns)).sum) := by
  have hround := places_isSingleRound h2
  refine ⟨_, plan_eq_places h2 hd hbye hkey, taken_isSingleRound hd hround,
    fun p hp => taken_longestOfRows hd hround (fun i hi => places_lengths_le_two h2 hi) hp,
    fun heven hrefl => ?_⟩
  have hself : ∀ i < ps.length, equals (sitting ps i) (sitting ps i) = true := fun i hi =>
    equals_self_sitting hrefl hi
  refine ⟨?_, fun p hp => ?_, ?_, fun first ns hns => ?_⟩
  · rw [countP_eq_countP_sitting, ← countP_range_two_le h2]
    refine List.countP_congr fun i hi => ?_
    have hi := List.mem_range.mp hi
    rw [taken_twos hd hround hi (hself i hi), (twos_of_even h2 heven hi).2, beq_iff_eq,
      decide_eq_true_eq]
    split <;> omega
  · obtain ⟨i, hi, rfl⟩ := exists_place_of_mem hp
    rw [taken_twos hd hround hi (hself i hi), (twos_of_even h2 heven hi).2]
    split <;> omega
  · rw [sum_map_eq_sum_sitting, ← countP_range_two_le h2, ← sum_map_ite_eq_countP]
    refine sum_map_congr fun i hi => ?_
    have hi := List.mem_range.mp hi
    rw [taken_roles hd hround hi (hself i hi), (twos_of_even h2 heven hi).1]
    simp only [decide_eq_true_eq]
    split <;> split <;> omega
  · have hle := hns.length_le_breaks hd hrefl heven
    omega

/-- Of four participants, two have a streak of two matches and nobody a longer one. -/
theorem plan_breaks_four :
    ∃ ms : List (Match Nat Value),
      (plan [.text "Ann", .int 2, .tuple [.int 1], .bool false]).result
        = .ok (Schedule.fixtures ms) ∧
      (∀ p ∈ [Value.text "Ann", .int 2, .tuple [.int 1], .bool false], ∃ home guest,
        Streak.longestOfRows p ((Schedule.fixtures ms).map Row.ofFixture) = .ok (home, guest) ∧
          home ≤ 2 ∧ guest ≤ 2) ∧
      [Value.text "Ann", .int 2, .tuple [.int 1], .bool false].countP
        (Streak.twos · (Schedule.fixtures ms) == 1) = 2 := by
  have hkey : ∀ p ∈ [Value.text "Ann", .int 2, .tuple [.int 1], .bool false],
      p.isKey = true := by decide
  obtain ⟨ms, hms, -, hlongest, heven⟩ :=
    plan_breaks (by decide) (by decide) (by simp) fun _ => hkey
  exact ⟨ms, hms, hlongest, (heven rfl (by decide)).1⟩

end Circle
end Matchday
