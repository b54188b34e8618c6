/-
# Swaps do no harm

A player repeats a role who has it in two matches in a row, not counting matches of others in
between (`Match.repeating`).  If one player of a match repeats a role, the match may as well be
swapped: then he does not, so at most the other one does (`Match.repeating_swapped_le`).

A match is only swapped if one of its players repeats a role (`Underway.exists_repeats_of_asks`).
Where a streak is compared with another one it is not empty, and then the last match of all is one
of the player's own.  In the last resort the program looks at the turn before, which is the end of
the result and in which nobody plays twice.  Within a turn nobody's role is affected by the other
matches, so what holds when the decision is made still holds where the match comes to stand
(`Adds.repeating_le`), and no match of the order is worse than it was given (`sequence_no_worse`).
-/
import Matchday.Proofs.Sequencer.Forms
import Matchday.Proofs.Sequencer.Steps

namespace Matchday

/-! ## 1. Repeating a role -/

section Repeating

variable {τ α : Type} [BEq α] [Equality α] {ms ns : List (Match τ α)} {m : Match τ α} {p : α}

/-- How many players of a match have the role in it that they had in the last of their matches
before. -/
def Match.repeating (before : List (Match τ α)) (m : Match τ α) : Nat :=
  [Role.home, Role.guest].countP fun r => decide (Schedule.lastRole (m.player r) before = some r)

/-- Nobody plays twice in a turn, if no player of a match does in the turn of the match. -/
theorem Schedule.once_of_players [BEq τ] [Equality τ] [PartialEquivBEq τ] [PartialEquivBEq α]
    (h : ∀ m ∈ ms, ∀ p ∈ m.players, (ofTurn ms m.turn).countP (Match.hasPlayer p) ≤ 1) (t : τ)
    (p : α) : (ofTurn ms t).countP (Match.hasPlayer p) ≤ 1 := by
  rcases Nat.eq_zero_or_pos ((ofTurn ms t).countP (Match.hasPlayer p)) with hnone | hpos
  · rw [hnone]
    exact Nat.zero_le 1
  · obtain ⟨m, hm, hp⟩ := List.countP_pos_iff.mp hpos
    obtain ⟨hm, hturn⟩ := List.mem_filter.mp hm
    obtain ⟨q, hq, hqp⟩ : ∃ q ∈ m.players, equals q p = true := by
      rcases Bool.or_eq_true_iff.mp hp with hp | hp
      · exact ⟨m.home, List.mem_cons_self, hp⟩
      · exact ⟨m.guest, List.mem_cons_of_mem _ List.mem_cons_self, hp⟩
    have hsame : (ofTurn ms t).countP (Match.hasPlayer p)
        = (ofTurn ms m.turn).countP (Match.hasPlayer q) := by
      rw [ofTurn, ofTurn, List.countP_filter, List.countP_filter]
      refine List.countP_congr fun n _ => ?_
      rw [Match.hasPlayer, Match.hasPlayer, equals_congr_right (beq_of_equals hqp),
        equals_congr_right (beq_of_equals hqp), equals_congr_right (beq_of_equals hturn)]
    rw [hsame]
    exact h m hm q hq

/-- Players who are busy with a match have no other one in the turn. -/
theorem Match.others_before {j : Nat} (honce : ns.countP (Match.hasPlayer p) ≤ 1)
    (hm : ns[j]? = some m) (hp : m.hasPlayer p = true) :
    ∀ n ∈ ns.take j, n.hasPlayer p = false := by
  obtain ⟨hj, rfl⟩ := List.getElem?_eq_some_iff.mp hm
  have hsplit : ns.take j ++ ns[j] :: ns.drop (j + 1) = ns := by
    rw [← List.drop_eq_getElem_cons hj, List.take_append_drop]
  rw [← hsplit, List.countP_append, List.countP_cons_of_pos hp] at honce
  have hnone : (ns.take j).countP (Match.hasPlayer p) = 0 := by omega
  exact fun n hn => Bool.eq_false_iff.mpr (List.countP_eq_zero.mp hnone n hn)

theorem Match.repeating_eq (before : List (Match τ α)) (m : Match τ α) :
    m.repeating before = (if Schedule.lastRole m.home before = some .home then 1 else 0) +
      (if Schedule.lastRole m.guest before = some .guest then 1 else 0) := by
  rw [repeating, List.countP_cons, List.countP_singleton, Nat.add_comm]
  simp only [decide_eq_true_eq]
  rfl

/-- **A match in which somebody repeats a role may as well be swapped.** -/
theorem Match.repeating_swapped_le {before : List (Match τ α)}
    (h : ∃ r, Schedule.lastRole (m.player r) before = some r) :
    m.swapped.repeating before ≤ m.repeating before := by
  obtain ⟨r, hr⟩ := h
  rw [repeating_eq, repeating_eq]
  cases r with
  | home =>
    have hhome : Schedule.lastRole m.home before = some .home := hr
    have hswapped : Schedule.lastRole m.swapped.guest before ≠ some .guest :=
      fun h => Role.noConfusion (Option.some.inj (hhome.symm.trans h))
    rw [if_pos hhome, if_neg hswapped]
    split <;> omega
  | guest =>
    have hguest : Schedule.lastRole m.guest before = some .guest := hr
    have hswapped : Schedule.lastRole m.swapped.home before ≠ some .home :=
      fun h => Role.noConfusion (Option.some.inj (hguest.symm.trans h))
    rw [if_pos hguest, if_neg hswapped]
    split <;> omega

/-- Whoever of a match is a player of any match is one of his own. -/
theorem Match.hasPlayer_player [PartialEquivBEq α] {n : Match τ α} {r : Role}
    (h : n.hasPlayer (m.player r) = true) : m.hasPlayer (m.player r) = true := by
  have hself : equals (m.player r) (m.player r) = true := by
    rcases Bool.or_eq_true_iff.mp h with h | h <;> exact equals_self_of_equals h
  cases r with
  | home => exact Bool.or_eq_true_iff.mpr (Or.inl hself)
  | guest => exact Bool.or_eq_true_iff.mpr (Or.inr hself)

/-- Only matches of the two players matter. -/
theorem Match.repeating_append_others [PartialEquivBEq α] {before : List (Match τ α)}
    (h : ∀ p, m.hasPlayer p = true → ∀ n ∈ ns, n.hasPlayer p = false) :
    m.repeating (before ++ ns) = m.repeating before := by
  have hplayer : ∀ r, ∀ n ∈ ns, n.hasPlayer (m.player r) = false := fun r n hn =>
    Bool.eq_false_iff.mpr fun hp => Bool.eq_false_iff.mp (h _ (Match.hasPlayer_player hp) n hn) hp
  have hhome : ∀ n ∈ ns, n.hasPlayer m.home = false := hplayer .home
  have hguest : ∀ n ∈ ns, n.hasPlayer m.guest = false := hplayer .guest
  rw [repeating_eq, Schedule.lastRole_append_others hhome,
    Schedule.lastRole_append_others hguest, repeating_eq]

end Repeating

/-! ## 2. Decisions -/

namespace Sequencer

variable {ps : List Value} {ms : List Fixture} {s s' : Sequencer} {m : Fixture} {t : Value}

/-- Nobody in the result plays against himself. -/
theorem Underway.not_self_result (h : Underway ps ms s)
    (hself : ∀ m ∈ ms, equals m.home m.guest = false) :
    ∀ n ∈ s.result, equals n.home n.guest = false := by
  intro n hn
  rw [h.result] at hn
  obtain ⟨u, -, hn⟩ := List.mem_flatMap.mp hn
  exact h.turned.turned.not_equals hself n (List.mem_of_mem_filter hn)

/-- **A swap is only asked for where somebody repeats a role.** -/
theorem Underway.exists_repeats_of_asks (h : Underway ps ms s)
    (hself : ∀ m ∈ ms, equals m.home m.guest = false)
    (honce : ∀ t p, (Schedule.ofTurn ms t).countP (Match.hasPlayer p) ≤ 1)
    (hnew : ∀ u ∈ s.placed, (t == u) = false) (hasks : s.Asks t m) :
    ∃ r, Schedule.lastRole (m.player r) s.result = some r := by
  obtain ⟨-, ws, hws, hdecides⟩ := hasks
  rcases of_decides hdecides with ⟨r, hpos⟩ | hrepeats
  · exact ⟨r, Streak.lastRole_of_current (h.not_self_result hself) hpos⟩
  · obtain ⟨last, hlast, r, n, hn, hsame⟩ := of_repeatsRole hrepeats
    obtain ⟨placed, hplaced⟩ := List.getLast?_eq_some_iff.mp hlast
    -- the turn placed last has not been touched, and the result ends with it
    have huntouched : Schedule.ofTurn ws last = Schedule.ofTurn s.working.fixtures last := by
      refine hws.ofTurn_eq fun u hu => (BEq.congr_left hu).trans (hnew last ?_)
      exact List.mem_of_getLast? hlast
    rw [huntouched] at hn
    have hself : equals n.home n.guest = false :=
      h.turned.turned.not_equals hself n (List.mem_of_mem_filter hn)
    refine ⟨r, ?_⟩
    rw [h.result, hplaced, List.flatMap_append, List.flatMap_singleton]
    refine Schedule.lastRole_append_once ?_ hn ((Match.role_eq_some_iff hself).mpr hsame) _
    rw [h.turned.turned.countP_ofTurn_eq last (Match.hasPlayer_swapped _)]
    exact honce last _

/-- **A match of the turn that is added is no worse than it was given**, wherever it stands in the
turn. -/
theorem Adds.repeating_le (hkey : ∀ m ∈ ms, m.home.isKey = true ∧ m.guest.isKey = true)
    (hself : ∀ m ∈ ms, equals m.home m.guest = false)
    (honce : ∀ t p, (Schedule.ofTurn ms t).countP (Match.hasPlayer p) ≤ 1)
    (hs : Underway ps ms s) (hadds : Adds t s s') {j : Nat} {n : Fixture}
    (hm : (Schedule.ofTurn ms t)[j]? = some m)
    (hn : (Schedule.ofTurn s'.working.fixtures t)[j]? = some n) :
    n.repeating (s.result ++ (Schedule.ofTurn s'.working.fixtures t).take j)
      ≤ m.repeating (s.result ++ (Schedule.ofTurn s'.working.fixtures t).take j) := by
  have hnew := hadds.not_placed hkey hs
  have hasked := hadds.asked.ofTurn t
  rw [hs.ofTurn_open hnew] at hasked
  have hmn : n = m ∨ n = m.swapped ∧ s.Asks t m := by
    obtain ⟨hj, rfl⟩ := List.getElem?_eq_some_iff.mp hm
    obtain ⟨hj', rfl⟩ := List.getElem?_eq_some_iff.mp hn
    exact hasked.get hj hj'
  rcases hmn with rfl | ⟨rfl, hasks⟩
  · exact Nat.le_refl _
  · -- the matches of the turn that stand before it are those of others
    have hothers : ∀ p, m.hasPlayer p = true →
        ∀ x ∈ (Schedule.ofTurn s'.working.fixtures t).take j, x.hasPlayer p = false := by
      intro p hp
      refine Match.others_before ?_ hn ((Match.hasPlayer_swapped p m).trans hp)
      rw [(hs.turned.turned.trans hadds.asked.turnedIn.turned).countP_ofTurn_eq t
        (Match.hasPlayer_swapped p)]
      exact honce t p
    rw [Match.repeating_append_others hothers, Match.repeating_append_others fun p hp =>
      hothers p ((Match.hasPlayer_swapped p m).symm.trans hp)]
    exact Match.repeating_swapped_le (hs.exists_repeats_of_asks hself honce hnew hasks)

/-! ## 3. Runs -/

/-- No match of the result has more repeats than it would have as it was given. -/
def NoWorse (ms : List Fixture) (s : Sequencer) : Prop :=
  ∀ (i : Nat) (m n : Fixture), (s.placed.flatMap (Schedule.ofTurn ms))[i]? = some m →
    s.result[i]? = some n → n.repeating (s.result.take i) ≤ m.repeating (s.result.take i)

/-- **A turn that is added is no worse than it was given**, and what comes before it is not
affected. -/
theorem NoWorse.adds (hkey : ∀ m ∈ ms, m.home.isKey = true ∧ m.guest.isKey = true)
    (hself : ∀ m ∈ ms, equals m.home m.guest = false)
    (honce : ∀ t p, (Schedule.ofTurn ms t).countP (Match.hasPlayer p) ≤ 1)
    (hs : Underway ps ms s) (h : NoWorse ms s) (hadds : Adds t s s') : NoWorse ms s' := by
  have hlen : s.result.length = (s.placed.flatMap (Schedule.ofTurn ms)).length := by
    rw [hs.result]
    exact (hs.turned.turned.turnByTurn s.placed).length_eq.symm
  intro i m n hm hn
  rw [hadds.placed, List.flatMap_append, List.flatMap_singleton] at hm
  rw [hadds.result] at hn ⊢
  rcases Nat.lt_or_ge i s.result.length with hi | hi
  · rw [List.getElem?_append_left (hlen ▸ hi)] at hm
    rw [List.getElem?_append_left hi] at hn
    rw [List.take_append_of_le_length (Nat.le_of_lt hi)]
    exact h i m n hm hn
  · rw [List.getElem?_append_right (hlen ▸ hi), ← hlen] at hm
    rw [List.getElem?_append_right hi] at hn
    rw [List.take_append, List.take_of_length_le hi]
    exact hadds.repeating_le hkey hself honce hs hm hn

/-- **No swap makes a match worse.**  Of any schedule whose entries serve as keys and whose players
are among the participants, in which nobody plays against himself or twice in a turn, a sequencer
makes an order in which no match has more players who repeat their last role than it would have, in
the same place, as it was given. -/
theorem sequence_no_worse {s : Sequencer} {ms : List Fixture} (hsource : s.source = .ofFixtures ms)
    (hkeys : ∀ m ∈ ms, m.turn.isKey = true ∧ m.home.isKey = true ∧ m.guest.isKey = true)
    (hparticipants : ∀ p ∈ s.participants, p.isKey = true)
    (hknown : ∀ m ∈ ms, s.participants.contains m.home = true ∧
      s.participants.contains m.guest = true)
    (hself : ∀ m ∈ ms, equals m.home m.guest = false)
    (honce : ∀ m ∈ ms, ∀ p ∈ m.players,
      (Schedule.ofTurn ms m.turn).countP (Match.hasPlayer p) ≤ 1) :
    ∃ ns s', Action.Runs sequence s ns s' ∧ s'.placed.Perm (Schedule.turns ms) ∧
      Turned (s'.placed.flatMap (Schedule.ofTurn ms)) ns ∧
      ∀ (i : Nat) (m n : Fixture), (s'.placed.flatMap (Schedule.ofTurn ms))[i]? = some m →
        ns[i]? = some n → n.repeating (ns.take i) ≤ m.repeating (ns.take i) := by
  have hkey : ∀ m ∈ ms, m.home.isKey = true ∧ m.guest.isKey = true := fun m hm => (hkeys m hm).2
  have hnone : NoWorse ms s.restarted := by
    intro i m n _ hn
    cases hn
  have hfirst : ∀ t ∈ Schedule.turns ms, NoWorse ms (place t s.restarted) := by
    intro t ht i m n hm hn
    have hworking : (place t s.restarted).working.fixtures = ms := congrArg Sheet.fixtures hsource
    rw [(underway_first rfl hsource ht).result, hworking, hm] at hn
    obtain rfl := Option.some.inj hn
    exact Nat.le_refl _
  obtain ⟨s', hruns, hperm, hturned, hworse⟩ := exists_kept hsource hkeys hparticipants hknown hnone
    hfirst fun hs h hadds => h.adds hkey hself (Schedule.once_of_players honce) hs hadds
  exact ⟨s'.result, s', hruns, hperm, hturned, hworse⟩

/-- Player 1 has been at home twice and then rested, and is guest in the last match. -/
theorem sequence_no_worse_four :
    ∃ s', Action.Runs sequence (create [.int 1, .int 2, .int 3, .int 4] (.ofFixtures
          [⟨.int 1, .int 1, .int 2⟩, ⟨.int 2, .int 1, .int 3⟩, ⟨.int 3, .int 2, .int 4⟩,
            ⟨.int 4, .int 1, .int 4⟩]) false true)
        [⟨.int 1, .int 1, .int 2⟩, ⟨.int 2, .int 1, .int 3⟩, ⟨.int 3, .int 2, .int 4⟩,
          ⟨.int 4, .int 4, .int 1⟩] s' ∧
      Match.repeating [⟨.int 1, .int 1, .int 2⟩, ⟨.int 2, .int 1, .int 3⟩, ⟨.int 3, .int 2, .int 4⟩]
          (⟨.int 4, .int 4, .int 1⟩ : Fixture)
        ≤ Match.repeating
          [⟨.int 1, .int 1, .int 2⟩, ⟨.int 2, .int 1, .int 3⟩, ⟨.int 3, .int 2, .int 4⟩]
          (⟨.int 4, .int 1, .int 4⟩ : Fixture) := by
  obtain ⟨ns, s', hruns, -, -, hworse⟩ := sequence_no_worse
    (s := create [.int 1, .int 2, .int 3, .int 4] (.ofFixtures
      [⟨.int 1, .int 1, .int 2⟩, ⟨.int 2, .int 1, .int 3⟩, ⟨.int 3, .int 2, .int 4⟩,
        ⟨.int 4, .int 1, .int 4⟩]) false true)
    rfl (by decide) (by decide) (by decide) (by decide) (by decide)
  obtain rfl : [⟨.int 1, .int 1, .int 2⟩, ⟨.int 2, .int 1, .int 3⟩, ⟨.int 3, .int 2, .int 4⟩,
      ⟨.int 4, .int 4, .int 1⟩] = ns := Except.ok.inj (Eq.trans rfl hruns.1)
  have hplaced : s'.placed = [.int 1, .int 2, .int 3, .int 4] := by
    rw [← hruns.2]
    rfl
  rw [hplaced] at hworse
  exact ⟨s', hruns, hworse 3 _ _ rfl rfl⟩

end Sequencer
end Matchday
