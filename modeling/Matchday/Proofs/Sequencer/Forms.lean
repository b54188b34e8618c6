/-
# The form of a player

Whether a match is swapped is decided by the form of its two players, the streaks in which they
stand.  What is read off the result for a role is the length that is reported first, and this
belongs to the last match of all.  So the form of a player is told if that match is one of the
player's own.  Everybody else counts as being in no streak, whatever they have played before
(`form_eq`, `formOf_last_match`).  A swap that the form of a player would call for is then not made
(`form_forgets_streak`).

In spite of that a form errs in one direction only: where a streak is read off, the player had the
role in the last match of his own (`Streak.lastRole_of_current`).  Unless it is for such a streak, a
match is only swapped in the last resort (`of_decides`).
-/
import Matchday.Proofs.Blocks
import Matchday.Proofs.Breaks
import Matchday.Proofs.Sequencer.Swapping

namespace Matchday

/-! ## 1. The last role -/

section Roles

variable {τ α : Type} [BEq α] [Equality α] {ms ns : List (Match τ α)} {m : Match τ α} {p : α}
  {r : Role}

/-- The role of a player in his last match. -/
def Schedule.lastRole (p : α) (ms : List (Match τ α)) : Option Role :=
  (Schedule.roles p ms).getLast?

theorem Schedule.roles_append (p : α) (ms ns : List (Match τ α)) :
    roles p (ms ++ ns) = roles p ms ++ roles p ns := List.filterMap_append

/-- Matches of others do not count. -/
theorem Schedule.lastRole_append_others (h : ∀ n ∈ ns, n.hasPlayer p = false)
    (ms : List (Match τ α)) : lastRole p (ms ++ ns) = lastRole p ms := by
  have hnone : roles p ns = [] := by
    rw [← List.length_eq_zero_iff, length_roles, List.countP_eq_zero]
    exact fun n hn => Bool.eq_false_iff.mp (h n hn)
  rw [lastRole, roles_append, hnone, List.append_nil, lastRole]

/-- Whoever plays once in the end has that role last. -/
theorem Schedule.lastRole_append_once (honce : ns.countP (Match.hasPlayer p) ≤ 1) (hm : m ∈ ns)
    (hrole : m.role p = some r) (ms : List (Match τ α)) : lastRole p (ms ++ ns) = some r := by
  have hmem : r ∈ roles p ns := List.mem_filterMap.mpr ⟨m, hm, hrole⟩
  rw [← length_roles] at honce
  obtain ⟨q, hq⟩ : ∃ q, roles p ns = [q] :=
    List.length_eq_one_iff.mp (Nat.le_antisymm honce (List.length_pos_of_mem hmem))
  rw [hq, List.mem_singleton] at hmem
  rw [lastRole, roles_append, hq, List.getLast?_concat, hmem]

/-- **A player stands in a streak of the last role**, and in no other one. -/
theorem Streak.running_pos_iff : 0 < running r p ms ↔ Schedule.lastRole p ms = some r := by
  rw [running, Schedule.lastRole, ← List.head?_reverse]
  cases (Schedule.roles p ms).reverse with
  | nil => simp
  | cons q qs => by_cases hq : q = r <;> simp [hq]

/-- Whoever plays in the last match has that role last. -/
theorem Schedule.lastRole_concat (hrole : m.role p = some r) (ms : List (Match τ α)) :
    lastRole p (ms ++ [m]) = some r := by
  have hone : roles p [m] = [r] := List.filterMap_cons_some hrole
  rw [lastRole, roles_append, hone, List.getLast?_concat]

/-- **A streak that is read off is one of the last role.** -/
theorem Streak.lastRole_of_current [PartialEquivBEq α]
    (hself : ∀ m ∈ ms, equals m.home m.guest = false) (h : 0 < current r p ms) :
    Schedule.lastRole p ms = some r := by
  rcases List.eq_nil_or_concat ms with rfl | ⟨ms, m, rfl⟩
  · exact absurd h (Nat.lt_irrefl 0)
  · rw [List.concat_eq_append] at *
    rw [current_concat hself] at h
    refine Schedule.lastRole_concat ?_ ms
    by_contra hrole
    rw [if_neg hrole] at h
    exact Nat.lt_irrefl 0 h

end Roles

/-! ## 2. What is read off -/

namespace Sequencer

variable {ps : List Value} {ms ns : List Fixture} {p : Value} {m : Fixture} {s : Sequencer}

/-- The streaks in which a player stands. -/
def standing (ms : List Fixture) (p : Value) : Form :=
  ⟨Streak.running .home p ms, Streak.running .guest p ms⟩

/-- **Streaks are read off for those who play in the last match**, and for nobody else. -/
theorem form_eq (hself : ∀ m ∈ ms, equals m.home m.guest = false) (p : Value) :
    form ms p = if ms.getLast?.any (Match.hasPlayer p) then standing ms p else ⟨0, 0⟩ := by
  rcases List.eq_nil_or_concat ms with rfl | ⟨ms, m, rfl⟩
  · rfl
  rw [List.concat_eq_append] at *
  rw [List.getLast?_concat, Option.any_some, form, Streak.current_concat hself,
    Streak.current_concat hself]
  cases hrole : m.role p with
  | none =>
    rw [← Match.isSome_role, hrole]
    rfl
  | some q =>
    -- in the other role there is no streak to be read off
    have hread : ∀ r, (if some q = some r then Streak.running r p (ms ++ [m]) else 0)
        = Streak.running r p (ms ++ [m]) := by
      intro r
      split
      · rfl
      · rename_i hqr
        by_contra hne
        have hpos := Nat.pos_of_ne_zero (Ne.symm hne)
        exact hqr ((Schedule.lastRole_concat hrole ms).symm.trans (Streak.running_pos_iff.mp hpos))
    rw [hread, hread, ← Match.isSome_role, hrole]
    rfl

/-- Somebody who is in no streak has not played. -/
theorem standing_eq_zero_iff : standing ms p = ⟨0, 0⟩ ↔ Schedule.roles p ms = [] := by
  constructor
  · intro hzero
    by_contra hne
    have hlast : Schedule.lastRole p ms = some ((Schedule.roles p ms).getLast hne) :=
      List.getLast?_eq_some_getLast hne
    have hpos := Streak.running_pos_iff.mpr hlast
    obtain ⟨hhome, hguest⟩ := Form.mk.inj hzero
    cases hr : (Schedule.roles p ms).getLast hne <;> rw [hr] at hpos <;> omega
  · intro hnil
    rw [standing, Streak.running, Streak.running, hnil]
    rfl

/-- **What is known of the form of a player.**  If nobody plays against himself, the form of a known
player is read off as the streaks in which he stands if he plays in the last match, and as no streak
at all otherwise.  So it is right just for him and for those who have not played. -/
theorem formOf_last_match (hself : ∀ m ∈ ms, equals m.home m.guest = false) (hkey : p.isKey = true)
    (hknown : ps.contains p = true) :
    formOf ps ms p
        = .ok (if ms.getLast?.any (Match.hasPlayer p) then standing ms p else ⟨0, 0⟩) ∧
      (formOf ps ms p = .ok (standing ms p) ↔
        ms.getLast?.any (Match.hasPlayer p) = true ∨ Schedule.roles p ms = []) := by
  rw [formOf_eq hkey hknown, form_eq hself]
  refine ⟨rfl, ?_⟩
  cases ms.getLast?.any (Match.hasPlayer p) with
  | true => exact ⟨fun _ => Or.inl rfl, fun _ => rfl⟩
  | false =>
    rw [if_neg Bool.false_ne_true, or_iff_right Bool.false_ne_true, ← standing_eq_zero_iff]
    exact ⟨fun h => (Except.ok.inj h).symm, fun h => congrArg Except.ok h.symm⟩

/-- Player 4 plays in the last match, for the second time in a row as guest. -/
theorem formOf_last_match_four :
    formOf [.int 1, .int 2, .int 3, .int 4]
      [⟨.int 1, .int 3, .int 4⟩, ⟨.int 1, .int 1, .int 2⟩, ⟨.int 2, .int 1, .int 4⟩] (.int 4)
      = .ok ⟨0, 2⟩ :=
  (formOf_last_match (by decide) rfl (by decide)).1

/-- **A streak is forgotten.**  Player 3 has been at home in the last match of his own, which is not
the last one.  By the streaks in which he and player 4 stand, who has not played, their match would
be swapped.  But he counts as being in no streak, and they play as it was given. -/
theorem form_forgets_streak :
    standing [⟨.int 1, .int 3, .int 1⟩, ⟨.int 2, .int 2, .int 1⟩] (.int 3) = ⟨1, 0⟩ ∧
      formOf [.int 1, .int 2, .int 3, .int 4]
        [⟨.int 1, .int 3, .int 1⟩, ⟨.int 2, .int 2, .int 1⟩] (.int 3) = .ok ⟨0, 0⟩ ∧
      (∀ repeated, wantsSwap
        (standing [⟨.int 1, .int 3, .int 1⟩, ⟨.int 2, .int 2, .int 1⟩] (.int 3))
        (standing [⟨.int 1, .int 3, .int 1⟩, ⟨.int 2, .int 2, .int 1⟩] (.int 4)) repeated
          = .ok true) ∧
      (sequence (create [.int 1, .int 2, .int 3, .int 4] (.ofFixtures [⟨.int 1, .int 3, .int 1⟩,
          ⟨.int 2, .int 2, .int 1⟩, ⟨.int 3, .int 3, .int 4⟩]) false true)).1.result
        = .ok [⟨.int 1, .int 3, .int 1⟩, ⟨.int 2, .int 2, .int 1⟩, ⟨.int 3, .int 3, .int 4⟩] :=
  ⟨by decide, rfl, fun _ => rfl, rfl⟩

/-! ## 3. Decisions -/

/-- A player's form is what is read off the matches. -/
theorem form_of_formOf {p : Value} {f : Form} (h : formOf ps ms p = .ok f) : f = form ms p := by
  unfold formOf at h
  cases hkey : p.asKey with
  | error e =>
    rw [hkey] at h
    cases h
  | ok _ =>
    rw [hkey] at h
    split at h
    · exact (Except.ok.inj h).symm
    · cases h

/-- **What it takes to ask for a swap**: a streak at home of the one at home, a streak as guest of
the guest, or the last resort. -/
theorem of_wantsSwap {home guest : Form} {repeated : Except Fault Bool}
    (h : wantsSwap home guest repeated = .ok true) :
    0 < home.home ∨ 0 < guest.guest ∨ repeated = .ok true := by
  unfold wantsSwap at h
  split at h
  · rename_i htwo
    rcases Bool.or_eq_true_iff.mp htwo with htwo | htwo
    · exact Or.inl (Nat.lt_of_lt_of_le Nat.zero_lt_two (of_decide_eq_true htwo))
    · exact Or.inr (Or.inl (Nat.lt_of_lt_of_le Nat.zero_lt_two (of_decide_eq_true htwo)))
  split at h
  · rename_i hlt
    exact Or.inl (Nat.zero_lt_of_lt hlt)
  split at h
  · cases h
  split at h
  · exact Or.inr (Or.inr h)
  · cases h

/-- The last resort is a match of the turn placed last, in which one of the players has the same
role. -/
theorem of_repeatsRole {placed : List Value} {ns : List Fixture}
    (h : repeatsRole placed ns m = .ok true) :
    ∃ last, placed.getLast? = some last ∧
      ∃ r, ∃ n ∈ Schedule.ofTurn ns last, equals (n.player r) (m.player r) = true := by
  unfold repeatsRole at h
  split at h
  · cases h
  · rename_i last hlast
    refine ⟨last, hlast, ?_⟩
    rcases Bool.or_eq_true_iff.mp (Except.ok.inj h) with hany | hany
    · exact ⟨.home, List.any_eq_true.mp hany⟩
    · exact ⟨.guest, List.any_eq_true.mp hany⟩

/-- A match is swapped because of the form of its players, or in the last resort. -/
theorem of_decides {ns : List Fixture} (h : s.decides ns m = .ok true) :
    (∃ r, 0 < Streak.current r (m.player r) s.result) ∨ repeatsRole s.placed ns m = .ok true := by
  unfold decides at h
  cases hhome : formOf s.participants s.result m.home with
  | error e =>
    rw [hhome] at h
    cases h
  | ok home =>
    cases hguest : formOf s.participants s.result m.guest with
    | error e =>
      rw [hhome, hguest] at h
      cases h
    | ok guest =>
      rw [hhome, hguest] at h
      rw [form_of_formOf hhome, form_of_formOf hguest] at h
      rcases of_wantsSwap h with hpos | hpos | hrepeats
      · exact Or.inl ⟨.home, hpos⟩
      · exact Or.inl ⟨.guest, hpos⟩
      · exact Or.inr hrepeats

end Sequencer
end Matchday
