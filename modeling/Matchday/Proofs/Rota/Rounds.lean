/-
# Rounds that keep duties even

In a single round of four or more participants every turn has two matches at least.  Nobody plays
twice in a turn, so whoever plays three matches in a row plays them in three turns, and the middle
match is the only one of its turn.  That cannot be (`IsSingleRound.lately_le_two`).  As every two
participants meet once, a single round keeps to what the levels of duties require
(`IsSingleRound.admits`), and with seven or more participants its duties stay even
(`staysEven_of_seven`).
-/
import Mathlib.Data.List.Infix
import Matchday.Proofs.Rota.Levels

namespace Matchday

/-! ## 1. Three matches in a row -/

section Lately

variable {τ : Type} {x : Value} {ms : List (Match τ Value)}

/-- Whoever has had matches in a row has had the last one. -/
theorem Schedule.exists_of_lately {k : Nat} (h : k + 1 ≤ Schedule.lately x ms) :
    ∃ pre m, ms = pre ++ [m] ∧ m.involves x = true ∧ k ≤ Schedule.lately x pre := by
  rcases List.eq_nil_or_concat' ms with rfl | ⟨pre, m, rfl⟩
  · cases h
  · rw [lately_concat] at h
    split at h
    · rename_i hm
      exact ⟨pre, m, rfl, hm, Nat.le_of_succ_le_succ h⟩
    · cases h

/-- Whoever has had three matches in a row has had the last three. -/
theorem Schedule.exists_of_three_le_lately (h : 3 ≤ Schedule.lately x ms) :
    ∃ pre a b c, ms = pre ++ [a, b, c] ∧
      a.involves x = true ∧ b.involves x = true ∧ c.involves x = true := by
  obtain ⟨pre, c, rfl, hc, h⟩ := Schedule.exists_of_lately h
  obtain ⟨pre, b, rfl, hb, h⟩ := Schedule.exists_of_lately h
  obtain ⟨pre, a, rfl, ha, -⟩ := Schedule.exists_of_lately h
  exact ⟨pre, a, b, c, by simp, ha, hb, hc⟩

end Lately

section Rounds

variable {ps : List Value} {first : Nat} {ms pre post : List (Match Nat Value)}

/-- With four or more participants a turn has two matches at least. -/
theorem IsSingleRound.two_le_ofTurn (h : IsSingleRound ps first ms) (hd : AllDifferent ps)
    (h4 : 4 ≤ ps.length) {m : Match Nat Value} (hm : m ∈ ms) :
    2 ≤ (Schedule.ofTurn ms m.turn).length := by
  have hall := h.round.countP_rests_add hd m.turn
  have hturn := List.mem_range'_1.mpr (h.turn_range m hm)
  rcases Nat.mod_two_eq_zero_or_one ps.length with heven | hodd
  · have hnone : ps.countP (Schedule.rests ms m.turn) = 0 :=
      List.countP_eq_zero.mpr fun p hp => by simp [h.nobody_rests hd heven hturn hp]
    omega
  · have := h.one_rests hd hodd hturn
    omega

/-- A match whose neighbours are in other turns is the only one of its turn. -/
theorem ofTurn_of_alone {a b c : Match Nat Value}
    (hasc : ((pre ++ a :: b :: c :: post).map (·.turn)).Pairwise (· ≤ ·))
    (hab : a.turn ≠ b.turn) (hbc : b.turn ≠ c.turn) :
    Schedule.ofTurn (pre ++ a :: b :: c :: post) b.turn = [b] := by
  rw [List.pairwise_map, List.pairwise_append] at hasc
  obtain ⟨-, hrest, hpre⟩ := hasc
  obtain ⟨ha, hrest⟩ := List.pairwise_cons.mp hrest
  obtain ⟨hb, hrest⟩ := List.pairwise_cons.mp hrest
  have hlt : a.turn < b.turn := by
    have := ha b List.mem_cons_self
    omega
  have hgt : b.turn < c.turn := by
    have := hb c List.mem_cons_self
    omega
  have hbefore : pre.filter (·.turn == b.turn) = [] := by
    refine List.filter_eq_nil_iff.mpr fun m hm => ?_
    have := hpre m hm a List.mem_cons_self
    rw [beq_iff_eq]
    omega
  have hafter : post.filter (·.turn == b.turn) = [] := by
    refine List.filter_eq_nil_iff.mpr fun m hm => ?_
    have := (List.pairwise_cons.mp hrest).1 m hm
    rw [beq_iff_eq]
    omega
  have hitself : (b :: c :: post).filter (·.turn == b.turn) = [b] := by
    rw [List.filter_cons_of_pos (by simp), List.filter_cons_of_neg (by simpa using hbc.symm),
      hafter]
  rw [Schedule.ofTurn_eq_filter (equals_nat_self _), List.filter_append, hbefore,
    List.filter_cons_of_neg (by simpa using hab), hitself]
  rfl

/-- Two matches of a player are in different turns. -/
theorem IsRound.turn_ne_of_involves (h : IsRound ps ms) {x : Value} (hx : x ∈ ps)
    {a b : Match Nat Value} (hsub : [a, b].Sublist ms) (ha : a.involves x = true)
    (hb : b.involves x = true) : a.turn ≠ b.turn := by
  intro hab
  have hturn : [a, b].Sublist (Schedule.ofTurn ms a.turn) := by
    have hboth : [a, b].filter (·.turn == a.turn) = [a, b] := by simp [hab]
    rw [← hboth, Schedule.ofTurn_eq_filter (equals_nat_self _)]
    exact hsub.filter _
  have hle := (hturn.countP_le (p := Match.involves x)).trans (h.once_a_turn a.turn x hx)
  simp [ha, hb] at hle

/-- **Nobody plays three matches in a row**, at no time of a single round. -/
theorem IsSingleRound.lately_le_two (h : IsSingleRound ps first ms) (hd : AllDifferent ps)
    (h4 : 4 ≤ ps.length) (hpre : pre <+: ms) {x : Value} (hx : x ∈ ps) :
    Schedule.lately x pre ≤ 2 := by
  by_contra hmany
  obtain ⟨pre, a, b, c, rfl, ha, hb, hc⟩ :=
    Schedule.exists_of_three_le_lately (Nat.lt_of_not_le hmany)
  obtain ⟨post, rfl⟩ := hpre
  rw [List.append_assoc] at h
  have h : IsSingleRound ps first (pre ++ a :: b :: c :: post) := h
  have hab := h.round.turn_ne_of_involves hx (a := a) (b := b) (by simp) ha hb
  have hbc := h.round.turn_ne_of_involves hx (a := b) (b := c) (by simp) hb hc
  have hone := ofTurn_of_alone h.inOrder.ascending hab hbc
  have htwo := h.two_le_ofTurn hd h4 (m := b) (by simp)
  rw [hone] at htwo
  exact Nat.not_succ_le_self 1 htwo

/-- Whoever meets in the next match of a round has not met before. -/
theorem IsRound.isBetween_eq_false (h : IsRound ps ms) {m n : Match Nat Value}
    (hpre : pre ++ [m] <+: ms) (hn : n ∈ pre) : n.isBetween m.home m.guest = false := by
  obtain ⟨post, rfl⟩ := hpre
  have hm : m ∈ pre ++ [m] ++ post := by simp
  have honce := h.meet_once _ (h.home_mem m hm) _ (h.guest_mem m hm) (h.not_self m hm)
  have hself : m.isBetween m.home m.guest = true := by simp [Match.isBetween]
  rw [List.countP_append, List.countP_append, List.countP_singleton, if_pos hself] at honce
  have hnone : pre.countP (Match.isBetween m.home m.guest) = 0 := by omega
  exact Bool.eq_false_iff.mpr (List.countP_eq_zero.mp hnone n hn)

/-- **A single round keeps to what the levels of duties require.** -/
theorem IsSingleRound.admits (h : IsSingleRound ps first ms) (hd : AllDifferent ps)
    (h4 : 4 ≤ ps.length) {m : Match Nat Value} (hpre : pre ++ [m] <+: ms) :
    Rota.Admits ps pre m where
  home_mem := h.round.home_mem m (hpre.subset (by simp))
  guest_mem := h.round.guest_mem m (hpre.subset (by simp))
  new := fun _ hn => h.round.isBetween_eq_false hpre hn
  lately_le := fun _ hx => h.lately_le_two hd h4 ((List.prefix_append pre [m]).trans hpre) hx
  lately_next := fun _ hx => h.lately_le_two hd h4 hpre hx

end Rounds

/-! ## 2. Even duties -/

namespace Rota

/-- **Even at all times**: however many of the duties have been done, nobody has done more than two
more than anybody else. -/
def StaysEven (refs vs : List Value) : Prop :=
  ∀ us ∈ vs.inits, ∀ a ∈ refs, ∀ b ∈ refs, us.count a ≤ us.count b + 2

instance (refs vs : List Value) : Decidable (StaysEven refs vs) :=
  inferInstanceAs (Decidable (∀ us ∈ vs.inits, ∀ a ∈ refs, ∀ b ∈ refs, _))

theorem StaysEven.take {refs vs : List Value} (h : StaysEven refs vs) (k : Nat) {a b : Value}
    (ha : a ∈ refs) (hb : b ∈ refs) : (vs.take k).count a ≤ (vs.take k).count b + 2 :=
  h _ ((List.mem_inits _ _).mpr (List.take_prefix k vs)) a ha b hb

/-- **Duties of seven or more participants stay even** throughout a single round. -/
theorem staysEven_of_seven {ps vs : List Value} {first : Nat} {ms : List (Match Nat Value)}
    (h : IsSingleRound ps first ms) (hd : AllDifferent ps) (h7 : 7 ≤ ps.length)
    (hvs : duties ps [] ms = some vs) : StaysEven ps vs := by
  intro us hus a ha b hb
  have hus := List.prefix_iff_eq_take.mp ((List.mem_inits _ _).mp hus)
  have hpart : duties ps [] (ms.take us.length) = some us := by
    rw [duties_take hvs, ← hus]
  refine count_le_of_duties hd h7 (fun pre m hpre => ?_) hpart ha hb
  exact h.admits hd (by omega) (hpre.trans (List.take_prefix _ ms))

end Rota
end Matchday
